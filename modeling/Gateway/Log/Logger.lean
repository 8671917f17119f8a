import Gateway.Log.Event

/-!
# The logger

A logger turns events into records.  Its settings decide which categories and levels are recorded, and what a
record shows of arguments and results.  A break of the pipeline itself and a body that cannot be read are
always recorded.
-/

namespace Gateway

/-- A record of the log. -/
structure LogRecord where
  level : LogLevel
  message : String
  annotations : Entries LogValue
  deriving Repr

/-- The settings of a logger. -/
structure Logger where
  level : LogLevel
  includePayload : Bool
  includeOutput : Bool
  redaction : Redaction
  /-- The names of the only categories to record; none for all. -/
  enabledCategories : List String
  /-- The names of the categories not to record. -/
  disabledCategories : List String
  deriving DecidableEq, Repr

namespace Logger

/-- The settings that hold unless others are given. -/
def standard : Logger :=
  { level := .info
    includePayload := true
    includeOutput := false
    redaction :=
      { fields := ["password", "token", "secret", "apiKey", "authorization", "cookie", "sessionId"]
        maxDepth := 3
        maxStringLength := 200 }
    enabledCategories := []
    disabledCategories := [] }

/-- Settings for development: everything is recorded. -/
def development : Logger :=
  { standard with level := .debug, includePayload := true, includeOutput := true }

/-- Settings for production: no arguments or results, and neither routing nor origins. -/
def production : Logger :=
  { standard with includePayload := false, includeOutput := false, disabledCategories := ["routing", "cors"] }

/-- Settings that record no event. -/
def silent : Logger :=
  { standard with level := .none }

/-- The settings that go by a name. -/
def named? (name : String) : Option Logger :=
  [("live", standard), ("default", standard), ("dev", development), ("prod", production), ("silent", silent)].lookup
    name

/-- Whether events of a category are recorded. -/
def records (l : Logger) (category : LogCategory) : Bool :=
  !l.disabledCategories.contains category.name &&
    (l.enabledCategories.isEmpty || l.enabledCategories.contains category.name)

/-- What the record of an incident shows beside its category, its kind and its request. -/
def details (l : Logger) : Incident → Entries LogValue
  | .requestStart method path => [("method", .ofText method), ("path", .ofText path)]
  | .requestSuccess method path status duration | .requestFailure method path status duration =>
    [("method", .ofText method), ("path", .ofText path), ("status", .number status),
      ("durationMs", .number duration)]
  | .routeResolved procedure routed => [("procedure", .ofText procedure), ("routed", .bool routed)]
  | .procedureCall procedure args =>
    ("procedure", .ofText procedure) ::
      (if l.includePayload then [("args", l.redaction.redact args)] else [])
  | .declaredError procedure error =>
    [("procedure", .ofText procedure), ("error", l.redaction.redact error)]
  | .returnTypeMismatch procedure returnType output =>
    ("procedure", .ofText procedure) :: ("returnType", .ofText returnType) ::
      (if l.includeOutput then [("output", l.redaction.redact output)] else [])
  | .handlerDefect procedure cause => [("procedure", .ofText procedure), ("cause", .ofText cause)]
  | .originRejected origin => [("origin", .ofText origin)]

/-- The annotations of an event. -/
def annotations (l : Logger) (e : Event) : Entries LogValue :=
  [("category", .ofText e.incident.category.name), ("eventType", .ofText e.incident.name),
    ("requestId", .ofText e.requestId)] ++ l.details e.incident

/-- The record of an event, if the settings ask for one. -/
def record? (l : Logger) (e : Event) : Option LogRecord :=
  if l.records e.incident.category && e.incident.level.passes l.level then
    some ⟨e.incident.level, e.incident.message, l.annotations e⟩
  else none

end Logger

/-- What a request leaves behind for the log. -/
inductive LogEntry where
  | event (e : Event)
  /-- The pipeline itself broke. -/
  | breakdown
  /-- The reading of a body ended with an error. -/
  | readFailure

namespace LogEntry

/-- The record of a broken pipeline. -/
def breakdownRecord : LogRecord :=
  ⟨.error, "Unexpected failure while handling a request", []⟩

/-- The record of a body that was not read. -/
def readFailureRecord : LogRecord :=
  ⟨.debug, "Fiber terminated with an unhandled error", []⟩

/-- The record of an entry, if there is one. -/
def record? (l : Logger) : LogEntry → Option LogRecord
  | .event e => l.record? e
  | .breakdown => some breakdownRecord
  | .readFailure => some readFailureRecord

/-- What is logged at the end of a request. -/
def closing (method path : String) (status duration : Number) : Incident :=
  if (400 : Number).atMost status then .requestFailure method path status duration
  else .requestSuccess method path status duration

/-- The entries of a request under an id, from its start to its end.  Its outcome is a status and a duration; a
request without one has no end. -/
def ofRequest (requestId method path : String) (inner : List LogEntry)
    (outcome : Option (Number × Number)) : List LogEntry :=
  [.event ⟨requestId, .requestStart method path⟩] ++ inner ++
    (match outcome with
      | some (status, duration) => [.event ⟨requestId, closing method path status duration⟩]
      | none => [])

/-- The records of entries that pass a least level. -/
def records (l : Logger) (least : LogLevel) (entries : List LogEntry) : List LogRecord :=
  (entries.filterMap (record? l)).filter fun r => r.level.passes least

end LogEntry

end Gateway

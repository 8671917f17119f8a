import Gateway.Proofs.AnnouncedMethods
import Gateway.Proofs.TwinEndpoints

/-!
# The trace of a request

What a request leaves in the log of a logger that leaves nothing out: its start, a refused origin, how far it came, and
its end.  Every record names its request and the kind of event and shows what the event tells (`LogRecord.TellsOf`).
-/

namespace Gateway

/-! ## What a logger records -/

theorem Incident.level_passes (i : Incident) {least : LogLevel} (h : LogLevel.debug.passes least = true) :
    i.level.passes least = true := by
  have hrank : LogLevel.debug.rank ≤ i.level.rank := by
    cases i with
    | requestFailure method path status duration =>
      simp only [level]
      split <;> decide
    | _ => simp [level, LogLevel.rank]
  rw [LogLevel.passes, decide_eq_true_eq] at h ⊢
  exact Nat.le_trans h hrank

namespace Logger

/-- The record of what happened to a request. -/
def recordOf (l : Logger) (requestId : String) (i : Incident) : LogRecord :=
  ⟨i.level, i.message, l.annotations ⟨requestId, i⟩⟩

/-- Whether a logger leaves nothing out: it records every category, and every level from debugging on. -/
structure RecordsAll (l : Logger) : Prop where
  categories : ∀ c, l.records c = true
  level : LogLevel.debug.passes l.level = true

theorem RecordsAll.record? {l : Logger} (h : l.RecordsAll) (requestId : String) (i : Incident) :
    l.record? ⟨requestId, i⟩ = some (l.recordOf requestId i) := by
  rw [Logger.record?, h.categories, i.level_passes h.level, Bool.and_self, if_pos rfl]
  rfl

end Logger

/-- The kind of event that a record of an incident names, and what it shows of it whatever the settings are. -/
def Incident.told : Incident → String × Entries LogValue
  | .requestStart method path => ("RequestStart", [("method", .ofText method), ("path", .ofText path)])
  | .requestSuccess method path status duration =>
    ("RequestSuccess", [("method", .ofText method), ("path", .ofText path), ("status", .number status),
      ("durationMs", .number duration)])
  | .requestFailure method path status duration =>
    ("RequestFailure", [("method", .ofText method), ("path", .ofText path), ("status", .number status),
      ("durationMs", .number duration)])
  | .routeResolved procedure routed => ("RouteResolved", [("procedure", .ofText procedure), ("routed", .bool routed)])
  | .procedureCall procedure _ => ("ProcedureCall", [("procedure", .ofText procedure)])
  | .declaredError procedure _ => ("DeclaredError", [("procedure", .ofText procedure)])
  | .returnTypeMismatch procedure returnType _ =>
    ("ReturnTypeMismatch", [("procedure", .ofText procedure), ("returnType", .ofText returnType)])
  | .handlerDefect procedure cause => ("HandlerDefect", [("procedure", .ofText procedure), ("cause", .ofText cause)])
  | .originRejected origin => ("OriginRejected", [("origin", .ofText origin)])

/-- A record tells of an incident of a request: it names the request and the kind of event, and shows what is told. -/
structure LogRecord.TellsOf (requestId : String) (i : Incident) (r : LogRecord) : Prop where
  level : r.level = i.level
  message : r.message = i.message
  request : Entries.get? r.annotations "requestId" = some (.ofText requestId)
  kind : Entries.get? r.annotations "eventType" = some (.ofText i.told.1)
  shown : ∀ field ∈ i.told.2, Entries.get? r.annotations field.1 = some field.2

theorem Logger.tellsOf_recordOf (l : Logger) (requestId : String) (i : Incident) :
    (l.recordOf requestId i).TellsOf requestId i := by
  constructor
  · rfl
  · rfl
  · rfl
  · cases i <;> rfl
  · cases i <;> simp [Incident.told, Logger.recordOf, Logger.annotations, Logger.details, Entries.get?_cons]

namespace LogEntry

/-- The records of events; any other record has no annotations. -/
def eventRecords (l : Logger) (least : LogLevel) (entries : List LogEntry) : List LogRecord :=
  (records l least entries).filter fun r => !r.annotations.isEmpty

theorem eventRecords_append (l : Logger) (least : LogLevel) (entries entries' : List LogEntry) :
    eventRecords l least (entries ++ entries') = eventRecords l least entries ++ eventRecords l least entries' := by
  simp [eventRecords, records]

theorem eventRecords_breakdown (l : Logger) (least : LogLevel) : eventRecords l least [.breakdown] = [] := by
  rw [eventRecords, List.filter_eq_nil_iff]
  intro r hr
  obtain rfl : r = breakdownRecord := by simpa [records, record?] using List.mem_of_mem_filter hr
  decide

/-- A logger that leaves nothing out has a record of each incident, in order. -/
theorem eventRecords_events {l : Logger} (hl : l.RecordsAll) {least : LogLevel}
    (hleast : LogLevel.debug.passes least = true) (requestId : String) (incidents : List Incident) :
    eventRecords l least (incidents.map fun i => .event ⟨requestId, i⟩) = incidents.map (l.recordOf requestId) := by
  induction incidents with
  | nil => rfl
  | cons i rest ih =>
    have hfirst : eventRecords l least [.event ⟨requestId, i⟩] = [l.recordOf requestId i] := by
      have hrecord : record? l (.event ⟨requestId, i⟩) = some (l.recordOf requestId i) := hl.record? requestId i
      simp [eventRecords, records, hrecord, i.level_passes hleast, Logger.recordOf, Logger.annotations]
    rw [List.map_cons, List.map_cons, ← List.singleton_append, eventRecords_append, hfirst, ih]
    rfl

end LogEntry

/-! ## Stages of a request -/

namespace Incident

/-- How the call of a procedure ended, if it gave no result that could be sent. -/
inductive EndsCall (procedure : String) : Incident → Prop where
  | declared (error : Value) : EndsCall procedure (.declaredError procedure error)
  | defect (cause : String) : EndsCall procedure (.handlerDefect procedure cause)
  | mismatch (returnType : String) (output : Value) :
      EndsCall procedure (.returnTypeMismatch procedure returnType output)

/-- What may happen between the start and the end of a request, in order. -/
inductive Stages : List Incident → Prop where
  | unrouted : Stages []
  | routed (name : String) (byRule : Bool) : Stages [.routeResolved name byRule]
  | called (name : String) (byRule : Bool) (procedure : String) (args : Value) (ending : Option Incident)
      (hending : ∀ i ∈ ending, i.EndsCall procedure) :
      Stages (.routeResolved name byRule :: .procedureCall procedure args :: ending.toList)

/-- Whether an incident is a fault of the server. -/
def isServerFault : Incident → Bool
  | .handlerDefect .. | .returnTypeMismatch .. => true
  | _ => false

end Incident

/-- A call leaves one incident, and another one unless it gives a result. -/
theorem Resolved.invoke_stages (defs : Definitions) (r : Resolved) (args : Value) :
    ∃ ending : Option Incident,
      (r.invoke defs args).incidents = .procedureCall r.procedure.wireName args :: ending.toList ∧
      ∀ i ∈ ending, i.EndsCall r.procedure.wireName ∧
        (i.isServerFault = true → ∃ error, (r.invoke defs args).result = .error (.refused error)) := by
  have houtcome := r.invoke_outcome defs args
  generalize r.invoke defs args = outcome at houtcome
  cases houtcome with
  | result | uncheckedResult | uncheckedError | unshownDefect => exact ⟨none, rfl, by simp⟩
  | mismatch result error hhandler hvalidate =>
    refine ⟨some _, rfl, ?_⟩
    rintro i ⟨⟩
    exact ⟨.mismatch _ _, fun _ => ⟨error, rfl⟩⟩
  | declared failure error hhandler hform =>
    refine ⟨some _, rfl, ?_⟩
    rintro i ⟨⟩
    exact ⟨.declared error, nofun⟩
  | defect failure cause hhandler hform hsummary =>
    refine ⟨some _, rfl, ?_⟩
    rintro i ⟨⟩
    exact ⟨.defect cause, fun _ => ⟨_, rfl⟩⟩

namespace Endpoint

theorem perform_stages (e : Endpoint) (request : Request) :
    Incident.Stages (e.perform (e.plan request) request).incidents := by
  have hcourse := e.perform_course request
  generalize e.perform (e.plan request) request = outcome at hcourse
  cases hcourse with
  | preflight | refused | unnamed => exact .unrouted
  | unknown | unbound => exact .routed _ _
  | invoked call name r args hname hreached hbind =>
    obtain ⟨ending, hincidents, hending⟩ := r.invoke_stages e.definitions args
    rw [hincidents]
    exact .called _ _ _ _ ending fun i hi => (hending i hi).1

/-- A call is among the incidents of a request exactly if a handler is invoked, with the arguments of the call. -/
theorem procedureCall_mem_perform_iff (e : Endpoint) (request : Request) (procedure : String) (args : Value) :
    .procedureCall procedure args ∈ (e.perform (e.plan request) request).incidents ↔
      ∃ r, e.invocation? request = some (r, args) ∧ r.procedure.wireName = procedure := by
  have hcourse := e.perform_course request
  generalize e.perform (e.plan request) request = outcome at hcourse
  cases hcourse with
  | preflight _ _ hreached | refused _ _ hreached | unnamed _ _ _ hreached | unknown _ _ _ _ _ hreached =>
    simp [invocation?, hreached]
  | unbound call name r fault hname hreached hbind =>
    simp [invocation?_of_reached hreached, hbind, Except.toOption]
  | invoked call name r bound hname hreached hbind =>
    obtain ⟨ending, hincidents, hending⟩ := r.invoke_stages e.definitions bound
    have hother : ending ≠ some (.procedureCall procedure args) := by
      intro hmem
      cases (hending _ hmem).1
    rw [hincidents, invocation?_of_reached hreached, hbind]
    simp only [List.mem_cons, reduceCtorEq, false_or, Incident.procedureCall.injEq, Option.mem_toList, hother, or_false,
      Except.toOption, Option.map_some, Option.some.injEq, Prod.mk.injEq]
    constructor
    · rintro ⟨rfl, rfl⟩
      exact ⟨r, ⟨rfl, rfl⟩, rfl⟩
    · rintro ⟨_, ⟨rfl, rfl⟩, hwire⟩
      exact ⟨hwire.symm, rfl⟩

/-- A fault of the server is refused with 500. -/
theorem refused_of_serverFault {e : Endpoint} {request : Request} {i : Incident}
    (hi : i ∈ (e.perform (e.plan request) request).incidents) (hfault : i.isServerFault = true) :
    ∃ error, (e.perform (e.plan request) request).result = .error (.refused error) ∧ error.status = 500 := by
  have hcourse := e.perform_course request
  generalize e.perform (e.plan request) request = outcome at hcourse hi
  cases hcourse with
  | preflight | refused | unnamed => cases hi
  | unknown | unbound =>
    obtain rfl := List.mem_singleton.mp hi
    cases hfault
  | invoked call name r args hname hreached hbind =>
    obtain ⟨ending, hincidents, hending⟩ := r.invoke_stages e.definitions args
    rw [hincidents, List.mem_cons, List.mem_cons, Option.mem_toList] at hi
    rcases hi with rfl | rfl | hi
    · cases hfault
    · cases hfault
    · obtain ⟨error, hrefused⟩ := (hending i hi).2 hfault
      exact ⟨error, hrefused, r.invoke_refused e.definitions args hrefused⟩

/-- A preflight and a request that is not allowed get nowhere. -/
theorem incidents_of_unrouted {e : Endpoint} {request : Request}
    (h : request.method = "OPTIONS" ∨ (e.plan request).allowed = false) :
    (e.perform (e.plan request) request).incidents = [] := by
  rcases h with hmethod | hallowed
  · have hallowed : (e.plan request).allowed = true := by
      simp [plan, Plan.make, Plan.accepts, Plan.fallbackMethods, hmethod]
    simp [perform, hallowed, hmethod]
  · simp [perform, Plan.resolve, hallowed]

/-- What the stages of a request say about it and about its answer. -/
structure Tells (e : Endpoint) (request : Request) (response : Response) (stages : List Incident) : Prop where
  order : Incident.Stages stages
  called : ∀ procedure args, .procedureCall procedure args ∈ stages ↔
    ∃ r, e.invocation? request = some (r, args) ∧ r.procedure.wireName = procedure
  unrouted : request.method = "OPTIONS" ∨ response.status = 405 → stages = []
  faulty : ∀ i ∈ stages, i.isServerFault = true → response.status = 500

theorem perform_tells (e : Endpoint) (requestId : String) (start finish : Number) (request : Request) :
    e.Tells request (e.handle requestId start finish request).response
      (e.perform (e.plan request) request).incidents := by
  constructor
  · exact e.perform_stages request
  · exact e.procedureCall_mem_perform_iff request
  · rw [e.status_notAllowed_iff requestId start finish request]
    exact incidents_of_unrouted
  · intro i hi hfault
    obtain ⟨error, hrefused, hstatus⟩ := refused_of_serverFault hi hfault
    rw [handle_response, hrefused]
    exact (render_status (e.plan request) request error).trans hstatus

/-! ## Traces -/

/-- The trace of a request, from its start over its stages to its end.  An origin that was sent and is refused is
told first; a status from 400 on is a failure. -/
def trace (e : Endpoint) (request : Request) (stages : List Incident) (status duration : Number) : List Incident :=
  [.requestStart request.method request.path] ++
    ((request.header? "origin").toList.filter fun o => !e.cors.origins.allows o).map .originRejected ++ stages ++
    [if (400 : Number).atMost status then .requestFailure request.method request.path status duration
      else .requestSuccess request.method request.path status duration]

theorem originIncidents_plan (e : Endpoint) (request : Request) :
    originIncidents (e.plan request) =
      ((request.header? "origin").toList.filter fun o => !e.cors.origins.allows o).map .originRejected := by
  cases horigin : request.header? "origin" with
  | none => simp [originIncidents, plan, Plan.make, CorsPolicy.headersFor, horigin]
  | some o =>
    cases hallowed : e.cors.origins.allows o <;>
      simp [originIncidents, plan, Plan.make, CorsPolicy.headersFor, horigin, hallowed]

/-- A log is the trace of the request, with a note before its end if a fault stopped the request. -/
theorem handle_log (e : Endpoint) (requestId : String) (start finish : Number) (request : Request) :
    (e.handle requestId start finish request).log =
      ([Incident.requestStart request.method request.path] ++ originIncidents (e.plan request) ++
        (e.perform (e.plan request) request).incidents).map (fun i => .event ⟨requestId, i⟩) ++
      (if (e.respond? request).result.isNone then [.breakdown] else []) ++
      [LogEntry.closing request.method request.path (e.handle requestId start finish request).response.status
        (finish.sub start)].map fun i => .event ⟨requestId, i⟩ := by
  simp [handle, LogEntry.ofRequest, innerLog, respond?]

/-- The records of the events of a request are those of its trace. -/
theorem eventRecords_handle {l : Logger} (hl : l.RecordsAll) {least : LogLevel}
    (hleast : LogLevel.debug.passes least = true) (e : Endpoint) (requestId : String) (start finish : Number)
    (request : Request) :
    LogEntry.eventRecords l least (e.handle requestId start finish request).log =
      (e.trace request (e.perform (e.plan request) request).incidents
        (e.handle requestId start finish request).response.status (finish.sub start)).map (l.recordOf requestId) := by
  have hnote : LogEntry.eventRecords l least
      (if (e.respond? request).result.isNone then [.breakdown] else []) = [] := by
    split
    · exact LogEntry.eventRecords_breakdown l least
    · rfl
  rw [handle_log, LogEntry.eventRecords_append, LogEntry.eventRecords_append, hnote, List.append_nil,
    LogEntry.eventRecords_events hl hleast, LogEntry.eventRecords_events hl hleast, ← List.map_append, trace,
    originIncidents_plan]
  rfl

/-- The record at the end of a trace shows the status of the answer, and whether it is a failure. -/
theorem getLast?_trace (l : Logger) (e : Endpoint) (requestId : String) (request : Request) (stages : List Incident)
    (status duration : Number) :
    ∃ last, ((e.trace request stages status duration).map (l.recordOf requestId)).getLast? = some last ∧
      Entries.get? last.annotations "status" = some (.number status) ∧
      Entries.get? last.annotations "eventType" =
        some (.ofText (if (400 : Number).atMost status then "RequestFailure" else "RequestSuccess")) := by
  rw [trace, List.map_append, List.map_singleton, List.getLast?_concat]
  split
  · have htold := l.tellsOf_recordOf requestId (.requestFailure request.method request.path status duration)
    exact ⟨_, rfl, htold.shown ("status", _) (by simp [Incident.told]), htold.kind⟩
  · have htold := l.tellsOf_recordOf requestId (.requestSuccess request.method request.path status duration)
    exact ⟨_, rfl, htold.shown ("status", _) (by simp [Incident.told]), htold.kind⟩

/-- Every request leaves a trace: its start, its origin if that was sent and is refused, its stages, and its end, which
is a failure exactly from status 400 on and shows the status of the answer.  All records of it carry the id of the
request.  The handlers of the endpoint matter only if the trace tells of a call. -/
theorem request_traced {l : Logger} (hl : l.RecordsAll) {least : LogLevel}
    (hleast : LogLevel.debug.passes least = true) (e : Endpoint) (requestId : String) (start finish : Number)
    (request : Request) :
    (∃ stages, e.Tells request (e.handle requestId start finish request).response stages ∧
      List.Forall₂ (LogRecord.TellsOf requestId)
        (e.trace request stages (e.handle requestId start finish request).response.status (finish.sub start))
        (LogEntry.eventRecords l least (e.handle requestId start finish request).log)) ∧
    (∀ r ∈ LogEntry.eventRecords l least (e.handle requestId start finish request).log,
      Entries.get? r.annotations "requestId" = some (.ofText requestId)) ∧
    (∃ last, (LogEntry.eventRecords l least (e.handle requestId start finish request).log).getLast? = some last ∧
      Entries.get? last.annotations "status" =
        some (.number (e.handle requestId start finish request).response.status) ∧
      Entries.get? last.annotations "eventType" =
        some (.ofText (if (400 : Number).atMost (e.handle requestId start finish request).response.status
          then "RequestFailure" else "RequestSuccess"))) ∧
    (e.invocation? request = none → ∀ e' : Endpoint, e.Twins e' →
      e'.handle requestId start finish request = e.handle requestId start finish request) := by
  rw [eventRecords_handle hl hleast]
  refine ⟨⟨_, e.perform_tells requestId start finish request, ?_⟩, ?_, getLast?_trace l e requestId request _ _ _, ?_⟩
  · rw [List.forall₂_map_right_iff, List.forall₂_same]
    intro i _
    exact l.tellsOf_recordOf requestId i
  · intro r hr
    obtain ⟨i, -, rfl⟩ := List.mem_map.mp hr
    exact (l.tellsOf_recordOf requestId i).request
  · intro hnone e' htwins
    exact htwins.handle_eq hnone requestId start finish

theorem recordsAll_development : Logger.development.RecordsAll :=
  ⟨by intro c; cases c <;> decide, by decide⟩

theorem request_traced_quota :
    ∃ e e' : Endpoint, IsQuota (.error (.defect (.string "boom"))) e ∧ IsQuota (.ok (.number 1)) e' ∧
      Logger.development.RecordsAll ∧
      (∃ stages, e.Tells quotaRequest (e.handle "req-1" 2 5 quotaRequest).response stages ∧
        List.Forall₂ (LogRecord.TellsOf "req-1")
          (e.trace quotaRequest stages (e.handle "req-1" 2 5 quotaRequest).response.status 3)
          (LogEntry.eventRecords .development .all (e.handle "req-1" 2 5 quotaRequest).log)) ∧
      (LogEntry.eventRecords .development .all (e.handle "req-1" 2 5 quotaRequest).log).map (·.message) =
        ["→ GET /quota", "Origin not allowed: https://example.com", "Routed to quota", "Calling quota",
          "quota failed unexpectedly", "✗ GET /quota 500 (3ms)"] ∧
      (∀ r ∈ LogEntry.eventRecords .development .all (e.handle "req-1" 2 5 quotaRequest).log,
        Entries.get? r.annotations "requestId" = some (.ofText "req-1")) ∧
      (∃ last, (LogEntry.eventRecords .development .all (e.handle "req-1" 2 5 quotaRequest).log).getLast? = some last ∧
        Entries.get? last.annotations "status" = some (.number 500) ∧
        Entries.get? last.annotations "eventType" = some (.ofText "RequestFailure")) ∧
      e.invocation? (.make "PUT" "/quota" "" [] []) = none ∧
      e'.handle "req-2" 0 0 (.make "PUT" "/quota" "" [] []) = e.handle "req-2" 0 0 (.make "PUT" "/quota" "" [] []) := by
  have hready : ∃ e e' : Endpoint, IsQuota (.error (.defect (.string "boom"))) e ∧ IsQuota (.ok (.number 1)) e' ∧
      (LogEntry.eventRecords .development .all (e.handle "req-1" 2 5 quotaRequest).log).map (·.message) =
        ["→ GET /quota", "Origin not allowed: https://example.com", "Routed to quota", "Calling quota",
          "quota failed unexpectedly", "✗ GET /quota 500 (3ms)"] ∧
      (e.handle "req-1" 2 5 quotaRequest).response.status = 500 ∧
      (e.invocation? (.make "PUT" "/quota" "" [] [])).isNone = true :=
    ⟨_, _, ⟨_, _, rfl, rfl, rfl⟩, ⟨_, _, rfl, rfl, rfl⟩, by decide +kernel, by decide +kernel, by decide +kernel⟩
  obtain ⟨e, e', he, he', hmessages, hstatus, hnone⟩ := hready
  rw [Option.isNone_iff_eq_none] at hnone
  have hleast : LogLevel.debug.passes .all = true := by decide
  obtain ⟨htrace, hids, hlast, -⟩ := request_traced recordsAll_development hleast e "req-1" 2 5 quotaRequest
  have hsame := (request_traced recordsAll_development hleast e "req-2" 0 0 _).2.2.2 hnone e' (he.twins he')
  have hduration : (5 : Number).sub 2 = 3 := by decide
  have hfailure : (400 : Number).atMost 500 = true := by decide
  rw [hduration] at htrace
  rw [hstatus, if_pos hfailure] at hlast
  exact ⟨e, e', he, he', recordsAll_development, htrace, hmessages, hids, hlast, hnone, hsame⟩

end Endpoint

end Gateway

import Gateway.Value.Text

/-!
# Errors of construction

Errors that are raised while a service is put together or its server is started.  They are also built from
named fields as they come: a field that is missing reads as undefined, and a message that is given takes the
place of the one that they make.
-/

namespace Gateway

/-- The kinds of errors of construction. -/
inductive ConstructionKind where
  | template
  | service
  | listen
  deriving DecidableEq, Repr

namespace ConstructionKind

/-- The name that a kind goes by. -/
def name : ConstructionKind → String
  | .template => "TemplateError"
  | .service => "ServiceDescriptorError"
  | .listen => "ServerListenError"

/-- The kind of a name. -/
def ofName? (s : String) : Option ConstructionKind :=
  [template, service, listen].find? (·.name == s)

/-- The message of a template that is refused. -/
def templateMessage (template reason : String) : String :=
  template ++ ": " ++ reason

/-- The message of a service that is refused. -/
def serviceMessage (service reason : String) : String :=
  "[" ++ service ++ "] " ++ reason

/-- The message of a server that cannot listen. -/
def listenMessage (host port cause : String) : String :=
  "Cannot listen on " ++ host ++ ":" ++ port ++ ": " ++ cause

/-- The text of a field. -/
def fieldText (fields : Entries Value) (name : String) : Attempt String :=
  ((Entries.get? fields name).getD .undefined).text

/-- The message that a kind makes of its fields. -/
def madeMessage (kind : ConstructionKind) (fields : Entries Value) : Attempt String := do
  match kind with
  | .template => return templateMessage (← fieldText fields "template") (← fieldText fields "reason")
  | .service => return serviceMessage (← fieldText fields "service") (← fieldText fields "reason")
  | .listen =>
    let host ← fieldText fields "host"
    let port ← fieldText fields "port"
    let cause := (Entries.get? fields "cause").getD .undefined
    if cause.isNothing then throw (.noMembers "undefined" "message")
    return listenMessage host port (← (cause.member "message").text)

/-- The message of an error with these fields: the one that is given, which has to have a text, or the one that
its kind makes. -/
def message (kind : ConstructionKind) (fields : Entries Value) : Attempt Value :=
  match Entries.get? fields "message" with
  | none => (kind.madeMessage fields).map .string
  | some .undefined => .error ⟨.type, "Cannot set property message of Error which has only a getter"⟩
  | some given => given.text.map fun _ => given

/-- The status that is given among the fields, or null. -/
def givenStatus (fields : Entries Value) : Value :=
  match Entries.get? fields "httpStatus" with
  | none | some .undefined => .null
  | some status => status

/-- The names of the fields that no error shows. -/
def unshownNames : List String := ["cause", "message", "stack", "_tag", "httpStatus"]

/-- The fields that an error shows. -/
def shownFields (fields : Entries Value) : Entries Value :=
  fields.filter fun f => !unshownNames.contains f.1

end ConstructionKind

end Gateway

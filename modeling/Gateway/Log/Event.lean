import Gateway.Log.Level
import Gateway.Log.Redaction

/-!
# Log events

What happens to a request, as it is logged: its start and its end, and in between how it was routed, called and
answered.  Every event belongs to a category and has a level.
-/

namespace Gateway

/-- What happened. -/
inductive Incident where
  | requestStart (method path : String)
  | requestSuccess (method path : String) (status duration : Number)
  | requestFailure (method path : String) (status duration : Number)
  | routeResolved (procedure : String) (routed : Bool)
  | procedureCall (procedure : String) (args : Value)
  | declaredError (procedure : String) (error : Value)
  | returnTypeMismatch (procedure returnType : String) (output : Value)
  | handlerDefect (procedure cause : String)
  | originRejected (origin : String)
  deriving Repr

/-- What happened to a request. -/
structure Event where
  requestId : String
  incident : Incident
  deriving Repr

/-- The categories that can be switched on and off. -/
inductive LogCategory where
  | request
  | routing
  | procedure
  | cors
  deriving DecidableEq, Repr

/-- The name of a category. -/
def LogCategory.name : LogCategory → String
  | .request => "request"
  | .routing => "routing"
  | .procedure => "procedure"
  | .cors => "cors"

namespace Incident

/-- The name of the kind of incident. -/
def name : Incident → String
  | .requestStart .. => "RequestStart"
  | .requestSuccess .. => "RequestSuccess"
  | .requestFailure .. => "RequestFailure"
  | .routeResolved .. => "RouteResolved"
  | .procedureCall .. => "ProcedureCall"
  | .declaredError .. => "DeclaredError"
  | .returnTypeMismatch .. => "ReturnTypeMismatch"
  | .handlerDefect .. => "HandlerDefect"
  | .originRejected .. => "OriginRejected"

/-- A text among the fields of an event. -/
def textIn (fields : Entries Value) (key : String) : String :=
  match Entries.get? fields key with
  | some (.string s) => s
  | _ => ""

/-- A number among the fields of an event. -/
def numberIn (fields : Entries Value) (key : String) : Number :=
  match Entries.get? fields key with
  | some (.number n) => n
  | _ => 0

/-- A truth among the fields of an event. -/
def flagIn (fields : Entries Value) (key : String) : Bool :=
  match Entries.get? fields key with
  | some (.bool b) => b
  | _ => false

/-- The incident that some named fields describe, their `_tag` being the name of its kind. -/
def ofEntries? (fields : Entries Value) : Option Incident :=
  let text := textIn fields
  let value (key : String) := (Entries.get? fields key).getD .undefined
  match text "_tag" with
  | "RequestStart" => some (.requestStart (text "method") (text "path"))
  | "RequestSuccess" =>
    some (.requestSuccess (text "method") (text "path") (numberIn fields "status")
      (numberIn fields "durationMs"))
  | "RequestFailure" =>
    some (.requestFailure (text "method") (text "path") (numberIn fields "status")
      (numberIn fields "durationMs"))
  | "RouteResolved" => some (.routeResolved (text "procedure") (flagIn fields "routed"))
  | "ProcedureCall" => some (.procedureCall (text "procedure") (value "args"))
  | "DeclaredError" => some (.declaredError (text "procedure") (value "error"))
  | "ReturnTypeMismatch" =>
    some (.returnTypeMismatch (text "procedure") (text "returnType") (value "output"))
  | "HandlerDefect" => some (.handlerDefect (text "procedure") (text "cause"))
  | "OriginRejected" => some (.originRejected (text "origin"))
  | _ => none

/-- The category of an incident. -/
def category : Incident → LogCategory
  | .requestStart .. | .requestSuccess .. | .requestFailure .. => .request
  | .routeResolved .. => .routing
  | .procedureCall .. | .declaredError .. | .returnTypeMismatch .. | .handlerDefect .. => .procedure
  | .originRejected .. => .cors

/-- The level of an incident; a failed request is an error from status 500 on. -/
def level : Incident → LogLevel
  | .returnTypeMismatch .. | .handlerDefect .. => .error
  | .requestFailure _ _ status _ => if (500 : Number).atMost status then .error else .warning
  | .requestSuccess .. | .declaredError .. => .info
  | .requestStart .. | .routeResolved .. | .procedureCall .. | .originRejected .. => .debug

/-- The status and the duration at the end of a request. -/
def outcomeText (status duration : Number) : String :=
  status.text ++ " (" ++ duration.text ++ "ms)"

/-- The message of an incident. -/
def message : Incident → String
  | .requestStart method path => "→ " ++ method ++ " " ++ path
  | .requestSuccess method path status duration =>
    "← " ++ method ++ " " ++ path ++ " " ++ outcomeText status duration
  | .requestFailure method path status duration =>
    "✗ " ++ method ++ " " ++ path ++ " " ++ outcomeText status duration
  | .routeResolved procedure routed =>
    if routed then "Routed to " ++ procedure else "Fallback call of " ++ procedure
  | .procedureCall procedure _ => "Calling " ++ procedure
  | .declaredError procedure _ => procedure ++ " failed with a declared error"
  | .returnTypeMismatch procedure returnType _ =>
    procedure ++ " returned a value that is not a " ++ returnType
  | .handlerDefect procedure _ => procedure ++ " failed unexpectedly"
  | .originRejected origin => "Origin not allowed: " ++ origin

end Incident

end Gateway

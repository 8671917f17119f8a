import Gateway.Call.Result
import Gateway.Http.Envelope
import Gateway.Log.Event
import Gateway.Service.Handlers

/-!
# Calling a procedure

A declared error is an expected outcome and is answered with 400 and its own form.  A result that the return
type does not take is a server fault.  Anything else that a handler does is an internal error, and says nothing
about its cause.
-/

namespace Gateway

/-- A result with what happened on the way to it. -/
structure Traced (α : Type) where
  incidents : List Incident
  result : α

/-- A JSON answer as the outcome of a call. -/
def answer (status : Number) (v : Value) : Except CallFault Response :=
  match Response.json status v with
  | .ok r => .ok r
  | .error f => .error (.broken f)

/-- The outcome of a call that failed with nothing that was declared. -/
def answerDefect (p : Procedure) (failure : Failure) : Traced (Except CallFault Response) :=
  match failure.summary with
  | .ok cause => ⟨[.handlerDefect p.wireName cause], .error (.refused (.handlerDefect p.wireName))⟩
  | .error f => ⟨[], .error (.broken f)⟩

/-- The declared form of a failure, if it has one. -/
def declaredForm (defs : Definitions) (p : Procedure) (failure : Failure) : Attempt (Option Value) :=
  match failure.firstError? with
  | some error => p.declaredError defs error
  | none => .ok none

/-- The outcome of a call whose handler failed. -/
def answerFailure (defs : Definitions) (p : Procedure) (failure : Failure) :
    Traced (Except CallFault Response) :=
  match declaredForm defs p failure with
  | .ok (some error) => ⟨[.declaredError p.wireName error], answer 400 error⟩
  | .ok none => answerDefect p failure
  | .error f => ⟨[], .error (.broken f)⟩

/-- The outcome of a call whose handler gave a result. -/
def answerResult (defs : Definitions) (p : Procedure) (result : Value) :
    Traced (Except CallFault Response) :=
  match p.validateResult defs result with
  | .ok encoded => ⟨[], answer 200 encoded⟩
  | .error (.refused e) =>
    ⟨[.returnTypeMismatch p.wireName (p.returns.describe defs) result], .error (.refused e)⟩
  | .error (.broken f) => ⟨[], .error (.broken f)⟩

/-- Calls a procedure with an object of arguments. -/
def Resolved.invoke (defs : Definitions) (r : Resolved) (args : Value) :
    Traced (Except CallFault Response) :=
  let outcome :=
    match r.handler args with
    | .ok result => answerResult defs r.procedure result
    | .error failure => answerFailure defs r.procedure failure
  { outcome with incidents := .procedureCall r.procedure.wireName args :: outcome.incidents }

end Gateway

import Gateway.Error
import Gateway.Service.Procedure

/-!
# What a procedure gives back

A result has to survive being written and read with the declared return type.  Nothing (null or undefined) is a
result of an optional return type only, and is sent as null.  A failure is a declared one if one of the error
types takes it.
-/

namespace Gateway.Procedure

/-- The fault of a result that the return type does not take. -/
def fault (defs : Definitions) (p : Procedure) (returnedNothing : Bool) : GatewayError :=
  .serverFault p.wireName (p.returns.describe defs) returnedNothing

/-- The wire form of a value that can be read back. -/
def writeBack (defs : Definitions) (s : Schema) (v : Value) : Verdict Value :=
  (s.encode defs v).bind fun encoded => (s.decode defs encoded).map fun _ => encoded

/-- The wire form of a result. -/
def validateResult (defs : Definitions) (p : Procedure) (result : Value) : Except CallFault Value :=
  if result.isNothing then
    match p.returns.isOptional? defs with
    | .ok true => .ok .null
    | .ok false => .error (.refused (fault defs p true))
    | .error f => .error (.broken f)
  else
    match writeBack defs p.returns result with
    | .accepted encoded => .ok encoded
    | .refused => .error (.refused (fault defs p false))
    | .broken f => .error (.broken f)

/-- The wire form of a failure, by the first of some error types that takes it. -/
def firstAccepting (defs : Definitions) (error : Value) : List Schema → Attempt (Option Value)
  | [] => .ok none
  | s :: rest =>
    match s.accepts defs error with
    | .error f => .error f
    | .ok false => firstAccepting defs error rest
    | .ok true =>
      match s.encode defs error with
      | .accepted encoded => .ok (some encoded)
      | .refused => firstAccepting defs error rest
      | .broken f => .error f

/-- The wire form of a failure, by the first declared error type that takes it. -/
def declaredError (defs : Definitions) (p : Procedure) (error : Value) : Attempt (Option Value) :=
  firstAccepting defs error p.errors

end Gateway.Procedure

import Gateway.Call.Payload
import Gateway.Schema.Convert

/-!
# Binding arguments

Every declared parameter is read from the payload with its schema, in the order of declaration.  A value of the
body is taken as it stands.  A value of the URI is text: it is read as text first, and as JSON where the schema
does not take the text.  A list parameter takes one text as a list of one; a repeated query key is for lists
only.
-/

namespace Gateway

namespace Binding

mutual

/-- What the texts in a value say as JSON; a text that is no JSON stays. -/
def readTexts : Value → Value
  | .string s => (Json.read? s).getD (.string s)
  | .array items => .array (readItems items)
  | v => v

/-- What the texts in a list of values say as JSON. -/
def readItems : List Value → List Value
  | [] => []
  | v :: rest => readTexts v :: readItems rest

end

/-- The error of a value that a parameter does not take. -/
def invalid (defs : Definitions) (procedure : String) (p : Parameter) (received : Value) : GatewayError :=
  .invalidArgumentValue procedure p.wireName received.typeName (p.schema.describe defs) none

/-- The argument that a schema's answer gives, or else an error. -/
def settle (verdict : Verdict Value) (error : GatewayError) : Except CallFault Value :=
  match verdict with
  | .accepted v => .ok v
  | .refused => .error (.refused error)
  | .broken f => .error (.broken f)

/-- A parameter that the payload does not hold. -/
def bindAbsent (defs : Definitions) (procedure : String) (p : Parameter) : Except CallFault Value :=
  if !p.isOptional defs then .error (.refused (.requiredArgumentMissing procedure p.wireName))
  else
    settle ((p.schema.decode defs .null).orElse fun _ => p.schema.decode defs .undefined)
      (invalid defs procedure p .null)

/-- A parameter from a value of the body. -/
def bindBody (defs : Definitions) (procedure : String) (p : Parameter) (raw : Value) :
    Except CallFault Value :=
  settle (p.schema.decode defs raw) (invalid defs procedure p raw)

/-- Whether a value is a list. -/
def isList : Value → Bool
  | .array _ => true
  | _ => false

/-- A parameter from what the URI captured. -/
def bindUri (defs : Definitions) (procedure : String) (p : Parameter) (raw : Value) :
    Except CallFault Value :=
  if isList raw && !p.isList defs then .error (.refused (invalid defs procedure p raw))
  else
    let value := if p.isList defs && !isList raw then .array [raw] else raw
    settle ((p.schema.decode defs value).orElse fun _ => p.schema.decode defs (readTexts value))
      (invalid defs procedure p raw)

/-- The argument of a parameter. -/
def bindParameter (defs : Definitions) (procedure : String) (payload : Payload) (p : Parameter) :
    Except CallFault Value :=
  match Entries.get? payload.values p.wireName with
  | none => bindAbsent defs procedure p
  | some raw =>
    if payload.fromUri.contains p.wireName then bindUri defs procedure p raw
    else bindBody defs procedure p raw

/-- The arguments of a list of parameters, by name, or the first fault. -/
def bindAll (defs : Definitions) (procedure : String) (payload : Payload) :
    List Parameter → Except CallFault (List (String × Value))
  | [] => .ok []
  | p :: rest =>
    match bindParameter defs procedure payload p with
    | .error e => .error e
    | .ok v =>
      match bindAll defs procedure payload rest with
      | .error e => .error e
      | .ok args => .ok ((p.name, v) :: args)

end Binding

/-- The object of arguments that a procedure is called with. -/
def bindArguments (defs : Definitions) (p : Procedure) (payload : Payload) : Except CallFault Value :=
  match Binding.bindAll defs p.wireName payload p.parameters with
  | .error e => .error e
  | .ok args => .ok (Value.ofPairs args)

end Gateway

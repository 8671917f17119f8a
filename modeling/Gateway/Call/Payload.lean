import Gateway.Error
import Gateway.Http.Message
import Gateway.Json.Reader
import Gateway.Service.Procedure
import Gateway.Template.Match

/-!
# The raw arguments of a request

Arguments come from two places: what the URI captured, and the JSON object in the body.  They are merged under
the wire names of the parameters, and the body wins.
-/

namespace Gateway

/-- The value of a captured text or of several. -/
def Captured.value : Captured → Value
  | .one text => .string text
  | .many texts => .array (texts.map .string)

/-- Raw arguments by wire name. -/
structure Payload where
  values : Entries Value
  /-- The wire names whose value was taken from the URI. -/
  fromUri : List String
  deriving Repr

namespace Payload

/-- The JSON object in a body; an empty body is an empty object. -/
def parseBody (body : Bytes) : Except GatewayError (Entries Value) :=
  let text := Text.Utf8.decodeDocument body
  if text = "" then .ok []
  else
    match Json.read? text with
    | some (.object entries) => .ok entries
    | _ => .error (.invalidJsonBody text)

/-- What the URI captured for the declared parameters, by wire name. -/
def captured (parameters : List Parameter) (captures : Captures) : Entries Captured :=
  parameters.foldl
    (fun found p =>
      match captures.lookup (normalizeName p.wireName) with
      | some c => Entries.set found p.wireName c
      | none => found)
    []

/-- Merges what the URI captured with the entries of a body; a body key takes the place of a capture. -/
def merge (captured : Entries Captured) (body : Entries Value) : Payload :=
  { values := Entries.assign (Entries.ofPairs (captured.map fun c => (c.1, c.2.value))) body
    fromUri := captured.keys.filter fun name => !Entries.has body name }

end Payload

end Gateway

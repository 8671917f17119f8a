import Gateway.Error
import Gateway.Http.Message
import Gateway.Http.Status

/-!
# Error answers

Every error is answered by an envelope of one shape.  The messages of 404 and 405 quote the request and no
other detail; a 400 without a message has none; any other status falls back on its reason phrase.
-/

namespace Gateway

/-- The body of an error answer. -/
structure Envelope where
  tag : String
  message : Option String
  deriving DecidableEq, Repr

namespace Envelope

/-- The envelope of a status for a request, with an optional message. -/
def make (status : Number) (method path : String) (message : Option String) : Envelope :=
  { tag := Status.tag status
    message :=
      if status = 404 then some ("The requested URL " ++ path ++ " was not found on this service.")
      else if status = 405 then
        some ("The requested URL " ++ path ++ " was not allowed HTTP method " ++ method ++ ".")
      else if status = 400 then message
      else some (message.getD (Status.phrase status)) }

/-- The envelope as a JSON object. -/
def value (e : Envelope) : Value :=
  .object [("_type", .string "error"), ("_tag", .string e.tag),
    ("message", (e.message.map .string).getD .null)]

end Envelope

namespace Response

/-- The JSON text of an envelope holds strings and null only, so it can always be written. -/
def ofEnvelope (status : Number) (e : Envelope) : Response :=
  (json status e.value).toOption.getD ⟨status, jsonHeaders, []⟩

/-- The answer with an envelope. -/
def error (status : Number) (method path : String) (message : Option String) : Response :=
  ofEnvelope status (Envelope.make status method path message)

/-- The answer to a request that failed. -/
def ofError (e : GatewayError) (method path : String) : Response :=
  error e.status method path (some e.message)

end Response

end Gateway

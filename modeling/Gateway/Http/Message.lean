import Gateway.Http.Headers
import Gateway.Json.Writer
import Gateway.Text.Utf8

/-!
# Requests and responses

A request as the gateway sees it, whatever it arrived on, and the response it gives.
-/

namespace Gateway

/-- The bytes of a body. -/
abbrev Bytes := List UInt8

/-- A request. -/
structure Request where
  /-- The method in upper case. -/
  method : String
  /-- The path as sent, with its percent escapes. -/
  path : String
  /-- The query without its question mark. -/
  query : String
  /-- Headers by lower-case name, each name once. -/
  headers : Entries String
  body : Bytes
  deriving DecidableEq, Repr

namespace Request

/-- The headers by lower-case name; of two of one name the later value is kept, in the earlier place. -/
def headerMap (headers : Headers) : Entries String :=
  headers.foldl (fun es h => Entries.set es (Text.lower h.1) h.2) []

/-- The request with these parts. -/
def make (method path query : String) (headers : Headers) (body : Bytes) : Request :=
  { method := Text.upper method, path, query, headers := headerMap headers, body }

/-- The value of a header, by its lower-case name. -/
def header? (r : Request) (name : String) : Option String :=
  Entries.get? r.headers name

end Request

/-- A response. -/
structure Response where
  status : Number
  headers : Headers
  body : Bytes
  deriving DecidableEq, Repr

namespace Response

/-- The header of a JSON answer. -/
def jsonHeaders : Headers := [("Content-Type", "application/json")]

/-- A JSON answer.  A value without a text gives an empty body. -/
def json (status : Number) (v : Value) : Attempt Response :=
  (Json.write v).map fun text =>
    ⟨status, jsonHeaders, (text.map fun cs => Text.Utf8.encode (String.ofList cs)).getD []⟩

/-- The response with more headers. -/
def withHeaders (r : Response) (headers : Headers) : Response :=
  { r with headers := r.headers.merge headers }

end Response

end Gateway

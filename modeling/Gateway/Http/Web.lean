import Gateway.Http.Message
import Gateway.Http.Url
import Gateway.Text.Units

/-!
# Web requests and responses

Requests and responses as a web platform checks them: names of headers are tokens, values are trimmed and hold
no line end, methods are tokens and some are refused, and a request to read has no body.  Headers are listed in
lower case and sorted; the values of a repeated name are joined, apart from `set-cookie`.
-/

namespace Gateway

namespace WebHeaders

/-- A character of a token. -/
def isTokenChar (c : Char) : Bool :=
  c.isAlphanum || "!#$%&'*+-.^_`|~".toList.contains c

/-- Whether a text is a token. -/
def isToken (s : String) : Bool :=
  s != "" && s.toList.all isTokenChar

/-- A blank at the ends of a header value. -/
def isBlankAround (c : Char) : Bool :=
  c == ' ' || c == '\t' || c == '\n' || c == '\r'

/-- A header value without blanks at its ends. -/
def trimValue (s : String) : String :=
  String.ofList (((s.toList.dropWhile isBlankAround).reverse.dropWhile isBlankAround).reverse)

/-- Whether a trimmed text is a header value. -/
def isValue (s : String) : Bool :=
  s.toList.all fun c => c.toNat ≤ 0xFF && c.toNat != 0 && c != '\n' && c != '\r'

/-- One header in its common form, if it is one. -/
def entry? (name value : String) : Option (String × String) :=
  let value := trimValue value
  if isToken name && isValue value then some (Text.lower name, value) else none

/-- Whether a name may stand before another. -/
def namePrecedes (a b : String) : Bool :=
  !Text.unitsBefore b a

/-- What stands between the values of a repeated name. -/
def separator (name : String) : String :=
  if name = "cookie" then "; " else ", "

/-- The headers of one name. -/
def listName (headers : Headers) (name : String) : Headers :=
  let values := (headers.filter (·.1 == name)).map (·.2)
  if name = "set-cookie" then values.map fun v => (name, v)
  else [(name, (separator name).intercalate values)]

/-- The headers in the order in which they are listed. -/
def listing (headers : Headers) : Headers :=
  ((headers.map (·.1)).eraseDups.mergeSort namePrecedes).flatMap (listName headers)

/-- The listed headers of a list of names and values, if all of them are headers. -/
def ofList? (headers : Headers) : Option Headers :=
  (headers.mapM fun h => entry? h.1 h.2).map listing

end WebHeaders

/-- A web request. -/
structure WebRequest where
  method : String
  url : Url
  headers : Headers
  body : Bytes
  deriving DecidableEq, Repr

namespace WebRequest

/-- Methods that are refused. -/
def refusedMethods : List String := ["CONNECT", "TRACE", "TRACK"]

/-- Methods that are put into upper case. -/
def normalizedMethods : List String := ["DELETE", "GET", "HEAD", "OPTIONS", "POST", "PUT"]

/-- A method in its common form, if it is accepted. -/
def method? (method : String) : Option String :=
  let upper := Text.upper method
  if !WebHeaders.isToken method || refusedMethods.contains upper then none
  else if normalizedMethods.contains upper then some upper
  else some method

/-- Whether a method is for reading only, so that its request has no body. -/
def isReading (method : String) : Bool :=
  method == "GET" || method == "HEAD"

/-- The web request with these parts, if it is accepted. -/
def make? (url method : String) (headers : Headers) (body : Option Bytes) : Option WebRequest := do
  let parsed ← Url.parse? url
  if parsed.hasCredentials then none
  let method ← method? method
  let headers ← WebHeaders.ofList? headers
  if isReading method && body.isSome then none
  some ⟨method, parsed, headers, body.getD []⟩

/-- The request that a web request stands for. -/
def toRequest (r : WebRequest) : Request :=
  Request.make r.method r.url.path (r.url.query.getD "") r.headers r.body

end WebRequest

/-- Why a web response is refused. -/
inductive WebFault where
  /-- The status is out of range. -/
  | status
  /-- A header is none, or a status without content has some. -/
  | content
  deriving DecidableEq, Repr

/-- A web response. -/
structure WebResponse where
  status : Nat
  headers : Headers
  body : Bytes
  deriving DecidableEq, Repr

namespace WebResponse

/-- A number as sixteen bits: its fraction is dropped, and the remainder by 2^16 keeps its sign. -/
def narrow (n : Number) : Int :=
  Int.tmod (n.truncate?.getD 0) 65536

/-- The statuses that have no content. -/
def emptyStatuses : List Int := [204, 205, 304]

/-- The web response with these parts, if its status may have content. -/
def withStatus (status : Int) (headers : Headers) (body : Bytes) : Except WebFault WebResponse :=
  if status < 200 ∨ 599 < status then .error .status
  else if emptyStatuses.contains status then .error .content
  else .ok ⟨status.toNat, headers, body⟩

/-- The web response of a response, whose headers are looked at before its status. -/
def ofResponse (r : Response) : Except WebFault WebResponse :=
  match WebHeaders.ofList? r.headers with
  | none => .error .content
  | some headers => withStatus (narrow r.status) headers r.body

/-- Whether a header is made of single bytes. -/
def isByteHeader (h : String × String) : Bool :=
  (h.1.toList ++ h.2.toList).all fun c => c.toNat ≤ 0xFF

/-- The web response that is made of all parts at once: its status is looked at before its headers, provided that
these are made of single bytes. -/
def ofParts (r : Response) : Except WebFault WebResponse :=
  if !r.headers.all isByteHeader then .error .content
  else
    match withStatus (narrow r.status) [] r.body with
    | .error .status => .error .status
    | _ => ofResponse r

/-- The response with the listed headers of a web response. -/
def toResponse (r : WebResponse) : Response :=
  ⟨.ofInt r.status, r.headers, r.body⟩

end WebResponse

end Gateway

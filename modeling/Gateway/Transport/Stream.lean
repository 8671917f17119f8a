import Gateway.Endpoint
import Gateway.Http.Web
import Gateway.Transport.Body

/-!
# Requests from a stream

A streamed request has a head and a body in chunks; each part of the head may be missing.  It is answered by
the endpoint, or with 413 if its body is too long; that answer carries the cross-origin headers as well.  The
answer is written as a status, an object of headers and the bytes of the body.
-/

namespace Gateway

/-- The value of a header in the head of a stream. -/
inductive HeaderField where
  | absent
  | one (value : String)
  | many (values : List String)
  deriving DecidableEq, Repr

/-- A streamed request. -/
structure StreamRequest where
  method : Option String
  url : Option String
  headers : Entries HeaderField
  chunks : List Chunk
  deriving DecidableEq, Repr

namespace StreamRequest

/-- The headers that are present; several values are joined. -/
def flatHeaders (r : StreamRequest) : Headers :=
  r.headers.filterMap fun (name, field) =>
    match field with
    | .absent => none
    | .one value => some (name, value)
    | .many values => some (name, ", ".intercalate values)

/-- The method in upper case. -/
def verb (r : StreamRequest) : String :=
  Text.upper (r.method.getD "GET")

/-- The address as sent. -/
def address (r : StreamRequest) : String :=
  r.url.getD "/"

/-- The request without its body. -/
def head (r : StreamRequest) : Request :=
  let (path, query) := Text.splitFirst (· == '?') r.address.toList
  Request.make r.verb (String.ofList path) (String.ofList (query.getD [])) r.flatHeaders []

/-- Whether requests with a method have a body. -/
def hasBody (method : String) : Bool :=
  !WebRequest.isReading method

/-- The request with its body, of at most `limit` bytes. -/
def toRequest (limit : Number) (r : StreamRequest) : Except ReadFault Request :=
  if hasBody r.head.method then
    match readBody limit r.chunks with
    | .ok body => .ok { r.head with body }
    | .error fault => .error fault
  else .ok r.head

/-- The host that the head names. -/
def host (r : StreamRequest) : String :=
  match Entries.get? r.headers "host" with
  | some (.one value) => value
  | some (.many values) => ",".intercalate values
  | _ => "localhost"

/-- The web request of a streamed one, with a body of at most `limit` bytes; none if it is not accepted. -/
def toWebRequest (limit : Number) (r : StreamRequest) : Except ReadFault (Option WebRequest) :=
  let url := "http://" ++ r.host ++ r.address
  if hasBody r.verb then
    match readBody limit r.chunks with
    | .ok body => .ok (WebRequest.make? url r.verb r.flatHeaders (some body))
    | .error fault => .error fault
  else .ok (WebRequest.make? url r.verb r.flatHeaders none)

end StreamRequest

/-- A response as it is written to a stream. -/
structure SentResponse where
  status : Number
  headers : Entries String
  body : Bytes
  deriving DecidableEq, Repr

namespace SentResponse

/-- The text that an object of headers answers to a name. -/
def listed? (headers : Entries String) (name : String) : Option String :=
  match Entries.get? headers name with
  | some value => some value
  | none =>
    match Member.find name with
    | .absent => none
    | .function f _ => some (Member.sourceText f)
    | .shared => some (Value.object []).kindText

/-- Adds a header to an object of headers, after what the name already answers. -/
def addHeader (headers : Entries String) (name value : String) : Entries String :=
  Entries.store headers name
    (match listed? headers name with
      | some existing => existing ++ ", " ++ value
      | none => value)

/-- The response as it is written. -/
def ofResponse (r : Response) : SentResponse :=
  { status := r.status
    headers := Entries.arrange (r.headers.foldl (fun es h => addHeader es h.1 h.2) [])
    body := r.body }

end SentResponse

namespace Endpoint

/-- The answer to a request whose body was refused. -/
def refuseBody (e : Endpoint) (r : StreamRequest) (error : GatewayError) : Response :=
  (Response.ofError error r.head.method r.head.path).withHeaders (e.plan r.head).cors.headers

/-- What a streamed request gets written, or why its stream failed; and what it leaves for the log. -/
structure Streamed where
  written : Attempt SentResponse
  log : List LogEntry

/-- Handles a streamed request. -/
def handleStream (e : Endpoint) (requestId : String) (start finish : Number) (r : StreamRequest) : Streamed :=
  match r.toRequest e.maxBodySize with
  | .ok request =>
    let handled := e.handle requestId start finish request
    ⟨.ok (SentResponse.ofResponse handled.response), handled.log⟩
  | .error (.refused error) => ⟨.ok (SentResponse.ofResponse (e.refuseBody r error)), [.readFailure]⟩
  | .error (.failed fault) => ⟨.error fault, [.readFailure]⟩

/-- The web response to a web request. -/
def fetch (e : Endpoint) (requestId : String) (start finish : Number) (r : WebRequest) :
    Except WebFault WebResponse :=
  WebResponse.ofResponse (e.handle requestId start finish r.toRequest).response

end Endpoint

end Gateway

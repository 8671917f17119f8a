import Gateway.Call.Binding
import Gateway.Call.Invocation
import Gateway.Dispatch
import Gateway.Log.Logger
import Gateway.Number.Arithmetic

/-!
# The endpoint

An endpoint answers every request: it plans it, binds its arguments, calls the procedure and writes the outcome.
Errors become error answers; the cross-origin headers go on all of them.  If a fault stops the pipeline, the
request is answered with a bare 500.
-/

namespace Gateway

/-- The greatest body that is read unless another limit is given, in bytes. -/
def defaultMaxBodySize : Int := 1048576

/-- The settings of an endpoint. -/
structure EndpointOptions where
  allowedOrigins : List String
  allowedHeaders : List String
  maxBodySize : Number
  deriving DecidableEq, Repr

/-- Settings that allow no origin and no header. -/
def EndpointOptions.standard : EndpointOptions := ⟨[], [], .ofInt defaultMaxBodySize⟩

/-- A service that is ready to answer requests. -/
structure Endpoint where
  implementation : Implementation
  routes : RouteTable
  cors : CorsPolicy
  maxBodySize : Number

namespace Endpoint

/-- The endpoint of an implementation; a malformed template refuses it. -/
def create (implementation : Implementation) (options : EndpointOptions) : Except TemplateError Endpoint :=
  match RouteTable.ofService implementation.service with
  | .error e => .error e
  | .ok routes =>
    .ok
      { implementation
        routes
        cors := CorsPolicy.make options.allowedOrigins options.allowedHeaders
        maxBodySize := options.maxBodySize }

/-- How a request will be dispatched. -/
def plan (e : Endpoint) (request : Request) : Plan :=
  Plan.make e.routes e.cors request

/-- The outcome of a call to a procedure with raw arguments. -/
def callProcedure (e : Endpoint) (name : String) (routed : Bool) (payload : Payload) :
    Traced (Except CallFault Response) :=
  match e.implementation.resolve name with
  | none => ⟨[], .error (.refused (.methodNotFound name routed))⟩
  | some resolved =>
    let defs := e.implementation.service.definitions
    match bindArguments defs resolved.procedure payload with
    | .error fault => ⟨[], .error fault⟩
    | .ok args => resolved.invoke defs args

/-- The outcome of a planned request. -/
def perform (e : Endpoint) (plan : Plan) (request : Request) : Traced (Except CallFault Response) :=
  if plan.allowed && request.method == "OPTIONS" then ⟨[], .ok .preflight⟩
  else
    match plan.resolve e.implementation.service request with
    | .error error => ⟨[], .error (.refused error)⟩
    | .ok call =>
      match call.procedure with
      | none => ⟨[], .error (.refused .missingMethodName)⟩
      | some name =>
        let outcome := e.callProcedure name call.routed call.payload
        { outcome with incidents := .routeResolved name call.routed :: outcome.incidents }

/-- The answer to an error; a refused method is told the methods that are allowed. -/
def render (plan : Plan) (request : Request) (error : GatewayError) : Response :=
  let response := Response.ofError error request.method request.path
  match error with
  | .methodNotAllowed .. => response.withHeaders [("Allow", plan.allowMethods)]
  | _ => response

/-- What a refused origin leaves for the log. -/
def originIncidents (plan : Plan) : List Incident :=
  match plan.cors.rejectedOrigin with
  | some origin => [.originRejected origin]
  | none => []

/-- Answers a request; no answer means that the pipeline broke. -/
def respond? (e : Endpoint) (request : Request) : Traced (Option Response) :=
  let plan := e.plan request
  let outcome := e.perform plan request
  { incidents := originIncidents plan ++ outcome.incidents
    result :=
      match outcome.result with
      | .ok response => some (response.withHeaders plan.cors.headers)
      | .error (.refused error) => some ((render plan request error).withHeaders plan.cors.headers)
      | .error (.broken _) => none }

/-- The answer to a request whose pipeline broke. -/
def brokenResponse (request : Request) : Response :=
  Response.error 500 request.method request.path none

/-- The answer to a request, and what it leaves for the log. -/
structure Handled where
  response : Response
  log : List LogEntry

/-- What the pipeline leaves for the log of a request. -/
def innerLog (requestId : String) (outcome : Traced (Option Response)) : List LogEntry :=
  outcome.incidents.map (fun i => .event ⟨requestId, i⟩) ++
    (if outcome.result.isNone then [.breakdown] else [])

/-- Handles a request under an id, from the times at which it starts and ends. -/
def handle (e : Endpoint) (requestId : String) (start finish : Number) (request : Request) : Handled :=
  let outcome := e.respond? request
  let response := outcome.result.getD (brokenResponse request)
  { response
    log :=
      LogEntry.ofRequest requestId request.method request.path (innerLog requestId outcome)
        (some (response.status, finish.sub start)) }

end Endpoint

end Gateway

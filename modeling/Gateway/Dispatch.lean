import Gateway.Call.Payload
import Gateway.Cors.Policy
import Gateway.Http.Form
import Gateway.Route.Table

/-!
# Dispatch

Which procedure a request is for, and which cross-origin headers its answer carries.  A request is routed if a
rule of the table selects it.  Otherwise a `POST` names its procedure in the query and has all arguments in its
body.  Any other request is refused.
-/

namespace Gateway

/-- How a request is dispatched, from its method, path, query and origin alone. -/
structure Plan where
  route : Option RouteMatch
  /-- Whether the request is accepted at all. -/
  allowed : Bool
  /-- The verbs of all rules whose template matches. -/
  allowedVerbs : List String
  /-- The methods that are announced. -/
  allowMethods : String
  cors : CorsHeaders
  deriving DecidableEq, Repr

/-- A request with its raw arguments. -/
structure Call where
  /-- The public name of the procedure, if the request names one. -/
  procedure : Option String
  routed : Bool
  payload : Payload
  deriving Repr

namespace Plan

/-- The methods of a request that no rule selects. -/
def fallbackMethods : List String := ["POST", "OPTIONS"]

/-- The methods announced for a resource with these verbs. -/
def resourceMethods (verbs : List String) : List String :=
  verbs.filter (· != "OPTIONS") ++ ["OPTIONS"]

/-- Whether a request is accepted. -/
def accepts (lookup : RouteLookup) (method : String) : Bool :=
  lookup.selected.isSome || fallbackMethods.contains method

/-- The methods announced to a request. -/
def announced (lookup : RouteLookup) (method : String) : List String :=
  if lookup.selected.isSome || (!accepts lookup method && !lookup.allowedVerbs.isEmpty) then
    resourceMethods lookup.allowedVerbs
  else fallbackMethods

/-- Plans a request. -/
def make (routes : RouteTable) (cors : CorsPolicy) (request : Request) : Plan :=
  let lookup := routes.lookup request.method request.path request.query
  let allowMethods := ", ".intercalate (announced lookup request.method)
  { route := lookup.selected
    allowed := accepts lookup request.method
    allowedVerbs := lookup.allowedVerbs
    allowMethods
    cors := cors.headersFor allowMethods (request.header? "origin") }

/-- The verbs of rules that take no arguments from the body. -/
def bodylessVerbs : List String := ["GET", "DELETE"]

/-- The procedure that a query names. -/
def namedProcedure? (query : String) : Option String :=
  (Form.first? query "method").filter (· != "")

/-- The body of a request to a rule with a verb. -/
def ruleBody (verb : String) (request : Request) : Except GatewayError (Entries Value) :=
  if bodylessVerbs.contains verb then .ok [] else Payload.parseBody request.body

/-- The declared parameters of a procedure; an unknown one has none. -/
def parametersOf (service : Service) (procedure : String) : List Parameter :=
  match service.lookup procedure with
  | some p => p.parameters
  | none => []

/-- Collects the raw arguments of a planned request. -/
def resolve (service : Service) (request : Request) (plan : Plan) : Except GatewayError Call :=
  if !plan.allowed then .error (.methodNotAllowed request.method request.path plan.allowedVerbs)
  else
    match plan.route with
    | none =>
      match Payload.parseBody request.body with
      | .error e => .error e
      | .ok body => .ok ⟨namedProcedure? request.query, false, Payload.merge [] body⟩
    | some found =>
      match ruleBody found.rule.verb request with
      | .error e => .error e
      | .ok body =>
        let captured := Payload.captured (parametersOf service found.rule.procedure) found.captures
        .ok ⟨some found.rule.procedure, true, Payload.merge captured body⟩

end Plan

/-- The answer to a preflight, before the cross-origin headers. -/
def Response.preflight : Response := ⟨200, [], []⟩

end Gateway

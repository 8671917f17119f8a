import Gateway.Proofs.Refusals
import Gateway.Proofs.RouteLookups
import Gateway.Proofs.ServiceTables
import Gateway.Proofs.TemplateCaptures

/-!
# Routed calls are complete

The checks that are made when a service, its handlers and its routes are put together leave nothing to be missed
by a request: whatever rule it selects, the procedure of the rule is there, it has a handler, and the placeholders
of the rule's template provide every required argument.  So no answer of an endpoint is a 404.
-/

namespace Gateway

namespace Endpoint

/-- The parts of an endpoint that was built from a table, handlers and settings. -/
structure Built (e : Endpoint) (service : Service) (implementation : Implementation) : Prop where
  wellFormed : service.WellFormed
  bound : ∃ handlers, Implementation.bind service handlers = .ok implementation
  implementation_eq : e.implementation = implementation
  routes_eq : RouteTable.ofService service = .ok e.routes

theorem built_of_create {name : String} {definitions : Definitions} {table : Entries Definition}
    {handlers : Entries HandlerEntry} {options : EndpointOptions} {service : Service}
    {implementation : Implementation} {e : Endpoint}
    (hbuild : Service.build name definitions table = .ok service)
    (hbind : Implementation.bind service handlers = .ok implementation)
    (hcreate : Endpoint.create implementation options = .ok e) : e.Built service implementation := by
  have hkept := (Implementation.bind_spec hbind).1
  unfold create at hcreate
  rw [hkept] at hcreate
  cases hroutes : RouteTable.ofService service with
  | error error => simp [hroutes] at hcreate
  | ok routes =>
    simp only [hroutes, Except.ok.injEq] at hcreate
    subst hcreate
    exact ⟨Service.wellFormed_of_build hbuild, ⟨handlers, hbind⟩, rfl, hroutes⟩

namespace Built

variable {e : Endpoint} {service : Service} {implementation : Implementation}

theorem service_eq (h : e.Built service implementation) : implementation.service = service := by
  obtain ⟨handlers, hbind⟩ := h.bound
  exact (Implementation.bind_spec hbind).1

/-- A selected rule leads to a procedure of the service, which has a handler and whose required parameters
are all captured. -/
theorem selected_rule (h : e.Built service implementation) {request : Request} {found : RouteMatch}
    (hroute : (e.plan request).route = some found) :
    ∃ p ∈ service.procedures, found.rule.procedure = p.wireName ∧
      (∃ handler, implementation.resolve p.wireName = some ⟨p, handler⟩) ∧
      ∀ q ∈ p.parameters, q.isOptional service.definitions = false →
        q.wireName ∈ Entries.keys (Payload.captured p.parameters found.captures) := by
  obtain ⟨hrule, -, hmatch⟩ := RouteTable.lookup_selected hroute
  obtain ⟨p, hp, hname, hprovided⟩ := RouteTable.ofService_provides h.routes_eq found.rule hrule
  obtain ⟨handlers, hbind⟩ := h.bound
  refine ⟨p, hp, hname, Implementation.resolve_of_mem hbind h.wellFormed hp, ?_⟩
  intro q hq hrequired
  rw [Payload.mem_keys_captured]
  have hcaptured := Template.captures_iff found.rule.template _ _ hmatch (normalizeName q.wireName)
  exact ⟨q, hq, rfl, hcaptured.mpr (hprovided q hq hrequired)⟩

/-- Of a procedure that a rule leads to no required argument is missing, whatever the body holds. -/
theorem not_missing (h : e.Built service implementation) {p : Procedure} (hp : p ∈ service.procedures)
    {captures : Captures}
    (hcaptured : ∀ q ∈ p.parameters, q.isOptional service.definitions = false →
      q.wireName ∈ Entries.keys (Payload.captured p.parameters captures))
    (body : Entries Value) (procedure argument : String) :
    bindArguments service.definitions p (Payload.merge (Payload.captured p.parameters captures) body) ≠
      .error (.refused (.requiredArgumentMissing procedure argument)) := by
  intro hmissing
  obtain ⟨q, hq, hfault⟩ := bindArguments_error hmissing
  rcases Binding.bindParameter_refused _ _ _ hfault with ⟨habsent, hrequired, -⟩ | ⟨received, hinvalid⟩
  · have hunreserved := (h.wellFormed.parameters p hp).ne_reservedKey hq
    -- The body may replace a captured value, but not remove it.
    obtain ⟨raw, hraw⟩ := Payload.merge_keeps_captured _ body hunreserved (hcaptured q hq hrequired)
    rw [hraw] at habsent
    cases habsent
  · cases hinvalid

/-- No request is refused with 404. -/
theorem refused_status (h : e.Built service implementation) {request : Request} {error : GatewayError}
    (hrefused : (e.perform (e.plan request) request).result = .error (.refused error)) :
    error.status ≠ 404 := by
  rw [Ne, GatewayError.status_eq_notFound_iff]
  rintro ⟨method, rfl⟩
  cases refusal_of_perform hrefused with
  | unknownRouted found hroute hunknown =>
    obtain ⟨p, hp, hrule, ⟨handler, hhandler⟩, -⟩ := h.selected_rule hroute
    rw [h.implementation_eq, hrule, hhandler] at hunknown
    cases hunknown
  | server _ hstatus => exact absurd hstatus (show (404 : Number) ≠ 500 by decide)

theorem handle_status (h : e.Built service implementation) (requestId : String) (start finish : Number)
    (request : Request) : (e.handle requestId start finish request).response.status ≠ 404 := by
  intro hstatus
  obtain ⟨error, hrefused, hfound⟩ := refused_of_status hstatus (by decide) (by decide) (by decide)
  exact h.refused_status hrefused hfound

end Built

/-- A request that selects a rule is for a procedure with a handler, and if its body can be read, no required
argument of the procedure is missing; and no answer of the endpoint is a 404. -/
theorem routed_calls_complete {name : String} {definitions : Definitions} {table : Entries Definition}
    {handlers : Entries HandlerEntry} {options : EndpointOptions} {service : Service}
    {implementation : Implementation} {e : Endpoint}
    (hbuild : Service.build name definitions table = .ok service)
    (hbind : Implementation.bind service handlers = .ok implementation)
    (hcreate : Endpoint.create implementation options = .ok e) :
    (∀ request found, (e.plan request).route = some found →
      ∃ p handler, service.lookup found.rule.procedure = some p ∧
        implementation.resolve found.rule.procedure = some ⟨p, handler⟩ ∧
        ∀ body, Plan.ruleBody found.rule.verb request = .ok body →
          ∃ payload, (e.plan request).resolve service request = .ok ⟨some p.wireName, true, payload⟩ ∧
            ∀ procedure argument, bindArguments service.definitions p payload ≠
              .error (.refused (.requiredArgumentMissing procedure argument))) ∧
    ∀ requestId start finish request,
      (e.handle requestId start finish request).response.status ≠ 404 := by
  have hbuilt := built_of_create hbuild hbind hcreate
  refine ⟨?_, hbuilt.handle_status⟩
  intro request found hroute
  obtain ⟨p, hp, hrule, ⟨handler, hhandler⟩, hcaptured⟩ := hbuilt.selected_rule hroute
  have hlookup : service.lookup found.rule.procedure = some p := by
    rw [hrule]
    exact Service.lookup_of_mem hbuilt.wellFormed hp
  refine ⟨p, handler, hlookup, by rw [hrule, hhandler], ?_⟩
  intro body hbody
  have hallowed : (e.plan request).allowed = true := by
    have hselected : (e.routes.lookup request.method request.path request.query).selected = some found := hroute
    simp [plan, Plan.make, Plan.accepts, hselected]
  refine ⟨Payload.merge (Payload.captured p.parameters found.captures) body, ?_,
    hbuilt.not_missing hp hcaptured body⟩
  simp [Plan.resolve, hallowed, hroute, hbody, Plan.parametersOf, hlookup, ← hrule]

/-- A table with one routed procedure, whose parameter is spelt with a hyphen in the template. -/
def itemTable : Entries Definition :=
  [("item", { Definition.empty with
    parameters := [⟨"itemId", "item_id", .string⟩, ⟨"page", "page", .number⟩], returns := .unknown
    resource := some ⟨"GET", "/items/\x7bitem-id\x7d?p=\x7bpage\x7d"⟩ })]

/-- A handler that gives back its arguments. -/
def echoHandlers : Entries HandlerEntry := [("item", .function fun args => .ok args)]

/-- What the only rule of `itemTable` captures from a request. -/
def itemMatch : RouteMatch :=
  ⟨⟨⟨"/items/\x7bitem-id\x7d?p=\x7bpage\x7d", ⟨"/items/", [("item-id", "")]⟩, [⟨"p", "page"⟩]⟩, "GET", "item"⟩,
    [("item_id", .one "a b"), ("page", .one "2")]⟩

theorem routed_calls_complete_item :
    ∃ (service : Service) (implementation : Implementation) (e : Endpoint),
      Service.build "s" [] itemTable = .ok service ∧
      Implementation.bind service echoHandlers = .ok implementation ∧
      Endpoint.create implementation .standard = .ok e ∧
      (e.plan (.make "GET" "/items/a%20b" "p=2" [] [])).route = some itemMatch ∧
      ∃ p handler payload, implementation.resolve itemMatch.rule.procedure = some ⟨p, handler⟩ ∧
        (e.plan (.make "GET" "/items/a%20b" "p=2" [] [])).resolve service
          (.make "GET" "/items/a%20b" "p=2" [] []) = .ok ⟨some p.wireName, true, payload⟩ ∧
        ∀ procedure argument, bindArguments service.definitions p payload ≠
          .error (.refused (.requiredArgumentMissing procedure argument)) := by
  have hready : ∃ (service : Service) (implementation : Implementation) (e : Endpoint),
      Service.build "s" [] itemTable = .ok service ∧
      Implementation.bind service echoHandlers = .ok implementation ∧
      Endpoint.create implementation .standard = .ok e ∧
      (e.plan (.make "GET" "/items/a%20b" "p=2" [] [])).route = some itemMatch :=
    ⟨_, _, _, rfl, rfl, rfl, by decide +kernel⟩
  obtain ⟨service, implementation, e, hbuild, hbind, hcreate, hroute⟩ := hready
  obtain ⟨p, handler, -, hresolve, hbody⟩ := (routed_calls_complete hbuild hbind hcreate).1 _ itemMatch hroute
  obtain ⟨payload, hcall, hbound⟩ := hbody [] rfl
  exact ⟨service, implementation, e, hbuild, hbind, hcreate, hroute, p, handler, payload, hresolve, hcall, hbound⟩

end Endpoint

end Gateway

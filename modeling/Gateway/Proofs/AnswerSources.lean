import Gateway.Proofs.RoutedCalls

/-!
# What an answer is made from

The plan of a request does not look at its body.  A request that is routed to a rule without a body is answered
whatever its body holds; a request that names its procedure is answered from its headers, its body and that name, and
its path and the rest of its query show nowhere, not even in the answer to an error (`sources_apart`).
-/

namespace Gateway

/-! ## Plans -/

namespace Plan

/-- An unrouted request has its arguments in its body and the name of its procedure in its query. -/
theorem resolve_unrouted {plan : Plan} (hallowed : plan.allowed = true) (hroute : plan.route = none)
    (service : Service) (request : Request) :
    plan.resolve service request =
      match Payload.parseBody request.body with
      | .error e => .error e
      | .ok body => .ok ⟨namedProcedure? request.query, false, Payload.merge [] body⟩ := by
  rw [resolve, hallowed, hroute]
  rfl

/-- A rule for `GET` or `DELETE` takes nothing from the body. -/
theorem resolve_bodyless {plan : Plan} {found : RouteMatch} (hroute : plan.route = some found)
    (hverb : found.rule.verb = "GET" ∨ found.rule.verb = "DELETE") (service : Service) (request : Request)
    (body : Bytes) : plan.resolve service { request with body } = plan.resolve service request := by
  have hbodyless : bodylessVerbs.contains found.rule.verb = true := by
    rcases hverb with hget | hdelete
    · rw [hget]
      decide
    · rw [hdelete]
      decide
  have hbody : ruleBody found.rule.verb { request with body } = ruleBody found.rule.verb request := by
    rw [ruleBody, ruleBody, if_pos hbodyless, if_pos hbodyless]
  rw [resolve, resolve, hroute]
  simp only [hbody]

end Plan

namespace Endpoint

/-- An unrouted `POST` is allowed, and is told the methods of unrouted requests. -/
theorem plan_post {e : Endpoint} {request : Request} (hmethod : request.method = "POST")
    (hroute : (e.plan request).route = none) :
    (e.plan request).allowed = true ∧
      (e.plan request).cors =
        e.cors.headersFor (", ".intercalate Plan.fallbackMethods) (request.header? "origin") := by
  have hselected : (e.routes.lookup request.method request.path request.query).selected = none := hroute
  have haccepts : Plan.accepts (e.routes.lookup request.method request.path request.query) request.method = true := by
    simp [Plan.accepts, hmethod, Plan.fallbackMethods]
  have hannounced : Plan.announced (e.routes.lookup request.method request.path request.query) request.method =
      Plan.fallbackMethods := by
    simp [Plan.announced, hselected, haccepts]
  exact ⟨haccepts, by rw [plan, Plan.make, hannounced]⟩

/-! ## Two runs -/

/-- After it is planned, a request matters by its method and its raw arguments only. -/
theorem perform_congr (e : Endpoint) {plan plan' : Plan} {request request' : Request}
    (hallowed : plan.allowed = plan'.allowed) (hmethod : request.method = request'.method)
    (hresolve : plan.resolve e.implementation.service request =
      plan'.resolve e.implementation.service request') :
    e.perform plan request = e.perform plan' request' := by
  rw [perform, perform, hallowed, hmethod, hresolve]

theorem invocation?_congr (e : Endpoint) {request request' : Request}
    (hallowed : (e.plan request).allowed = (e.plan request').allowed) (hmethod : request.method = request'.method)
    (hresolve : (e.plan request).resolve e.implementation.service request =
      (e.plan request').resolve e.implementation.service request') :
    e.invocation? request = e.invocation? request' := by
  rw [invocation?, invocation?, reached?, reached?, hallowed, hmethod, hresolve]

/-- Outcomes that do not quote the request are written alike under the same cross-origin headers. -/
theorem written_eq {plan plan' : Plan} {request request' : Request} {result : Except CallFault Response}
    (hcors : plan.cors = plan'.cors)
    (hquotes : ∀ error, result = .error (.refused error) → error.status ≠ 404 ∧ error.status ≠ 405) :
    written plan request result = written plan' request' result := by
  unfold written
  split
  · rw [hcors]
  · rename_i error
    obtain ⟨hfound, hallowed⟩ := hquotes error rfl
    rw [hcors, render_eq hfound hallowed plan plan' request request']
  · exact brokenResponse_eq request request'

/-- No refusal of an allowed request that is not routed quotes it. -/
theorem unquoted_of_unrouted {e : Endpoint} {request : Request} {error : GatewayError}
    (hallowed : (e.plan request).allowed = true) (hroute : (e.plan request).route = none)
    (hrefused : (e.perform (e.plan request) request).result = .error (.refused error)) :
    error.status ≠ 404 ∧ error.status ≠ 405 := by
  rw [Ne, Ne, GatewayError.status_eq_notFound_iff, GatewayError.status_eq_notAllowed_iff]
  have hrefusal := refusal_of_perform hrefused
  constructor
  · rintro ⟨method, rfl⟩
    cases hrefusal with
    | unknownRouted found hrouted hunknown =>
      rw [hrouted] at hroute
      cases hroute
    | server _ hstatus => exact absurd hstatus (show (404 : Number) ≠ 500 by decide)
  · rintro ⟨method, path, verbs, rfl⟩
    cases hrefusal with
    | notAllowed hrefuses =>
      rw [hrefuses] at hallowed
      cases hallowed
    | server _ hstatus => exact absurd hstatus (show (405 : Number) ≠ 500 by decide)

/-- What is routed to a rule for `GET` or `DELETE` is answered whatever its body holds.  What names its procedure is
answered from its headers, its body and that name, whatever its path and the rest of its query are. -/
theorem sources_apart (e : Endpoint) (requestId requestId' : String) (start start' finish finish' : Number) :
    (∀ (request : Request) (body : Bytes) (found : RouteMatch), (e.plan request).route = some found →
      found.rule.verb = "GET" ∨ found.rule.verb = "DELETE" →
      (e.handle requestId start finish { request with body }).response =
          (e.handle requestId' start' finish' request).response ∧
        e.invocation? { request with body } = e.invocation? request) ∧
    (∀ request request' : Request, request.method = "POST" → request'.method = "POST" →
      (e.plan request).route = none → (e.plan request').route = none →
      request.headers = request'.headers → request.body = request'.body →
      Plan.namedProcedure? request.query = Plan.namedProcedure? request'.query →
      (e.handle requestId start finish request).response =
          (e.handle requestId' start' finish' request').response ∧
        e.invocation? request = e.invocation? request') := by
  constructor
  · intro request body found hroute hverb
    have hplan : e.plan { request with body } = e.plan request := rfl
    have hresolve := Plan.resolve_bodyless hroute hverb e.implementation.service request body
    refine ⟨?_, e.invocation?_congr rfl rfl hresolve⟩
    have hperform : e.perform (e.plan request) { request with body } = e.perform (e.plan request) request :=
      e.perform_congr rfl rfl hresolve
    rw [handle_response, handle_response, hplan, hperform]
    rfl
  · intro request request' hmethod hmethod' hroute hroute' hheaders hbody hname
    obtain ⟨hallowed, hcors⟩ := plan_post hmethod hroute
    obtain ⟨hallowed', hcors'⟩ := plan_post hmethod' hroute'
    have hresolve : (e.plan request).resolve e.implementation.service request =
        (e.plan request').resolve e.implementation.service request' := by
      rw [Plan.resolve_unrouted hallowed hroute, Plan.resolve_unrouted hallowed' hroute', hbody, hname]
    have hsame : (e.plan request).allowed = (e.plan request').allowed := hallowed.trans hallowed'.symm
    have hposts : request.method = request'.method := hmethod.trans hmethod'.symm
    refine ⟨?_, e.invocation?_congr hsame hposts hresolve⟩
    have horigin : (e.plan request).cors = (e.plan request').cors := by
      rw [hcors, hcors', Request.header?, Request.header?, hheaders]
    -- The outcome is the same, and it is no error whose answer quotes the request.
    rw [handle_response, handle_response, ← e.perform_congr hsame hposts hresolve]
    exact written_eq horigin fun error hrefused => unquoted_of_unrouted hallowed hroute hrefused

theorem sources_apart_item :
    ∃ (service : Service) (implementation : Implementation) (e : Endpoint),
      Service.build "s" [] itemTable = .ok service ∧
      Implementation.bind service echoHandlers = .ok implementation ∧
      Endpoint.create implementation .standard = .ok e ∧
      (e.plan (.make "GET" "/items/a%20b" "p=2" [] [])).route = some itemMatch ∧
      (e.handle "req-1" 0 0 (.make "GET" "/items/a%20b" "p=2" [] [0x7B])).response =
        (e.handle "req-2" 0 0 (.make "GET" "/items/a%20b" "p=2" [] [])).response ∧
      (e.plan (.make "POST" "/nowhere" "a=1&method=item" [] [0x7B])).route = none ∧
      (e.plan (.make "POST" "/" "method=item&p=2" [] [0x7B])).route = none ∧
      (e.handle "req-3" 0 0 (.make "POST" "/nowhere" "a=1&method=item" [] [0x7B])).response =
        (e.handle "req-4" 0 0 (.make "POST" "/" "method=item&p=2" [] [0x7B])).response := by
  have hready : ∃ (service : Service) (implementation : Implementation) (e : Endpoint),
      Service.build "s" [] itemTable = .ok service ∧
      Implementation.bind service echoHandlers = .ok implementation ∧
      Endpoint.create implementation .standard = .ok e ∧
      (e.plan (.make "GET" "/items/a%20b" "p=2" [] [])).route = some itemMatch ∧
      (e.plan (.make "POST" "/nowhere" "a=1&method=item" [] [0x7B])).route = none ∧
      (e.plan (.make "POST" "/" "method=item&p=2" [] [0x7B])).route = none :=
    ⟨_, _, _, rfl, rfl, rfl, by decide +kernel, by decide +kernel, by decide +kernel⟩
  obtain ⟨service, implementation, e, hbuild, hbind, hcreate, hget, hnowhere, hroot⟩ := hready
  have hbodies := ((sources_apart e "req-1" "req-2" 0 0 0 0).1 _ [0x7B] itemMatch hget (.inl rfl)).1
  have hpaths := ((sources_apart e "req-3" "req-4" 0 0 0 0).2 _ _ rfl rfl hnowhere hroot rfl rfl
    (by decide +kernel)).1
  exact ⟨service, implementation, e, hbuild, hbind, hcreate, hget, hbodies, hnowhere, hroot, hpaths⟩

end Endpoint

end Gateway

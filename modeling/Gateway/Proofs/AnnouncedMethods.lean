import Gateway.Proofs.AnswerHeaders
import Gateway.Proofs.CommaLists
import Gateway.Proofs.RoutedCalls

/-!
# Announced and accepted methods

A request is accepted exactly if its method is among those that are announced to it (`mem_announced_iff`).  Hence a
refused method is told, in two headers of one value, methods of which it is none.  A preflight is announced the
methods that the same address accepts, `POST` apart: a `POST` is always accepted, since it may name its procedure in
the query, but it is announced only where no rule matches or where a matching rule has that verb.
-/

namespace Gateway

/-! ## Methods of a look-up -/

namespace Plan

theorem mem_resourceMethods (verbs : List String) (method : String) :
    method ∈ resourceMethods verbs ↔ method ∈ verbs ∨ method = "OPTIONS" := by
  rw [resourceMethods, List.mem_append, List.mem_singleton, List.mem_filter, bne_iff_ne]
  by_cases hoptions : method = "OPTIONS"
  · simp [hoptions]
  · simp [hoptions]

theorem mem_fallbackMethods (method : String) : method ∈ fallbackMethods ↔ method = "POST" ∨ method = "OPTIONS" := by
  simp [fallbackMethods]

/-- A request is accepted if its method is among the verbs of the resource, or if it is one of unrouted requests. -/
theorem accepts_iff {lookup : RouteLookup} {method : String} (hlinked : RouteTable.Linked method lookup) :
    accepts lookup method = true ↔ method ∈ lookup.allowedVerbs ∨ method = "POST" ∨ method = "OPTIONS" := by
  unfold RouteTable.Linked at hlinked
  rw [accepts, Bool.or_eq_true, List.contains_iff_mem, mem_fallbackMethods, hlinked]
  constructor
  · rintro ((hverb | ⟨hoptions, -⟩) | hfallback)
    · exact .inl hverb
    · exact .inr (.inr hoptions)
    · exact .inr hfallback
  · rintro (hverb | hfallback)
    · exact .inl (.inl hverb)
    · exact .inr hfallback

/-- The accepted methods are the announced ones. -/
theorem mem_announced_iff {lookup : RouteLookup} {method : String} (hlinked : RouteTable.Linked method lookup) :
    method ∈ announced lookup method ↔ accepts lookup method = true := by
  unfold announced
  cases hselected : lookup.selected.isSome with
  | true =>
    -- A rule was selected, so that the method is among the verbs of the resource.
    have haccepts : accepts lookup method = true := by simp [accepts, hselected]
    rw [Bool.true_or, if_pos rfl, mem_resourceMethods]
    refine iff_of_true ?_ haccepts
    rcases hlinked.mp hselected with hverb | ⟨hoptions, -⟩
    · exact .inl hverb
    · exact .inr hoptions
  | false =>
    have hverb : method ∉ lookup.allowedVerbs := by
      intro hmem
      rw [hlinked.mpr (.inl hmem)] at hselected
      cases hselected
    have hfallback := accepts_iff hlinked
    simp only [hverb, false_or] at hfallback
    rw [Bool.false_or]
    split
    · rename_i hrefused
      rw [Bool.and_eq_true, Bool.not_eq_true'] at hrefused
      rw [mem_resourceMethods, hrefused.1]
      have hmethod := hfallback.not.mp (by simp [hrefused.1])
      simp [hverb, (not_or.mp hmethod).2]
    · rw [mem_fallbackMethods, hfallback]

/-- What is announced to a preflight: the verbs of the resource, or the methods of unrouted requests if it has none. -/
theorem announced_options {lookup : RouteLookup} (hlinked : RouteTable.Linked "OPTIONS" lookup) :
    announced lookup "OPTIONS" =
      if lookup.allowedVerbs = [] then fallbackMethods else resourceMethods lookup.allowedVerbs := by
  have haccepts : accepts lookup "OPTIONS" = true := (accepts_iff hlinked).mpr (.inr (.inr rfl))
  unfold RouteTable.Linked at hlinked
  rw [announced, haccepts, Bool.not_true, Bool.false_and, Bool.or_false]
  by_cases hverbs : lookup.allowedVerbs = []
  · have hselected : lookup.selected.isSome = false := by
      rw [← Bool.not_eq_true, hlinked, hverbs]
      simp
    rw [hselected, if_neg Bool.false_ne_true, if_pos hverbs]
  · rw [hlinked.mpr (.inr ⟨rfl, hverbs⟩), if_pos rfl, if_neg hverbs]

/-- If the verbs of a table are tokens, the names that a plan lists are the announced methods. -/
theorem splitList_allowMethods {routes : RouteTable}
    (hverbs : ∀ rule ∈ routes.rules, WebHeaders.isToken rule.verb = true) (cors : CorsPolicy) (request : Request) :
    Config.splitList (make routes cors request).allowMethods =
      announced (routes.lookup request.method request.path request.query) request.method := by
  apply Config.splitList_intercalate
  intro method hmethod
  apply WebHeaders.isItem_of_isToken
  have hfallback : ∀ m, m = "POST" ∨ m = "OPTIONS" → WebHeaders.isToken m = true := by
    rintro m (rfl | rfl) <;> decide
  unfold announced at hmethod
  split at hmethod
  · rcases (mem_resourceMethods _ _).mp hmethod with hverb | hoptions
    · cases hroot : RouteTable.isRoot request.path with
      | true =>
        rw [RouteTable.lookup_of_isRoot _ _ _ hroot] at hverb
        cases hverb
      | false =>
        obtain ⟨rule, hrule, -, rfl⟩ := (RouteTable.mem_lookup_verbs routes _ _ hroot method).mp hverb
        exact hverbs rule hrule
    · exact hfallback method (.inr hoptions)
  · exact hfallback method ((mem_fallbackMethods method).mp hmethod)

end Plan

/-! ## Refused methods -/

namespace Endpoint

theorem allowed_iff_mem_announced (e : Endpoint) (request : Request) :
    (e.plan request).allowed = true ↔
      request.method ∈
        Plan.announced (e.routes.lookup request.method request.path request.query) request.method :=
  (Plan.mem_announced_iff (e.routes.lookup_linked _ _ _)).symm

theorem perform_notAllowed {e : Endpoint} {request : Request} (h : (e.plan request).allowed = false) :
    (e.perform (e.plan request) request).result =
      .error (.refused (.methodNotAllowed request.method request.path (e.plan request).allowedVerbs)) := by
  simp [perform, Plan.resolve, h]

/-- A request is answered with 405 exactly if it is not allowed. -/
theorem status_notAllowed_iff (e : Endpoint) (requestId : String) (start finish : Number) (request : Request) :
    (e.handle requestId start finish request).response.status = 405 ↔ (e.plan request).allowed = false := by
  constructor
  · intro hstatus
    obtain ⟨error, hrefused, hnotAllowed⟩ := refused_of_status hstatus (by decide) (by decide) (by decide)
    obtain ⟨method, path, verbs, rfl⟩ := (GatewayError.status_eq_notAllowed_iff error).mp hnotAllowed
    cases refusal_of_perform hrefused with
    | notAllowed hallowed => exact hallowed
    | server _ hserver => exact absurd hserver (show (405 : Number) ≠ 500 by decide)
  · intro hallowed
    rw [handle_response, perform_notAllowed hallowed]
    exact Response.error_status _ _ _ _

theorem headers_notAllowed {e : Endpoint} {request : Request} (h : (e.plan request).allowed = false)
    (requestId : String) (start finish : Number) :
    (e.handle requestId start finish request).response.headers.get? "Allow" = some (e.plan request).allowMethods ∧
      (e.handle requestId start finish request).response.headers.get? "Access-Control-Allow-Methods" =
        some (e.plan request).allowMethods := by
  rw [handle_response, perform_notAllowed h]
  have hown := render_hasOwnNames (e.plan request) request
    (.methodNotAllowed request.method request.path (e.plan request).allowedVerbs)
  refine ⟨?_, (e.carriesCors_withHeaders request hown).methods⟩
  have hmerged := withHeaders_cors _ hown e.cors (e.plan request).allowMethods (request.header? "origin")
  rw [render_notAllowed_headers] at hmerged
  have hcontent : Headers.sameName "Content-Type" "Allow" = false := by decide
  have hallow : Headers.sameName "Allow" "Allow" = true := by decide
  show Headers.get? (Response.withHeaders _ _).headers "Allow" = _
  rw [show (e.plan request).cors = e.cors.headersFor (e.plan request).allowMethods (request.header? "origin") from rfl,
    hmerged]
  simp [Headers.get?, Response.jsonHeaders, hcontent, hallow]

/-- A request is allowed exactly if its method is one of the announced names.  It is answered with 405 exactly if it
is not allowed; the answer then lists the announced names twice, and the refused method is none of them. -/
theorem announced_methods_accepted (e : Endpoint)
    (hverbs : ∀ rule ∈ e.routes.rules, WebHeaders.isToken rule.verb = true) (requestId : String)
    (start finish : Number) (request : Request) :
    ((e.plan request).allowed = true ↔ request.method ∈ Config.splitList (e.plan request).allowMethods) ∧
    ((e.handle requestId start finish request).response.status = 405 ↔ (e.plan request).allowed = false) ∧
    ((e.plan request).allowed = false → ∃ methods,
      (e.handle requestId start finish request).response.headers.get? "Allow" = some methods ∧
      (e.handle requestId start finish request).response.headers.get? "Access-Control-Allow-Methods" = some methods ∧
      request.method ∉ Config.splitList methods) := by
  have hlisted : (e.plan request).allowed = true ↔
      request.method ∈ Config.splitList (e.plan request).allowMethods := by
    rw [allowed_iff_mem_announced, ← Plan.splitList_allowMethods hverbs e.cors request]
    rfl
  refine ⟨hlisted, e.status_notAllowed_iff requestId start finish request, ?_⟩
  intro hallowed
  obtain ⟨hallow, hmethods⟩ := headers_notAllowed hallowed requestId start finish
  refine ⟨_, hallow, hmethods, ?_⟩
  rw [← hlisted, hallowed]
  exact Bool.false_ne_true

theorem announced_methods_accepted_item :
    ∃ (service : Service) (implementation : Implementation) (e : Endpoint),
      Service.build "s" [] itemTable = .ok service ∧
      Implementation.bind service echoHandlers = .ok implementation ∧
      Endpoint.create implementation .standard = .ok e ∧
      (∀ rule ∈ e.routes.rules, WebHeaders.isToken rule.verb = true) ∧
      (e.plan (.make "GET" "/items/a" "p=2" [] [])).allowed = true ∧
      "GET" ∈ Config.splitList (e.plan (.make "GET" "/items/a" "p=2" [] [])).allowMethods ∧
      (e.plan (.make "PATCH" "/items/a" "p=2" [] [])).allowed = false ∧
      (e.handle "req-1" 0 0 (.make "PATCH" "/items/a" "p=2" [] [])).response.status = 405 ∧
      ∃ methods,
        (e.handle "req-1" 0 0 (.make "PATCH" "/items/a" "p=2" [] [])).response.headers.get? "Allow" = some methods ∧
        (e.handle "req-1" 0 0 (.make "PATCH" "/items/a" "p=2" [] [])).response.headers.get?
          "Access-Control-Allow-Methods" = some methods ∧
        "PATCH" ∉ Config.splitList methods := by
  have hready : ∃ (service : Service) (implementation : Implementation) (e : Endpoint),
      Service.build "s" [] itemTable = .ok service ∧
      Implementation.bind service echoHandlers = .ok implementation ∧
      Endpoint.create implementation .standard = .ok e ∧
      (∀ rule ∈ e.routes.rules, WebHeaders.isToken rule.verb = true) ∧
      (e.plan (.make "GET" "/items/a" "p=2" [] [])).allowed = true ∧
      (e.plan (.make "PATCH" "/items/a" "p=2" [] [])).allowed = false :=
    ⟨_, _, _, rfl, rfl, rfl, by decide +kernel, by decide +kernel, by decide +kernel⟩
  obtain ⟨service, implementation, e, hbuild, hbind, hcreate, hverbs, hget, hpatch⟩ := hready
  have hmethod : (Request.make "GET" "/items/a" "p=2" [] []).method = "GET" := by decide
  have hmethod' : (Request.make "PATCH" "/items/a" "p=2" [] []).method = "PATCH" := by decide
  obtain ⟨hlisted, -, -⟩ := announced_methods_accepted e hverbs "req-1" 0 0 (.make "GET" "/items/a" "p=2" [] [])
  obtain ⟨-, hstatus, hheaders⟩ :=
    announced_methods_accepted e hverbs "req-1" 0 0 (.make "PATCH" "/items/a" "p=2" [] [])
  rw [hmethod] at hlisted
  rw [hmethod'] at hheaders
  exact ⟨service, implementation, e, hbuild, hbind, hcreate, hverbs, hget, hlisted.mp hget, hpatch,
    hstatus.mpr hpatch, hheaders hpatch⟩

end Endpoint

/-! ## Preflights -/

namespace Plan

/-- Whether a request is accepted, in terms of what a preflight to its address finds. -/
theorem accepts_lookup_iff (routes : RouteTable) (method path query : String) :
    accepts (routes.lookup method path query) method = true ↔
      method ∈ (routes.lookup "OPTIONS" path query).allowedVerbs ∨ method = "POST" ∨ method = "OPTIONS" := by
  rw [routes.lookup_verbs_eq "OPTIONS" method]
  exact accepts_iff (routes.lookup_linked method path query)

/-- A preflight is announced the accepted methods other than `POST`. -/
theorem accepts_iff_mem_options (routes : RouteTable) {method : String} (hpost : method ≠ "POST")
    (path query : String) :
    accepts (routes.lookup method path query) method = true ↔
      method ∈ announced (routes.lookup "OPTIONS" path query) "OPTIONS" := by
  rw [accepts_lookup_iff, announced_options (routes.lookup_linked "OPTIONS" path query)]
  by_cases hverbs : (routes.lookup "OPTIONS" path query).allowedVerbs = []
  · rw [if_pos hverbs, mem_fallbackMethods, hverbs]
    simp
  · rw [if_neg hverbs, mem_resourceMethods]
    simp [hpost]

/-- A preflight is announced `POST` where no rule matches, or where one that matches has that verb. -/
theorem post_mem_options_iff (routes : RouteTable) (path query : String) :
    "POST" ∈ announced (routes.lookup "OPTIONS" path query) "OPTIONS" ↔
      RouteTable.isRoot path = true ∨ (∀ rule ∈ routes.rules, rule.template.match? path query = none) ∨
        ∃ rule ∈ routes.rules, (rule.template.match? path query).isSome = true ∧ rule.verb = "POST" := by
  have hnone := routes.lookup_verbs_eq_nil_iff "OPTIONS" path query
  rw [announced_options (routes.lookup_linked "OPTIONS" path query)]
  by_cases hverbs : (routes.lookup "OPTIONS" path query).allowedVerbs = []
  · rw [if_pos hverbs, mem_fallbackMethods]
    refine iff_of_true (.inl rfl) ?_
    rcases hnone.mp hverbs with hroot | hunmatched
    · exact .inl hroot
    · exact .inr (.inl hunmatched)
  · obtain ⟨hroot, hmatched⟩ := not_or.mp (hnone.not.mp hverbs)
    rw [Bool.not_eq_true] at hroot
    rw [if_neg hverbs, mem_resourceMethods, routes.mem_lookup_verbs "OPTIONS" query hroot]
    simp only [hroot, hmatched, Bool.false_eq_true, false_or]
    constructor
    · rintro (⟨rule, hrule, hmatch, hverb⟩ | hoptions)
      · exact ⟨rule, hrule, hmatch, hverb.symm⟩
      · exact absurd hoptions (by decide)
    · rintro ⟨rule, hrule, hmatch, hverb⟩
      exact .inl ⟨rule, hrule, hmatch, hverb.symm⟩

/-- What is announced to a preflight predicts which requests to the same address are allowed.  Only `POST` is allowed
everywhere, and announced where no rule matches or where a matching rule has that verb. -/
theorem preflight_predicts (routes : RouteTable) (cors : CorsPolicy) (path query : String)
    (headers headers' : Entries String) (body body' : Bytes) :
    let methods := announced (routes.lookup "OPTIONS" path query) "OPTIONS"
    let preflight := make routes cors ⟨"OPTIONS", path, query, headers, body⟩
    let planned (method : String) := make routes cors ⟨method, path, query, headers', body'⟩
    preflight.allowMethods = ", ".intercalate methods ∧
    ((∀ rule ∈ routes.rules, WebHeaders.isToken rule.verb = true) →
      Config.splitList preflight.allowMethods = methods) ∧
    (∀ method, method ≠ "POST" → method ≠ "OPTIONS" → ((planned method).allowed = true ↔ method ∈ methods)) ∧
    (planned "POST").allowed = true ∧
    ("POST" ∈ methods ↔
      RouteTable.isRoot path = true ∨ (∀ rule ∈ routes.rules, rule.template.match? path query = none) ∨
        ∃ rule ∈ routes.rules, (rule.template.match? path query).isSome = true ∧ rule.verb = "POST") := by
  intro methods preflight planned
  refine ⟨rfl, fun hverbs => splitList_allowMethods hverbs cors _, ?_, ?_, post_mem_options_iff routes path query⟩
  · intro method hpost _
    exact accepts_iff_mem_options routes hpost path query
  · exact (accepts_lookup_iff routes "POST" path query).mpr (.inr (.inl rfl))

/-- A table with two rules for one template. -/
def itemRules : RouteTable :=
  ⟨[Endpoint.itemMatch.rule, { Endpoint.itemMatch.rule with verb := "PUT", procedure := "replace" }]⟩

theorem preflight_predicts_item :
    (∀ rule ∈ itemRules.rules, WebHeaders.isToken rule.verb = true) ∧
      (make itemRules (.make [] []) ⟨"OPTIONS", "/items/a", "p=2", [], []⟩).allowMethods = "GET, PUT, OPTIONS" ∧
      ((make itemRules (.make [] []) ⟨"PUT", "/items/a", "p=2", [], []⟩).allowed = true ↔
        "PUT" ∈ Config.splitList "GET, PUT, OPTIONS") ∧
      ((make itemRules (.make [] []) ⟨"DELETE", "/items/a", "p=2", [], []⟩).allowed = true ↔
        "DELETE" ∈ Config.splitList "GET, PUT, OPTIONS") := by
  have hverbs : ∀ rule ∈ itemRules.rules, WebHeaders.isToken rule.verb = true := by decide
  have htext : (make itemRules (.make [] []) ⟨"OPTIONS", "/items/a", "p=2", [], []⟩).allowMethods =
      "GET, PUT, OPTIONS" := by decide +kernel
  obtain ⟨-, hlisted, hallowed, -, -⟩ :=
    preflight_predicts itemRules (.make [] []) "/items/a" "p=2" [] [] [] []
  have hmethods := hlisted hverbs
  rw [htext] at hmethods
  rw [← hmethods] at hallowed
  exact ⟨hverbs, htext, hallowed "PUT" (by decide) (by decide), hallowed "DELETE" (by decide) (by decide)⟩

end Plan

end Gateway

import Gateway.Proofs.AnswerSources
import Gateway.Proofs.CorsHeaders

/-!
# Routed and named calls agree

A procedure can be reached by a rule or by its name.  Where the body holds all that the rule's template captures, both
ways bind the same arguments, and the two answers differ in the announced methods at most
(`routed_agrees_with_named`).
-/

namespace Gateway

/-! ## Answers that differ in one header -/

/-- The headers of other names than one. -/
def Headers.without (name : String) (headers : Headers) : Headers :=
  headers.filter fun h => !sameName h.1 name

/-- Two answers that differ at most in the headers of one name. -/
structure Response.SameBut (name : String) (a b : Response) : Prop where
  status : a.status = b.status
  headers : a.headers.without name = b.headers.without name
  body : a.body = b.body

/-- The header that announces the methods of a resource. -/
def CorsPolicy.methodsHeader : String := "Access-Control-Allow-Methods"

/-- The announced methods show in one header only. -/
theorem CorsPolicy.headersFor_without (p : CorsPolicy) (methods methods' : String) (origin : Option String) :
    (p.headersFor methods origin).headers.without methodsHeader =
      (p.headersFor methods' origin).headers.without methodsHeader := by
  have hcommon : (p.commonHeaders methods).without methodsHeader =
      (p.commonHeaders methods').without methodsHeader := by
    have hname : Headers.sameName "Access-Control-Allow-Methods" methodsHeader = true := by decide
    simp [Headers.without, commonHeaders, List.filter_cons, hname]
  cases origin with
  | none => exact hcommon
  | some o =>
    simp only [headersFor]
    split
    · rw [Headers.without, Headers.without, List.filter_append, List.filter_append]
      exact congrArg (· ++ _) hcommon
    · exact hcommon

namespace Endpoint

theorem withHeaders_sameBut {r : Response} (hown : HasOwnNames r) (p : CorsPolicy) (methods methods' : String)
    (origin : Option String) :
    Response.SameBut CorsPolicy.methodsHeader (r.withHeaders (p.headersFor methods origin).headers)
      (r.withHeaders (p.headersFor methods' origin).headers) := by
  refine ⟨rfl, ?_, rfl⟩
  rw [withHeaders_cors r hown, withHeaders_cors r hown, Headers.without, Headers.without, List.filter_append,
    List.filter_append]
  exact congrArg (_ ++ ·) (p.headersFor_without methods methods' origin)

/-- Outcomes that do not quote the request are written alike up to the announced methods. -/
theorem written_sameBut {p : CorsPolicy} {methods methods' : String} {origin : Option String} {plan plan' : Plan}
    (hcors : plan.cors = p.headersFor methods origin) (hcors' : plan'.cors = p.headersFor methods' origin)
    (request request' : Request) {result : Except CallFault Response}
    (hown : ∀ response, result = .ok response → HasOwnNames response)
    (hquotes : ∀ error, result = .error (.refused error) → error.status ≠ 404 ∧ error.status ≠ 405) :
    Response.SameBut CorsPolicy.methodsHeader (written plan request result) (written plan' request' result) := by
  unfold written
  split
  · rename_i response
    rw [hcors, hcors']
    exact withHeaders_sameBut (hown response rfl) p methods methods' origin
  · rename_i error
    obtain ⟨hfound, hallowed⟩ := hquotes error rfl
    rw [hcors, hcors', render_eq hfound hallowed plan plan' request request']
    exact withHeaders_sameBut (render_hasOwnNames plan' request' error) p methods methods' origin
  · rw [brokenResponse_eq request request']
    exact ⟨rfl, rfl, rfl⟩

/-! ## Reaching a procedure -/

theorem perform_of_refused {e : Endpoint} {request : Request} {error : GatewayError}
    (hmethod : request.method ≠ "OPTIONS")
    (hresolve : (e.plan request).resolve e.implementation.service request = .error error) :
    (e.perform (e.plan request) request).result = .error (.refused error) ∧ e.invocation? request = none := by
  constructor
  · simp [perform, hmethod, hresolve]
  · simp [invocation?, reached?, hmethod, hresolve]

theorem reached?_of_resolve {e : Endpoint} {request : Request} {name : String} {routed : Bool} {payload : Payload}
    {r : Resolved} (hmethod : request.method ≠ "OPTIONS")
    (hresolve : (e.plan request).resolve e.implementation.service request = .ok ⟨some name, routed, payload⟩)
    (hfound : e.implementation.resolve name = some r) : e.reached? request = some (r, payload) := by
  simp [reached?, hmethod, hresolve, hfound]

/-- A routed request with a method of its own, none of `GET`, `DELETE` and `OPTIONS`, has arguments in its body too. -/
theorem resolve_routed {e : Endpoint} {request : Request} {found : RouteMatch}
    (hroute : (e.plan request).route = some found) (hmethod : request.method ∉ ["GET", "DELETE", "OPTIONS"])
    (service : Service) :
    (e.plan request).resolve service request =
      match Payload.parseBody request.body with
      | .error e => .error e
      | .ok body =>
        .ok ⟨some found.rule.procedure, true, Payload.merge
          (Payload.captured (Plan.parametersOf service found.rule.procedure) found.captures) body⟩ := by
  simp only [List.mem_cons, List.not_mem_nil, or_false, not_or] at hmethod
  obtain ⟨hget, hdelete, hoptions⟩ := hmethod
  have hselected : (e.routes.lookup request.method request.path request.query).selected = some found := hroute
  obtain ⟨-, hverb, -⟩ := RouteTable.lookup_selected hselected
  have hverb : request.method = found.rule.verb := hverb.resolve_right hoptions
  have hallowed : (e.plan request).allowed = true := by
    simp [plan, Plan.make, Plan.accepts, hselected]
  have hbody : Plan.ruleBody found.rule.verb request = Payload.parseBody request.body := by
    rw [Plan.ruleBody, ← hverb, if_neg (by simp [Plan.bodylessVerbs, hget, hdelete])]
  rw [Plan.resolve, hallowed, hroute]
  simp only [hbody]
  rfl

/-- What a template captures for the parameters is covered by a body with a value for each of its placeholders. -/
theorem captures_covered {t : Template} {path query : String} {captures : Captures} {parameters : List Parameter}
    {entries : Entries Value} (hmatch : t.match? path query = some captures)
    (hgiven : ∀ p ∈ parameters, normalizeName p.wireName ∈ t.names → p.wireName ∈ Entries.keys entries) :
    ∀ k ∈ Entries.keys (Payload.captured parameters captures), k ∈ Entries.keys entries := by
  intro k hk
  obtain ⟨p, hp, rfl, hcaptured⟩ := (Payload.mem_keys_captured parameters captures k).mp hk
  exact hgiven p hp ((t.captures_iff path query hmatch _).mp hcaptured)

/-- Where the body holds all that the URI provides, the arguments are those of the body alone. -/
theorem bindArguments_of_covered (defs : Definitions) {p : Procedure} (hp : Service.Distinguishable p.parameters)
    {captured : Entries Captured} {entries : Entries Value}
    (hcovered : ∀ k ∈ Entries.keys captured, k ∈ Entries.keys entries) :
    bindArguments defs p (Payload.merge captured entries) = bindArguments defs p (Payload.merge [] entries) := by
  obtain ⟨huri, hvalues⟩ := Payload.merge_of_covered hcovered
  have hbound : Binding.bindAll defs p.wireName (Payload.merge captured entries) p.parameters =
      Binding.bindAll defs p.wireName (Payload.merge [] entries) p.parameters := by
    apply Binding.bindAll_congr
    intro q hq
    refine ⟨hvalues q.wireName (hp.ne_reservedKey hq), ?_⟩
    rw [huri]
    rfl
  rw [bindArguments, bindArguments, hbound]

/-- A routed call and a call by name whose body holds all that the rule's template captures have one outcome, and hand
the same arguments to the handler. -/
theorem Built.outcome_of_covered {e : Endpoint} {service : Service} {implementation : Implementation}
    (h : e.Built service implementation) {routed named : Request} {found : RouteMatch} {entries : Entries Value}
    (hroute : (e.plan routed).route = some found) (hmethod : routed.method ≠ "OPTIONS")
    (hmethod' : named.method ≠ "OPTIONS")
    (hresolve : (e.plan routed).resolve e.implementation.service routed =
      .ok ⟨some found.rule.procedure, true, Payload.merge (Payload.captured
        (Plan.parametersOf e.implementation.service found.rule.procedure) found.captures) entries⟩)
    (hresolve' : (e.plan named).resolve e.implementation.service named =
      .ok ⟨some found.rule.procedure, false, Payload.merge [] entries⟩)
    (hgiven : ∀ p ∈ Plan.parametersOf service found.rule.procedure,
      normalizeName p.wireName ∈ found.rule.template.names → p.wireName ∈ Entries.keys entries) :
    (e.perform (e.plan routed) routed).result = (e.perform (e.plan named) named).result ∧
      e.invocation? routed = e.invocation? named := by
  obtain ⟨p, hp, hrule, ⟨handler, hhandler⟩, -⟩ := h.selected_rule hroute
  have hservice : e.implementation.service = service := by rw [h.implementation_eq, h.service_eq]
  have hparameters : Plan.parametersOf service found.rule.procedure = p.parameters := by
    rw [Plan.parametersOf, hrule, Service.lookup_of_mem h.wellFormed hp]
  have hfound : e.implementation.resolve found.rule.procedure = some ⟨p, handler⟩ := by
    rw [h.implementation_eq, hrule, hhandler]
  have hreached := reached?_of_resolve hmethod hresolve hfound
  have hreached' := reached?_of_resolve hmethod' hresolve' hfound
  rw [hservice, hparameters] at hreached
  rw [hparameters] at hgiven
  -- Every captured value is replaced by one of the body, which is all that the named call has.
  have hmatch := (RouteTable.lookup_selected hroute).2.2
  have hbound := bindArguments_of_covered e.definitions (h.wellFormed.parameters p hp)
    (captures_covered hmatch hgiven)
  rw [perform_of_reached hreached, perform_of_reached hreached', invocation?_of_reached hreached,
    invocation?_of_reached hreached']
  simp only [hbound, and_self]

/-- A call that is routed and a call of the same procedure by its name are answered alike up to the announced methods,
and hand the same arguments to the handler, if the body holds a value for all that the rule's template captures or
cannot be read at all. -/
theorem routed_agrees_with_named {name : String} {definitions : Definitions} {table : Entries Definition}
    {handlers : Entries HandlerEntry} {options : EndpointOptions} {service : Service}
    {implementation : Implementation} {e : Endpoint}
    (hbuild : Service.build name definitions table = .ok service)
    (hbind : Implementation.bind service handlers = .ok implementation)
    (hcreate : Endpoint.create implementation options = .ok e) {routed named : Request} {found : RouteMatch}
    (hroute : (e.plan routed).route = some found) (hmethod : routed.method ∉ ["GET", "DELETE", "OPTIONS"])
    (hpost : named.method = "POST") (hpath : named.path = "/")
    (hname : Plan.namedProcedure? named.query = some found.rule.procedure)
    (hheaders : named.headers = routed.headers) (hbody : named.body = routed.body)
    (hgiven : ∀ entries, Payload.parseBody routed.body = .ok entries →
      ∀ p ∈ Plan.parametersOf service found.rule.procedure,
        normalizeName p.wireName ∈ found.rule.template.names → p.wireName ∈ Entries.keys entries)
    (requestId requestId' : String) (start start' finish finish' : Number) :
    Response.SameBut CorsPolicy.methodsHeader (e.handle requestId start finish routed).response
        (e.handle requestId' start' finish' named).response ∧
      e.invocation? routed = e.invocation? named := by
  have hbuilt := built_of_create hbuild hbind hcreate
  have hunrouted : (e.plan named).route = none := by
    show (e.routes.lookup named.method named.path named.query).selected = none
    rw [RouteTable.lookup_of_isRoot _ _ _ (by rw [hpath]; decide)]
  obtain ⟨hallowed, hcors⟩ := plan_post hpost hunrouted
  have hoptions : routed.method ≠ "OPTIONS" := fun h => hmethod (by simp [h])
  have hoptions' : named.method ≠ "OPTIONS" := by rw [hpost]; decide
  have hresolve := resolve_routed hroute hmethod e.implementation.service
  have hresolve' := Plan.resolve_unrouted hallowed hunrouted e.implementation.service named
  rw [hbody, hname] at hresolve'
  -- Both requests have one outcome and invoke one handler; it remains to write the outcome.
  suffices hsame : (e.perform (e.plan routed) routed).result = (e.perform (e.plan named) named).result ∧
      e.invocation? routed = e.invocation? named by
    refine ⟨?_, hsame.2⟩
    rw [handle_response, handle_response, hsame.1]
    have horigin : (e.plan routed).cors =
        e.cors.headersFor (e.plan routed).allowMethods (named.header? "origin") := by
      rw [Request.header?, hheaders]
      rfl
    exact written_sameBut horigin hcors routed named (fun response => e.perform_hasOwnNames named)
      fun error => unquoted_of_unrouted hallowed hunrouted
  cases hparse : Payload.parseBody routed.body with
  | error error =>
    rw [hparse] at hresolve hresolve'
    obtain ⟨hresult, hinvoked⟩ := perform_of_refused hoptions hresolve
    obtain ⟨hresult', hinvoked'⟩ := perform_of_refused hoptions' hresolve'
    exact ⟨hresult.trans hresult'.symm, hinvoked.trans hinvoked'.symm⟩
  | ok entries =>
    rw [hparse] at hresolve hresolve'
    exact hbuilt.outcome_of_covered hroute hoptions hoptions' hresolve hresolve' (hgiven entries hparse)

/-- A table with one procedure that is reached by `PUT`. -/
def replaceTable : Entries Definition :=
  [("replace", { Definition.empty with
    parameters := [⟨"itemId", "item_id", .string⟩], returns := .unknown
    resource := some ⟨"PUT", "/items/\x7bitem-id\x7d"⟩ })]

/-- A handler that gives back its arguments. -/
def replaceHandlers : Entries HandlerEntry := [("replace", .function fun args => .ok args)]

/-- What the only rule of `replaceTable` captures from a request. -/
def replaceMatch : RouteMatch :=
  ⟨⟨⟨"/items/\x7bitem-id\x7d", ⟨"/items/", [("item-id", "")]⟩, []⟩, "PUT", "replace"⟩, [("item_id", .one "a")]⟩

/-- A body that gives the item another id than the path does. -/
def replaceBody : Bytes := Text.Utf8.encode "\x7b\"item_id\":\"b\"\x7d"

theorem routed_agrees_with_named_replace :
    ∃ (service : Service) (implementation : Implementation) (e : Endpoint),
      Service.build "s" [] replaceTable = .ok service ∧
      Implementation.bind service replaceHandlers = .ok implementation ∧
      Endpoint.create implementation .standard = .ok e ∧
      (e.plan (.make "PUT" "/items/a" "" [] replaceBody)).route = some replaceMatch ∧
      (Payload.parseBody replaceBody).toOption.map Entries.keys = some ["item_id"] ∧
      Response.SameBut CorsPolicy.methodsHeader
        (e.handle "req-1" 0 0 (.make "PUT" "/items/a" "" [] replaceBody)).response
        (e.handle "req-2" 0 0 (.make "POST" "/" "method=replace" [] replaceBody)).response ∧
      e.invocation? (.make "PUT" "/items/a" "" [] replaceBody) =
        e.invocation? (.make "POST" "/" "method=replace" [] replaceBody) := by
  have hready : ∃ (service : Service) (implementation : Implementation) (e : Endpoint),
      Service.build "s" [] replaceTable = .ok service ∧
      Implementation.bind service replaceHandlers = .ok implementation ∧
      Endpoint.create implementation .standard = .ok e ∧
      (e.plan (.make "PUT" "/items/a" "" [] replaceBody)).route = some replaceMatch ∧
      Plan.parametersOf service replaceMatch.rule.procedure = [⟨"itemId", "item_id", .string⟩] :=
    ⟨_, _, _, rfl, rfl, rfl, by decide +kernel, rfl⟩
  obtain ⟨service, implementation, e, hbuild, hbind, hcreate, hroute, hparameters⟩ := hready
  have hpost : (Request.make "POST" "/" "method=replace" [] replaceBody).method = "POST" := by decide +kernel
  have hkeys : (Payload.parseBody replaceBody).toOption.map Entries.keys = some ["item_id"] := by decide +kernel
  have hgiven : ∀ entries, Payload.parseBody replaceBody = .ok entries →
      ∀ p ∈ Plan.parametersOf service replaceMatch.rule.procedure,
        normalizeName p.wireName ∈ replaceMatch.rule.template.names → p.wireName ∈ Entries.keys entries := by
    intro entries hentries p hp _
    rw [hparameters, List.mem_singleton] at hp
    rw [hentries] at hkeys
    rw [Option.some.inj hkeys, hp]
    decide
  have hagree := routed_agrees_with_named hbuild hbind hcreate hroute (by decide +kernel) hpost rfl
    (by decide +kernel) rfl rfl hgiven "req-1" "req-2" 0 0 0 0
  exact ⟨service, implementation, e, hbuild, hbind, hcreate, hroute, hkeys, hagree⟩

end Endpoint

end Gateway

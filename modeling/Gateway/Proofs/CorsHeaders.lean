import Gateway.Proofs.Pipeline

/-!
# Cross-origin headers of answers

The cross-origin headers are put on an answer at one place, after the request has run its course.  An answer
carries them unless a fault stopped the pipeline on the way (`Stops`): the bare 500 that is sent then has none of
them.  `carriesCors_iff_not_stops` states both directions.
-/

namespace Gateway

/-! ## Merging headers of different names -/

namespace Headers

/-- Two header lists without a common name. -/
def Apart (a b : Headers) : Prop :=
  ∀ x ∈ a, ∀ y ∈ b, sameName x.1 y.1 = false

theorem add_of_apart (name value : String) (base : Headers)
    (hapart : ∀ x ∈ base, sameName x.1 name = false) :
    add name value base = base ++ [(name, value)] := by
  induction base with
  | nil => rfl
  | cons h rest ih =>
    have hhead : sameName h.1 name = false := hapart h (by simp)
    have hrest : ∀ x ∈ rest, sameName x.1 name = false := fun x hx => hapart x (by simp [hx])
    simp [add, hhead, ih hrest]

/-- Merging headers of new names, each named once, appends them. -/
theorem merge_of_apart (base extra : Headers) (hapart : Apart base extra)
    (honce : extra.Pairwise fun x y => sameName x.1 y.1 = false) :
    merge base extra = base ++ extra := by
  induction extra generalizing base with
  | nil => simp [merge]
  | cons h rest ih =>
    obtain ⟨hfirst, hrest⟩ := List.pairwise_cons.mp honce
    have hadd : add h.1 h.2 base = base ++ [h] :=
      add_of_apart h.1 h.2 base fun x hx => hapart x hx h (by simp)
    have hnext : Apart (base ++ [h]) rest := by
      intro x hx y hy
      rcases List.mem_append.mp hx with hbase | hhead
      · exact hapart x hbase y (by simp [hy])
      · obtain rfl : x = h := by simpa using hhead
        exact hfirst y hy
    calc
      merge base (h :: rest) = merge (add h.1 h.2 base) rest := rfl
      _ = merge (base ++ [h]) rest := by rw [hadd]
      _ = base ++ [h] ++ rest := ih (base ++ [h]) hnext hrest
      _ = base ++ h :: rest := by simp

/-- A header that shares its name with no earlier one is found under that name. -/
theorem get?_of_pairwise {headers : Headers} {h : String × String}
    (honce : headers.Pairwise fun x y => sameName x.1 y.1 = false) (hmem : h ∈ headers) :
    get? headers h.1 = some h.2 := by
  induction headers with
  | nil => cases hmem
  | cons first rest ih =>
    obtain ⟨hfirst, hrest⟩ := List.pairwise_cons.mp honce
    rcases List.mem_cons.mp hmem with rfl | htail
    · simp [get?, sameName]
    · have hdifferent : sameName first.1 h.1 = false := hfirst h htail
      have hfound := ih hrest htail
      simpa [get?, List.find?_cons, hdifferent] using hfound

theorem get?_append_of_apart {base extra : Headers} {name : String}
    (hapart : ∀ x ∈ base, sameName x.1 name = false) : get? (base ++ extra) name = get? extra name := by
  have hnone : base.find? (fun h => sameName h.1 name) = none := by
    rw [List.find?_eq_none]
    intro x hx
    simp [hapart x hx]
  simp [get?, List.find?_append, hnone]

end Headers

namespace CorsPolicy

/-- The names of the cross-origin headers. -/
def headerNames : List String :=
  ["Vary", "Access-Control-Allow-Methods", "Access-Control-Allow-Headers", "Access-Control-Allow-Origin"]

theorem headersFor_names (p : CorsPolicy) (allowMethods : String) (origin : Option String) :
    (((p.headersFor allowMethods origin).headers).map (·.1)).Sublist headerNames := by
  cases origin with
  | none =>
    cases hheaders : p.allowedHeaders.isEmpty <;>
      simp [headersFor, commonHeaders, hheaders, headerNames]
  | some o =>
    cases hallowed : p.origins.allows o <;>
      cases hheaders : p.allowedHeaders.isEmpty <;>
        simp [headersFor, commonHeaders, hallowed, hheaders, headerNames]

theorem commonHeaders_subset (p : CorsPolicy) (allowMethods : String) (origin : Option String) :
    p.commonHeaders allowMethods ⊆ (p.headersFor allowMethods origin).headers := by
  intro h hmem
  cases origin with
  | none => exact hmem
  | some o =>
    simp only [headersFor]
    split
    · exact List.mem_append_left _ hmem
    · exact hmem

/-- No cross-origin header is named twice. -/
theorem headersFor_pairwise (p : CorsPolicy) (allowMethods : String) (origin : Option String) :
    ((p.headersFor allowMethods origin).headers).Pairwise fun x y => Headers.sameName x.1 y.1 = false := by
  have hnames : headerNames.Pairwise fun x y => Headers.sameName x y = false := by decide +kernel
  have hsub := (headersFor_names p allowMethods origin)
  exact List.pairwise_map.mp (hnames.sublist hsub)

end CorsPolicy

/-! ## The headers of an answer before the cross-origin headers -/

namespace Response

theorem json_headers {status : Number} {v : Value} {r : Response} (h : json status v = .ok r) :
    r.headers = jsonHeaders := by
  unfold json at h
  cases hwrite : Json.write v with
  | error f =>
    rw [hwrite] at h
    cases h
  | ok text =>
    rw [hwrite] at h
    cases h
    rfl

theorem ofEnvelope_headers (status : Number) (e : Envelope) :
    (ofEnvelope status e).headers = jsonHeaders := by
  unfold ofEnvelope
  cases hjson : json status e.value with
  | error f => rfl
  | ok r => exact json_headers hjson

theorem error_headers (status : Number) (method path : String) (message : Option String) :
    (error status method path message).headers = jsonHeaders :=
  ofEnvelope_headers status _

end Response

namespace Endpoint

/-- The headers that an answer can have before the cross-origin headers are put on it. -/
def ownHeaders (plan : Plan) : List Headers :=
  [[], Response.jsonHeaders, Response.jsonHeaders ++ [("Allow", plan.allowMethods)]]

/-- The names of these headers. -/
def ownNames : List String := ["Content-Type", "Allow"]

/-- An answer whose headers have the names of `ownNames` only. -/
def HasOwnNames (r : Response) : Prop :=
  ∀ h ∈ r.headers, h.1 ∈ ownNames

theorem names_of_ownHeaders {plan : Plan} {own : Headers} (h : own ∈ ownHeaders plan) :
    (own.map (·.1)).Sublist ownNames := by
  simp only [ownHeaders, List.mem_cons, List.not_mem_nil, or_false] at h
  rcases h with rfl | rfl | rfl
  · exact List.nil_sublist _
  · exact (List.nil_sublist _).cons_cons "Content-Type"
  · exact List.Sublist.refl _

theorem hasOwnNames_of_ownHeaders {plan : Plan} {r : Response} (h : r.headers ∈ ownHeaders plan) :
    HasOwnNames r :=
  fun _ hx => (names_of_ownHeaders h).subset (List.mem_map_of_mem hx)

/-- A refused method is told the announced ones. -/
theorem render_notAllowed_headers (plan : Plan) (request : Request) (method path : String) (verbs : List String) :
    (render plan request (.methodNotAllowed method path verbs)).headers =
      Response.jsonHeaders ++ [("Allow", plan.allowMethods)] := by
  have hjson : (Response.ofError (.methodNotAllowed method path verbs) request.method request.path).headers =
      Response.jsonHeaders :=
    Response.error_headers _ _ _ _
  show ((Response.ofError (.methodNotAllowed method path verbs) request.method request.path).withHeaders
    [("Allow", plan.allowMethods)]).headers = _
  simp only [Response.withHeaders, hjson]
  exact Headers.merge_of_apart _ _ (by simp [Headers.Apart, Response.jsonHeaders]; decide) (by simp)

theorem render_headers (plan : Plan) (request : Request) (error : GatewayError) :
    (render plan request error).headers ∈ ownHeaders plan := by
  have hjson : (Response.ofError error request.method request.path).headers ∈ ownHeaders plan := by
    have hheaders : (Response.ofError error request.method request.path).headers = Response.jsonHeaders :=
      Response.error_headers _ _ _ _
    simp [ownHeaders, hheaders]
  cases error with
  | methodNotAllowed method path verbs => simp [ownHeaders, render_notAllowed_headers]
  | _ => exact hjson

theorem render_hasOwnNames (plan : Plan) (request : Request) (error : GatewayError) :
    HasOwnNames (render plan request error) :=
  hasOwnNames_of_ownHeaders (render_headers plan request error)

theorem ownNames_apart : ∀ a ∈ ownNames, ∀ b ∈ CorsPolicy.headerNames, Headers.sameName a b = false := by
  decide +kernel

/-- The own headers of an answer and its cross-origin headers have different names, so the latter are appended. -/
theorem withHeaders_cors (r : Response) (hown : HasOwnNames r) (p : CorsPolicy) (allowMethods : String)
    (origin : Option String) :
    (r.withHeaders (p.headersFor allowMethods origin).headers).headers =
      r.headers ++ (p.headersFor allowMethods origin).headers := by
  apply Headers.merge_of_apart _ _ _ (p.headersFor_pairwise allowMethods origin)
  intro x hx y hy
  have hsub := p.headersFor_names allowMethods origin
  exact ownNames_apart x.1 (hown x hx) y.1 (hsub.subset (List.mem_map_of_mem hy))

/-! ## Where a fault stops the pipeline -/

end Endpoint

/-- How the call of a procedure is stopped by a fault: its result or its error cannot be checked or written, or
its failure has no line for the log. -/
inductive Resolved.Stops (defs : Definitions) (r : Resolved) (args : Value) : Prop where
  | uncheckedResult (result : Value) (fault : Fault) (hhandler : r.handler args = .ok result)
      (hvalidate : r.procedure.validateResult defs result = .error (.broken fault))
  | unwritableResult (result encoded : Value) (fault : Fault) (hhandler : r.handler args = .ok result)
      (hvalidate : r.procedure.validateResult defs result = .ok encoded)
      (hwrite : Json.write encoded = .error fault)
  | uncheckedError (failure : Failure) (fault : Fault) (hhandler : r.handler args = .error failure)
      (hform : declaredForm defs r.procedure failure = .error fault)
  | unwritableError (failure : Failure) (error : Value) (fault : Fault)
      (hhandler : r.handler args = .error failure)
      (hform : declaredForm defs r.procedure failure = .ok (some error))
      (hwrite : Json.write error = .error fault)
  | unshownDefect (failure : Failure) (fault : Fault) (hhandler : r.handler args = .error failure)
      (hform : declaredForm defs r.procedure failure = .ok none) (hsummary : failure.summary = .error fault)

/-- How a request is stopped by a fault: while its arguments are bound, or in the call. -/
inductive Endpoint.Stops (e : Endpoint) (request : Request) : Prop where
  | binding (r : Resolved) (payload : Payload) (fault : Fault) (hreached : e.reached? request = some (r, payload))
      (hbind : bindArguments e.definitions r.procedure payload = .error (.broken fault))
  | call (r : Resolved) (args : Value) (hinvoked : e.invocation? request = some (r, args))
      (hstops : r.Stops e.definitions args)

theorem answer_eq_broken_iff (status : Number) (v : Value) (fault : Fault) :
    answer status v = .error (.broken fault) ↔ Json.write v = .error fault := by
  unfold answer Response.json
  cases Json.write v with
  | ok text => simp [Except.map]
  | error f => simp [Except.map]

theorem answer_headers {status : Number} {v : Value} {r : Response} (h : answer status v = .ok r) :
    r.headers = Response.jsonHeaders :=
  Response.json_headers (answer_eq_ok h)

namespace Resolved

variable (defs : Definitions) (r : Resolved) (args : Value)

/-- `Stops` is the exact condition under which a fault stops a call. -/
theorem stops_iff : r.Stops defs args ↔ ∃ fault, (r.invoke defs args).result = .error (.broken fault) := by
  constructor
  · intro hstops
    cases hstops with
    | uncheckedResult result fault hhandler hvalidate =>
      exact ⟨fault, by simp [invoke, hhandler, answerResult, hvalidate]⟩
    | unwritableResult result encoded fault hhandler hvalidate hwrite =>
      refine ⟨fault, ?_⟩
      simpa [invoke, hhandler, answerResult, hvalidate] using
        (answer_eq_broken_iff 200 encoded fault).mpr hwrite
    | uncheckedError failure fault hhandler hform =>
      exact ⟨fault, by simp [invoke, hhandler, answerFailure, hform]⟩
    | unwritableError failure error fault hhandler hform hwrite =>
      refine ⟨fault, ?_⟩
      simpa [invoke, hhandler, answerFailure, hform] using
        (answer_eq_broken_iff 400 error fault).mpr hwrite
    | unshownDefect failure fault hhandler hform hsummary =>
      exact ⟨fault, by simp [invoke, hhandler, answerFailure, hform, answerDefect, hsummary]⟩
  · rintro ⟨fault, hbroken⟩
    have houtcome := r.invoke_outcome defs args
    generalize r.invoke defs args = outcome at houtcome hbroken
    cases houtcome with
    | result result encoded hhandler hvalidate =>
      exact .unwritableResult result encoded fault hhandler hvalidate
        ((answer_eq_broken_iff 200 encoded fault).mp hbroken)
    | uncheckedResult result fault' hhandler hvalidate =>
      exact .uncheckedResult result fault' hhandler hvalidate
    | declared failure error hhandler hform =>
      exact .unwritableError failure error fault hhandler hform
        ((answer_eq_broken_iff 400 error fault).mp hbroken)
    | uncheckedError failure fault' hhandler hform => exact .uncheckedError failure fault' hhandler hform
    | unshownDefect failure fault' hhandler hform hsummary =>
      exact .unshownDefect failure fault' hhandler hform hsummary
    | mismatch => simp at hbroken
    | defect => simp at hbroken

/-- The answer of a call has the header of JSON answers and no other. -/
theorem invoke_headers {response : Response} (h : (r.invoke defs args).result = .ok response) :
    response.headers = Response.jsonHeaders := by
  have houtcome := r.invoke_outcome defs args
  generalize r.invoke defs args = outcome at houtcome h
  cases houtcome with
  | result => exact answer_headers h
  | declared => exact answer_headers h
  | mismatch => simp at h
  | uncheckedResult => simp at h
  | uncheckedError => simp at h
  | defect => simp at h
  | unshownDefect => simp at h

end Resolved

namespace Endpoint

/-- A request is stopped exactly when its outcome is a fault. -/
theorem stops_iff (e : Endpoint) (request : Request) :
    e.Stops request ↔ ∃ fault, (e.perform (e.plan request) request).result = .error (.broken fault) := by
  constructor
  · intro hstops
    cases hstops with
    | binding r payload fault hreached hbind =>
      refine ⟨fault, ?_⟩
      rw [perform_of_reached hreached, hbind]
    | call r args hinvoked hstops =>
      obtain ⟨payload, hreached, hbind⟩ := (e.invocation?_eq_some_iff request r args).mp hinvoked
      obtain ⟨fault, hbroken⟩ := (r.stops_iff e.definitions args).mp hstops
      refine ⟨fault, ?_⟩
      rw [perform_of_reached hreached, hbind]
      exact hbroken
  · rintro ⟨fault, hbroken⟩
    -- Before a procedure is reached a request is answered or refused, and no fault can stop it.
    have hcourse := e.perform_course request
    generalize e.perform (e.plan request) request = outcome at hcourse hbroken
    cases hcourse with
    | preflight => simp at hbroken
    | refused => simp at hbroken
    | unnamed => simp at hbroken
    | unknown => simp at hbroken
    | unbound call name r f hname hreached hbind =>
      obtain rfl : f = .broken fault := by simpa using hbroken
      exact .binding r call.payload fault hreached hbind
    | invoked call name r args hname hreached hbind =>
      refine .call r args ?_ ((r.stops_iff e.definitions args).mpr ⟨fault, hbroken⟩)
      exact (e.invocation?_eq_some_iff request r args).mpr ⟨call.payload, hreached, hbind⟩

theorem perform_headers (e : Endpoint) (request : Request) {response : Response}
    (h : (e.perform (e.plan request) request).result = .ok response) :
    response.headers ∈ ownHeaders (e.plan request) := by
  have hcourse := e.perform_course request
  generalize e.perform (e.plan request) request = outcome at hcourse h
  cases hcourse with
  | preflight =>
    obtain rfl : Response.preflight = response := by simpa using h
    simp [ownHeaders, Response.preflight]
  | refused => simp at h
  | unnamed => simp at h
  | unknown => simp at h
  | unbound => simp at h
  | invoked call name r args hname hreached hbind => simp [ownHeaders, r.invoke_headers e.definitions args h]

/-- What a request is answered with before the cross-origin headers has no header of their names. -/
theorem perform_hasOwnNames (e : Endpoint) (request : Request) {response : Response}
    (h : (e.perform (e.plan request) request).result = .ok response) : HasOwnNames response :=
  hasOwnNames_of_ownHeaders (e.perform_headers request h)

/-! ## The cross-origin headers -/

/-- The cross-origin headers that an answer to a request is to have. -/
structure CarriesCors (e : Endpoint) (request : Request) (response : Response) : Prop where
  vary : response.headers.get? "Vary" = some "Origin"
  methods : response.headers.get? "Access-Control-Allow-Methods" = some (e.plan request).allowMethods
  headers : e.cors.allowedHeaders ≠ [] →
    response.headers.get? "Access-Control-Allow-Headers" = some (", ".intercalate e.cors.allowedHeaders)

theorem carriesCors_withHeaders (e : Endpoint) (request : Request) {r : Response} (hown : HasOwnNames r) :
    e.CarriesCors request (r.withHeaders (e.plan request).cors.headers) := by
  have hcors : (e.plan request).cors =
      e.cors.headersFor (e.plan request).allowMethods (request.header? "origin") := rfl
  have hmerged : (r.withHeaders (e.plan request).cors.headers).headers =
      r.headers ++ (e.plan request).cors.headers := by
    rw [hcors]
    exact withHeaders_cors r hown _ _ _
  -- A common header is found under its name, as no own header and no other cross-origin header has it.
  have hfound : ∀ h ∈ e.cors.commonHeaders (e.plan request).allowMethods, h.1 ∈ CorsPolicy.headerNames →
      Headers.get? (r.headers ++ (e.plan request).cors.headers) h.1 = some h.2 := by
    intro h hmem hname
    rw [Headers.get?_append_of_apart]
    · rw [hcors]
      exact Headers.get?_of_pairwise (e.cors.headersFor_pairwise _ _) (e.cors.commonHeaders_subset _ _ hmem)
    · intro x hx
      exact ownNames_apart x.1 (hown x hx) h.1 hname
  constructor
  · rw [hmerged]
    exact hfound ("Vary", "Origin") (by simp [CorsPolicy.commonHeaders]) (by decide)
  · rw [hmerged]
    exact hfound ("Access-Control-Allow-Methods", (e.plan request).allowMethods)
      (by simp [CorsPolicy.commonHeaders]) (by simp [CorsPolicy.headerNames])
  · intro hallowed
    rw [hmerged]
    exact hfound ("Access-Control-Allow-Headers", ", ".intercalate e.cors.allowedHeaders)
      (by simp [CorsPolicy.commonHeaders, hallowed]) (by simp [CorsPolicy.headerNames])

theorem not_carriesCors_brokenResponse (e : Endpoint) (request : Request) :
    ¬ e.CarriesCors request (brokenResponse request) := by
  intro hcarries
  have hvary := hcarries.vary
  rw [brokenResponse, Response.error_headers] at hvary
  exact absurd hvary (by decide)

/-- The answer to a request carries the cross-origin headers exactly when no fault stops the request. -/
theorem carriesCors_iff_not_stops (e : Endpoint) (requestId : String) (start finish : Number)
    (request : Request) :
    e.CarriesCors request (e.handle requestId start finish request).response ↔ ¬ e.Stops request := by
  rw [stops_iff]
  cases hresult : (e.perform (e.plan request) request).result with
  | ok response =>
    have hresponse : (e.handle requestId start finish request).response =
        response.withHeaders (e.plan request).cors.headers := by
      simp [handle, respond?, hresult]
    rw [hresponse]
    simpa using e.carriesCors_withHeaders request (e.perform_hasOwnNames request hresult)
  | error fault =>
    cases fault with
    | refused error =>
      have hresponse : (e.handle requestId start finish request).response =
          (render (e.plan request) request error).withHeaders (e.plan request).cors.headers := by
        simp [handle, respond?, hresult]
      rw [hresponse]
      simpa using e.carriesCors_withHeaders request (render_hasOwnNames (e.plan request) request error)
    | broken fault =>
      have hresponse : (e.handle requestId start finish request).response = brokenResponse request := by
        simp [handle, respond?, hresult]
      rw [hresponse]
      simpa using e.not_carriesCors_brokenResponse request

/-- A table with one procedure, which may return anything. -/
def looseTable : Entries Definition :=
  [("big", (Definition.empty.returning .unknown).routed "GET" "/big")]

/-- A handler that returns an integer of unbounded size, for which there is no JSON text. -/
def bigintHandlers : Entries HandlerEntry :=
  [("big", .function fun _ => .ok (.bigint 7))]

/-- A result that cannot be written costs the answer its cross-origin headers. -/
theorem bigint_result_lacks_cors :
    ∃ (service : Service) (implementation : Implementation) (e : Endpoint),
      Service.build "s" [] looseTable = .ok service ∧
      Implementation.bind service bigintHandlers = .ok implementation ∧
      Endpoint.create implementation ⟨["example.com"], ["x"], .ofInt defaultMaxBodySize⟩ = .ok e ∧
      ¬ e.CarriesCors (.make "GET" "/big" "" [("Origin", "https://example.com")] [])
        (e.handle "req-1" 0 0 (.make "GET" "/big" "" [("Origin", "https://example.com")] [])).response := by
  refine ⟨_, _, _, rfl, rfl, rfl, fun hcarries => ?_⟩
  exact absurd hcarries.vary (by decide +kernel)

end Endpoint

end Gateway

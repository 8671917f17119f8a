import Gateway.Proofs.AnswerHeaders
import Gateway.Proofs.ProtocolAgreement

/-!
# Granted origins

An answer grants an origin in one header.  Whatever way a request takes, its answer grants at most the origin that was
sent, and only if the policy allows it (`GrantsOnly`).  An origin that is refused costs the request nothing else: it is
answered as if it had been sent without one (`handle_of_rejected`, `handleStream_of_rejected`).
-/

namespace Gateway

/-! ## The header that grants an origin -/

/-- The headers of a name. -/
def Headers.named (name : String) (headers : Headers) : Headers :=
  headers.filter fun h => sameName h.1 name

theorem Headers.named_append (name : String) (a b : Headers) :
    (a ++ b : Headers).named name = a.named name ++ b.named name :=
  List.filter_append a b

namespace CorsPolicy

/-- The header that grants an origin. -/
def originHeader : String := "Access-Control-Allow-Origin"

/-- Headers that grant at most the origin that was sent, and only if the policy allows it. -/
structure GrantsOnly (p : CorsPolicy) (origin : Option String) (headers : Headers) : Prop where
  once : (headers.named originHeader).length ≤ 1
  sent : ∀ h ∈ headers.named originHeader, origin = some h.2 ∧ p.origins.allows h.2 = true

theorem GrantsOnly.of_named_eq_nil {p : CorsPolicy} {origin : Option String} {headers : Headers}
    (h : headers.named originHeader = []) : p.GrantsOnly origin headers := by
  constructor
  · simp [h]
  · simp [h]

/-- Nothing is granted to an origin that the policy refuses. -/
theorem GrantsOnly.named_eq_nil {p : CorsPolicy} {origin : String} {headers : Headers}
    (h : p.GrantsOnly (some origin) headers) (hrefused : p.origins.allows origin = false) :
    headers.named originHeader = [] := by
  rw [List.eq_nil_iff_forall_not_mem]
  intro granted hgranted
  obtain ⟨hsent, hallows⟩ := h.sent granted hgranted
  rw [← Option.some.inj hsent, hrefused] at hallows
  cases hallows

theorem commonHeaders_named (p : CorsPolicy) (methods : String) :
    (p.commonHeaders methods).named originHeader = [] := by
  have hvary : Headers.sameName "Vary" originHeader = false := by decide
  have hmethods : Headers.sameName "Access-Control-Allow-Methods" originHeader = false := by decide
  have hheaders : Headers.sameName "Access-Control-Allow-Headers" originHeader = false := by decide
  unfold commonHeaders
  split <;> simp [Headers.named, hvary, hmethods, hheaders]

theorem headersFor_grantsOnly (p : CorsPolicy) (methods : String) (origin : Option String) :
    p.GrantsOnly origin (p.headersFor methods origin).headers := by
  cases origin with
  | none => exact .of_named_eq_nil (p.commonHeaders_named methods)
  | some o =>
    rw [headersFor]
    cases hallows : p.origins.allows o with
    | false => exact .of_named_eq_nil (p.commonHeaders_named methods)
    | true =>
      have hgranted : Headers.named originHeader
          (p.commonHeaders methods ++ [("Access-Control-Allow-Origin", o)]) = [(originHeader, o)] := by
        rw [Headers.named_append, commonHeaders_named]
        simp [Headers.named, Headers.sameName, originHeader]
      rw [if_pos rfl]
      constructor
      · simp [hgranted]
      · simp [hgranted, hallows]

/-- A refused origin gets the headers of a request without an origin. -/
theorem headersFor_of_rejected {p : CorsPolicy} {origin : String} (h : p.origins.allows origin = false)
    (methods : String) : (p.headersFor methods (some origin)).headers = (p.headersFor methods none).headers := by
  simp [headersFor, h]

end CorsPolicy

namespace Endpoint

theorem grantsOnly_of_own {e : Endpoint} {request : Request} {own : Headers}
    (h : own ∈ ownHeaders (e.plan request)) :
    e.cors.GrantsOnly (request.header? "origin") (own ++ (e.plan request).cors.headers) := by
  have hown : own.named CorsPolicy.originHeader = [] := by
    have hlisted : CorsPolicy.originHeader ∈ CorsPolicy.headerNames := by
      simp [CorsPolicy.headerNames, CorsPolicy.originHeader]
    rw [Headers.named, List.filter_eq_nil_iff]
    intro x hx
    rw [ownNames_apart x.1 ((names_of_ownHeaders h).subset (List.mem_map_of_mem hx)) _ hlisted]
    exact Bool.false_ne_true
  have hcors := e.cors.headersFor_grantsOnly (e.plan request).allowMethods (request.header? "origin")
  have hnamed : Headers.named CorsPolicy.originHeader (own ++ (e.plan request).cors.headers) =
      (e.plan request).cors.headers.named CorsPolicy.originHeader := by
    rw [Headers.named_append, hown, List.nil_append]
  constructor
  · rw [hnamed]
    exact hcors.once
  · rw [hnamed]
    exact hcors.sent

theorem handle_grantsOnly (e : Endpoint) (requestId : String) (start finish : Number) (request : Request) :
    e.cors.GrantsOnly (request.header? "origin") (e.handle requestId start finish request).response.headers := by
  rcases e.handle_headers requestId start finish request with ⟨own, hown, hheaders⟩ | hheaders
  · rw [hheaders]
    exact grantsOnly_of_own hown
  · rw [hheaders]
    exact .of_named_eq_nil (by decide)

theorem refuseBody_grantsOnly (e : Endpoint) (r : StreamRequest) (error : GatewayError) :
    e.cors.GrantsOnly (r.head.header? "origin") (e.refuseBody r error).headers := by
  rw [refuseBody_headers]
  exact grantsOnly_of_own (by simp [ownHeaders])

end Endpoint

/-! ## Requests without their origin -/

namespace Request

/-- The request without its origin. -/
def withoutOrigin (r : Request) : Request :=
  { r with headers := Headers.without "origin" r.headers }

theorem withoutOrigin_origin (r : Request) : r.withoutOrigin.header? "origin" = none := by
  rw [header?, Entries.get?_eq_none_iff]
  intro hmem
  obtain ⟨h, hh, hname⟩ := List.mem_map.mp hmem
  have hother := (List.mem_filter.mp hh).2
  simp [hname, Headers.sameName] at hother

/-- A header of a request is the last one that was sent under its name, in whatever case. -/
theorem get?_headerMap (headers : Headers) (name : String) :
    Entries.get? (headerMap headers) name =
      Entries.get? (headers.map fun h => (Text.lower h.1, h.2)).reverse name := by
  have hmap : headerMap headers =
      (headers.map fun h => (Text.lower h.1, h.2)).foldl (fun es h => Entries.set es h.1 h.2) [] := by
    rw [List.foldl_map]
    rfl
  rw [hmap, Entries.get?_foldl_write fun es key v => Entries.get?_set es key name v]
  simp

end Request

namespace StreamRequest

/-- The streamed request without its origin. -/
def withoutOrigin (r : StreamRequest) : StreamRequest :=
  { r with headers := r.headers.filter fun h => !Headers.sameName h.1 "origin" }

theorem withoutOrigin_origin (r : StreamRequest) : r.withoutOrigin.head.header? "origin" = none := by
  have hheaders : r.withoutOrigin.head.headers = Request.headerMap r.withoutOrigin.flatHeaders := rfl
  have hlower : Text.lower "origin" = "origin" := by decide
  rw [Request.header?, hheaders, Request.get?_headerMap, Entries.get?_eq_none_iff, Entries.keys, List.map_reverse,
    List.mem_reverse, List.map_map, List.mem_map]
  rintro ⟨h, hh, hname⟩
  obtain ⟨⟨name, field⟩, hfield, hflat⟩ := List.mem_filterMap.mp hh
  have hother := (List.mem_filter.mp hfield).2
  have hsame : h.1 = name := by
    cases field with
    | absent => cases hflat
    | one value => rw [← Option.some.inj hflat]
    | many values => rw [← Option.some.inj hflat]
  simp only [Function.comp_apply, hsame] at hname
  simp [Headers.sameName, hname, hlower] at hother

/-- The origin of a streamed request is not needed to read it. -/
theorem toRequest_withoutOrigin (limit : Number) (r : StreamRequest) :
    r.withoutOrigin.toRequest limit =
      (r.toRequest limit).map fun request => { request with headers := r.withoutOrigin.head.headers } := by
  have hhead : r.withoutOrigin.head = { r.head with headers := r.withoutOrigin.head.headers } := rfl
  have hchunks : r.withoutOrigin.chunks = r.chunks := rfl
  unfold toRequest
  rw [hhead, hchunks]
  cases hasBody r.head.method with
  | false => rfl
  | true =>
    simp only [if_pos]
    cases readBody limit r.chunks with
    | ok body => rfl
    | error fault => rfl

/-- A streamed request is read with the headers of its head. -/
theorem header?_of_toRequest {limit : Number} {r : StreamRequest} {request : Request}
    (h : r.toRequest limit = .ok request) (name : String) : request.header? name = r.head.header? name := by
  unfold toRequest at h
  split at h
  · split at h
    · rw [← Except.ok.inj h]
      rfl
    · cases h
  · rw [← Except.ok.inj h]

end StreamRequest

/-! ## Refused origins -/

namespace Endpoint

theorem written_congr {plan plan' : Plan} {request request' : Request}
    (hmethod : request.method = request'.method) (hpath : request.path = request'.path)
    (hmethods : plan.allowMethods = plan'.allowMethods) (hcors : plan.cors.headers = plan'.cors.headers)
    (result : Except CallFault Response) : written plan request result = written plan' request' result := by
  unfold written
  split
  · rw [hcors]
  · unfold render
    rw [hmethod, hpath, hmethods, hcors]
  · rw [brokenResponse, brokenResponse, hmethod, hpath]

/-- Of the headers of a request only the origin matters. -/
theorem handle_of_headers (e : Endpoint) (requestId requestId' : String) (start start' finish finish' : Number)
    {request : Request} {headers : Entries String}
    (hcors : (e.plan { request with headers }).cors.headers = (e.plan request).cors.headers) :
    (e.handle requestId' start' finish' { request with headers }).response =
      (e.handle requestId start finish request).response := by
  have hperform : e.perform (e.plan { request with headers }) { request with headers } =
      e.perform (e.plan request) request :=
    e.perform_congr rfl rfl rfl
  rw [handle_response, handle_response, hperform]
  refine written_congr ?_ ?_ ?_ hcors _
  · rfl
  · rfl
  · rfl

theorem cors_of_rejected {e : Endpoint} {request : Request} {origin : String}
    (hsent : request.header? "origin" = some origin) (hrefused : e.cors.origins.allows origin = false)
    {headers : Entries String} (hnone : Entries.get? headers "origin" = none) :
    (e.plan { request with headers }).cors.headers = (e.plan request).cors.headers := by
  have hcors : (e.plan request).cors.headers =
      (e.cors.headersFor (e.plan request).allowMethods (request.header? "origin")).headers := rfl
  have hcors' : (e.plan { request with headers }).cors.headers =
      (e.cors.headersFor (e.plan request).allowMethods (Entries.get? headers "origin")).headers := rfl
  rw [hcors, hcors', hsent, hnone, CorsPolicy.headersFor_of_rejected hrefused]

/-- A request with a refused origin is answered as it is without one. -/
theorem handle_of_rejected {e : Endpoint} {request : Request} {origin : String}
    (hsent : request.header? "origin" = some origin) (hrefused : e.cors.origins.allows origin = false)
    (requestId requestId' : String) (start start' finish finish' : Number) :
    (e.handle requestId' start' finish' request.withoutOrigin).response =
      (e.handle requestId start finish request).response :=
  e.handle_of_headers _ _ _ _ _ _ (cors_of_rejected hsent hrefused request.withoutOrigin_origin)

theorem refuseBody_of_rejected {e : Endpoint} {r : StreamRequest} {origin : String}
    (hsent : r.head.header? "origin" = some origin) (hrefused : e.cors.origins.allows origin = false)
    (error : GatewayError) : e.refuseBody r.withoutOrigin error = e.refuseBody r error := by
  have hcors : (e.plan r.withoutOrigin.head).cors.headers = (e.plan r.head).cors.headers :=
    cors_of_rejected hsent hrefused r.withoutOrigin_origin
  rw [refuseBody, refuseBody, hcors]
  rfl

theorem handleStream_of_rejected {e : Endpoint} {r : StreamRequest} {origin : String}
    (hsent : r.head.header? "origin" = some origin) (hrefused : e.cors.origins.allows origin = false)
    (requestId requestId' : String) (start start' finish finish' : Number) :
    (e.handleStream requestId' start' finish' r.withoutOrigin).written =
      (e.handleStream requestId start finish r).written := by
  have hread' := r.toRequest_withoutOrigin e.maxBodySize
  cases hread : r.toRequest e.maxBodySize with
  | ok request =>
    rw [hread] at hread'
    have horigin : request.header? "origin" = some origin :=
      (StreamRequest.header?_of_toRequest hread "origin").trans hsent
    have hnone : Entries.get? r.withoutOrigin.head.headers "origin" = none := r.withoutOrigin_origin
    have hsame := e.handle_of_headers requestId requestId' start start' finish finish'
      (cors_of_rejected horigin hrefused hnone)
    rw [handleStream_of_read hread, handleStream_of_read hread']
    simp only [hsame]
  | error fault =>
    rw [hread] at hread'
    cases fault with
    | refused error =>
      rw [handleStream_of_refused hread, handleStream_of_refused hread', refuseBody_of_rejected hsent hrefused]
    | failed fault => rw [handleStream_of_failed hread, handleStream_of_failed hread']

theorem handleStream_grantsOnly {e : Endpoint} {requestId : String} {start finish : Number} {r : StreamRequest}
    {sent : SentResponse} (h : (e.handleStream requestId start finish r).written = .ok sent) :
    e.cors.GrantsOnly (r.head.header? "origin") sent.headers := by
  cases hread : r.toRequest e.maxBodySize with
  | ok request =>
    rw [handleStream_of_read hread] at h
    cases h
    rw [← StreamRequest.header?_of_toRequest hread]
    exact e.handle_grantsOnly requestId start finish request
  | error fault =>
    cases fault with
    | refused error =>
      rw [handleStream_of_refused hread] at h
      cases h
      exact e.refuseBody_grantsOnly r error
    | failed fault =>
      rw [handleStream_of_failed hread] at h
      cases h

/-- An answer grants at most the origin that was sent, and only if the policy allows it, on a stream as well.  A request
with a refused origin is granted none, and has the answer that it has without an origin. -/
theorem granted_origins_allowed (e : Endpoint) (requestId requestId' : String)
    (start start' finish finish' : Number) :
    (∀ request : Request,
      e.cors.GrantsOnly (request.header? "origin") (e.handle requestId start finish request).response.headers) ∧
    (∀ (request : Request) (origin : String),
      request.header? "origin" = some origin → e.cors.origins.allows origin = false →
      (e.handle requestId start finish request).response.headers.named CorsPolicy.originHeader = [] ∧
      request.withoutOrigin.header? "origin" = none ∧
      (e.handle requestId' start' finish' request.withoutOrigin).response =
        (e.handle requestId start finish request).response) ∧
    (∀ (r : StreamRequest) (sent : SentResponse), (e.handleStream requestId start finish r).written = .ok sent →
      e.cors.GrantsOnly (r.head.header? "origin") sent.headers) ∧
    (∀ (r : StreamRequest) (origin : String),
      r.head.header? "origin" = some origin → e.cors.origins.allows origin = false →
      (∀ sent, (e.handleStream requestId start finish r).written = .ok sent →
        Headers.named CorsPolicy.originHeader sent.headers = []) ∧
      r.withoutOrigin.head.header? "origin" = none ∧
      (e.handleStream requestId' start' finish' r.withoutOrigin).written =
        (e.handleStream requestId start finish r).written) := by
  refine ⟨e.handle_grantsOnly requestId start finish, ?_, fun r sent hsent => handleStream_grantsOnly hsent, ?_⟩
  · intro request origin hsent hrefused
    have hgrants := e.handle_grantsOnly requestId start finish request
    rw [hsent] at hgrants
    exact ⟨hgrants.named_eq_nil hrefused, request.withoutOrigin_origin,
      handle_of_rejected hsent hrefused _ _ _ _ _ _⟩
  · intro r origin horigin hrefused
    refine ⟨?_, r.withoutOrigin_origin, handleStream_of_rejected horigin hrefused _ _ _ _ _ _⟩
    intro sent hsent
    have hgrants := handleStream_grantsOnly hsent
    rw [horigin] at hgrants
    exact hgrants.named_eq_nil hrefused

/-- A streamed request of three bytes from an origin. -/
def itemStream (origin : String) : StreamRequest :=
  ⟨some "POST", some "/?method=item", [("Origin", .one origin)], [.data [0x7B, 0x20, 0x7D]]⟩

theorem granted_origins_allowed_item :
    ∃ (service : Service) (implementation : Implementation) (e : Endpoint) (sent : SentResponse),
      Service.build "s" [] itemTable = .ok service ∧
      Implementation.bind service echoHandlers = .ok implementation ∧
      Endpoint.create implementation ⟨["*.example.com"], [], .ofInt 2⟩ = .ok e ∧
      e.cors.origins.allows "https://example.com" = false ∧
      (e.handle "req-1" 0 0 (itemStream "https://example.com").head.withoutOrigin).response =
        (e.handle "req-2" 0 0 (itemStream "https://example.com").head).response ∧
      (e.handleStream "req-1" 0 0 (itemStream "https://example.com").withoutOrigin).written =
        (e.handleStream "req-2" 0 0 (itemStream "https://example.com")).written ∧
      (e.handleStream "req-2" 0 0 (itemStream "https://a.example.com")).written = .ok sent ∧
      sent.status = 413 ∧
      Headers.named CorsPolicy.originHeader sent.headers = [(CorsPolicy.originHeader, "https://a.example.com")] ∧
      e.cors.GrantsOnly (some "https://a.example.com") sent.headers := by
  have hready : ∃ (service : Service) (implementation : Implementation) (e : Endpoint) (sent : SentResponse),
      Service.build "s" [] itemTable = .ok service ∧
      Implementation.bind service echoHandlers = .ok implementation ∧
      Endpoint.create implementation ⟨["*.example.com"], [], .ofInt 2⟩ = .ok e ∧
      e.cors.origins.allows "https://example.com" = false ∧
      (e.handleStream "req-2" 0 0 (itemStream "https://a.example.com")).written = .ok sent ∧
      sent.status = 413 ∧
      Headers.named CorsPolicy.originHeader sent.headers = [(CorsPolicy.originHeader, "https://a.example.com")] :=
    ⟨_, _, _, _, rfl, rfl, rfl, by decide +kernel, rfl, by decide +kernel, by decide +kernel⟩
  obtain ⟨service, implementation, e, sent, hbuild, hbind, hcreate, hrefused, hsent, hstatus, hnamed⟩ := hready
  have hstray : (itemStream "https://example.com").head.header? "origin" = some "https://example.com" := by decide
  have hknown : (itemStream "https://a.example.com").head.header? "origin" = some "https://a.example.com" := by decide
  obtain ⟨-, hrequests, hgrants, hstreams⟩ := granted_origins_allowed e "req-2" "req-1" 0 0 0 0
  have hgranted := hgrants _ sent hsent
  rw [hknown] at hgranted
  exact ⟨service, implementation, e, sent, hbuild, hbind, hcreate, hrefused, (hrequests _ _ hstray hrefused).2.2,
    (hstreams _ _ hstray hrefused).2.2, hsent, hstatus, hnamed, hgranted⟩

end Endpoint

end Gateway

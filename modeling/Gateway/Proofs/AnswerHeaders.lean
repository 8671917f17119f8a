import Gateway.Proofs.CorsHeaders
import Gateway.Proofs.EntryKeys
import Gateway.Proofs.Refusals
import Gateway.Transport.Stream

/-!
# The headers of answers

An answer has at most two headers of its own, and the cross-origin headers after them.  No name occurs twice among
them and each is a name that an object of headers stores as it is, so an answer is written to a stream with just the
headers that it has (`handleStream_of_read`, `handleStream_of_refused`).
-/

namespace Gateway

namespace Endpoint

/-! ## Own headers and cross-origin headers -/

/-- An answer has headers of its own and the cross-origin headers; if a fault stopped the request, it has the header
of JSON answers only. -/
theorem handle_headers (e : Endpoint) (requestId : String) (start finish : Number) (request : Request) :
    (∃ own ∈ ownHeaders (e.plan request),
      (e.handle requestId start finish request).response.headers = own ++ (e.plan request).cors.headers) ∨
    (e.handle requestId start finish request).response.headers = Response.jsonHeaders := by
  rw [handle_response]
  cases hresult : (e.perform (e.plan request) request).result with
  | ok response =>
    exact .inl ⟨_, e.perform_headers request hresult,
      withHeaders_cors response (e.perform_hasOwnNames request hresult) _ _ _⟩
  | error fault =>
    cases fault with
    | refused error =>
      exact .inl ⟨_, render_headers (e.plan request) request error,
        withHeaders_cors _ (render_hasOwnNames (e.plan request) request error) _ _ _⟩
    | broken fault => exact .inr (Response.error_headers _ _ _ _)

theorem refuseBody_headers (e : Endpoint) (r : StreamRequest) (error : GatewayError) :
    (e.refuseBody r error).headers = Response.jsonHeaders ++ (e.plan r.head).cors.headers := by
  have hjson : (Response.ofError error r.head.method r.head.path).headers = Response.jsonHeaders :=
    Response.error_headers _ _ _ _
  have hown : (Response.ofError error r.head.method r.head.path).headers ∈ ownHeaders (e.plan r.head) := by
    simp [ownHeaders, hjson]
  rw [refuseBody, ← hjson]
  exact withHeaders_cors _ (hasOwnNames_of_ownHeaders hown) _ _ _

/-! ## Names -/

/-- The names that the headers of an answer can have, in their order. -/
def answerNames : List String := ownNames ++ CorsPolicy.headerNames

theorem jsonHeaders_names : (Response.jsonHeaders.map (·.1)).Sublist answerNames :=
  (List.nil_sublist _).cons_cons "Content-Type"

theorem names_append_cors (e : Endpoint) (request : Request) {own : Headers}
    (h : own ∈ ownHeaders (e.plan request)) :
    ((own ++ (e.plan request).cors.headers).map (·.1)).Sublist answerNames := by
  rw [List.map_append]
  exact (names_of_ownHeaders h).append (e.cors.headersFor_names _ _)

theorem handle_headers_names (e : Endpoint) (requestId : String) (start finish : Number) (request : Request) :
    ((e.handle requestId start finish request).response.headers.map (·.1)).Sublist answerNames := by
  rcases e.handle_headers requestId start finish request with ⟨own, hown, hheaders⟩ | hheaders
  · rw [hheaders]
    exact e.names_append_cors request hown
  · rw [hheaders]
    exact jsonHeaders_names

end Endpoint

/-! ## Answers as they are written -/

namespace SentResponse

/-- Whether an object of headers stores a name as it is: the name is not index-like, and no object answers to it
before it is written. -/
def isPlain (name : String) : Bool :=
  (Entries.indexOf? name).isNone && Member.find name == .absent

theorem addHeader_of_plain {headers : Entries String} {name : String} (hname : isPlain name = true)
    (hfresh : name ∉ Entries.keys headers) (value : String) :
    addHeader headers name value = headers ++ [(name, value)] := by
  rw [isPlain, Bool.and_eq_true, beq_iff_eq] at hname
  have hreserved : (name == Entries.reservedKey) = false := by
    rw [beq_eq_false_iff_ne]
    rintro rfl
    exact absurd hname.2 (by decide)
  have hhas : Entries.has headers name = false := by
    rwa [← Bool.not_eq_true, Entries.has_iff_mem_keys]
  have hlisted : listed? headers name = none := by
    rw [listed?, (Entries.get?_eq_none_iff headers name).mpr hfresh, hname.2]
  simp [addHeader, hlisted, Entries.store, hreserved, Entries.set, hhas]

theorem foldl_addHeader_of_plain (headers es : Entries String) (hplain : ∀ h ∈ headers, isPlain h.1 = true)
    (hnodup : (Entries.keys (es ++ headers)).Nodup) :
    headers.foldl (fun es h => addHeader es h.1 h.2) es = es ++ headers := by
  induction headers generalizing es with
  | nil => simp
  | cons h rest ih =>
    have hfresh : h.1 ∉ Entries.keys es := by
      rw [Entries.keys, List.map_append, List.map_cons] at hnodup
      exact fun hmem => List.disjoint_of_nodup_append hnodup hmem List.mem_cons_self
    have hadd := addHeader_of_plain (hplain h List.mem_cons_self) hfresh h.2
    have hrest : ∀ x ∈ rest, isPlain x.1 = true := fun x hx => hplain x (List.mem_cons_of_mem h hx)
    rw [List.foldl_cons, hadd, ih (es ++ [h]) hrest (by simpa using hnodup)]
    simp

/-- Headers with different plain names are written as they stand. -/
theorem ofResponse_of_plain {r : Response} (hplain : ∀ h ∈ r.headers, isPlain h.1 = true)
    (hnodup : (r.headers.map (·.1)).Nodup) : ofResponse r = ⟨r.status, r.headers, r.body⟩ := by
  have hindexed : ∀ key ∈ Entries.keys r.headers, Entries.indexOf? key = none := by
    intro key hkey
    obtain ⟨h, hh, rfl⟩ := List.mem_map.mp hkey
    have hname := hplain h hh
    rw [isPlain, Bool.and_eq_true] at hname
    exact Option.isNone_iff_eq_none.mp hname.1
  have harrange : Entries.arrange r.headers = r.headers :=
    (Entries.ofPairs_of_nodup hnodup).symm.trans
      (Entries.ofPairs_of_inOrder (Entries.inOrder_of_nodup hnodup hindexed))
  rw [ofResponse, foldl_addHeader_of_plain r.headers [] hplain hnodup, List.nil_append, harrange]

theorem ofResponse_of_names {r : Response} (hnames : (r.headers.map (·.1)).Sublist Endpoint.answerNames) :
    ofResponse r = ⟨r.status, r.headers, r.body⟩ := by
  have hplain : ∀ name ∈ Endpoint.answerNames, isPlain name = true := by decide
  have hnodup : Endpoint.answerNames.Nodup := by decide
  exact ofResponse_of_plain (fun h hh => hplain h.1 (hnames.subset (List.mem_map_of_mem hh))) (hnames.nodup hnodup)

end SentResponse

namespace Endpoint

/-- The answer of an endpoint is written with just the status, the headers and the body that it has. -/
theorem ofResponse_handle (e : Endpoint) (requestId : String) (start finish : Number) (request : Request) :
    SentResponse.ofResponse (e.handle requestId start finish request).response =
      ⟨(e.handle requestId start finish request).response.status,
        (e.handle requestId start finish request).response.headers,
        (e.handle requestId start finish request).response.body⟩ :=
  SentResponse.ofResponse_of_names (e.handle_headers_names requestId start finish request)

theorem ofResponse_refuseBody (e : Endpoint) (r : StreamRequest) (error : GatewayError) :
    SentResponse.ofResponse (e.refuseBody r error) =
      ⟨(e.refuseBody r error).status, (e.refuseBody r error).headers, (e.refuseBody r error).body⟩ := by
  apply SentResponse.ofResponse_of_names
  rw [refuseBody_headers]
  exact e.names_append_cors r.head (by simp [ownHeaders])

section

variable {e : Endpoint} {requestId : String} {start finish : Number} {r : StreamRequest}

theorem handleStream_of_read {request : Request} (h : r.toRequest e.maxBodySize = .ok request) :
    e.handleStream requestId start finish r =
      let handled := e.handle requestId start finish request
      ⟨.ok ⟨handled.response.status, handled.response.headers, handled.response.body⟩, handled.log⟩ := by
  unfold handleStream
  rw [h]
  simp only [ofResponse_handle]

theorem handleStream_of_refused {error : GatewayError} (h : r.toRequest e.maxBodySize = .error (.refused error)) :
    e.handleStream requestId start finish r =
      let refused := e.refuseBody r error
      ⟨.ok ⟨refused.status, refused.headers, refused.body⟩, [.readFailure]⟩ := by
  unfold handleStream
  rw [h]
  simp only [ofResponse_refuseBody]

theorem handleStream_of_failed {fault : Fault} (h : r.toRequest e.maxBodySize = .error (.failed fault)) :
    e.handleStream requestId start finish r = ⟨.error fault, [.readFailure]⟩ := by
  unfold handleStream
  rw [h]

end

end Endpoint

end Gateway

import Gateway.Proofs.AnswerHeaders
import Gateway.Proofs.ChunkedBodies
import Gateway.Proofs.LetterCases
import Gateway.Proofs.RoutedCalls

/-!
# Streamed requests

A streamed request that is read to its end (`ReadsAll`) gets written what the endpoint answers to the request with the
whole body; any other gets an answer with 413 that comes from its head and the limit alone, and no handler runs.  So
how a body is cut into chunks shows at most in the number of bytes that this answer names
(`streamed_transparently`).  A limit below zero is not noticed by a stream that delivers no chunk.
-/

namespace Gateway

/-! ## Reading to the end -/

namespace StreamRequest

theorem head_method (r : StreamRequest) : r.head.method = r.verb := by
  have hmethod : r.head.method = Text.upper r.verb := rfl
  rw [hmethod, verb, Text.upper_upper]

theorem hasBody_eq_false_iff (method : String) : hasBody method = false ↔ method = "GET" ∨ method = "HEAD" := by
  simp only [hasBody, WebRequest.isReading, Bool.not_eq_false', Bool.or_eq_true, beq_iff_eq]

/-- A streamed request with these chunks is read to its end: it is for reading only, or its body is not over the
limit, or no chunk arrives at all. -/
def ReadsAll (limit : Number) (r : StreamRequest) (parts : List Bytes) : Prop :=
  (r.verb = "GET" ∨ r.verb = "HEAD") ∨ limit.less (.ofInt parts.flatten.length) = false ∨ parts = []

/-- The request with all bytes of its body; a request for reading has none. -/
def whole (r : StreamRequest) (parts : List Bytes) : Request :=
  { r.head with body := if r.verb = "GET" ∨ r.verb = "HEAD" then [] else parts.flatten }

theorem toRequest_of_readsAll {limit : Number} {r : StreamRequest} {parts : List Bytes}
    (hchunks : r.chunks = parts.map .data) (h : r.ReadsAll limit parts) :
    r.toRequest limit = .ok (r.whole parts) := by
  unfold toRequest whole
  rw [head_method]
  by_cases hreading : r.verb = "GET" ∨ r.verb = "HEAD"
  · rw [(hasBody_eq_false_iff _).mpr hreading, if_pos hreading]
    rfl
  · have hbody : hasBody r.verb = true := by
      rw [← Bool.not_eq_false, hasBody_eq_false_iff]
      exact hreading
    rw [hbody, if_pos rfl, if_neg hreading, hchunks, readBody_within (h.resolve_left hreading)]

theorem toRequest_of_not_readsAll {limit : Number} {r : StreamRequest} {parts : List Bytes}
    (hchunks : r.chunks = parts.map .data) (h : ¬ r.ReadsAll limit parts) :
    ∃ taken, FirstOver limit 0 parts taken ∧
      r.toRequest limit = .error (.refused (.payloadTooLarge limit (.ofInt taken.flatten.length))) := by
  obtain ⟨hreading, hlong⟩ := not_or.mp h
  obtain ⟨hover, hne⟩ := not_or.mp hlong
  have hbody : hasBody r.head.method = true := by
    rw [← Bool.not_eq_false, hasBody_eq_false_iff, head_method]
    exact hreading
  obtain ⟨taken, hfirst, hread⟩ := readBody_over (Bool.not_eq_false _ ▸ hover) hne
  refine ⟨taken, hfirst, ?_⟩
  rw [toRequest, hbody, if_pos rfl, hchunks, hread]

end StreamRequest

/-! ## What is written -/

theorem Response.withHeaders_body (r : Response) (headers : Headers) : (r.withHeaders headers).body = r.body := rfl

namespace Endpoint

/-- The answer to a body that was refused after `received` bytes. -/
def tooLargeAnswer (e : Endpoint) (r : StreamRequest) (received : Nat) : SentResponse :=
  { status := 413
    headers := ("Content-Type", "application/json") :: (e.plan r.head).cors.headers
    body := (Response.ofError (.payloadTooLarge e.maxBodySize (.ofInt received)) r.head.method r.head.path).body }

theorem refuseBody_tooLarge (e : Endpoint) (r : StreamRequest) (received : Nat) :
    let refused := e.refuseBody r (.payloadTooLarge e.maxBodySize (.ofInt received))
    ⟨refused.status, refused.headers, refused.body⟩ = e.tooLargeAnswer r received := by
  intro refused
  have hstatus : refused.status = 413 := Response.error_status _ _ _ _
  have hheaders : refused.headers = _ := e.refuseBody_headers r _
  have hbody : refused.body =
      (Response.ofError (.payloadTooLarge e.maxBodySize (.ofInt received)) r.head.method r.head.path).body :=
    Response.withHeaders_body _ _
  rw [hstatus, hheaders, hbody]
  rfl

theorem handleStream_of_not_readsAll {e : Endpoint} {r : StreamRequest} {parts : List Bytes}
    (hchunks : r.chunks = parts.map .data) (h : ¬ r.ReadsAll e.maxBodySize parts) (requestId : String)
    (start finish : Number) :
    ∃ taken, FirstOver e.maxBodySize 0 parts taken ∧
      e.handleStream requestId start finish r =
        ⟨.ok (e.tooLargeAnswer r taken.flatten.length), [.readFailure]⟩ := by
  obtain ⟨taken, hfirst, hread⟩ := StreamRequest.toRequest_of_not_readsAll hchunks h
  refine ⟨taken, hfirst, ?_⟩
  rw [handleStream_of_refused hread, ← refuseBody_tooLarge]

/-- A body that is not read to its end is refused without a look at the implementation. -/
theorem handleStream_of_implementation {e : Endpoint} {r : StreamRequest} {parts : List Bytes}
    (hchunks : r.chunks = parts.map .data) (h : ¬ r.ReadsAll e.maxBodySize parts) (implementation : Implementation)
    (requestId : String) (start finish : Number) :
    handleStream { e with implementation } requestId start finish r = e.handleStream requestId start finish r := by
  obtain ⟨taken, -, hread⟩ := StreamRequest.toRequest_of_not_readsAll hchunks h
  have hread' : r.toRequest ({ e with implementation } : Endpoint).maxBodySize = _ := hread
  rw [handleStream_of_refused hread, handleStream_of_refused hread']
  rfl

/-- Two ways to cut a body into chunks are both read to the end or both refused, unless the limit is below zero and
just one of them has no chunk. -/
theorem readsAll_congr {limit : Number} {r : StreamRequest} {parts parts' : List Bytes}
    (hbytes : parts'.flatten = parts.flatten)
    (hchunk : limit.less 0 = true → (parts' = [] ↔ parts = [])) :
    r.ReadsAll limit parts' ↔ r.ReadsAll limit parts := by
  unfold StreamRequest.ReadsAll
  rw [hbytes]
  cases hover : limit.less (.ofInt parts.flatten.length) with
  | false => simp
  | true =>
    by_cases hempty : parts.flatten = []
    · rw [hempty] at hover
      rw [hchunk hover]
    · have hne : parts ≠ [] := by
        rintro rfl
        exact hempty rfl
      have hne' : parts' ≠ [] := by
        rintro rfl
        exact hempty hbytes.symm
      simp [hne, hne']

/-- A streamed request that is read to its end gets written what the endpoint answers to the whole request, and leaves
the same log.  Any other gets an answer with 413 and the cross-origin headers of its head; no procedure is called, and
any other implementation gives the same.  Two ways to cut one body into chunks differ at most in the bytes that such an
answer names, unless the limit is below zero and just one of them has no chunk. -/
theorem streamed_transparently (e : Endpoint) (requestId requestId' : String) (start start' finish finish' : Number)
    (r : StreamRequest) (parts : List Bytes) (hchunks : r.chunks = parts.map .data) :
    (r.ReadsAll e.maxBodySize parts →
      let handled := e.handle requestId start finish (r.whole parts)
      e.handleStream requestId start finish r =
        ⟨.ok ⟨handled.response.status, handled.response.headers, handled.response.body⟩, handled.log⟩) ∧
    (¬ r.ReadsAll e.maxBodySize parts →
      (∃ taken, FirstOver e.maxBodySize 0 parts taken ∧
        e.handleStream requestId start finish r =
          ⟨.ok (e.tooLargeAnswer r taken.flatten.length), [.readFailure]⟩) ∧
      ∀ implementation : Implementation,
        handleStream { e with implementation } requestId start finish r =
          e.handleStream requestId start finish r) ∧
    (∀ parts' : List Bytes, parts'.flatten = parts.flatten →
      (e.maxBodySize.less 0 = true → (parts' = [] ↔ parts = [])) →
      let r' := { r with chunks := parts'.map .data }
      (e.handleStream requestId' start' finish' r').written = (e.handleStream requestId start finish r).written ∨
        ∃ received received' : Nat,
          (e.handleStream requestId start finish r).written = .ok (e.tooLargeAnswer r received) ∧
          (e.handleStream requestId' start' finish' r').written = .ok (e.tooLargeAnswer r received')) := by
  refine ⟨fun h => handleStream_of_read (StreamRequest.toRequest_of_readsAll hchunks h), ?_, ?_⟩
  · intro h
    exact ⟨handleStream_of_not_readsAll hchunks h requestId start finish,
      fun implementation => handleStream_of_implementation hchunks h implementation requestId start finish⟩
  · intro parts' hbytes hchunk r'
    have hsame : r'.ReadsAll e.maxBodySize parts' ↔ r.ReadsAll e.maxBodySize parts :=
      readsAll_congr hbytes hchunk
    by_cases h : r.ReadsAll e.maxBodySize parts
    · have hwhole : r'.whole parts' = r.whole parts := by
        rw [StreamRequest.whole, StreamRequest.whole, hbytes]
        rfl
      have hread := StreamRequest.toRequest_of_readsAll hchunks h
      have hread' : r'.toRequest e.maxBodySize = .ok (r.whole parts) :=
        hwhole ▸ StreamRequest.toRequest_of_readsAll rfl (hsame.mpr h)
      left
      rw [handleStream_of_read hread, handleStream_of_read hread']
      simp only [handle_response]
    · obtain ⟨taken, -, hwritten⟩ := handleStream_of_not_readsAll hchunks h requestId start finish
      obtain ⟨taken', -, hwritten'⟩ :=
        handleStream_of_not_readsAll (r := r') rfl (hsame.not.mpr h) requestId' start' finish'
      refine .inr ⟨taken.flatten.length, taken'.flatten.length, ?_, ?_⟩
      · rw [hwritten]
      · rw [hwritten']
        rfl

/-- A streamed request that names its procedure, with these chunks. -/
def namedStream (chunks : List Chunk) : StreamRequest :=
  ⟨some "post", some "/?method=item", [], chunks⟩

theorem streamed_transparently_item :
    ∃ (service : Service) (implementation : Implementation) (e : Endpoint),
      Service.build "s" [] itemTable = .ok service ∧
      Implementation.bind service echoHandlers = .ok implementation ∧
      Endpoint.create implementation ⟨[], [], .ofInt 1⟩ = .ok e ∧
      ¬ (namedStream [.data [0x7B], .data [0x20], .data [0x7D]]).ReadsAll e.maxBodySize [[0x7B], [0x20], [0x7D]] ∧
      (∃ taken, FirstOver e.maxBodySize 0 [[0x7B], [0x20], [0x7D]] taken ∧
        e.handleStream "req-1" 0 0 (namedStream [.data [0x7B], .data [0x20], .data [0x7D]]) =
          ⟨.ok (e.tooLargeAnswer (namedStream []) taken.flatten.length), [.readFailure]⟩) ∧
      ((e.handleStream "req-2" 0 0 (namedStream [.data [0x7B, 0x20, 0x7D]])).written =
          (e.handleStream "req-1" 0 0 (namedStream [.data [0x7B], .data [0x20], .data [0x7D]])).written ∨
        ∃ received received' : Nat,
          (e.handleStream "req-1" 0 0 (namedStream [.data [0x7B], .data [0x20], .data [0x7D]])).written =
            .ok (e.tooLargeAnswer (namedStream []) received) ∧
          (e.handleStream "req-2" 0 0 (namedStream [.data [0x7B, 0x20, 0x7D]])).written =
            .ok (e.tooLargeAnswer (namedStream []) received')) ∧
      (namedStream [.data [], .data [0x7B]]).ReadsAll e.maxBodySize [[], [0x7B]] ∧
      (e.handleStream "req-1" 0 0 (namedStream [.data [], .data [0x7B]])).log =
        (e.handle "req-1" 0 0 (.make "POST" "/" "method=item" [] [0x7B])).log := by
  have hready : ∃ (service : Service) (implementation : Implementation) (e : Endpoint),
      Service.build "s" [] itemTable = .ok service ∧
      Implementation.bind service echoHandlers = .ok implementation ∧
      Endpoint.create implementation ⟨[], [], .ofInt 1⟩ = .ok e ∧ e.maxBodySize = .ofInt 1 :=
    ⟨_, _, _, rfl, rfl, rfl, rfl⟩
  obtain ⟨service, implementation, e, hbuild, hbind, hcreate, hlimit⟩ := hready
  have hlong : ¬ (namedStream [.data [0x7B], .data [0x20], .data [0x7D]]).ReadsAll e.maxBodySize
      [[0x7B], [0x20], [0x7D]] := by
    rw [hlimit, StreamRequest.ReadsAll]
    decide
  have hshort : (namedStream [.data [], .data [0x7B]]).ReadsAll e.maxBodySize [[], [0x7B]] := by
    rw [hlimit, StreamRequest.ReadsAll]
    decide
  obtain ⟨-, hrefused, hcut⟩ := streamed_transparently e "req-1" "req-2" 0 0 0 0
    (namedStream [.data [0x7B], .data [0x20], .data [0x7D]]) [[0x7B], [0x20], [0x7D]] rfl
  have hread := (streamed_transparently e "req-1" "req-2" 0 0 0 0 _ [[], [0x7B]] rfl).1 hshort
  have hwhole : (namedStream [.data [], .data [0x7B]]).whole [[], [0x7B]] =
      .make "POST" "/" "method=item" [] [0x7B] := by decide
  rw [hwhole] at hread
  exact ⟨service, implementation, e, hbuild, hbind, hcreate, hlong, (hrefused hlong).1,
    hcut [[0x7B, 0x20, 0x7D]] rfl (by simp), hshort, by rw [hread]⟩

/-- A table with one procedure, which takes no arguments. -/
def openTable : Entries Definition := [("item", Definition.empty.returning .unknown)]

/-- No body is short enough for a limit below zero.  Yet a stream without chunks is answered, while the same body in
one empty chunk is refused. -/
theorem empty_stream_escapes_limit :
    ∃ (service : Service) (implementation : Implementation) (e : Endpoint) (sent sent' : SentResponse),
      Service.build "s" [] openTable = .ok service ∧
      Implementation.bind service echoHandlers = .ok implementation ∧
      Endpoint.create implementation ⟨[], [], .ofInt (-1)⟩ = .ok e ∧
      Number.atMost 0 e.maxBodySize = false ∧
      (e.handleStream "req-1" 0 0 (namedStream [])).written = .ok sent ∧ sent.status = 200 ∧
      (e.handleStream "req-1" 0 0 (namedStream [.data []])).written = .ok sent' ∧ sent'.status = 413 :=
  ⟨_, _, _, _, _, rfl, rfl, rfl, by decide +kernel, rfl, by decide +kernel, rfl, by decide +kernel⟩

end Endpoint

end Gateway

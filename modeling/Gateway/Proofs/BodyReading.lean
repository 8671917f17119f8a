import Gateway.Proofs.ChunkedBodies
import Gateway.Proofs.Utf8Bytes

/-!
# Reading a body is exact

A stream delivers bytes and texts, and then it ends or fails.  Its body is refused at the fewest chunks, but at least
one, with which it is over the limit, whatever comes after them.  If it never goes over the limit, the stream's failure
is the outcome if there is one, and else all bytes in their order (`readBody_exact`).  Sizes are compared when a chunk
arrives, so a stream that delivers nothing is within any limit, also one below zero.  A reading has an accumulator of
its own and leaves those of earlier readings as they were.
-/

namespace Gateway

/-! ## What a stream delivers -/

/-- What a stream delivers at once: bytes, or a text. -/
inductive Delivery where
  | bytes (bs : Bytes)
  | text (s : String)

namespace Delivery

/-- The chunk that is read. -/
def chunk : Delivery → Chunk
  | .bytes bs => .data bs
  | .text s => .ofValue (.string s)

/-- The bytes that are meant: a text stands for its UTF-8 bytes. -/
def content : Delivery → Bytes
  | .bytes bs => bs
  | .text s => s.toUTF8.data.toList

theorem chunk_eq (d : Delivery) : d.chunk = .data d.content := by
  cases d with
  | bytes bs => rfl
  | text s => exact congrArg Chunk.data (Text.Utf8.encode_eq_toUTF8 s)

theorem map_chunk_eq (items : List Delivery) : items.map chunk = (items.map content).map .data := by
  rw [List.map_map]
  exact List.map_congr_left fun d _ => chunk_eq d

end Delivery

/-- The chunks of a stream that delivers some items, and then ends or fails. -/
def streamOf (items : List Delivery) (failure : Option Fault) : List Chunk :=
  items.map Delivery.chunk ++ failure.toList.map .failure

/-! ## The outcome -/

/-- A body that does not go over the limit is at most that long, unless the limit is below zero and nothing came. -/
theorem atMost_of_within {limit : Number} {parts : List Bytes} (h : ¬GoesOver limit parts) (hlimit : limit ≠ .nan)
    (hsome : parts ≠ [] ∨ limit.less 0 = false) : (Number.ofInt parts.flatten.length).atMost limit = true := by
  apply Number.atMost_of_not_less (Number.ofInt_ne_nan _) hlimit
  by_cases hnil : parts = []
  · subst hnil
    exact hsome.resolve_left fun hne => hne rfl
  · rw [goesOver_iff, not_and, Bool.not_eq_true] at h
    exact h hnil

/-- If some first chunks of a stream, at least one, have a size above the limit, the body is refused with the size of
the fewest such chunks, which is above the limit, and nothing that comes after them changes that.  Otherwise the
stream's failure is the outcome if there is one, and else the bytes of all chunks in order; they are at most as many as
the limit, unless that is no number, or below zero and there was no chunk.  Every reading starts from an empty body,
whatever accumulators earlier readings have left, and leaves these as they were; so readings one after the other have
the outcomes that each of them has alone. -/
theorem readBody_exact (limit : Number) (items : List Delivery) (failure : Option Fault) :
    (GoesOver limit (items.map Delivery.content) →
      ∃ taken, FirstOver limit 0 (items.map Delivery.content) taken ∧
        limit.less (.ofInt taken.flatten.length) = true ∧
        readBody limit (streamOf items failure) =
          .error (.refused (.payloadTooLarge limit (.ofInt taken.flatten.length))) ∧
        ∀ later, readBody limit (taken.map .data ++ later) = readBody limit (streamOf items failure)) ∧
    (¬GoesOver limit (items.map Delivery.content) →
      (∀ fault, failure = some fault → readBody limit (streamOf items failure) = .error (.failed fault)) ∧
      (failure = none →
        readBody limit (streamOf items failure) = .ok (items.map Delivery.content).flatten ∧
        (limit ≠ .nan → items ≠ [] ∨ limit.less 0 = false →
          (Number.ofInt (items.map Delivery.content).flatten.length).atMost limit = true))) ∧
    (∀ earlier : BodyStore, ∃ own,
      readInto limit earlier (streamOf items failure) = (readBody limit (streamOf items failure), earlier ++ [own])) ∧
    ∀ (earlier : BodyStore) (runs : List (List Chunk)),
      readRuns limit earlier runs = runs.map (readBody limit) := by
  refine ⟨?_, ?_, fun earlier => readInto_eq limit earlier _, readRuns_eq limit⟩
  · intro hover
    obtain ⟨taken, hfirst⟩ := (goesOver_iff_exists_firstOver _ _).mp hover
    obtain ⟨others, hparts⟩ := hfirst.listed
    have hexceeds := hfirst.exceeds
    rw [Nat.zero_add] at hexceeds
    have hread : readBody limit (streamOf items failure) =
        .error (.refused (.payloadTooLarge limit (.ofInt taken.flatten.length))) := by
      rw [streamOf, Delivery.map_chunk_eq, ← hparts, List.map_append, List.append_assoc]
      exact readBody_of_firstOver hfirst _
    refine ⟨taken, hfirst, hexceeds, hread, ?_⟩
    intro later
    rw [hread]
    exact readBody_of_firstOver hfirst later
  · intro hwithin
    have hread := readBody_of_within hwithin failure
    rw [← Delivery.map_chunk_eq] at hread
    refine ⟨?_, ?_⟩
    · rintro fault rfl
      exact hread
    · rintro rfl
      refine ⟨hread, ?_⟩
      intro hlimit hsome
      exact atMost_of_within hwithin hlimit (hsome.imp_left fun hne => by simpa using hne)

/-- Two bytes, a letter of two bytes and one of one byte. -/
def mixedItems : List Delivery :=
  [.bytes [1, 2], .text "é", .text "x"]

/-- A stream that breaks off after `mixedItems` is refused before that if the limit is three, and fails if it is five;
and five bytes are read if the stream ends, also after a reading that broke off. -/
theorem readBody_exact_mixed :
    (∃ taken, FirstOver 3 0 (mixedItems.map Delivery.content) taken ∧
      readBody 3 (streamOf mixedItems (some ⟨.error, "broken"⟩)) =
        .error (.refused (.payloadTooLarge 3 (.ofInt taken.flatten.length)))) ∧
    readBody 5 (streamOf mixedItems (some ⟨.error, "broken"⟩)) = .error (.failed ⟨.error, "broken"⟩) ∧
    readBody 5 (streamOf mixedItems none) = .ok [1, 2, 0xC3, 0xA9, 0x78] ∧
    (Number.ofInt (5 : Nat)).atMost 5 = true ∧
    readRuns 5 [⟨[[7]], 4⟩] [streamOf mixedItems (some ⟨.error, "broken"⟩), streamOf mixedItems none] =
      [.error (.failed ⟨.error, "broken"⟩), .ok [1, 2, 0xC3, 0xA9, 0x78]] := by
  have hcontent : mixedItems.map Delivery.content = [[1, 2], [0xC3, 0xA9], [0x78]] := by decide +kernel
  have hover : GoesOver 3 (mixedItems.map Delivery.content) := by
    rw [goesOver_iff, hcontent]
    decide +kernel
  have hwithin : ¬GoesOver 5 (mixedItems.map Delivery.content) := by
    rw [goesOver_iff, hcontent]
    decide +kernel
  obtain ⟨taken, hfirst, -, hrefused, -⟩ := (readBody_exact 3 mixedItems (some ⟨.error, "broken"⟩)).1 hover
  have hfailed := ((readBody_exact 5 mixedItems (some ⟨.error, "broken"⟩)).2.1 hwithin).1 _ rfl
  obtain ⟨hread, hlength⟩ := ((readBody_exact 5 mixedItems none).2.1 hwithin).2 rfl
  have hruns := (readBody_exact 5 mixedItems none).2.2.2 [⟨[[7]], 4⟩]
    [streamOf mixedItems (some ⟨.error, "broken"⟩), streamOf mixedItems none]
  rw [hcontent] at hread hlength
  rw [List.map_cons, List.map_cons, List.map_nil, hfailed, hread] at hruns
  exact ⟨⟨taken, hfirst, hrefused⟩, hfailed, hread, hlength (by decide +kernel) (.inl (by simp [mixedItems])), hruns⟩

/-- The empty beginning of a stream has a size above a limit below zero.  Yet a stream that delivers nothing is read,
and the empty body is longer than the limit. -/
theorem empty_stream_unchecked :
    (Number.ofInt (-1)).less (.ofInt ([] : List Bytes).flatten.length) = true ∧
      readBody (.ofInt (-1)) (streamOf [] none) = .ok [] ∧
      (Number.ofInt ([] : Bytes).length).atMost (.ofInt (-1)) = false := by
  decide +kernel

end Gateway

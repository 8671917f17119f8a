import Gateway.Proofs.NearestNaturals
import Gateway.Transport.Body

/-!
# Bodies in chunks

The size of an accumulator is at every step the length of its chunks together (`BodyAccumulator.Exact`), so they fill
the buffer that is made of that size, and none is written beyond its end (`Exact.finish_eq`).  A body is refused at the
first chunk with which it is over the limit (`FirstOver`), whatever follows (`readBody_of_firstOver`).  The size of a
body only grows, so whether it is refused depends on its length and not on how it is cut into chunks (`goesOver_iff`);
only a limit below zero also refuses an empty chunk, but not a stream without any.
-/

namespace Gateway

/-- The chunks `taken` from the front of `parts` after `size` bytes are the fewest with which the size is over the
limit.  Nothing is checked before the first chunk. -/
structure FirstOver (limit : Number) (size : Nat) (parts taken : List Bytes) : Prop where
  listed : taken <+: parts
  ne_nil : taken ≠ []
  exceeds : limit.less (.ofInt (size + taken.flatten.length : Nat)) = true
  first : ∀ shorter, shorter <+: taken → shorter ≠ [] → shorter ≠ taken →
    limit.less (.ofInt (size + shorter.flatten.length : Nat)) = false

namespace FirstOver

variable {limit : Number} {size : Nat} {bytes : Bytes} {rest taken : List Bytes}

theorem singleton (h : limit.less (.ofInt (size + bytes.length : Nat)) = true) :
    FirstOver limit size (bytes :: rest) [bytes] := by
  refine ⟨⟨rest, rfl⟩, by simp, by simpa using h, ?_⟩
  intro shorter hshorter hne hother
  rcases List.prefix_cons_iff.mp hshorter with rfl | ⟨tail, rfl, htail⟩
  · exact absurd rfl hne
  · rw [List.prefix_nil.mp htail] at hother
    exact absurd rfl hother

theorem cons (hwithin : limit.less (.ofInt (size + bytes.length : Nat)) = false)
    (h : FirstOver limit (size + bytes.length) rest taken) : FirstOver limit size (bytes :: rest) (bytes :: taken) := by
  have hsize : ∀ chunks : List Bytes,
      size + (bytes :: chunks).flatten.length = size + bytes.length + chunks.flatten.length := by
    intro chunks
    rw [List.flatten_cons, List.length_append, Nat.add_assoc]
  refine ⟨List.prefix_cons_inj bytes |>.mpr h.listed, by simp, ?_, ?_⟩
  · rw [hsize]
    exact h.exceeds
  · intro shorter hshorter hne hother
    rcases List.prefix_cons_iff.mp hshorter with rfl | ⟨tail, rfl, htail⟩
    · exact absurd rfl hne
    · rw [hsize]
      by_cases hnil : tail = []
      · simpa [hnil] using hwithin
      · exact h.first tail htail hnil fun heq => hother (by rw [heq])

end FirstOver

/-! ## The accumulator -/

namespace BodyAccumulator

/-- The size is the length of all chunks together. -/
def Exact (a : BodyAccumulator) : Prop :=
  a.size = a.chunks.flatten.length

/-- The accumulator after a chunk that is kept. -/
def taking (a : BodyAccumulator) (bytes : Bytes) : BodyAccumulator :=
  (a.grow bytes.length).push bytes

theorem exact_empty : empty.Exact :=
  rfl

theorem Exact.taking {a : BodyAccumulator} (h : a.Exact) (bytes : Bytes) : (a.taking bytes).Exact := by
  show a.size + bytes.length = (a.chunks ++ [bytes]).flatten.length
  rw [List.flatten_append, List.length_append, ← h, List.flatten_singleton]

theorem Exact.foldl_taking {a : BodyAccumulator} (h : a.Exact) (parts : List Bytes) :
    (parts.foldl BodyAccumulator.taking a).Exact := by
  induction parts generalizing a with
  | nil => exact h
  | cons bytes parts ih => exact ih (h.taking bytes)

theorem chunks_foldl_taking (a : BodyAccumulator) (parts : List Bytes) :
    (parts.foldl taking a).chunks = a.chunks ++ parts := by
  induction parts generalizing a with
  | nil => exact (List.append_nil _).symm
  | cons bytes parts ih =>
    rw [List.foldl_cons, ih]
    exact List.append_assoc a.chunks [bytes] parts

/-- Chunks that are as long as the rest of a buffer are all copied into it. -/
theorem copyInto_eq {chunks : List Bytes} {written free : Bytes} (h : free.length = chunks.flatten.length) :
    copyInto (written ++ free) written.length chunks = .ok (written ++ chunks.flatten) := by
  induction chunks generalizing written free with
  | nil =>
    obtain rfl := List.length_eq_zero_iff.mp h
    rfl
  | cons chunk rest ih =>
    rw [List.flatten_cons, List.length_append] at h
    have hfits : written.length + chunk.length ≤ (written ++ free).length := by
      rw [List.length_append]
      omega
    have hbuffer : (written ++ free).take written.length ++ chunk ++
        (written ++ free).drop (written.length + chunk.length) = (written ++ chunk) ++ free.drop chunk.length := by
      rw [List.take_left, List.drop_append, Nat.add_sub_cancel_left, List.drop_eq_nil_of_le (Nat.le_add_right _ _),
        List.nil_append]
    have hfree : (free.drop chunk.length).length = rest.flatten.length := by
      rw [List.length_drop]
      omega
    rw [copyInto, if_pos hfits, hbuffer, ← List.length_append, ih hfree, List.flatten_cons, List.append_assoc]

theorem Exact.finish_eq {a : BodyAccumulator} (h : a.Exact) : a.finish = .ok a.chunks.flatten := by
  have hlength : (List.replicate a.size (0 : UInt8)).length = a.chunks.flatten.length :=
    List.length_replicate.trans h
  have hconcat : a.concat = .ok a.chunks.flatten := @copyInto_eq a.chunks [] _ hlength
  rw [finish, hconcat]

end BodyAccumulator

/-! ## Readings -/

theorem modify_last {α : Type} (before : List α) (a : α) (f : α → α) :
    (before ++ [a]).modify before.length f = before ++ [f a] := by
  induction before with
  | nil => rfl
  | cons first before ih => exact congrArg (first :: ·) ih

theorem getD_last {α : Type} (before : List α) (a default : α) : (before ++ [a]).getD before.length default = a := by
  simp

section Readings

variable (limit : Number) (before : BodyStore)

/-- One chunk changes the accumulator of its reading only. -/
theorem readChunks_data_cons (a : BodyAccumulator) (bytes : Bytes) (rest : List Chunk) :
    readChunks limit before.length (before ++ [a]) (.data bytes :: rest) =
      if limit.less (.ofInt (a.size + bytes.length : Nat)) then
        (.error (.refused (.payloadTooLarge limit (.ofInt (a.size + bytes.length : Nat)))),
          before ++ [a.grow bytes.length])
      else readChunks limit before.length (before ++ [a.taking bytes]) rest := by
  rw [readChunks]
  simp only [modify_last, getD_last]
  rfl

/-- Data is refused at the first chunk with which it is over the limit, or else it is all taken in. -/
theorem readChunks_data (a : BodyAccumulator) (parts : List Bytes) (rest : List Chunk) :
    (∃ taken, FirstOver limit a.size parts taken ∧
      (readChunks limit before.length (before ++ [a]) (parts.map .data ++ rest)).1 =
        .error (.refused (.payloadTooLarge limit (.ofInt (a.size + taken.flatten.length : Nat))))) ∨
    ((parts = [] ∨ limit.less (.ofInt (a.size + parts.flatten.length : Nat)) = false) ∧
      readChunks limit before.length (before ++ [a]) (parts.map .data ++ rest) =
        readChunks limit before.length (before ++ [parts.foldl .taking a]) rest) := by
  induction parts generalizing a with
  | nil => exact .inr ⟨.inl rfl, rfl⟩
  | cons bytes parts ih =>
    rw [List.map_cons, List.cons_append, readChunks_data_cons]
    cases hover : limit.less (.ofInt (a.size + bytes.length : Nat)) with
    | true => exact .inl ⟨[bytes], .singleton hover, by simp⟩
    | false =>
      have hsize : a.size + (bytes :: parts).flatten.length = a.size + bytes.length + parts.flatten.length := by
        rw [List.flatten_cons, List.length_append, Nat.add_assoc]
      simp only [Bool.false_eq_true, if_false]
      rcases ih (a.taking bytes) with ⟨taken, hfirst, hread⟩ | ⟨hwithin, hread⟩
      · refine .inl ⟨bytes :: taken, hfirst.cons hover, ?_⟩
        rw [hread, List.flatten_cons, List.length_append, ← Nat.add_assoc]
        rfl
      · refine .inr ⟨.inr ?_, hread⟩
        rw [hsize]
        rcases hwithin with rfl | hwithin
        · simpa using hover
        · exact hwithin

/-- A reading comes to the same whatever accumulators there are, and leaves them as they were. -/
theorem readChunks_frame (a : BodyAccumulator) (chunks : List Chunk) :
    ∃ own, readChunks limit before.length (before ++ [a]) chunks =
      ((readChunks limit 0 [a] chunks).1, before ++ [own]) := by
  have halone := readChunks_data_cons limit []
  induction chunks generalizing a with
  | nil =>
    refine ⟨a, ?_⟩
    rw [readChunks, getD_last]
    rfl
  | cons chunk rest ih =>
    cases chunk with
    | failure fault => exact ⟨a, rfl⟩
    | data bytes =>
      rw [readChunks_data_cons]
      have hown := halone a bytes rest
      rw [List.nil_append, List.length_nil] at hown
      rw [hown]
      split
      · exact ⟨_, rfl⟩
      · exact ih (a.taking bytes)

/-- Chunks of data are refused at the first one with which they are over the limit, or else what comes after them is
read into an accumulator that has them. -/
theorem readBody_data (parts : List Bytes) (rest : List Chunk) :
    (∃ taken, FirstOver limit 0 parts taken ∧
      readBody limit (parts.map .data ++ rest) =
        .error (.refused (.payloadTooLarge limit (.ofInt taken.flatten.length)))) ∨
    ((parts = [] ∨ limit.less (.ofInt parts.flatten.length) = false) ∧
      readBody limit (parts.map .data ++ rest) =
        (readChunks limit 0 [parts.foldl BodyAccumulator.taking .empty] rest).1) := by
  have hsize : ∀ chunks : List Bytes, BodyAccumulator.empty.size + chunks.flatten.length = chunks.flatten.length :=
    fun _ => Nat.zero_add _
  have hdata := readChunks_data limit [] .empty parts rest
  simp only [hsize] at hdata
  exact hdata.imp_right fun ⟨hwithin, hread⟩ => ⟨hwithin, congrArg Prod.fst hread⟩

theorem readInto_eq (chunks : List Chunk) :
    ∃ own, readInto limit before chunks = (readBody limit chunks, before ++ [own]) :=
  readChunks_frame limit before .empty chunks

/-- Readings one after the other have the outcomes that each of them has alone. -/
theorem readRuns_eq (runs : List (List Chunk)) : readRuns limit before runs = runs.map (readBody limit) := by
  induction runs generalizing before with
  | nil => rfl
  | cons chunks rest ih =>
    obtain ⟨own, hread⟩ := readInto_eq limit before chunks
    rw [readRuns, hread, ih, List.map_cons]

end Readings

/-! ## Going over the limit -/

/-- Some first parts, at least one, have together a size above the limit. -/
def GoesOver (limit : Number) (parts : List Bytes) : Prop :=
  ∃ first, first <+: parts ∧ first ≠ [] ∧ limit.less (.ofInt first.flatten.length) = true

/-- Parts go over the limit exactly if there are any and all of them have a size above it. -/
theorem goesOver_iff (limit : Number) (parts : List Bytes) :
    GoesOver limit parts ↔ parts ≠ [] ∧ limit.less (.ofInt parts.flatten.length) = true := by
  constructor
  · rintro ⟨first, ⟨others, rfl⟩, hne, hexceeds⟩
    refine ⟨by simp [hne], Number.less_ofInt_mono ?_ hexceeds⟩
    rw [List.flatten_append, List.length_append]
    omega
  · rintro ⟨hne, hexceeds⟩
    exact ⟨parts, List.prefix_refl parts, hne, hexceeds⟩

theorem goesOver_iff_exists_firstOver (limit : Number) (parts : List Bytes) :
    GoesOver limit parts ↔ ∃ taken, FirstOver limit 0 parts taken := by
  constructor
  · intro h
    obtain ⟨hne, hexceeds⟩ := (goesOver_iff limit parts).mp h
    rcases readBody_data limit parts [] with ⟨taken, hfirst, -⟩ | ⟨hwithin, -⟩
    · exact ⟨taken, hfirst⟩
    · rcases hwithin with hnil | hwithin
      · exact absurd hnil hne
      · rw [hexceeds] at hwithin
        cases hwithin
  · rintro ⟨taken, hfirst⟩
    have hexceeds := hfirst.exceeds
    rw [Nat.zero_add] at hexceeds
    exact ⟨taken, hfirst.listed, hfirst.ne_nil, hexceeds⟩

/-- A body is refused at the first chunk with which it is over the limit, and what comes later is not looked at. -/
theorem readBody_of_firstOver {limit : Number} {parts taken : List Bytes} (h : FirstOver limit 0 parts taken)
    (later : List Chunk) :
    readBody limit (taken.map .data ++ later) =
      .error (.refused (.payloadTooLarge limit (.ofInt taken.flatten.length))) := by
  have hexceeds := h.exceeds
  rw [Nat.zero_add] at hexceeds
  rcases readBody_data limit taken later with ⟨first, hfirst, hread⟩ | ⟨hwithin, -⟩
  · -- No fewer chunks are over the limit.
    have hall : first = taken := by
      by_contra hne
      have hbelow := h.first first hfirst.listed hfirst.ne_nil hne
      rw [hfirst.exceeds] at hbelow
      cases hbelow
    rw [hread, hall]
  · rcases hwithin with hnil | hwithin
    · exact absurd hnil h.ne_nil
    · rw [hexceeds] at hwithin
      cases hwithin

/-- Parts that do not go over the limit are taken in as a whole, and what comes after them decides. -/
theorem readBody_of_within {limit : Number} {parts : List Bytes} (h : ¬GoesOver limit parts) (failure : Option Fault) :
    readBody limit (parts.map .data ++ failure.toList.map .failure) =
      failure.elim (.ok parts.flatten) fun fault => .error (.failed fault) := by
  rcases readBody_data limit parts (failure.toList.map .failure) with ⟨taken, hfirst, -⟩ | ⟨-, hread⟩
  · exact absurd ((goesOver_iff_exists_firstOver limit parts).mpr ⟨taken, hfirst⟩) h
  · rw [hread]
    cases failure with
    | none =>
      have hfinish := (BodyAccumulator.exact_empty.foldl_taking parts).finish_eq
      rw [BodyAccumulator.chunks_foldl_taking] at hfinish
      exact hfinish
    | some fault => rfl

/-- Chunks of data are read as a whole unless they are over the limit. -/
theorem readBody_within {limit : Number} {parts : List Bytes}
    (h : limit.less (.ofInt parts.flatten.length) = false ∨ parts = []) :
    readBody limit (parts.map .data) = .ok parts.flatten := by
  have hwithin : ¬GoesOver limit parts := by
    rw [goesOver_iff, not_and, Bool.not_eq_true]
    intro hne
    exact h.resolve_right hne
  have hread := readBody_of_within hwithin none
  rwa [Option.toList_none, List.map_nil, List.append_nil] at hread

theorem readBody_over {limit : Number} {parts : List Bytes}
    (hover : limit.less (.ofInt parts.flatten.length) = true) (hne : parts ≠ []) :
    ∃ taken, FirstOver limit 0 parts taken ∧
      readBody limit (parts.map .data) =
        .error (.refused (.payloadTooLarge limit (.ofInt taken.flatten.length))) := by
  obtain ⟨taken, hfirst⟩ := (goesOver_iff_exists_firstOver limit parts).mp ((goesOver_iff limit parts).mpr ⟨hne, hover⟩)
  obtain ⟨others, hparts⟩ := hfirst.listed
  refine ⟨taken, hfirst, ?_⟩
  rw [← hparts, List.map_append]
  exact readBody_of_firstOver hfirst _

end Gateway

import Gateway.Proofs.LeastFillings
import Gateway.Proofs.RegexSources

/-!
# Where regular expressions match

A text that stands for itself takes itself off the input (`run_literal`), and a repetition tries the places behind its
units from the nearest one or from the farthest one (`run_lazy`, `run_greedy`).  So the expression of a path, which
goes back on its placeholders until the rest succeeds, captures the filling of its gaps whose lengths come first in
lexicographic order, if there is any filling (`gaps_sound`, `gaps_complete`).  The search without going back gives the
same (`exec_path`).  The expression of a host pattern matches if its stars can be filled at all (`test_wildcard`).
-/

namespace Gateway

namespace Regex

/-! ## Texts and repetitions -/

/-- The place some units farther on. -/
def Cursor.past (c : Cursor) (n : Nat) (rest : List UInt16) : Cursor :=
  { c with index := c.index + n, rest := rest }

/-- The units that the groups captured on the way to a place, the latest first. -/
def Cursor.texts (c : Cursor) : List (Nat × List UInt16) :=
  c.captured.map fun p => (p.1, p.2.units)

theorem has_single (u v : UInt16) : (UnitSet.single u).has v = (u == v) := by
  by_cases h : v = u
  · simp [UnitSet.single, UnitSet.has, h]
  · simp [UnitSet.single, UnitSet.has, h, Ne.symm h]

variable {next : Cursor → Option Cursor}

theorem run_one (set : UnitSet) (c : Cursor) :
    (one set).run next c =
      c.rest.head?.bind fun u => if set.has u then next (c.advance c.rest.tail) else none := by
  rw [run]
  cases c.rest <;> rfl

theorem run_either (first other : Regex) (c : Cursor) :
    (either first other).run next c = (first.run next c).or (other.run next c) := by
  rw [run]
  cases first.run next c <;> rfl

theorem run_literal (text : List UInt16) (items : List Regex) (c : Cursor) :
    (sequence (literal text ++ items)).run next c =
      (Gaps.strip? text c.rest).bind fun rest => (sequence items).run next (c.past text.length rest) := by
  induction text generalizing c with
  | nil => rfl
  | cons u text ih =>
    show (one (.single u)).run ((sequence (literal text ++ items)).run next) c = _
    rw [run]
    cases hrest : c.rest with
    | nil => rfl
    | cons v rest =>
      simp only [has_single, Gaps.strip?]
      split
      · rw [ih]
        simp [Cursor.advance, Cursor.past, Nat.add_comm, Nat.add_left_comm]
      · rfl

/-- The places behind units of a set are as many as there are such units in a row. -/
theorem reached_eq (set : UnitSet) (done : List Cursor) (c : Cursor) (rest : List UInt16) :
    reached set done c rest =
      ((List.range (rest.takeWhile set.has).length).map fun k => c.past (k + 1) (rest.drop (k + 1))).reverse ++
        done := by
  induction rest generalizing c done with
  | nil => rfl
  | cons u rest ih =>
    rw [reached]
    split
    · rename_i hu
      rw [ih, List.takeWhile_cons_of_pos hu, List.length_cons, List.range_succ_eq_map, List.map_cons, List.map_map,
        List.reverse_cons, List.append_assoc]
      simp [Cursor.advance, Cursor.past, Function.comp_def, Nat.add_comm, Nat.add_left_comm]
    · rename_i hu
      rw [List.takeWhile_cons_of_neg hu]
      rfl

theorem run_lazy (set : UnitSet) (c : Cursor) :
    (many set false).run next c =
      (List.range (c.rest.takeWhile set.has).length).findSome? fun k =>
        next (c.past (k + 1) (c.rest.drop (k + 1))) := by
  simp [run, reached_eq, List.findSome?_map, Function.comp_def]

theorem run_greedy (set : UnitSet) (c : Cursor) :
    (many set true).run next c =
      (List.range (c.rest.takeWhile set.has).length).reverse.findSome? fun k =>
        next (c.past (k + 1) (c.rest.drop (k + 1))) := by
  simp [run, reached_eq, ← List.map_reverse, List.findSome?_map, Function.comp_def]

/-- The units before a place that a repetition tries are units of its set. -/
theorem take_of_lt_length_takeWhile {p : UInt16 → Bool} {input : List UInt16} {k : Nat}
    (hk : k < (input.takeWhile p).length) :
    input.take (k + 1) ≠ [] ∧ (∀ u ∈ input.take (k + 1), p u = true) ∧ (input.take (k + 1)).length = k + 1 := by
  have hfront : input.take (k + 1) <+: input.takeWhile p := by
    apply List.prefix_of_prefix_length_le (List.take_prefix _ _) (List.takeWhile_prefix p)
    rw [List.length_take]
    omega
  have hlength : (input.take (k + 1)).length = k + 1 := by
    have hle := (List.takeWhile_prefix (l := input) p).length_le
    rw [List.length_take]
    omega
  refine ⟨?_, ?_, hlength⟩
  · intro hnil
    rw [hnil] at hlength
    cases hlength
  · intro u hu
    exact List.all_eq_true.mp List.all_takeWhile u (hfront.subset hu)

/-! ## Paths -/

/-- Texts with the numbers of their groups. -/
def numbered : Nat → List (List UInt16) → List (Nat × List UInt16)
  | _, [] => []
  | number, run :: runs => (number, run) :: numbered (number + 1) runs

/-- Where a path leads from a placeholder if that takes one unit and `k` more: the literal has to follow, and then the
placeholders after it. -/
def afterGap (number : Nat) (lit : List UInt16) (tails : List (List UInt16)) (c : Cursor) (k : Nat) :
    Option Cursor :=
  (Gaps.strip? lit (c.rest.drop (k + 1))).bind fun rest =>
    (sequence (gapItems (number + 1) tails ++ [finish])).run some
      (((c.past (k + 1) (c.rest.drop (k + 1))).capture number c).past lit.length rest)

theorem run_gaps_cons (number : Nat) (lit : List UInt16) (tails : List (List UInt16)) (c : Cursor) :
    (sequence (gapItems number (lit :: tails) ++ [finish])).run some c =
      (List.range (c.rest.takeWhile UnitSet.dot.has).length).findSome? (afterGap number lit tails c) := by
  show (many .dot false).run
    (fun after => (sequence ((literal lit ++ gapItems (number + 1) tails) ++ [finish])).run some
      (after.capture number c)) c = _
  rw [run_lazy]
  simp only [List.append_assoc, run_literal]
  rfl

/-- A placeholder captures what stands before the place behind it. -/
theorem texts_capture (c : Cursor) (number k n : Nat) (rest rest' : List UInt16) :
    (((c.past k rest).capture number c).past n rest').texts = (number, c.rest.take k) :: c.texts := by
  simp [Cursor.past, Cursor.capture, Cursor.texts, Span.units]

/-- If the further placeholders are filled behind a place, so are all of them. -/
theorem fills_of_afterGap {number k : Nat} {lit : List UInt16} {tails : List (List UInt16)} {c found : Cursor}
    (hk : k < (c.rest.takeWhile UnitSet.dot.has).length) (h : afterGap number lit tails c k = some found)
    (hfurther : ∀ after : Cursor, (sequence (gapItems (number + 1) tails ++ [finish])).run some after = some found →
      ∃ runs, Gaps.Fills UnitSet.dot.has tails after.rest runs ∧
        found.texts = (numbered (number + 1) runs).reverse ++ after.texts) :
    ∃ runs, Gaps.Fills UnitSet.dot.has (lit :: tails) c.rest (c.rest.take (k + 1) :: runs) ∧
      found.texts = (numbered number (c.rest.take (k + 1) :: runs)).reverse ++ c.texts := by
  obtain ⟨rest, hstrip, hrest⟩ := Option.bind_eq_some_iff.mp h
  obtain ⟨hne, hadmits, -⟩ := take_of_lt_length_takeWhile hk
  obtain ⟨runs, hfills, htexts⟩ := hfurther _ hrest
  have hinput : c.rest = c.rest.take (k + 1) ++ (lit ++ rest) := by
    rw [← (Gaps.strip?_eq_some_iff lit _ rest).mp hstrip, List.take_append_drop]
  have hfilled : Gaps.Fills UnitSet.dot.has (lit :: tails) (c.rest.take (k + 1) ++ (lit ++ rest))
      (c.rest.take (k + 1) :: runs) := .cons hne hadmits hfills
  refine ⟨runs, ?_, ?_⟩
  · rwa [← hinput] at hfilled
  · rw [htexts, texts_capture, numbered, List.reverse_cons, List.append_assoc]
    rfl

/-- What the expression of a path captures fills the gaps. -/
theorem gaps_sound {number : Nat} {tails : List (List UInt16)} {c found : Cursor}
    (h : (sequence (gapItems number tails ++ [finish])).run some c = some found) :
    ∃ runs, Gaps.Fills UnitSet.dot.has tails c.rest runs ∧
      found.texts = (numbered number runs).reverse ++ c.texts := by
  induction tails generalizing number c with
  | nil =>
    have hend : (if c.rest.isEmpty then some c else none) = some found := h
    split at hend
    · rename_i hempty
      obtain rfl := Option.some.inj hend
      rw [List.isEmpty_iff.mp hempty]
      exact ⟨[], .nil, rfl⟩
    · cases hend
  | cons lit tails ih =>
    rw [run_gaps_cons] at h
    obtain ⟨k, hk, hfound⟩ := List.exists_of_findSome?_eq_some h
    obtain ⟨runs, hfilled⟩ := fills_of_afterGap (List.mem_range.mp hk) hfound fun _ => ih
    exact ⟨_, hfilled⟩

/-- A search through the first numbers ends at the least one that has a result. -/
theorem findSome?_range_eq_some {α : Type} {f : Nat → Option α} {n : Nat} {found : α}
    (h : (List.range n).findSome? f = some found) : ∃ k < n, f k = some found ∧ ∀ j < k, f j = none := by
  induction n with
  | zero => cases h
  | succ n ih =>
    rw [List.range_succ, List.findSome?_append] at h
    cases hfirst : (List.range n).findSome? f with
    | some first =>
      rw [hfirst] at h
      obtain ⟨k, hk, hrest⟩ := ih (hfirst.trans h)
      exact ⟨k, by omega, hrest⟩
    | none =>
      rw [hfirst, Option.none_or, List.findSome?_singleton] at h
      refine ⟨n, Nat.lt_succ_self n, h, ?_⟩
      intro j hj
      exact List.findSome?_eq_none_iff.mp hfirst j (List.mem_range.mpr hj)

/-- If the gaps can be filled, the expression captures that filling or one that comes before it. -/
theorem gaps_complete (number : Nat) {tails : List (List UInt16)} (c : Cursor) {others : List (List UInt16)}
    (h : Gaps.Fills UnitSet.dot.has tails c.rest others) :
    ∃ found runs, (sequence (gapItems number tails ++ [finish])).run some c = some found ∧
      Gaps.Fills UnitSet.dot.has tails c.rest runs ∧ found.texts = (numbered number runs).reverse ++ c.texts ∧
      (others = runs ∨ Gaps.Before runs others) := by
  induction tails generalizing number c others with
  | nil =>
    generalize hrest : c.rest = input at h
    cases h
    have hend : (sequence (gapItems number [] ++ [finish])).run some c = if c.rest.isEmpty then some c else none := rfl
    exact ⟨c, [], by rw [hend, hrest]; rfl, .nil, rfl, .inl rfl⟩
  | cons lit tails ih =>
    generalize hrest : c.rest = input at h
    cases h with
    | @cons _ run rest _ others hne hadmits hfurther =>
      obtain ⟨k, hlength⟩ : ∃ k, run.length = k + 1 := Nat.exists_eq_add_one.mpr (List.length_pos_iff.mpr hne)
      have htake : c.rest.take (k + 1) = run := by rw [hrest, ← hlength, List.take_left]
      have hdrop : c.rest.drop (k + 1) = lit ++ rest := by rw [hrest, ← hlength, List.drop_left]
      -- Behind the run of the filling the rest succeeds, so the search stops there or before.
      have hthere : ∃ found runs, afterGap number lit tails c k = some found ∧
          Gaps.Fills UnitSet.dot.has tails rest runs ∧
          found.texts = (numbered (number + 1) runs).reverse ++ (number, run) :: c.texts ∧
          (others = runs ∨ Gaps.Before runs others) := by
        rw [afterGap, hdrop, Gaps.strip?_append, Option.bind_some, ← htake,
          ← texts_capture c number (k + 1) lit.length (lit ++ rest) rest]
        exact ih (number + 1) _ hfurther
      obtain ⟨found', runs', hfound', hfills', htexts', hfirst'⟩ := hthere
      have hplace : k < (c.rest.takeWhile UnitSet.dot.has).length := by
        rw [hrest, List.takeWhile_append_of_pos hadmits, List.length_append]
        omega
      have hsome : ((List.range (c.rest.takeWhile UnitSet.dot.has).length).findSome?
          (afterGap number lit tails c)).isSome := by
        rw [List.findSome?_isSome_iff]
        exact ⟨k, List.mem_range.mpr hplace, by rw [hfound']; rfl⟩
      obtain ⟨found, hfound⟩ := Option.isSome_iff_exists.mp hsome
      obtain ⟨j, hj, hbehind, hnone⟩ := findSome?_range_eq_some hfound
      rw [run_gaps_cons, ← hrest]
      rcases Nat.lt_trichotomy j k with hshorter | rfl | hlonger
      · -- The placeholder takes less than in the filling, whatever the others take.
        obtain ⟨runs, hfills, htexts⟩ := fills_of_afterGap hj hbehind fun _ => gaps_sound
        refine ⟨found, c.rest.take (j + 1) :: runs, hfound, hfills, htexts, .inr (.rel ?_)⟩
        rw [(take_of_lt_length_takeWhile hj).2.2, hlength]
        omega
      · obtain rfl : found' = found := Option.some.inj (hfound'.symm.trans hbehind)
        refine ⟨found', run :: runs', hfound, hrest ▸ .cons hne hadmits hfills', ?_, ?_⟩
        · rw [htexts', numbered, List.reverse_cons, List.append_assoc]
          rfl
        · rcases hfirst' with rfl | hbefore
          · exact .inl rfl
          · exact .inr (.cons hbefore)
      · rw [hnone k hlonger] at hfound'
        cases hfound'

/-! ## Host patterns -/

theorem isSome_run_stars (tails : List (List UInt16)) (c : Cursor) :
    ((sequence (starItems tails ++ [finish])).run some c).isSome ↔
      ∃ runs, Gaps.Fills labelUnits.has tails c.rest runs := by
  induction tails generalizing c with
  | nil =>
    have hend : (sequence (starItems [] ++ [finish])).run some c = if c.rest.isEmpty then some c else none := rfl
    rw [hend]
    cases c.rest with
    | nil => exact iff_of_true rfl ⟨[], .nil⟩
    | cons u rest =>
      refine iff_of_false (by simp) ?_
      rintro ⟨runs, hfills⟩
      cases hfills
  | cons lit tails ih =>
    have hstar : (sequence (starItems (lit :: tails) ++ [finish])).run some c =
        (many labelUnits true).run ((sequence (literal lit ++ (starItems tails ++ [finish]))).run some) c := by
      simp only [starItems, List.flatMap_cons, List.cons_append, List.append_assoc]
      rfl
    rw [hstar, run_greedy, List.findSome?_isSome_iff]
    simp only [List.mem_reverse, List.mem_range, run_literal]
    constructor
    · rintro ⟨k, hk, hsome⟩
      obtain ⟨found, hfound⟩ := Option.isSome_iff_exists.mp hsome
      obtain ⟨rest, hstrip, hrest⟩ := Option.bind_eq_some_iff.mp hfound
      obtain ⟨hne, hadmits, -⟩ := take_of_lt_length_takeWhile hk
      obtain ⟨runs, hfills⟩ := (ih _).mp (Option.isSome_of_eq_some hrest)
      have hinput : c.rest = c.rest.take (k + 1) ++ (lit ++ rest) := by
        rw [← (Gaps.strip?_eq_some_iff lit _ rest).mp hstrip]
        exact (List.take_append_drop _ _).symm
      rw [hinput]
      exact ⟨_ :: runs, .cons hne hadmits hfills⟩
    · rintro ⟨runs, hfills⟩
      generalize hrest : c.rest = input at hfills
      cases hfills with
      | @cons _ run rest _ runs hne hadmits hfurther =>
        obtain ⟨k, hlength⟩ : ∃ k, run.length = k + 1 := Nat.exists_eq_add_one.mpr (List.length_pos_iff.mpr hne)
        refine ⟨k, ?_, ?_⟩
        · rw [List.takeWhile_append_of_pos hadmits, List.length_append]
          omega
        · rw [Cursor.past, ← hlength, List.drop_left, Gaps.strip?_append, Option.bind_some, ih]
          exact ⟨runs, hfurther⟩

/-! ## Whole inputs -/

/-- The units that the groups of a match captured, the latest first. -/
def Match.texts (m : Match) : List (Nat × List UInt16) :=
  m.captured.map fun p => (p.1, p.2.units)

/-- An expression that starts with the anchor of the start matches nowhere else. -/
theorem exec_start (items : List Regex) (input : List UInt16) :
    (sequence (start :: items)).exec input =
      ((sequence items).run some ⟨0, input, []⟩).map fun found => ⟨found.index, found.captured⟩ := by
  have hlater : ∀ index rest, (sequence (start :: items)).execFrom (index + 1) rest = none := by
    intro index rest
    induction rest generalizing index with
    | nil => rfl
    | cons u rest ih =>
      rw [execFrom, ih]
      rfl
  have hhere : ∀ rest, (sequence (start :: items)).matchAt 0 rest =
      ((sequence items).run some ⟨0, rest, []⟩).map fun found => ⟨found.index, found.captured⟩ := fun rest => rfl
  rw [exec]
  cases input with
  | nil => rw [execFrom, hhere]
  | cons u rest =>
    rw [execFrom, hlater, hhere]
    cases (sequence items).run some ⟨0, u :: rest, []⟩ <;> rfl

/-- The expression of a path captures what the search without going back finds. -/
theorem exec_path (lead : List UInt16) (tails : List (List UInt16)) (input : List UInt16) :
    ((sequence (start :: (literal lead ++ (gapItems 1 tails ++ [finish])))).exec input).map Match.texts =
      (Gaps.match? UnitSet.dot.has lead tails input).map fun runs => (numbered 1 runs).reverse := by
  rw [exec_start, run_literal, Gaps.match?]
  cases hstrip : Gaps.strip? lead input with
  | none => rfl
  | some rest =>
    simp only [Option.bind_some]
    have hcaptured : Cursor.texts (Cursor.past ⟨0, input, []⟩ lead.length rest) = [] := rfl
    cases hfill : Gaps.fill? UnitSet.dot.has tails rest with
    | some runs =>
      obtain ⟨hfills, hleast⟩ := (Gaps.fill?_eq_some_iff _ _ _ _).mp hfill
      obtain ⟨found, runs', hfound, hfills', htexts, hfirst⟩ :=
        gaps_complete 1 (Cursor.past ⟨0, input, []⟩ lead.length rest) hfills
      -- Both fillings come before all others, so they are the same.
      obtain rfl : runs = runs' := by
        by_contra hne
        exact (hfirst.resolve_left hne).asymm (hleast runs' hfills' (Ne.symm hne))
      rw [hcaptured, List.append_nil] at htexts
      rw [hfound, Option.map_some, Option.map_some, Option.map_some, ← htexts]
      rfl
    | none =>
      cases hfound : (sequence (gapItems 1 tails ++ [finish])).run some
          (Cursor.past ⟨0, input, []⟩ lead.length rest) with
      | none => rfl
      | some found =>
        obtain ⟨runs, hfills, -⟩ := gaps_sound hfound
        obtain ⟨first, hfirst, -⟩ := Gaps.exists_fill? hfills
        rw [show Cursor.rest (Cursor.past ⟨0, input, []⟩ lead.length rest) = rest from rfl, hfill] at hfirst
        cases hfirst

/-- The expression of a host pattern matches the inputs in which its stars can be filled. -/
theorem test_wildcard (lead : List UInt16) (tails : List (List UInt16)) (input : List UInt16) :
    (sequence (start :: (literal lead ++ (starItems tails ++ [finish])))).test input = true ↔
      ∃ rest runs, input = lead ++ rest ∧ Gaps.Fills labelUnits.has tails rest runs := by
  rw [test, exec_start, Option.isSome_map, run_literal]
  constructor
  · intro hsome
    obtain ⟨found, hfound⟩ := Option.isSome_iff_exists.mp hsome
    obtain ⟨rest, hstrip, hrest⟩ := Option.bind_eq_some_iff.mp hfound
    obtain ⟨runs, hfills⟩ := (isSome_run_stars tails _).mp (Option.isSome_of_eq_some hrest)
    exact ⟨rest, runs, (Gaps.strip?_eq_some_iff lead _ rest).mp hstrip, hfills⟩
  · rintro ⟨rest, runs, rfl, hfills⟩
    rw [Gaps.strip?_append, Option.bind_some, isSome_run_stars]
    exact ⟨runs, hfills⟩

end Regex

end Gateway

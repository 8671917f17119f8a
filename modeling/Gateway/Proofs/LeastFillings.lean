import Gateway.Text.Gaps
import Mathlib.Data.List.Basic
import Mathlib.Data.List.Lex

/-!
# The least filling of a text with gaps

Runs fill the gaps of an input if the input is put together from them and the literals after the gaps.  An input may
have many fillings; `fill?` finds one exactly if there is any, and then the one whose lengths come first in
lexicographic order (`fill?_eq_some_iff`).  It never goes back on a gap: if some filling has a longer first run, the
symbols that the shorter one leaves can be given to the next gap (`Fills.shift`).
-/

namespace Gateway.Gaps

variable {α β : Type}

/-- The input is put together from the runs and the literals after the gaps; no run is empty, and every symbol of a
run is admitted. -/
inductive Fills (admits : α → Bool) : List (List α) → List α → List (List α) → Prop where
  | nil : Fills admits [] [] []
  | cons {lit run rest : List α} {tails runs : List (List α)} (run_ne : run ≠ [])
      (run_admits : ∀ c ∈ run, admits c = true) (further : Fills admits tails rest runs) :
      Fills admits (lit :: tails) (run ++ (lit ++ rest)) (run :: runs)

/-- A filling as one equation. -/
theorem fills_iff (admits : α → Bool) (tails : List (List α)) (input : List α) (runs : List (List α)) :
    Fills admits tails input runs ↔
      runs.length = tails.length ∧ (∀ run ∈ runs, run ≠ [] ∧ ∀ c ∈ run, admits c = true) ∧
        input = (List.zipWith (· ++ ·) runs tails).flatten := by
  constructor
  · intro h
    induction h with
    | nil => simp
    | cons hne hadmits _ ih =>
      obtain ⟨hlength, hruns, rfl⟩ := ih
      exact ⟨by simp [hlength], List.forall_mem_cons.mpr ⟨⟨hne, hadmits⟩, hruns⟩, by simp⟩
  · rintro ⟨hlength, hruns, rfl⟩
    induction runs generalizing tails with
    | nil =>
      obtain rfl := List.length_eq_zero_iff.mp hlength.symm
      exact .nil
    | cons run runs ih =>
      obtain ⟨lit, tails, rfl⟩ := List.exists_cons_of_length_eq_add_one hlength.symm
      obtain ⟨⟨hne, hadmits⟩, hruns⟩ := List.forall_mem_cons.mp hruns
      have hfurther := ih tails (Nat.succ.inj hlength) hruns
      simpa using Fills.cons hne hadmits hfurther

/-- The lengths of the first runs come before those of the second, in lexicographic order. -/
def Before (runs others : List (List α)) : Prop :=
  List.Lex (· < ·) (runs.map List.length) (others.map List.length)

theorem Before.asymm {runs others : List (List α)} (h : Before runs others) : ¬Before others runs :=
  List.lex_asymm Nat.lt_asymm h

/-! ## Shortest runs -/

variable {admits : α → Bool} {next : List α → Option β} {input run rest : List α} {r : β}

/-- A shortest run is not empty, has admitted symbols only, and `next` succeeds after it. -/
theorem of_shortestRun? (h : shortestRun? admits next input = some (run, r)) :
    run ≠ [] ∧ (∀ c ∈ run, admits c = true) ∧ ∃ rest, input = run ++ rest ∧ next rest = some r := by
  induction input generalizing run with
  | nil => cases h
  | cons c input ih =>
    rw [shortestRun?] at h
    split at h
    · rename_i hc
      split at h
      · rename_i found hnext
        obtain ⟨rfl, rfl⟩ := Prod.mk.inj (Option.some.inj h)
        exact ⟨List.cons_ne_nil c [], by simpa using hc, input, rfl, hnext⟩
      · obtain ⟨⟨later, found⟩, hlater, hrun⟩ := Option.map_eq_some_iff.mp h
        obtain ⟨rfl, rfl⟩ := Prod.mk.inj hrun
        obtain ⟨-, hadmits, rest, rfl, hnext⟩ := ih hlater
        exact ⟨List.cons_ne_nil c later, List.forall_mem_cons.mpr ⟨hc, hadmits⟩, rest, rfl, hnext⟩
    · cases h

/-- If `next` succeeds after some run, there is a shortest run, and it is a part of that one. -/
theorem exists_shortestRun? (hrun : run ≠ []) (hadmits : ∀ c ∈ run, admits c = true) (hnext : next rest = some r) :
    ∃ first found, shortestRun? admits next (run ++ rest) = some (first, found) ∧ first <+: run := by
  induction run with
  | nil => exact absurd rfl hrun
  | cons c run ih =>
    obtain ⟨hc, hadmits⟩ := List.forall_mem_cons.mp hadmits
    rw [List.cons_append, shortestRun?, if_pos hc]
    cases hhere : next (run ++ rest) with
    | some found => exact ⟨[c], found, rfl, by simp⟩
    | none =>
      have hne : run ≠ [] := by
        rintro rfl
        rw [List.nil_append, hnext] at hhere
        cases hhere
      obtain ⟨first, found, hfirst, hpart⟩ := ih hne hadmits
      exact ⟨c :: first, found, by rw [hfirst]; rfl, List.cons_prefix_cons.mpr ⟨rfl, hpart⟩⟩

/-- A run is the shortest one if `next` succeeds after it and at no place inside it. -/
theorem shortestRun?_append {admits : α → Bool} {next : List α → Option β} {run rest : List α} {r : β}
    (hrun : run ≠ []) (hadmits : ∀ c ∈ run, admits c = true)
    (hinside : ∀ tail, tail ≠ [] → tail <:+ run → next (tail ++ rest) = none) (hnext : next rest = some r) :
    shortestRun? admits next (run ++ rest) = some (run, r) := by
  induction run with
  | nil => exact absurd rfl hrun
  | cons c tail ih =>
    rw [List.cons_append, shortestRun?, if_pos (hadmits c List.mem_cons_self)]
    cases tail with
    | nil => simp [hnext]
    | cons d tail =>
      have hfails := hinside (d :: tail) (List.cons_ne_nil d tail) (List.suffix_cons c _)
      have hrest := ih (List.cons_ne_nil d tail) (fun e he => hadmits e (List.mem_cons_of_mem c he))
        (fun taken hne hsuffix => hinside taken hne (hsuffix.trans (List.suffix_cons c _)))
      rw [hfails, hrest]
      rfl

/-! ## Giving symbols to the next gap -/

/-- If moving a literal past some symbols gives the same text, the literal has no other symbols. -/
theorem mem_of_append_comm {moved left lit : List α} (hmoved : moved ≠ []) (h : lit ++ left = moved ++ lit) {c : α}
    (hc : c ∈ lit) : c ∈ moved := by
  -- The literal is shorter than what is moved past it, or starts with it.
  rcases List.append_eq_append_iff.mp h with ⟨_, hlonger, -⟩ | ⟨lit', hlit, hleft⟩
  · rw [hlonger]
    exact List.mem_append_left _ hc
  · have hshorter : lit'.length < lit.length := by
      have hpos := List.length_pos_iff.mpr hmoved
      rw [hlit, List.length_append]
      omega
    have hagain : lit' ++ left = moved ++ lit' := by rw [← hleft, hlit]
    rw [hlit] at hc
    rcases List.mem_append.mp hc with hc | hc
    · exact hc
    · exact mem_of_append_comm hmoved hagain hc
termination_by lit.length

/-- If a literal is found before the end of the run that a filling gives to its gap, the next gap can take what is
left. -/
theorem Fills.shift {tails : List (List α)} {run lit moved input rest : List α} {runs : List (List α)}
    (h : Fills admits tails rest (run :: runs)) (hmoved : moved ≠ []) (hadmits : ∀ c ∈ moved, admits c = true)
    (hinput : lit ++ input = moved ++ (lit ++ rest)) :
    ∃ longer, Fills admits tails input (longer :: runs) := by
  -- What the literal leaves of the moved symbols and itself; its symbols are among those moved.
  obtain ⟨left, hleft, rfl⟩ : ∃ left, lit ++ left = moved ++ lit ∧ input = left ++ rest := by
    rw [← List.append_assoc] at hinput
    rcases List.append_eq_append_iff.mp hinput with ⟨left, hlonger, hrest⟩ | ⟨extra, hlonger, -⟩
    · exact ⟨left, hlonger.symm, hrest⟩
    · have hlength := congrArg List.length hlonger
      have hpos := List.length_pos_iff.mpr hmoved
      simp only [List.length_append] at hlength
      omega
  have hleftAdmits : ∀ c ∈ left, admits c = true := by
    intro c hc
    have hmem : c ∈ moved ++ lit := hleft ▸ List.mem_append_right lit hc
    rcases List.mem_append.mp hmem with hc | hc
    · exact hadmits c hc
    · exact hadmits c (mem_of_append_comm hmoved hleft hc)
  cases h with
  | @cons next _ rest _ _ hne hrun hfurther =>
    refine ⟨left ++ run, ?_⟩
    rw [← List.append_assoc left run]
    exact .cons (by simp [hne]) (List.forall_mem_append.mpr ⟨hleftAdmits, hrun⟩) hfurther

/-! ## Literals -/

section Literals

variable [BEq α] [LawfulBEq α]

theorem strip?_append (lit rest : List α) : strip? lit (lit ++ rest) = some rest := by
  induction lit with
  | nil => rfl
  | cons l lit ih => rw [List.cons_append, strip?, if_pos (beq_self_eq_true l), ih]

theorem strip?_eq_some_iff (lit input rest : List α) : strip? lit input = some rest ↔ input = lit ++ rest := by
  constructor
  · intro h
    induction lit generalizing input with
    | nil => exact Option.some.inj h
    | cons l lit ih =>
      cases input with
      | nil => cases h
      | cons c input =>
        rw [strip?] at h
        split at h
        · rename_i hlc
          rw [eq_of_beq hlc, ih input h, List.cons_append]
        · cases h
  · rintro rfl
    exact strip?_append lit rest

theorem strip?_of_ne {l c : α} (h : l ≠ c) (lit input : List α) : strip? (l :: lit) (c :: input) = none := by
  rw [strip?, if_neg (by simpa using h)]

end Literals

/-! ## The search -/

variable [BEq α]

theorem fill?_cons_cons (admits : α → Bool) (lit next : List α) (tails : List (List α)) (input : List α) :
    fill? admits (lit :: next :: tails) input =
      (shortestRun? admits (strip? lit) input).bind fun found =>
        (fill? admits (next :: tails) found.2).map (found.1 :: ·) := by
  rw [fill?]
  · cases shortestRun? admits (strip? lit) input <;> rfl
  · simp

variable [LawfulBEq α]

/-- The gaps take the runs that an input was put together from, if the literal after each gap but the last starts with
a symbol that the run does not have. -/
theorem fill?_runs {admits : α → Bool} {gaps : List (List α × List α)}
    (hruns : ∀ g ∈ gaps, g.1 ≠ [] ∧ ∀ c ∈ g.1, admits c = true)
    (hlits : ∀ g ∈ gaps.dropLast, ∃ l lit, g.2 = l :: lit ∧ l ∉ g.1) :
    fill? admits (gaps.map (·.2)) (gaps.flatMap fun g => g.1 ++ g.2) = some (gaps.map (·.1)) := by
  induction gaps with
  | nil => rfl
  | cons g gaps ih =>
    obtain ⟨hrun, hadmits⟩ := hruns g List.mem_cons_self
    cases gaps with
    | nil =>
      -- What is left after a shorter run is too long for the last literal.
      have hlast : shortestRun? admits (fun rest => if rest == g.2 then some () else none) (g.1 ++ g.2) =
          some (g.1, ()) := by
        apply shortestRun?_append hrun hadmits
        · intro tail hne _
          have hlonger : tail ++ g.2 ≠ g.2 := by simpa using hne
          simp [hlonger]
        · simp
      simp [fill?, hlast]
    | cons next gaps =>
      -- No symbol of the run starts the literal, so the literal is not found inside the run.
      obtain ⟨l, lit, hlit, hfree⟩ := hlits g (by simp)
      have hfirst : shortestRun? admits (strip? g.2)
          (g.1 ++ (g.2 ++ (next :: gaps).flatMap fun g => g.1 ++ g.2)) =
            some (g.1, (next :: gaps).flatMap fun g => g.1 ++ g.2) := by
        apply shortestRun?_append hrun hadmits
        · intro tail hne hsuffix
          obtain ⟨c, tail, rfl⟩ := List.exists_cons_of_ne_nil hne
          have hc : c ∈ g.1 := hsuffix.subset List.mem_cons_self
          have hother : l ≠ c := by
            rintro rfl
            exact hfree hc
          rw [hlit, List.cons_append]
          exact strip?_of_ne hother lit _
        · exact strip?_append g.2 _
      have hrest := ih (fun h hh => hruns h (List.mem_cons_of_mem g hh))
        (fun h hh => hlits h (by simp [List.dropLast_cons_cons, hh]))
      rw [List.map_cons] at hrest
      rw [List.flatMap_cons, List.append_assoc, List.map_cons, List.map_cons, fill?, hfirst]
      · simp only
        rw [hrest]
        rfl
      · simp

theorem fills_of_fill? {tails : List (List α)} {input : List α} {runs : List (List α)}
    (h : fill? admits tails input = some runs) : Fills admits tails input runs := by
  induction tails generalizing input runs with
  | nil =>
    rw [fill?] at h
    split at h
    · rename_i hempty
      obtain rfl := List.isEmpty_iff.mp hempty
      obtain rfl := Option.some.inj h
      exact .nil
    · cases h
  | cons lit tails ih =>
    cases tails with
    | nil =>
      obtain ⟨⟨run, _⟩, hfound, rfl⟩ := Option.map_eq_some_iff.mp h
      obtain ⟨hne, hadmits, rest, rfl, hrest⟩ := of_shortestRun? hfound
      split at hrest
      · rename_i hlit
        obtain rfl := eq_of_beq hlit
        have hlast : Fills admits [rest] (run ++ (rest ++ [])) [run] := .cons hne hadmits .nil
        simpa using hlast
      · cases hrest
    | cons next tails =>
      rw [fill?_cons_cons] at h
      obtain ⟨⟨run, rest⟩, hfound, hmap⟩ := Option.bind_eq_some_iff.mp h
      obtain ⟨further, hfurther, rfl⟩ := Option.map_eq_some_iff.mp hmap
      obtain ⟨hne, hadmits, after, rfl, hstrip⟩ := of_shortestRun? hfound
      rw [(strip?_eq_some_iff lit after rest).mp hstrip]
      exact .cons hne hadmits (ih hfurther)

/-- If there is a filling, it is found, or one that comes before it. -/
theorem exists_fill? {tails : List (List α)} {input : List α} {others : List (List α)}
    (h : Fills admits tails input others) :
    ∃ runs, fill? admits tails input = some runs ∧ (others = runs ∨ Before runs others) := by
  induction tails generalizing input others with
  | nil =>
    cases h
    exact ⟨[], rfl, .inl rfl⟩
  | cons lit tails ih =>
    cases h with
    | @cons _ run rest _ others hne hadmits hfurther =>
      cases tails with
      | nil =>
        -- The last literal ends the input, so its gap takes the whole run.
        cases hfurther
        have hruns : ∀ g ∈ [(run, lit)], g.1 ≠ [] ∧ ∀ c ∈ g.1, admits c = true := by simpa using ⟨hne, hadmits⟩
        exact ⟨[run], by simpa using fill?_runs hruns (by simp), .inl rfl⟩
      | cons next tails =>
        obtain ⟨first, after, hfound, moved, rfl⟩ := exists_shortestRun? hne hadmits (strip?_append lit rest)
        obtain ⟨-, -, left, hleft, hstrip⟩ := of_shortestRun? hfound
        rw [(strip?_eq_some_iff lit left after).mp hstrip, List.append_assoc] at hleft
        have hafter : lit ++ after = moved ++ (lit ++ rest) := (List.append_cancel_left hleft).symm
        rw [fill?_cons_cons, hfound, Option.bind_some]
        by_cases hmoved : moved = []
        · -- The run of the filling is the shortest one.
          subst hmoved
          obtain rfl : after = rest := List.append_cancel_left hafter
          obtain ⟨runs, hruns, hfirst⟩ := ih hfurther
          refine ⟨first :: runs, by rw [hruns]; rfl, ?_⟩
          rw [List.append_nil]
          rcases hfirst with rfl | hbefore
          · exact .inl rfl
          · exact .inr (.cons hbefore)
        · -- The first run is shorter, and the next gap takes what is left.
          obtain ⟨run', others', rfl⟩ : ∃ run' others', others = run' :: others' := by
            cases hfurther
            exact ⟨_, _, rfl⟩
          have hmovedAdmits : ∀ c ∈ moved, admits c = true := fun c hc => hadmits c (List.mem_append_right first hc)
          obtain ⟨longer, hlonger⟩ := hfurther.shift hmoved hmovedAdmits hafter
          obtain ⟨runs, hruns, -⟩ := ih hlonger
          have hpos := List.length_pos_iff.mpr hmoved
          have hshorter : first.length < (first ++ moved).length := by
            rw [List.length_append]
            omega
          exact ⟨first :: runs, by rw [hruns]; rfl, .inr (.rel hshorter)⟩

/-- The search finds the filling that comes before all others, if there is any filling. -/
theorem fill?_eq_some_iff (admits : α → Bool) (tails : List (List α)) (input : List α) (runs : List (List α)) :
    fill? admits tails input = some runs ↔
      Fills admits tails input runs ∧
        ∀ others, Fills admits tails input others → others ≠ runs → Before runs others := by
  constructor
  · intro h
    refine ⟨fills_of_fill? h, ?_⟩
    intro others hothers hne
    obtain ⟨found, hfound, hfirst⟩ := exists_fill? hothers
    obtain rfl : runs = found := Option.some.inj (h.symm.trans hfound)
    exact hfirst.resolve_left hne
  · rintro ⟨hfills, hleast⟩
    obtain ⟨found, hfound, hfirst⟩ := exists_fill? hfills
    rcases hfirst with rfl | hbefore
    · exact hfound
    · have hne : found ≠ runs := by
        rintro rfl
        exact hbefore.asymm hbefore
      exact absurd hbefore (hleast found (fills_of_fill? hfound) hne).asymm

theorem match?_eq_some_iff (admits : α → Bool) (lead : List α) (tails : List (List α)) (input : List α)
    (runs : List (List α)) :
    match? admits lead tails input = some runs ↔
      ∃ rest, input = lead ++ rest ∧ fill? admits tails rest = some runs := by
  simp only [match?, Option.bind_eq_some_iff, strip?_eq_some_iff]

theorem match?_runs {admits : α → Bool} (lead : List α) {gaps : List (List α × List α)}
    (hruns : ∀ g ∈ gaps, g.1 ≠ [] ∧ ∀ c ∈ g.1, admits c = true)
    (hlits : ∀ g ∈ gaps.dropLast, ∃ l lit, g.2 = l :: lit ∧ l ∉ g.1) :
    match? admits lead (gaps.map (·.2)) (lead ++ gaps.flatMap fun g => g.1 ++ g.2) = some (gaps.map (·.1)) := by
  rw [match?, strip?_append, Option.bind_some, fill?_runs hruns hlits]

end Gateway.Gaps

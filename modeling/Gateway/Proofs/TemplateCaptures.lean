import Gateway.Template.Match
import Gateway.Proofs.EntryKeys

/-!
# What a template captures

A template that matches captures something for each of its placeholders: every gap of the path takes one run, every
declared query key has a value, and grouping the captured texts by name loses no name.
-/

namespace Gateway

namespace Gaps

variable {α : Type} [BEq α]

/-- One run is taken for each gap. -/
theorem length_of_fill? (admits : α → Bool) (tails : List (List α)) (input : List α) {runs : List (List α)}
    (h : fill? admits tails input = some runs) : runs.length = tails.length := by
  induction tails generalizing input runs with
  | nil =>
    unfold fill? at h
    split at h
    · obtain rfl : [] = runs := Option.some.inj h
      rfl
    · cases h
  | cons lit lits ih =>
    cases lits with
    | nil =>
      unfold fill? at h
      obtain ⟨found, -, rfl⟩ := Option.map_eq_some_iff.mp h
      rfl
    | cons next rest =>
      unfold fill? at h
      split at h
      · cases h
      · obtain ⟨others, hothers, rfl⟩ := Option.map_eq_some_iff.mp h
        simp [ih _ hothers]

theorem length_of_match? (admits : α → Bool) (lead : List α) (tails : List (List α)) (input : List α)
    {runs : List (List α)} (h : match? admits lead tails input = some runs) :
    runs.length = tails.length := by
  obtain ⟨rest, -, hfill⟩ := Option.bind_eq_some_iff.mp h
  exact length_of_fill? admits tails rest hfill

end Gaps

namespace Template

/-! ## Path and query -/

theorem names_captureTexts (captures : List (String × List UInt16)) :
    (captureTexts captures).map (·.1) = captures.map (·.1) := by
  rw [captureTexts, List.map_map]
  rfl

/-- A matched path names its placeholders, in order. -/
theorem names_of_matchPath (t : Template) (path : String) {captures : List (String × String)}
    (h : t.matchPath path = some captures) :
    captures.map (·.1) = t.path.gaps.map fun g => normalizeName g.1 := by
  obtain ⟨raws, hraws, rfl⟩ := Option.map_eq_some_iff.mp h
  obtain ⟨runs, hruns, rfl⟩ := Option.map_eq_some_iff.mp hraws
  have hlength : runs.length = t.path.gaps.length := by
    simpa using Gaps.length_of_match? _ _ _ _ hruns
  rw [names_captureTexts]
  exact List.map_fst_zip (by simp [hlength])

/-- The names that a matched query clause has captured texts for are those of its pairs. -/
theorem mem_names_of_capturePairs (query : List UInt16) (pairs : List QueryPair)
    {captures : List (String × List UInt16)} (h : capturePairs query pairs = some captures) (name : String) :
    name ∈ captures.map (·.1) ↔ name ∈ pairs.map fun p => normalizeName p.name := by
  induction pairs generalizing captures with
  | nil =>
    obtain rfl : [] = captures := Option.some.inj h
    simp
  | cons first rest ih =>
    unfold capturePairs at h
    cases hvalues : queryValues first.key query with
    | nil => simp [hvalues] at h
    | cons v vs =>
      rw [hvalues] at h
      obtain ⟨others, hothers, rfl⟩ := Option.map_eq_some_iff.mp h
      have hfirst : name ∈ ((v :: vs).map fun v => (normalizeName first.name, decodeQueryValue v)).map (·.1) ↔
          name = normalizeName first.name := by
        rw [List.map_map, List.mem_map]
        constructor
        · rintro ⟨w, -, hw⟩
          exact hw.symm
        · intro hname
          exact ⟨v, List.mem_cons_self, hname.symm⟩
      rw [List.map_append, List.mem_append, ih hothers, hfirst, List.map_cons, List.mem_cons]

/-! ## Grouping -/

theorem mem_names_addCapture (groups : List (String × List String)) (name text k : String) :
    k ∈ (addCapture groups name text).map (·.1) ↔ k = name ∨ k ∈ groups.map (·.1) := by
  unfold addCapture
  split
  · rename_i hlisted
    have hmem : name ∈ groups.map (·.1) := by
      simpa [List.any_eq_true] using hlisted
    have hsame : (groups.map fun g => if g.1 == name then (g.1, g.2 ++ [text]) else g).map (·.1) =
        groups.map (·.1) := by
      rw [List.map_map]
      apply List.map_congr_left
      intro g _
      by_cases hg : g.1 = name <;> simp [hg]
    rw [hsame]
    constructor
    · exact .inr
    · rintro (rfl | h)
      · exact hmem
      · exact h
  · simp [or_comm]

theorem mem_names_foldl_addCapture (captures : List (String × String)) (groups : List (String × List String))
    (k : String) :
    k ∈ (captures.foldl (fun groups c => addCapture groups c.1 c.2) groups).map (·.1) ↔
      k ∈ captures.map (·.1) ∨ k ∈ groups.map (·.1) := by
  induction captures generalizing groups with
  | nil => simp
  | cons c rest ih =>
    rw [List.foldl_cons, ih, mem_names_addCapture, List.map_cons, List.mem_cons]
    constructor
    · rintro (h | h | h)
      · exact .inl (.inr h)
      · exact .inl (.inl h)
      · exact .inr h
    · rintro ((h | h) | h)
      · exact .inr (.inl h)
      · exact .inl h
      · exact .inr (.inr h)

/-- Grouping keeps the captured names and adds none. -/
theorem mem_keys_groupCaptures (captures : List (String × String)) (k : String) :
    k ∈ Entries.keys (groupCaptures captures) ↔ k ∈ captures.map (·.1) := by
  have hnames : Entries.keys (groupCaptures captures) =
      (captures.foldl (fun groups c => addCapture groups c.1 c.2) []).map (·.1) := by
    unfold Entries.keys groupCaptures
    rw [List.map_map]
    apply List.map_congr_left
    rintro ⟨name, texts⟩ _
    simp only [Function.comp_apply]
    split <;> rfl
  rw [hnames, mem_names_foldl_addCapture]
  simp

/-- A match captures something for every placeholder of the template, and for no other name. -/
theorem captures_iff (t : Template) (path query : String) {captures : Captures}
    (h : t.match? path query = some captures) (name : String) :
    (captures.lookup name).isSome ↔ name ∈ t.names := by
  obtain ⟨inPath, hpath, hrest⟩ := Option.bind_eq_some_iff.mp h
  obtain ⟨inQuery, hquery, rfl⟩ := Option.map_eq_some_iff.mp hrest
  obtain ⟨captured, hcaptured, rfl⟩ := Option.map_eq_some_iff.mp hquery
  have hkeys := Entries.get?_isSome_iff (groupCaptures (inPath ++ captureTexts captured)) name
  rw [mem_keys_groupCaptures, List.map_append, List.mem_append, names_of_matchPath t path hpath, names_captureTexts,
    mem_names_of_capturePairs _ t.query hcaptured, ← List.mem_append] at hkeys
  exact hkeys

end Template

end Gateway

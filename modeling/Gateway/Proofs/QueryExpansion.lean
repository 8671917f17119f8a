import Gateway.Proofs.PathExpansion
import Gateway.Proofs.QuerySegments

/-!
# Queries of expanded templates

A query spells pairs of a key and a value.  Scanning it finds the values of each key in their order
(`queryValues_queryText`), so the pairs of a query clause may come in any interleaving (`matchQuery_queryText`).
-/

namespace Gateway

namespace Template

open Text.Percent (encodeComponent)

/-! ## Segments -/

/-- The units of a pair of a query. -/
def segment (pair : String × String) : List UInt16 :=
  Text.units pair.1 ++ 0x3D :: Text.units (encodeComponent pair.2)

/-- The query that spells pairs of a key and a value. -/
def queryText (pairs : List (String × String)) : String :=
  "&".intercalate (pairs.map fun p => p.1 ++ "=" ++ encodeComponent p.2)

theorem units_queryText (pairs : List (String × String)) :
    Text.units (queryText pairs) = [0x26].intercalate (pairs.map segment) := by
  have hamp : "&".toList.flatMap Text.unitsOfChar = [0x26] := by decide
  have hequals : Text.unitsOfChar '=' = [0x3D] := by decide
  have hpair : ∀ p : String × String,
      (p.1 ++ "=" ++ encodeComponent p.2).toList.flatMap Text.unitsOfChar = segment p := by
    intro p
    simp [segment, Text.units, hequals]
  rw [Text.units, queryText, String.toList_intercalate, Text.flatMap_intercalate, hamp, List.map_map, List.map_map]
  congr 1
  apply List.map_congr_left
  intro p _
  exact hpair p

theorem isSegmentEnd_of_mem_component {s : String} {u : UInt16} (h : u ∈ Text.units (encodeComponent s)) :
    isSegmentEnd u = false := by
  obtain ⟨c, hc, hu⟩ := Text.Percent.exists_char_of_mem_units h
  rw [isSegmentEnd, decide_eq_false_iff_not]
  rintro (rfl | rfl)
  · obtain rfl : '&' = c := Char.toNat_inj.mp hu
    exact absurd hc (by decide)
  · obtain rfl : ';' = c := Char.toNat_inj.mp hu
    exact absurd hc (by decide)

theorem isSegmentEnd_of_mem_segment {pair : String × String} (hkey : IsKey pair.1) {u : UInt16}
    (h : u ∈ segment pair) : isSegmentEnd u = false := by
  rw [segment, List.mem_append, List.mem_cons] at h
  rcases h with h | rfl | h
  · exact isSegmentEnd_of_isKey hkey h
  · decide
  · exact isSegmentEnd_of_mem_component h

/-- The segments of a query are the pairs that it spells. -/
theorem segments_queryText {pairs : List (String × String)} (hne : pairs ≠ []) (hkeys : ∀ p ∈ pairs, IsKey p.1) :
    segments (Text.units (queryText pairs)) = pairs.map segment := by
  rw [units_queryText]
  induction pairs with
  | nil => exact absurd rfl hne
  | cons p rest ih =>
    obtain ⟨hkey, hkeys⟩ := List.forall_mem_cons.mp hkeys
    have hends : ∀ u ∈ segment p, isSegmentEnd u = false := fun _ => isSegmentEnd_of_mem_segment hkey
    cases rest with
    | nil =>
      rw [List.map_singleton, List.intercalate_singleton]
      exact List.splitOnP_eq_singleton hends
    | cons q rest =>
      rw [List.map_cons, List.map_cons, List.intercalate_cons_cons, List.append_assoc, List.singleton_append,
        ← List.map_cons, segments, List.splitOnP_append_cons_of_forall_mem hends _ (by decide)]
      exact congrArg _ (ih (List.cons_ne_nil _ _) hkeys)

/-- A segment has a value for its own key and for no other. -/
theorem segmentValue?_segment {pair : String × String} (hkey : IsKey pair.1) (hvalue : pair.2 ≠ "") (key : String) :
    segmentValue? key (segment pair) = if pair.1 = key then some (Text.units (encodeComponent pair.2)) else none := by
  have hinKey : 0x3D ∉ Text.units pair.1 := by
    intro hmem
    obtain ⟨c, hc, hu⟩ := List.mem_flatMap.mp hmem
    obtain rfl : '=' = c := Char.toNat_inj.mp (Text.toNat_eq_of_mem_unitsOfChar hu (by decide))
    exact absurd (hkey _ hc) (by decide)
  have hinValue : 0x3D ∉ Text.units (encodeComponent pair.2) := by
    intro hmem
    obtain ⟨c, hc, hu⟩ := Text.Percent.exists_char_of_mem_units hmem
    obtain rfl : '=' = c := Char.toNat_inj.mp hu
    exact absurd hc (by decide)
  have hnonempty : Text.units (encodeComponent pair.2) ≠ [] := by
    rw [Ne, Text.units_eq_nil_iff]
    exact Text.Percent.encodeComponent_ne_empty hvalue
  ext value
  rw [segmentValue?_eq_some_iff, segment, List.append_cons_inj_of_notMem hinKey hinValue]
  constructor
  · rintro ⟨⟨hsame, -, rfl⟩, -⟩
    rw [if_pos (Text.units_injective hsame)]
  · intro hsome
    split at hsome
    · rename_i hsame
      obtain rfl := Option.some.inj hsome
      exact ⟨⟨congrArg _ hsame, rfl, rfl⟩, hnonempty⟩
    · cases hsome

/-- The values of a key are those of its pairs, in order. -/
theorem queryValues_queryText {key : String} (hname : IsKey key) {pairs : List (String × String)}
    (hpairs : ∀ p ∈ pairs, IsKey p.1 ∧ p.2 ≠ "") :
    queryValues key (Text.units (queryText pairs)) =
      (pairs.filter (·.1 == key)).map fun p => Text.units (encodeComponent p.2) := by
  rw [queryValues_eq hname, segmentValues]
  by_cases hne : pairs = []
  · subst hne
    show List.filterMap _ [[]] = []
    rw [List.filterMap_cons_none (segmentValue?_nil key), List.filterMap_nil]
  · rw [segments_queryText hne fun p hp => (hpairs p hp).1, List.filterMap_map, ← List.filterMap_eq_map,
      List.filterMap_filter]
    apply List.filterMap_congr
    intro p hp
    rw [Function.comp_apply, segmentValue?_segment (hpairs p hp).1 (hpairs p hp).2 key]
    simp

theorem decodeQueryValue_encodeComponent (s : String) :
    decodeQueryValue (Text.units (encodeComponent s)) = Text.units s := by
  have hplus : ∀ u ∈ Text.units (encodeComponent s), (if u = 0x2B then 0x20 else u) = u := by
    intro u hu
    obtain ⟨c, hc, hunit⟩ := Text.Percent.exists_char_of_mem_units hu
    rw [if_neg]
    rintro rfl
    obtain rfl : '+' = c := Char.toNat_inj.mp hunit
    exact absurd hc (by decide)
  rw [decodeQueryValue, List.map_congr_left hplus, List.map_id', Text.Percent.decodeOrKeep_encodeComponent]

/-- Each pair of a query clause captures its values, if the query has them under its key. -/
theorem capturePairs_of_values {query : List UInt16} {pairs : List QueryPair} {values : String → List String}
    (hvalues : ∀ q ∈ pairs, queryValues q.key query = (values q.name).map fun v => Text.units (encodeComponent v))
    (hsome : ∀ q ∈ pairs, values q.name ≠ []) :
    capturePairs query pairs =
      some (pairs.flatMap fun q => (values q.name).map fun value => (normalizeName q.name, Text.units value)) := by
  induction pairs with
  | nil => rfl
  | cons q rest ih =>
    have hrest := ih (fun r hr => hvalues r (List.mem_cons_of_mem q hr)) fun r hr => hsome r (List.mem_cons_of_mem q hr)
    obtain ⟨value, others, hcons⟩ := List.exists_cons_of_ne_nil (hsome q List.mem_cons_self)
    rw [capturePairs, hvalues q List.mem_cons_self, hrest, hcons]
    simp [hcons, decodeQueryValue_encodeComponent]

end Template

/-! ## Interleavings -/

/-- The last list has the elements of the first two, those of each in its order. -/
inductive Shuffle {α : Type} : List α → List α → List α → Prop where
  | nil : Shuffle [] [] []
  | left {a : α} {as bs cs : List α} : Shuffle as bs cs → Shuffle (a :: as) bs (a :: cs)
  | right {b : α} {as bs cs : List α} : Shuffle as bs cs → Shuffle as (b :: bs) (b :: cs)

/-- A list has the elements of several lists, those of each in its order. -/
inductive Interleaving {α : Type} : List (List α) → List α → Prop where
  | nil : Interleaving [] []
  | cons {as bs cs : List α} {lists : List (List α)} :
      Interleaving lists bs → Shuffle as bs cs → Interleaving (as :: lists) cs

namespace Shuffle

variable {α : Type} {as bs cs : List α}

theorem filter (h : Shuffle as bs cs) (p : α → Bool) : Shuffle (as.filter p) (bs.filter p) (cs.filter p) := by
  induction h with
  | nil => exact .nil
  | @left a _ _ _ _ ih =>
    by_cases ha : p a = true
    · simpa [ha] using ih.left
    · simpa [ha] using ih
  | @right b _ _ _ _ ih =>
    by_cases hb : p b = true
    · simpa [hb] using ih.right
    · simpa [hb] using ih

theorem eq_of_nil_left (h : Shuffle [] bs cs) : cs = bs := by
  generalize hnil : ([] : List α) = as at h
  induction h with
  | nil => rfl
  | left => cases hnil
  | right _ ih => rw [ih hnil]

theorem eq_of_nil_right (h : Shuffle as [] cs) : cs = as := by
  generalize hnil : ([] : List α) = bs at h
  induction h with
  | nil => rfl
  | left _ ih => rw [ih hnil]
  | right => cases hnil

theorem mem_iff (h : Shuffle as bs cs) (x : α) : x ∈ cs ↔ x ∈ as ∨ x ∈ bs := by
  induction h with
  | nil => simp
  | left _ ih => rw [List.mem_cons, List.mem_cons, ih, or_assoc]
  | right _ ih => rw [List.mem_cons, List.mem_cons, ih, or_left_comm]

end Shuffle

theorem Interleaving.mem_iff {α : Type} {lists : List (List α)} {cs : List α} (h : Interleaving lists cs) (x : α) :
    x ∈ cs ↔ ∃ as ∈ lists, x ∈ as := by
  induction h with
  | nil => simp
  | cons _ hshuffle ih => rw [hshuffle.mem_iff, ih, List.exists_mem_cons_iff]

namespace Template

open Text.Percent (encodeComponent)

/-- In an interleaving of the pairs of distinct keys, the pairs of one key are in their order. -/
theorem filter_interleaving {query : List QueryPair} {values : QueryPair → List String}
    {pairs : List (String × String)} (hkeys : (query.map (·.key)).Nodup)
    (h : Interleaving (query.map fun q => (values q).map fun value => (q.key, value)) pairs) {q : QueryPair}
    (hq : q ∈ query) : pairs.filter (·.1 == q.key) = (values q).map fun value => (q.key, value) := by
  induction query generalizing pairs with
  | nil => cases hq
  | cons first rest ih =>
    obtain ⟨hfirst, hrest⟩ := List.nodup_cons.mp hkeys
    cases h with
    | @cons _ others _ _ hothers hshuffle =>
      -- Of the two lists that are shuffled, only one has pairs of the key.
      have hfiltered := hshuffle.filter (·.1 == q.key)
      rcases List.mem_cons.mp hq with rfl | hq
      · have hown : ((values q).map fun value => (q.key, value)).filter (·.1 == q.key) =
            (values q).map fun value => (q.key, value) := by
          simp
        have hnone : ∀ p ∈ others, ¬(p.1 == q.key) = true := by
          intro p hp
          obtain ⟨_, hlist, hp⟩ := (hothers.mem_iff p).mp hp
          obtain ⟨other, hother, rfl⟩ := List.mem_map.mp hlist
          obtain ⟨value, -, rfl⟩ := List.mem_map.mp hp
          intro hsame
          exact hfirst (List.mem_map.mpr ⟨other, hother, beq_iff_eq.mp hsame⟩)
        rw [hown, List.filter_eq_nil_iff.mpr hnone] at hfiltered
        exact hfiltered.eq_of_nil_right
      · have hnone : ((values first).map fun value => (first.key, value)).filter (·.1 == q.key) = [] := by
          have hne : first.key ≠ q.key := by
            intro hsame
            exact hfirst (List.mem_map.mpr ⟨q, hq, hsame.symm⟩)
          simp [hne]
        rw [hnone] at hfiltered
        rw [hfiltered.eq_of_nil_left, ih hrest hothers hq]

/-- The query clause of a compiled template captures the values of its keys, in whatever interleaving they come. -/
theorem Compiled.matchQuery_queryText {text : String} {t : Template} (h : Compiled text t)
    (hkeys : (t.query.map (·.key)).Nodup) {values : String → List String}
    (hvalues : ∀ q ∈ t.query, values q.name ≠ [] ∧ ∀ value ∈ values q.name, value ≠ "")
    {pairs : List (String × String)}
    (hpairs : Interleaving (t.query.map fun q => (values q.name).map fun value => (q.key, value)) pairs) :
    t.matchQuery (queryText pairs) =
      some (t.query.flatMap fun q => (values q.name).map fun value => (normalizeName q.name, value)) := by
  have hpair : ∀ p ∈ pairs, IsKey p.1 ∧ p.2 ≠ "" := by
    intro p hp
    obtain ⟨_, hlist, hp⟩ := (hpairs.mem_iff p).mp hp
    obtain ⟨q, hq, rfl⟩ := List.mem_map.mp hlist
    obtain ⟨value, hvalue, rfl⟩ := List.mem_map.mp hp
    exact ⟨h.isKey_key hq, (hvalues q hq).2 value hvalue⟩
  have hcaptures : t.captureQuery (Text.units (queryText pairs)) =
      some (t.query.flatMap fun q => (values q.name).map fun value => (normalizeName q.name, Text.units value)) := by
    apply capturePairs_of_values
    · intro q hq
      rw [queryValues_queryText (h.isKey_key hq) hpair, filter_interleaving hkeys hpairs hq, List.map_map,
        Function.comp_def]
    · intro q hq
      exact (hvalues q hq).1
  rw [matchQuery, hcaptures, Option.map_some, captureTexts, List.map_flatMap]
  simp only [List.map_map, Function.comp_def, Text.ofUnits_units]

end Template

end Gateway

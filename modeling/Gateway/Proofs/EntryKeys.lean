import Gateway.Entries
import Mathlib.Data.List.Nodup
import Mathlib.Data.List.Perm.Basic

/-!
# Look-up in entries

How writing keys and bringing them into the order of an object act on look-up: `set` changes the value of one
key, `arrange` only moves entries, and what is written last is found.  The reserved key is found after `assign`
only where it was listed before.  Entries that stand in the order of an object are left as they are, and whether they
do so depends on the keys alone.
-/

namespace Gateway.Entries

variable {α : Type}

/-! ## Keys -/

@[simp] theorem keys_nil : keys ([] : Entries α) = [] := rfl

@[simp] theorem keys_cons (e : String × α) (es : Entries α) : keys (e :: es) = e.1 :: keys es := rfl

@[simp] theorem get?_nil (key : String) : get? ([] : Entries α) key = none := rfl

theorem get?_cons (e : String × α) (es : Entries α) (key : String) :
    get? (e :: es) key = if key = e.1 then some e.2 else get? es key := by
  unfold get?
  rw [List.lookup_cons]
  by_cases hkey : key = e.1
  · simp [hkey]
  · rw [beq_eq_false_iff_ne.mpr hkey, if_neg hkey]

theorem has_iff_mem_keys (es : Entries α) (key : String) : has es key = true ↔ key ∈ keys es := by
  simp only [has, keys, List.any_eq_true, List.mem_map, beq_iff_eq]

theorem get?_eq_none_iff (es : Entries α) (key : String) : get? es key = none ↔ key ∉ keys es := by
  induction es with
  | nil => simp
  | cons e rest ih =>
    rw [get?_cons, keys_cons, List.mem_cons]
    by_cases hkey : key = e.1
    · simp [hkey]
    · simp [hkey, ih]

theorem get?_isSome_iff (es : Entries α) (key : String) : (get? es key).isSome ↔ key ∈ keys es := by
  rw [← not_iff_not, ← get?_eq_none_iff, Bool.not_eq_true, Option.isSome_eq_false_iff,
    Option.isNone_iff_eq_none]

theorem mem_of_get? {es : Entries α} {key : String} {v : α} (h : get? es key = some v) : (key, v) ∈ es := by
  induction es with
  | nil => cases h
  | cons e rest ih =>
    rw [get?_cons] at h
    split at h
    · rename_i hkey
      obtain rfl : e.2 = v := Option.some.inj h
      simp [hkey]
    · exact List.mem_cons_of_mem e (ih h)

/-- With every key listed once, each entry is what its key finds. -/
theorem get?_of_mem {es : Entries α} {key : String} {v : α} (hnodup : (keys es).Nodup) (h : (key, v) ∈ es) :
    get? es key = some v := by
  induction es with
  | nil => cases h
  | cons e rest ih =>
    obtain ⟨hfresh, hrest⟩ := List.nodup_cons.mp hnodup
    rw [get?_cons]
    rcases List.mem_cons.mp h with rfl | htail
    · simp
    · have hne : key ≠ e.1 := by
        rintro rfl
        exact hfresh (List.mem_map.mpr ⟨_, htail, rfl⟩)
      rw [if_neg hne]
      exact ih hrest htail

theorem get?_eq_some_iff {es : Entries α} (hnodup : (keys es).Nodup) (key : String) (v : α) :
    get? es key = some v ↔ (key, v) ∈ es :=
  ⟨mem_of_get?, get?_of_mem hnodup⟩

theorem get?_of_perm {es es' : Entries α} (hperm : es.Perm es') (hnodup : (keys es).Nodup) (key : String) :
    get? es key = get? es' key := by
  have hkeys : (keys es).Perm (keys es') := hperm.map _
  apply Option.ext
  intro v
  rw [get?_eq_some_iff hnodup, get?_eq_some_iff (hkeys.nodup_iff.mp hnodup), hperm.mem_iff]

/-! ## Writing one key -/

theorem keys_set (es : Entries α) (key : String) (v : α) :
    keys (set es key v) = if has es key then keys es else keys es ++ [key] := by
  unfold set
  split
  · simp only [keys, List.map_map]
    apply List.map_congr_left
    intro e _
    by_cases hkey : e.1 = key
    · simp [hkey]
    · simp [hkey]
  · simp [keys]

theorem mem_keys_set (es : Entries α) (key k : String) (v : α) :
    k ∈ keys (set es key v) ↔ k = key ∨ k ∈ keys es := by
  rw [keys_set]
  split
  · rename_i hhas
    rw [has_iff_mem_keys] at hhas
    constructor
    · exact .inr
    · rintro (rfl | hmem)
      · exact hhas
      · exact hmem
  · simp [or_comm]

theorem nodup_keys_set {es : Entries α} (h : (keys es).Nodup) (key : String) (v : α) :
    (keys (set es key v)).Nodup := by
  rw [keys_set]
  split
  · exact h
  · rename_i hhas
    rw [has_iff_mem_keys] at hhas
    exact (List.nodup_append_comm.mp (List.nodup_cons.mpr ⟨hhas, h⟩))

theorem get?_replace (es : Entries α) (key k : String) (v : α) :
    get? (es.map fun e => if e.1 == key then (key, v) else e) k =
      if k = key then (get? es key).map fun _ => v else get? es k := by
  induction es with
  | nil => simp
  | cons e rest ih =>
    rw [List.map_cons, get?_cons, get?_cons, get?_cons, ih]
    by_cases he : e.1 = key
    · by_cases hk : k = key
      · simp [he, hk]
      · simp [he, hk]
    · by_cases hk : k = key
      · have hke : ¬ key = e.1 := fun h => he h.symm
        simp [he, hk, hke]
      · simp [he, hk]

theorem get?_append (es es' : Entries α) (k : String) :
    get? (es ++ es') k = (get? es k).or (get? es' k) := by
  induction es with
  | nil => simp
  | cons e rest ih =>
    rw [List.cons_append, get?_cons, get?_cons, ih]
    split
    · simp
    · rfl

theorem get?_filter_ne (es : Entries α) {key k : String} (hk : k ≠ key) :
    get? (es.filter (·.1 != key)) k = get? es k := by
  induction es with
  | nil => rfl
  | cons e rest ih =>
    rw [List.filter_cons, get?_cons]
    split
    · rw [get?_cons, ih]
    · rename_i hsame
      have hkey : e.1 = key := by simpa using hsame
      rw [ih, if_neg (by simpa [hkey] using hk)]

theorem get?_set (es : Entries α) (key k : String) (v : α) :
    get? (set es key v) k = if k = key then some v else get? es k := by
  unfold set
  split
  · rename_i hhas
    rw [get?_replace]
    obtain ⟨w, hw⟩ := Option.isSome_iff_exists.mp
      ((get?_isSome_iff es key).mpr ((has_iff_mem_keys es key).mp hhas))
    simp [hw]
  · rename_i hhas
    rw [has_iff_mem_keys, ← get?_eq_none_iff] at hhas
    rw [get?_append, get?_cons]
    by_cases hk : k = key
    · simp [hk, hhas]
    · simp [hk]

/-! ## Order -/

theorem insertIndexed_perm (index : Nat) (entry : String × α) (sorted : List (Nat × (String × α))) :
    (insertIndexed index entry sorted).Perm ((index, entry) :: sorted) := by
  induction sorted with
  | nil => simp [insertIndexed]
  | cons head rest ih =>
    obtain ⟨i, e⟩ := head
    unfold insertIndexed
    split
    · exact List.Perm.refl _
    · exact (List.Perm.cons _ ih).trans (List.Perm.swap _ _ _)

/-- What `indexed` lists after some entries, `sorted` being what it listed before them. -/
theorem foldl_indexed_perm (es : Entries α) (sorted : List (Nat × (String × α))) :
    ((es.foldl
      (fun sorted e =>
        match indexOf? e.1 with
        | some i => insertIndexed i e sorted
        | none => sorted) sorted).map (·.2)).Perm
      (sorted.map (·.2) ++ es.filter fun e => (indexOf? e.1).isSome) := by
  induction es generalizing sorted with
  | nil => simp
  | cons e rest ih =>
    cases hindex : indexOf? e.1 with
    | none =>
      have hfilter : (e :: rest).filter (fun e => (indexOf? e.1).isSome) =
          rest.filter fun e => (indexOf? e.1).isSome := by simp [hindex]
      rw [hfilter, List.foldl_cons, hindex]
      exact ih sorted
    | some i =>
      have hfilter : (e :: rest).filter (fun e => (indexOf? e.1).isSome) =
          e :: rest.filter fun e => (indexOf? e.1).isSome := by simp [hindex]
      rw [hfilter, List.foldl_cons, hindex]
      refine (ih (insertIndexed i e sorted)).trans ?_
      have hinsert : ((insertIndexed i e sorted).map (·.2)).Perm (e :: sorted.map (·.2)) :=
        (insertIndexed_perm i e sorted).map _
      exact (hinsert.append_right _).trans List.perm_middle.symm

theorem indexed_perm (es : Entries α) :
    ((indexed es).map (·.2)).Perm (es.filter fun e => (indexOf? e.1).isSome) := by
  have hfold := foldl_indexed_perm es []
  rw [List.map_nil, List.nil_append] at hfold
  exact hfold

theorem arrange_perm (es : Entries α) : (arrange es).Perm es := by
  have hothers : (es.filter fun e => (indexOf? e.1).isNone) =
      es.filter fun e => !(indexOf? e.1).isSome := by
    apply List.filter_congr
    intro e _
    cases indexOf? e.1 <;> rfl
  unfold arrange
  rw [hothers]
  exact ((indexed_perm es).append_right _).trans (List.filter_append_perm _ es)

theorem keys_arrange_perm (es : Entries α) : (keys (arrange es)).Perm (keys es) :=
  (arrange_perm es).map _

theorem get?_arrange {es : Entries α} (hnodup : (keys es).Nodup) (key : String) :
    get? (arrange es) key = get? es key :=
  (get?_of_perm (arrange_perm es).symm hnodup key).symm

/-! ## Writing several keys -/

/-- Of several pairs with one key the last that is written is found. -/
theorem get?_foldl_write {write : Entries α → String → α → Entries α} {k : String}
    (hwrite : ∀ es key v, get? (write es key v) k = if k = key then some v else get? es k)
    (pairs : List (String × α)) (es : Entries α) :
    get? (pairs.foldl (fun es p => write es p.1 p.2) es) k = (get? pairs.reverse k).or (get? es k) := by
  induction pairs generalizing es with
  | nil => simp
  | cons p rest ih =>
    rw [List.foldl_cons, ih, hwrite, List.reverse_cons, get?_append, get?_cons]
    by_cases hk : k = p.1
    · cases get? rest.reverse k <;> simp [hk]
    · cases get? rest.reverse k <;> simp [hk]

theorem nodup_keys_foldl_set (pairs : List (String × α)) :
    (keys (pairs.foldl (fun es p => set es p.1 p.2) [])).Nodup :=
  List.foldlRecOn (motive := fun es => (keys es).Nodup) pairs _ List.nodup_nil
    fun _ h p _ => nodup_keys_set h p.1 p.2

theorem nodup_keys_ofPairs (pairs : List (String × α)) : (keys (ofPairs pairs)).Nodup :=
  (keys_arrange_perm _).nodup_iff.mpr (nodup_keys_foldl_set pairs)

theorem get?_ofPairs (pairs : List (String × α)) (k : String) :
    get? (ofPairs pairs) k = get? pairs.reverse k := by
  rw [ofPairs, get?_arrange (nodup_keys_foldl_set pairs), get?_foldl_write fun es key v => get?_set es key k v]
  simp

theorem mem_keys_ofPairs (pairs : List (String × α)) (k : String) :
    k ∈ keys (ofPairs pairs) ↔ k ∈ keys pairs := by
  rw [← get?_isSome_iff, get?_ofPairs, get?_isSome_iff, keys, List.map_reverse, List.mem_reverse, keys]

theorem get?_reverse {pairs : List (String × α)} (hnodup : (keys pairs).Nodup) (k : String) :
    get? pairs.reverse k = get? pairs k :=
  (get?_of_perm (List.reverse_perm pairs).symm hnodup k).symm

theorem nodup_keys_store {es : Entries α} (h : (keys es).Nodup) (key : String) (v : α) :
    (keys (store es key v)).Nodup := by
  unfold store
  split
  · exact h
  · exact nodup_keys_set h key v

theorem get?_store {es : Entries α} {key k : String} (hk : k ≠ reservedKey) (v : α) :
    get? (store es key v) k = if k = key then some v else get? es k := by
  unfold store
  split
  · rename_i hreserved
    have hkey : key = reservedKey := by simpa using (Bool.and_eq_true_iff.mp hreserved).1
    rw [if_neg (hkey ▸ hk)]
  · exact get?_set es key k v

theorem reservedKey_not_mem_store {es : Entries α} (h : reservedKey ∉ keys es) (key : String) (v : α) :
    reservedKey ∉ keys (store es key v) := by
  unfold store
  split
  · exact h
  · rename_i hwritten
    rw [mem_keys_set]
    rintro (rfl | hmem)
    · have hhas : has es reservedKey = false := by
        rw [← Bool.not_eq_true, has_iff_mem_keys]
        exact h
      simp [hhas] at hwritten
    · exact h hmem

theorem nodup_keys_foldl_store (pairs : List (String × α)) {es : Entries α} (h : (keys es).Nodup) :
    (keys (pairs.foldl (fun es p => store es p.1 p.2) es)).Nodup :=
  List.foldlRecOn (motive := fun es => (keys es).Nodup) pairs _ h fun _ h p _ => nodup_keys_store h p.1 p.2

theorem nodup_keys_assign {es : Entries α} (h : (keys es).Nodup) (pairs : List (String × α)) :
    (keys (assign es pairs)).Nodup :=
  (keys_arrange_perm _).nodup_iff.mpr (nodup_keys_foldl_store pairs h)

/-- What is assigned last is found, and what is not assigned stays. -/
theorem get?_assign {es : Entries α} (h : (keys es).Nodup) (pairs : List (String × α)) {k : String}
    (hk : k ≠ reservedKey) : get? (assign es pairs) k = (get? pairs.reverse k).or (get? es k) := by
  rw [assign, get?_arrange (nodup_keys_foldl_store pairs h), get?_foldl_write fun es key v => get?_store hk v]

theorem reservedKey_not_mem_assign {es : Entries α} (h : reservedKey ∉ keys es) (pairs : List (String × α)) :
    reservedKey ∉ keys (assign es pairs) := by
  rw [assign, (keys_arrange_perm _).mem_iff]
  exact List.foldlRecOn (motive := fun es => reservedKey ∉ keys es) pairs _ h
    fun _ h p _ => reservedKey_not_mem_store h p.1 p.2

/-! ## Keys in the order of an object -/

/-- Writing keys that are all different lists them as they stand. -/
theorem foldl_set_of_nodup (pairs es : Entries α) (h : (keys (es ++ pairs)).Nodup) :
    pairs.foldl (fun es p => set es p.1 p.2) es = es ++ pairs := by
  induction pairs generalizing es with
  | nil => simp
  | cons p rest ih =>
    have hfresh : has es p.1 = false := by
      rw [← Bool.not_eq_true, has_iff_mem_keys]
      intro hmem
      rw [keys, List.map_append, List.map_cons] at h
      exact (List.disjoint_of_nodup_append h) hmem List.mem_cons_self
    have hset : set es p.1 p.2 = es ++ [p] := by simp [set, hfresh]
    rw [List.foldl_cons, hset, ih (es ++ [p]) (by simpa using h)]
    simp

theorem ofPairs_of_nodup {es : Entries α} (h : (keys es).Nodup) : ofPairs es = arrange es := by
  rw [ofPairs, foldl_set_of_nodup es [] (by simpa using h), List.nil_append]

/-- Two lists of the same entries with the same keys in the same order are equal. -/
theorem eq_of_perm_of_keys {es es' : Entries α} (hperm : es.Perm es') (hkeys : keys es = keys es')
    (hnodup : (keys es).Nodup) : es = es' := by
  have hlength : es.length = es'.length := hperm.length_eq
  apply List.ext_getElem hlength
  intro i hi hi'
  have hkey : es[i].1 = es'[i].1 := by
    have h := congrArg (fun ks => ks[i]?) hkeys
    simpa [keys, hi, hi'] using h
  have hmem : es'[i] ∈ es := hperm.mem_iff.mpr (List.getElem_mem hi')
  exact List.inj_on_of_nodup_map hnodup (List.getElem_mem hi) hmem hkey

/-- Whether keys are all different and stand in the order of an object. -/
def inOrder (es : Entries α) : Bool :=
  decide (keys es).Nodup && keys (arrange es) == keys es

/-- Different keys that are not index-like stand in the order of an object. -/
theorem inOrder_of_nodup {es : Entries α} (hnodup : (keys es).Nodup) (h : ∀ key ∈ keys es, indexOf? key = none) :
    inOrder es = true := by
  have hothers : es.filter (fun e => (indexOf? e.1).isNone) = es := by
    rw [List.filter_eq_self]
    intro e he
    rw [h e.1 (List.mem_map_of_mem he)]
    rfl
  have hindexed : (indexed es).map (·.2) = [] := by
    have hnone : (es.filter fun e => (indexOf? e.1).isSome) = [] := by
      rw [List.filter_eq_nil_iff]
      intro e he
      rw [h e.1 (List.mem_map_of_mem he)]
      decide
    have hperm := indexed_perm es
    rw [hnone] at hperm
    exact hperm.eq_nil
  have harrange : arrange es = es := by rw [arrange, hindexed, hothers, List.nil_append]
  simp [inOrder, hnodup, harrange]

theorem ofPairs_of_inOrder {es : Entries α} (h : inOrder es = true) : ofPairs es = es := by
  simp only [inOrder, Bool.and_eq_true, decide_eq_true_eq, beq_iff_eq] at h
  obtain ⟨hnodup, hkeys⟩ := h
  rw [ofPairs_of_nodup hnodup]
  exact eq_of_perm_of_keys (arrange_perm es) hkeys (hkeys ▸ hnodup)

theorem insertIndexed_map {β : Type} (f : α → β) (index : Nat) (entry : String × α)
    (sorted : List (Nat × (String × α))) :
    insertIndexed index (Prod.map id f entry) (sorted.map (Prod.map id (Prod.map id f))) =
      (insertIndexed index entry sorted).map (Prod.map id (Prod.map id f)) := by
  induction sorted with
  | nil => rfl
  | cons p rest ih =>
    simp only [List.map_cons, insertIndexed, Prod.map, id_eq] at ih ⊢
    split
    · rfl
    · rw [List.map_cons, ih]
      rfl

/-- An object is arranged by its keys, whatever its values are. -/
theorem arrange_map {β : Type} (f : α → β) (es : Entries α) :
    arrange (es.map (Prod.map id f)) = (arrange es).map (Prod.map id f) := by
  have hindexed : indexed (es.map (Prod.map id f)) = (indexed es).map (Prod.map id (Prod.map id f)) := by
    have hfold : ∀ sorted : List (Nat × (String × α)),
        (es.map (Prod.map id f)).foldl
            (fun sorted e => match indexOf? e.1 with
              | some i => insertIndexed i e sorted
              | none => sorted)
            (sorted.map (Prod.map id (Prod.map id f))) =
          (es.foldl
            (fun sorted e => match indexOf? e.1 with
              | some i => insertIndexed i e sorted
              | none => sorted)
            sorted).map (Prod.map id (Prod.map id f)) := by
      induction es with
      | nil => exact fun _ => rfl
      | cons e rest ih =>
        intro sorted
        rw [List.map_cons, List.foldl_cons, List.foldl_cons, ← ih]
        cases hindex : indexOf? e.1 with
        | none => simp only [Prod.map_fst, id_eq, hindex]
        | some i => simp only [Prod.map_fst, id_eq, hindex, insertIndexed_map]
    exact hfold []
  rw [arrange, hindexed, arrange, List.map_append, List.map_map, List.map_map, List.filter_map]
  rfl

/-- Whether keys stand in the order of an object does not depend on the values. -/
theorem inOrder_of_keys {β : Type} {es : Entries α} {es' : Entries β} (hkeys : keys es = keys es')
    (h : inOrder es = true) : inOrder es' = true := by
  have hunit : ∀ {γ : Type} (fs : Entries γ),
      keys (arrange fs) = keys (arrange ((keys fs).map fun key => (key, ()))) := by
    intro γ fs
    have hmap : (keys fs).map (fun key => (key, ())) = fs.map (Prod.map id fun _ => ()) := by
      simp [keys]
    rw [hmap, arrange_map]
    simp [keys]
  simp only [inOrder, Bool.and_eq_true, decide_eq_true_eq, beq_iff_eq] at h ⊢
  rw [hunit es, hkeys] at h
  rwa [hunit es']

end Gateway.Entries

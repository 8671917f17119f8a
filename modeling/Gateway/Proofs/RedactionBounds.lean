import Gateway.Proofs.NearestNaturals
import Gateway.Proofs.RedactedLogs
import Gateway.Proofs.UnitTexts

/-!
# Redaction bounds what it shows

A node of a value is found by a path of steps into lists and objects, and lies as deep as the path is long.  What is
shown of a value has parts only above the depth limit, and each part is a text or what is shown of some value one step
deeper (`part_apply`); so no node lies deeper than the limit, and no list is longer than it may be.  A path that leads
through no sensitive key, not through the reserved one and not into the part of a long list that is dropped leads to
the same place in what is shown (`at_of_reaches`), and a value that keeps all limits is shown as it is
(`shows_of_within`).

Depths are counted in numbers, which are exact up to 2^53; there the count stays (`depthAfter_eq`).
-/

namespace Gateway

/-! ## Paths -/

/-- A step into a value: to an item of a list, or to the value of a key. -/
inductive Step where
  | item (i : Nat)
  | entry (key : String)

/-- A path leads from a value to a node, part by part. -/
inductive Leads {α : Type} (part : α → Step → α → Prop) : α → List Step → α → Prop where
  | here (v : α) : Leads part v [] v
  | step {v w node : α} {s : Step} {path : List Step} (hpart : part v s w) (h : Leads part w path node) :
    Leads part v (s :: path) node

/-- The part of a value that a step leads to. -/
inductive Value.Part : Value → Step → Value → Prop where
  | item {items : List Value} {i : Nat} {w : Value} (h : items[i]? = some w) : Part (.array items) (.item i) w
  | entry {v : Value} {key : String} {w : Value} (h : (key, w) ∈ v.entries) : Part v (.entry key) w

/-- The node of a value that a path leads to. -/
abbrev Value.At := Leads Value.Part

theorem Value.not_part_of_scalar {v : Value} (hv : v.isComposite = false) (s : Step) (w : Value) : ¬v.Part s w := by
  intro h
  cases h with
  | item _ => cases hv
  | entry hmem =>
    cases v with
    | date | error | raised | array | object | heir => cases hv
    | _ => exact List.not_mem_nil hmem

namespace LogValue

/-- The part of what is shown that a step leads to. -/
inductive Part : LogValue → Step → LogValue → Prop where
  | item {items : List LogValue} {i : Nat} {w : LogValue} (h : items[i]? = some w) : Part (.array items) (.item i) w
  | entry {entries : List (String × LogValue)} {key : String} {w : LogValue} (h : (key, w) ∈ entries) :
    Part (.object entries) (.entry key) w

/-- The node of what is shown that a path leads to. -/
abbrev At := Leads Part

/-- What is shown without parts. -/
inductive IsLeaf : LogValue → Prop where
  | undefined : IsLeaf .undefined
  | null : IsLeaf .null
  | bool (b : Bool) : IsLeaf (.bool b)
  | number (n : Number) : IsLeaf (.number n)
  | text (units : List UInt16) : IsLeaf (.text units)

theorem IsLeaf.not_part {v : LogValue} (h : v.IsLeaf) (s : Step) (w : LogValue) : ¬v.Part s w := by
  intro hpart
  cases hpart <;> cases h

mutual

/-- What is shown is the value as it is: the same leaves under the same keys, in the same order. -/
inductive Shows : Value → LogValue → Prop where
  | undefined : Shows .undefined .undefined
  | null : Shows .null .null
  | bool (b : Bool) : Shows (.bool b) (.bool b)
  | number (n : Number) : Shows (.number n) (.number n)
  | text (s : String) : Shows (.string s) (.text (Text.units s))
  | array {items : List Value} {shown : List LogValue} (h : ShowsItems items shown) :
    Shows (.array items) (.array shown)
  | object {entries : List (String × Value)} {shown : List (String × LogValue)} (h : ShowsEntries entries shown) :
    Shows (.object entries) (.object shown)

/-- Lists are shown item by item. -/
inductive ShowsItems : List Value → List LogValue → Prop where
  | nil : ShowsItems [] []
  | cons {v : Value} {w : LogValue} {items : List Value} {shown : List LogValue} (h : Shows v w)
    (hrest : ShowsItems items shown) : ShowsItems (v :: items) (w :: shown)

/-- Entries are shown key by key. -/
inductive ShowsEntries : List (String × Value) → List (String × LogValue) → Prop where
  | nil : ShowsEntries [] []
  | cons (key : String) {v : Value} {w : LogValue} {entries : List (String × Value)}
    {shown : List (String × LogValue)} (h : Shows v w) (hrest : ShowsEntries entries shown) :
    ShowsEntries ((key, v) :: entries) ((key, w) :: shown)

end

end LogValue

namespace Number

theorem text_ofInt {n : Nat} (h : n < safeBound) : (ofInt n).text = toString n := by
  rw [ofInt_of_lt h]
  rfl

end Number

namespace Redaction

/-! ## Depths -/

/-- The depth after so many steps, as it is counted. -/
def depthAfter : Nat → Number
  | 0 => 0
  | n + 1 => (depthAfter n).add 1

/-- The count of depths is exact up to 2^53, and stays there. -/
theorem depthAfter_eq (n : Nat) : depthAfter n = .ofInt (min n Number.safeBound : Nat) := by
  induction n with
  | zero => rfl
  | succ n ih =>
    rw [depthAfter, ih]
    by_cases hn : n < Number.safeBound
    · rw [min_eq_left hn.le, min_eq_left (Nat.succ_le_of_lt hn), Number.ofInt_of_lt hn]
      rfl
    · have hlast : (Number.ofInt (Number.safeBound : Nat)).add 1 = .ofInt (Number.safeBound : Nat) := by
        decide +kernel
      rw [min_eq_right (by omega), min_eq_right (by omega), hlast]

variable {r : Redaction}

theorem isTooDeep_depthAfter {a n : Nat} (hle : a ≤ n) (h : r.isTooDeep (.ofInt n) = false) :
    r.isTooDeep (depthAfter a) = false := by
  rw [isTooDeep, ← Bool.not_eq_true] at h ⊢
  rw [depthAfter_eq]
  intro hdeep
  exact h (Number.atMost_ofInt_mono ((Nat.min_le_left a _).trans hle) hdeep)

/-! ## Lists and entries that are shown -/

theorem applyItems_eq_map (r : Redaction) (depth : Number) (items : List Value) :
    r.applyItems depth items = items.map (r.apply depth) := by
  induction items with
  | nil => rfl
  | cons v rest ih => rw [applyItems, ih, List.map_cons]

theorem applyEntries_eq_map (r : Redaction) (depth : Number) (es : List (String × Value)) :
    r.applyEntries depth (fun _ _ => true) es =
      (es.filter fun e => e.1 != Entries.reservedKey).map fun e =>
        (e.1, if r.isSensitive e.1 then hidden else r.apply depth e.2) := by
  induction es with
  | nil => rfl
  | cons e rest ih =>
    rw [applyEntries, ih]
    by_cases hreserved : e.1 = Entries.reservedKey <;> simp [hreserved]

theorem length_cutItems_le (items : List LogValue) : (cutItems items).length ≤ 100 := by
  unfold cutItems longestList
  split
  · simp [shownItems]
  · omega

theorem cutItems_of_le {items : List LogValue} (h : items.length ≤ 100) : cutItems items = items :=
  if_neg (Nat.not_lt.mpr h)

theorem mem_cutItems {items : List LogValue} {w : LogValue} (h : w ∈ cutItems items) :
    w ∈ items ∨ w = moreItems items.length := by
  unfold cutItems at h
  split at h
  · rw [List.mem_append, List.mem_singleton] at h
    exact h.imp_left List.mem_of_mem_take
  · exact .inl h

/-- The items of a list that is not cut, and the first ones of a list that is, keep their places. -/
theorem getElem?_cutItems {items : List LogValue} {i : Nat} {w : LogValue} (hw : items[i]? = some w)
    (hshown : items.length ≤ 100 ∨ i < 10) : (cutItems items)[i]? = some w := by
  rcases Nat.lt_or_ge 100 items.length with hlong | hshort
  · have hi : i < shownItems := hshown.resolve_left (Nat.not_le.mpr hlong)
    have htaken : i < (items.take shownItems).length := by
      rw [shownItems] at hi
      rw [List.length_take, shownItems]
      omega
    rw [cutItems, longestList, if_pos hlong, List.getElem?_append_left htaken, List.getElem?_take_of_lt hi, hw]
  · rw [cutItems_of_le hshort, hw]

/-! ## Parts of what is shown -/

theorem apply_of_isTooDeep {depth : Number} (h : r.isTooDeep depth = true) (v : Value) : r.apply depth v = tooDeep := by
  cases v <;> rw [apply, if_pos h]

theorem apply_array {depth : Number} (h : r.isTooDeep depth = false) (items : List Value) :
    r.apply depth (.array items) = .array (cutItems (items.map (r.apply (depth.add 1)))) := by
  rw [apply, h, applyItems_eq_map]
  rfl

theorem apply_object {depth : Number} (h : r.isTooDeep depth = false) {v : Value} (hv : v.isObject = true) :
    r.apply depth v =
      .object ((v.entries.filter fun e => e.1 != Entries.reservedKey).map fun e =>
        (e.1, if r.isSensitive e.1 then hidden else r.apply (depth.add 1) e.2)) := by
  rw [apply_of_isObject r depth hv, h, applyEntries_eq_map]
  rfl

/-- What may be shown at a depth. -/
inductive Displays (r : Redaction) (depth : Number) : LogValue → Prop where
  | tooDeep (h : r.isTooDeep depth = true) : Displays r depth tooDeep
  | leaf {w : LogValue} (h : r.isTooDeep depth = false) (hw : w.IsLeaf) : Displays r depth w
  | list (items : List Value) (h : r.isTooDeep depth = false) :
    Displays r depth (.array (cutItems (items.map (r.apply (depth.add 1)))))
  | object (v : Value) (h : r.isTooDeep depth = false) :
    Displays r depth (.object ((v.entries.filter fun e => e.1 != Entries.reservedKey).map fun e =>
      (e.1, if r.isSensitive e.1 then hidden else r.apply (depth.add 1) e.2)))

theorem displays_apply (r : Redaction) (depth : Number) (v : Value) : Displays r depth (r.apply depth v) := by
  cases hdeep : r.isTooDeep depth with
  | true =>
    rw [apply_of_isTooDeep hdeep]
    exact .tooDeep hdeep
  | false =>
    cases hobject : v.isObject with
    | true =>
      rw [apply_object hdeep hobject]
      exact .object v hdeep
    | false =>
      cases v with
      | array items =>
        rw [apply_array hdeep]
        exact .list items hdeep
      | undefined | null | bool | number | string | bigint | symbol | function =>
        rw [apply, hdeep]
        exact .leaf hdeep (by constructor)
      | _ => cases hobject

/-! ## Bounds of what is shown -/

/-- What is shown has parts only where it is not too deep, and each part is a text or what is shown one step deeper. -/
theorem part_apply {depth : Number} {v : Value} {s : Step} {w : LogValue} (h : (r.apply depth v).Part s w) :
    r.isTooDeep depth = false ∧ ((∃ units, w = .text units) ∨ ∃ u, w = r.apply (depth.add 1) u) := by
  have hshown := displays_apply r depth v
  generalize r.apply depth v = shown at h hshown
  cases hshown with
  | tooDeep hdeep => exact absurd h (LogValue.IsLeaf.not_part (.text _) s w)
  | leaf hdeep hleaf => exact absurd h (hleaf.not_part s w)
  | list items hdeep =>
    refine ⟨hdeep, ?_⟩
    cases h with
    | item hitem =>
      rcases mem_cutItems (List.mem_of_getElem? hitem) with hmem | rfl
      · obtain ⟨u, -, rfl⟩ := List.mem_map.mp hmem
        exact .inr ⟨u, rfl⟩
      · exact .inl ⟨_, rfl⟩
  | object _ hdeep =>
    refine ⟨hdeep, ?_⟩
    cases h with
    | entry hmem =>
      obtain ⟨e, -, he⟩ := List.mem_map.mp hmem
      obtain ⟨rfl, rfl⟩ := Prod.mk.inj he
      split
      · exact .inl ⟨_, rfl⟩
      · exact .inr ⟨e.2, rfl⟩

/-- A path into what is shown goes on from a part to what is shown one step deeper. -/
theorem at_cons_apply {depth : Number} {v : Value} {s : Step} {path : List Step} {node : LogValue}
    (h : (r.apply depth v).At (s :: path) node) :
    r.isTooDeep depth = false ∧
      ((path = [] ∧ ∃ units, node = .text units) ∨ ∃ u, (r.apply (depth.add 1) u).At path node) := by
  cases h with
  | step hpart hrest =>
    obtain ⟨hdeep, ⟨units, rfl⟩ | ⟨u, rfl⟩⟩ := part_apply hpart
    · refine ⟨hdeep, .inl ?_⟩
      cases hrest with
      | here => exact ⟨rfl, units, rfl⟩
      | step hnext _ => exact absurd hnext (LogValue.IsLeaf.not_part (.text _) _ _)
    · exact ⟨hdeep, .inr ⟨u, hrest⟩⟩

/-- A node of what is shown lies below a node that is not too deep. -/
theorem not_tooDeep_of_at {n : Nat} {v : Value} {s : Step} {path : List Step} {node : LogValue}
    (h : (r.apply (depthAfter n) v).At (s :: path) node) : r.isTooDeep (depthAfter (n + path.length)) = false := by
  induction path generalizing n v s with
  | nil => exact (at_cons_apply h).1
  | cons next path ih =>
    obtain ⟨-, ⟨hnil, -⟩ | ⟨u, hrest⟩⟩ := at_cons_apply h
    · cases hnil
    · have hbelow := ih (n := n + 1) hrest
      rwa [Nat.add_assoc, Nat.add_comm 1] at hbelow

/-- No list in what is shown is longer than it may be. -/
theorem length_le_of_at {depth : Number} {v : Value} {path : List Step} {items : List LogValue}
    (h : (r.apply depth v).At path (.array items)) : items.length ≤ 100 := by
  induction path generalizing depth v with
  | nil =>
    have hshown := displays_apply r depth v
    generalize r.apply depth v = shown at h hshown
    cases h with
    | here =>
      cases hshown with
      | leaf _ hleaf => cases hleaf
      | list items _ => exact length_cutItems_le _
  | cons s path ih =>
    obtain ⟨-, ⟨-, units, htext⟩ | ⟨u, hrest⟩⟩ := at_cons_apply h
    · cases htext
    · exact ih hrest

/-! ## Paths that are kept -/

/-- A path that goes through no sensitive key, not through the reserved key, and not into the part of a long list that
is dropped. -/
inductive Reaches (r : Redaction) : Value → List Step → Value → Prop where
  | here (v : Value) : Reaches r v [] v
  | item {items : List Value} {i : Nat} {w node : Value} {path : List Step} (hitem : items[i]? = some w)
    (hkept : items.length ≤ 100 ∨ i < 10) (h : Reaches r w path node) :
    Reaches r (.array items) (.item i :: path) node
  | entry {v w node : Value} {key : String} {path : List Step} (hentry : (key, w) ∈ v.entries)
    (hplain : ¬Sensitive r.fields key) (hreserved : key ≠ Entries.reservedKey) (h : Reaches r w path node) :
    Reaches r v (.entry key :: path) node

theorem not_tooDeep_below {n length : Nat} (h : ∀ k < length + 1, r.isTooDeep (depthAfter (n + k)) = false) :
    ∀ k < length, r.isTooDeep (depthAfter (n + 1 + k)) = false := by
  intro k hk
  have hnext := h (k + 1) (Nat.succ_lt_succ hk)
  rwa [Nat.add_comm k, ← Nat.add_assoc] at hnext

/-- A path that is kept leads to what is shown of the node it led to. -/
theorem at_of_reaches {n : Nat} {v : Value} {path : List Step} {node : Value} (h : r.Reaches v path node)
    (hdepth : ∀ k < path.length, r.isTooDeep (depthAfter (n + k)) = false) :
    (r.apply (depthAfter n) v).At path (r.apply (depthAfter (n + path.length)) node) := by
  induction h generalizing n with
  | here v => exact .here _
  | @item items i w node path hitem hkept _ ih =>
    have hroot : r.isTooDeep (depthAfter n) = false := hdepth 0 (Nat.succ_pos _)
    have hbelow := ih (n := n + 1) (not_tooDeep_below hdepth)
    rw [apply_array hroot]
    rw [Nat.add_assoc, Nat.add_comm 1] at hbelow
    refine .step (.item (getElem?_cutItems ?_ ?_)) hbelow
    · rw [List.getElem?_map, hitem]
      rfl
    · rwa [List.length_map]
  | @entry v w node key path hentry hplain hreserved _ ih =>
    have hroot : r.isTooDeep (depthAfter n) = false := hdepth 0 (Nat.succ_pos _)
    have hbelow := ih (n := n + 1) (not_tooDeep_below hdepth)
    have hobject : v.isObject = true := by
      cases v <;> first | rfl | cases hentry
    rw [apply_object hroot hobject]
    rw [Nat.add_assoc, Nat.add_comm 1] at hbelow
    refine .step (.entry (List.mem_map.mpr ⟨(key, w), ?_, ?_⟩)) hbelow
    · exact List.mem_filter.mpr ⟨hentry, by simpa using hreserved⟩
    · have hshown : r.isSensitive key = false := by
        rw [← Bool.not_eq_true, isSensitive_iff]
        exact hplain
      simp only [hshown]
      rfl

/-! ## Texts -/

/-- What is shown of some units under a limit: all of them if they are not more, and otherwise as many of the first ones
and a note of how many were dropped. -/
def Shortens (limit : Nat) (units shown : List UInt16) : Prop :=
  (units.length ≤ limit ∧ shown = units) ∨
    ∃ kept dropped, units = kept ++ dropped ∧ kept.length = limit ∧ dropped ≠ [] ∧
      shown = kept ++ Text.units ("... [truncated " ++ toString dropped.length ++ " chars]")

theorem cutText_of_not_less {s : String} (h : r.maxStringLength.less (.ofInt (Text.unitLength s)) = false) :
    r.cutText s = Text.units s := by
  rw [Text.unitLength] at h
  simp only [cutText, h]
  rfl

/-- Under a natural limit a text is cut to as many units, and the note counts the others. -/
theorem shortens_cutText {limit : Nat} {s : String} (hlimit : r.maxStringLength = .ofInt limit)
    (hs : Text.unitLength s < Number.safeBound) : Shortens limit (Text.units s) (r.cutText s) := by
  have hless : (Number.ofInt limit).less (.ofInt (Text.unitLength s)) = true ↔ limit < Text.unitLength s :=
    Number.ofInt_less_ofInt_iff hs.le
  rcases Nat.lt_or_ge limit (Text.unitLength s) with hlong | hshort
  · have hkept : keptLength (.ofInt limit) (Text.unitLength s) = limit := by
      rw [keptLength, Number.ofInt_of_lt (hlong.trans hs)]
      simp [Number.truncate?]
    have hdropped : ((Number.ofInt (Text.unitLength s)).sub (.ofInt limit)).text =
        toString (Text.unitLength s - limit) := by
      rw [Number.ofInt_sub_ofInt hlong.le hs, Number.text_ofInt (Nat.lt_of_le_of_lt (Nat.sub_le _ _) hs)]
    have hcut := hless.mpr hlong
    rw [Text.unitLength] at hcut hkept hdropped hlong
    refine .inr ⟨(Text.units s).take limit, (Text.units s).drop limit, (List.take_append_drop _ _).symm, ?_, ?_, ?_⟩
    · rw [List.length_take, min_eq_left hlong.le]
    · rw [Ne, List.drop_eq_nil_iff, Nat.not_le]
      exact hlong
    · simp only [cutText, hlimit, hcut, hkept, hdropped, List.length_drop]
      rfl
  · refine .inl ⟨hshort, cutText_of_not_less ?_⟩
    rw [hlimit, ← Bool.not_eq_true, hless]
    exact Nat.not_lt.mpr hshort

/-! ## Values within the limits -/

/-- What the limits ask of a node at a depth: a leaf of JSON or undefined, a text or a list that is not too long, or an
object without sensitive keys and the reserved one. -/
def Fits (r : Redaction) (depth : Nat) (v : Value) : Prop :=
  r.isTooDeep (.ofInt depth) = false ∧
  match v with
  | .undefined | .null | .bool _ | .number _ => True
  | .string s => r.maxStringLength.less (.ofInt (Text.unitLength s)) = false
  | .array items => items.length ≤ 100
  | .object entries => ∀ e ∈ entries, e.1 ≠ Entries.reservedKey ∧ ¬Sensitive r.fields e.1
  | _ => False

/-- All nodes of a value that lies at a depth keep the limits. -/
def Within (r : Redaction) (depth : Nat) (v : Value) : Prop :=
  ∀ path node, v.At path node → r.Fits (depth + path.length) node

/-- A value is within the limits if it keeps them itself and its parts are within them one step deeper. -/
theorem within_iff {n : Nat} {v : Value} :
    r.Within n v ↔ r.Fits n v ∧ ∀ s w, v.Part s w → r.Within (n + 1) w := by
  constructor
  · intro h
    refine ⟨h [] v (.here v), ?_⟩
    intro s w hpart path node hat
    have hfits := h (s :: path) node (.step hpart hat)
    rwa [List.length_cons, Nat.add_comm path.length, ← Nat.add_assoc] at hfits
  · rintro ⟨hfits, hparts⟩ path node hat
    cases hat with
    | here => exact hfits
    | @step _ w _ s path hpart hat =>
      have hbelow := hparts s w hpart path node hat
      rwa [Nat.add_assoc, Nat.add_comm 1] at hbelow

theorem Fits.not_tooDeep {n : Nat} {v : Value} (h : r.Fits n v) : r.isTooDeep (depthAfter n) = false :=
  isTooDeep_depthAfter (Nat.le_refl n) h.1

mutual

/-- A value within the limits is shown as it is. -/
theorem shows_of_within : ∀ {v : Value} {n : Nat}, r.Within n v → LogValue.Shows v (r.apply (depthAfter n) v)
  | .undefined, n, h | .null, n, h | .bool _, n, h | .number _, n, h => by
    rw [apply, (within_iff.mp h).1.not_tooDeep]
    constructor
  | .string s, n, h => by
    obtain ⟨hfits, -⟩ := within_iff.mp h
    rw [apply, hfits.not_tooDeep, cutText_of_not_less hfits.2]
    exact .text s
  | .array items, n, h => by
    obtain ⟨hfits, hparts⟩ := within_iff.mp h
    have hlength : (items.map (r.apply ((depthAfter n).add 1))).length ≤ 100 := by
      rw [List.length_map]
      exact hfits.2
    rw [apply_array hfits.not_tooDeep, cutItems_of_le hlength]
    refine .array (showsItems_of_within (n := n + 1) ?_)
    intro w hw
    obtain ⟨i, hi⟩ := List.getElem?_of_mem hw
    exact hparts _ w (.item hi)
  | .object entries, n, h => by
    obtain ⟨hfits, hparts⟩ := within_iff.mp h
    rw [apply_object hfits.not_tooDeep rfl]
    exact .object (showsEntries_of_within (n := n + 1) fun e he => ⟨hfits.2 e he, hparts _ _ (.entry he)⟩)
  | .bigint _, n, h | .symbol _, n, h | .function _ _, n, h | .date _, n, h | .error _ _, n, h | .raised _ _, n, h
  | .heir _ _, n, h => (within_iff.mp h).1.2.elim

theorem showsItems_of_within : ∀ {items : List Value} {n : Nat}, (∀ w ∈ items, r.Within n w) →
    LogValue.ShowsItems items (items.map (r.apply (depthAfter n)))
  | [], _, _ => .nil
  | v :: rest, n, h => by
    rw [List.forall_mem_cons] at h
    exact .cons (shows_of_within h.1) (showsItems_of_within h.2)

theorem showsEntries_of_within : ∀ {es : List (String × Value)} {n : Nat},
    (∀ e ∈ es, (e.1 ≠ Entries.reservedKey ∧ ¬Sensitive r.fields e.1) ∧ r.Within n e.2) →
    LogValue.ShowsEntries es ((es.filter fun e => e.1 != Entries.reservedKey).map fun e =>
      (e.1, if r.isSensitive e.1 then hidden else r.apply (depthAfter n) e.2))
  | [], _, _ => .nil
  | (key, v) :: rest, n, h => by
    rw [List.forall_mem_cons] at h
    obtain ⟨⟨⟨hreserved, hplain⟩, hv⟩, hrest⟩ := h
    rw [← isSensitive_iff] at hplain
    rw [List.filter_cons_of_pos (by simpa using hreserved), List.map_cons, if_neg hplain]
    exact .cons key (shows_of_within hv) (showsEntries_of_within hrest)

end

/-! ## Redaction as a whole -/

/-- No node of what is shown but the root lies a step below one that is too deep; so none lies deeper than a natural
limit.  No list has more than a hundred items.  A text that is reached stands where it stood, as it was if it is not
longer than it may be, and under a natural limit cut to as many units, with a note of how many were dropped.  A value
within the limits is shown as it is. -/
theorem redact_bounds (r : Redaction) (v : Value) :
    (∀ s path node, (r.redact v).At (s :: path) node →
      r.isTooDeep (.ofInt (min path.length Number.safeBound : Nat)) = false) ∧
    (∀ limit : Nat, r.maxDepth = .ofInt limit → limit ≤ Number.safeBound →
      ∀ path node, (r.redact v).At path node → path.length ≤ limit) ∧
    (∀ path items, (r.redact v).At path (.array items) → items.length ≤ 100) ∧
    (∀ path s, r.Reaches v path (.string s) → r.isTooDeep (.ofInt path.length) = false →
      (r.redact v).At path (.text (r.cutText s)) ∧
      (r.maxStringLength.less (.ofInt (Text.unitLength s)) = false → r.cutText s = Text.units s) ∧
      ∀ limit : Nat, r.maxStringLength = .ofInt limit → Text.unitLength s < Number.safeBound →
        Shortens limit (Text.units s) (r.cutText s)) ∧
    (r.Within 0 v → LogValue.Shows v (r.redact v)) := by
  have hdepth : ∀ s path node, (r.redact v).At (s :: path) node →
      r.isTooDeep (.ofInt (min path.length Number.safeBound : Nat)) = false := by
    intro s path node hat
    have hdeep := not_tooDeep_of_at (n := 0) hat
    rwa [Nat.zero_add, depthAfter_eq] at hdeep
  refine ⟨hdepth, ?_, fun path items => length_le_of_at, ?_, shows_of_within (n := 0)⟩
  · intro limit hmax hlimit path node hat
    cases path with
    | nil => exact Nat.zero_le limit
    | cons s path =>
      have hdeep := hdepth s path node hat
      rw [isTooDeep, hmax, ← Bool.not_eq_true, Number.ofInt_atMost_ofInt_iff hlimit (Nat.min_le_right _ _)] at hdeep
      rw [List.length_cons]
      omega
  · intro path s hreaches hdeep
    refine ⟨?_, cutText_of_not_less, fun limit => shortens_cutText⟩
    have hat := at_of_reaches (n := 0) hreaches fun k hk => by
      rw [Nat.zero_add]
      exact isTooDeep_depthAfter hk.le hdeep
    have hshown : r.apply (depthAfter path.length) (.string s) = .text (r.cutText s) := by
      rw [apply, isTooDeep_depthAfter (Nat.le_refl _) hdeep]
      rfl
    rwa [Nat.zero_add, hshown] at hat

/-- Limits that show four units of a text, down to a depth of two. -/
def tight : Redaction :=
  ⟨["пароль"], 3, 4⟩

/-- An account with names of a person, which may be too long, and a secret under a key in capitals. -/
def account (name : String) : Value :=
  .object [("names", .array [.null, .string name]), ("ПАРОЛЬ", .string "secret")]

theorem tight_within : tight.Within 0 (.object [("names", .array [.null, .string "A😀b"])]) := by
  refine within_iff.mpr ⟨⟨by decide +kernel, ?_⟩, ?_⟩
  · simp only [List.forall_mem_singleton, ← isSensitive_iff]
    decide +kernel
  · rintro s w (_ | hmem)
    cases List.mem_singleton.mp hmem
    refine within_iff.mpr ⟨⟨by decide +kernel, by decide⟩, ?_⟩
    intro s w hpart
    have hleaf : w.isComposite = false ∧ tight.Fits 2 w := by
      cases hpart with
      | entry hmem => cases hmem
      | item hitem =>
        rcases List.mem_pair.mp (List.mem_of_getElem? hitem) with rfl | rfl
        · exact ⟨rfl, by decide +kernel, trivial⟩
        · exact ⟨rfl, by decide +kernel, by decide +kernel⟩
    exact within_iff.mpr ⟨hleaf.2, fun s u hpart => absurd hpart (Value.not_part_of_scalar hleaf.1 s u)⟩

/-- A cut that leaves one half of a surrogate pair, and a value that is shown as it is. -/
theorem redact_bounds_tight :
    Sensitive tight.fields "ПАРОЛЬ" ∧
      (tight.redact (account "abc😀d")).At [.entry "names", .item 1]
        (.text (Text.units "abc" ++ 0xD83D :: Text.units "... [truncated 2 chars]")) ∧
      Shortens 4 (Text.units "abc😀d") (Text.units "abc" ++ 0xD83D :: Text.units "... [truncated 2 chars]") ∧
      LogValue.Shows (.object [("names", .array [.null, .string "A😀b"])])
        (tight.redact (.object [("names", .array [.null, .string "A😀b"])])) := by
  have hreaches : tight.Reaches (account "abc😀d") [.entry "names", .item 1] (.string "abc😀d") := by
    refine .entry (List.mem_cons_self ..) ?_ (by decide) (.item rfl (.inl (by decide)) (.here _))
    rw [← isSensitive_iff]
    decide +kernel
  have hcut : tight.cutText "abc😀d" = Text.units "abc" ++ 0xD83D :: Text.units "... [truncated 2 chars]" := by
    decide +kernel
  obtain ⟨-, -, -, htexts, -⟩ := redact_bounds tight (account "abc😀d")
  obtain ⟨hat, -, hshortens⟩ := htexts _ _ hreaches (by decide +kernel)
  have hshort := hshortens 4 rfl (by decide +kernel)
  rw [hcut] at hat hshort
  exact ⟨(isSensitive_iff _ _).mp (by decide +kernel), hat, hshort, (redact_bounds tight _).2.2.2.2 tight_within⟩

/-- A short text under the reserved key is not shown, though it lies above the depth limit and its key is not
sensitive. -/
theorem reserved_text_unshown :
    (Value.object [("__proto__", .string "x")]).At [.entry "__proto__"] (.string "x") ∧
      ¬Sensitive [] "__proto__" ∧
      (Redaction.mk [] 5 10).redact (.object [("__proto__", .string "x")]) = .object [] ∧
      ¬((Redaction.mk [] 5 10).redact (.object [("__proto__", .string "x")])).At [.entry "__proto__"]
        (.ofText "x") := by
  have hshown : (Redaction.mk [] 5 10).redact (.object [("__proto__", .string "x")]) = .object [] := by rfl
  refine ⟨.step (.entry (List.mem_singleton_self _)) (.here _), ?_, hshown, ?_⟩
  · rw [← isSensitive_iff ⟨[], 5, 10⟩]
    decide
  · rw [hshown]
    rintro (_ | ⟨_ | hmem, _⟩)
    cases hmem

end Redaction

end Gateway

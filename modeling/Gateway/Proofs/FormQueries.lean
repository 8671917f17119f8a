import Gateway.Dispatch
import Gateway.Proofs.PercentTexts
import Gateway.Proofs.SplitTexts

/-!
# Procedures that are named in a query

A query that spells a list of pairs has a piece for each pair, with both sides written as components.  No component
holds an ampersand, an equals sign, a plus sign or a question mark, so reading the query gives back the list
(`pairs_text`), whatever its keys and values are.  The procedure that such a query names is therefore the value of the
first pair with the key `method`, unless that value is empty (`namedProcedure?_text`).
-/

namespace Gateway

theorem Text.splitFirst_append {α : Type} {isSeparator : α → Bool} {run : List α}
    (hrun : ∀ c ∈ run, isSeparator c = false) {s : α} (hs : isSeparator s = true) (rest : List α) :
    splitFirst isSeparator (run ++ s :: rest) = (run, some rest) := by
  have hkept : ∀ c ∈ run, (!isSeparator c) = true := fun c hc => by rw [hrun c hc]; rfl
  unfold splitFirst
  rw [List.takeWhile_append_of_pos hkept, List.dropWhile_append_of_pos hkept,
    List.takeWhile_cons_of_neg (by simp [hs]), List.dropWhile_cons_of_neg (by simp [hs]), List.append_nil]

namespace Form

open Text.Percent (encodeComponent not_mem_encodeComponent)

/-! ## Writing pairs -/

/-- A pair as a piece of a query. -/
def pairText (pair : String × String) : String :=
  encodeComponent pair.1 ++ "=" ++ encodeComponent pair.2

/-- The query that spells a list of pairs. -/
def text (pairs : List (String × String)) : String :=
  "&".intercalate (pairs.map pairText)

theorem toList_pairText (pair : String × String) :
    (pairText pair).toList = (encodeComponent pair.1).toList ++ '=' :: (encodeComponent pair.2).toList := by
  simp [pairText]

theorem toList_text (pairs : List (String × String)) :
    (text pairs).toList = ['&'].intercalate (pairs.map fun p => (pairText p).toList) := by
  rw [text, String.toList_intercalate, List.map_map]
  rfl

theorem toList_pairText_ne_nil (pair : String × String) : (pairText pair).toList ≠ [] := by
  simp [toList_pairText]

/-- A character that is in no component and is no equals sign is not in a piece. -/
theorem not_mem_pairText {c : Char} (hc : Text.Percent.isComponentChar c = false) (hequals : c ≠ '=')
    (pair : String × String) : c ∉ (pairText pair).toList := by
  rw [toList_pairText, List.mem_append, List.mem_cons]
  rintro (hmem | rfl | hmem)
  · exact not_mem_encodeComponent hc pair.1 hmem
  · exact hequals rfl
  · exact not_mem_encodeComponent hc pair.2 hmem

/-! ## Reading them back -/

theorem decodeText_encodeComponent (s : String) : decodeText (encodeComponent s).toList = s := by
  rw [decodeText, Text.Percent.plusToSpace_encodeComponent, String.ofList_toList,
    Text.Percent.decodeLenient_encodeComponent]

theorem pairOf_pairText (pair : String × String) : pairOf (pairText pair).toList = pair := by
  have hkey : ∀ c ∈ (encodeComponent pair.1).toList, (c == '=') = false := by
    intro c hc
    rw [beq_eq_false_iff_ne]
    rintro rfl
    exact not_mem_encodeComponent (by decide) pair.1 hc
  rw [pairOf, toList_pairText, Text.splitFirst_append hkey (by decide)]
  simp only [Option.getD_some, decodeText_encodeComponent]

theorem skipMark_of_head {c : Char} (hc : c ≠ '?') (cs : List Char) : skipMark (c :: cs) = c :: cs := by
  unfold skipMark
  split
  · rename_i h
    exact absurd (List.cons.inj h).1 hc
  · rfl

/-- A query that spells pairs opens with no question mark, since its first piece is not empty and has none. -/
theorem skipMark_text (pairs : List (String × String)) : skipMark (text pairs).toList = (text pairs).toList := by
  rw [toList_text]
  cases pairs with
  | nil => rfl
  | cons p rest =>
    obtain ⟨c, piece, hpiece⟩ := List.exists_cons_of_ne_nil (toList_pairText_ne_nil p)
    have hc : c ≠ '?' := by
      rintro rfl
      exact not_mem_pairText (by decide) (by decide) p (hpiece ▸ List.mem_cons_self)
    obtain ⟨more, hmore⟩ : ∃ more, ['&'].intercalate ((p :: rest).map fun p => (pairText p).toList) =
        (pairText p).toList ++ more := by
      cases rest with
      | nil => exact ⟨[], by simp⟩
      | cons q rest => exact ⟨_, by rw [List.map_cons, List.map_cons, List.intercalate_cons_cons, List.append_assoc]⟩
    rw [hmore, hpiece, List.cons_append, skipMark_of_head hc]

theorem splitWhere_text (p : String × String) (rest : List (String × String)) :
    Text.splitWhere (· == '&') (text (p :: rest)).toList = (p :: rest).map fun q => (pairText q).toList := by
  rw [toList_text]
  apply Text.splitWhere_intercalate
  · intro piece hpiece
    obtain ⟨q, -, rfl⟩ := List.mem_map.mp hpiece
    exact not_mem_pairText (by decide) (by decide) q
  · exact List.cons_ne_nil _ _

/-- A query that spells a list of pairs is read as that list. -/
theorem pairs_text (pairs : List (String × String)) : Form.pairs (text pairs) = pairs := by
  rw [Form.pairs, skipMark_text]
  cases pairs with
  | nil => rfl
  | cons p rest =>
    have hkept : ∀ piece ∈ (p :: rest).map (fun q => (pairText q).toList), (!piece.isEmpty) = true := by
      intro piece hpiece
      obtain ⟨q, -, rfl⟩ := List.mem_map.mp hpiece
      simpa using toList_pairText_ne_nil q
    rw [splitWhere_text, List.filter_eq_self.mpr hkept, List.map_map]
    conv_rhs => rw [← List.map_id (p :: rest)]
    apply List.map_congr_left
    intro q _
    rw [Function.comp_apply, pairOf_pairText, id_eq]

/-- The first pair with the key has the value. -/
def FirstOf (pairs : List (String × String)) (key value : String) : Prop :=
  ∃ before after, pairs = before ++ (key, value) :: after ∧ ∀ p ∈ before, p.1 ≠ key

theorem first?_text_eq_some_iff (pairs : List (String × String)) (key value : String) :
    first? (text pairs) key = some value ↔ FirstOf pairs key value := by
  rw [first?, pairs_text, List.lookup_eq_some_iff, FirstOf]
  simp only [bne_iff_ne, ne_comm]

theorem first?_text_eq_none_iff (pairs : List (String × String)) (key : String) :
    first? (text pairs) key = none ↔ ∀ p ∈ pairs, p.1 ≠ key := by
  rw [first?, pairs_text, List.lookup_eq_none_iff]
  simp only [bne_iff_ne, ne_comm]

end Form

/-- The procedure that a query of pairs names is the value of the first pair with the key `method`, if it is not empty;
without such a pair, or with an empty value in the first one, the query names none, whatever comes later. -/
theorem Plan.namedProcedure?_text (pairs : List (String × String)) :
    (∀ name, namedProcedure? (Form.text pairs) = some name ↔ Form.FirstOf pairs "method" name ∧ name ≠ "") ∧
    (namedProcedure? (Form.text pairs) = none ↔
      (∀ p ∈ pairs, p.1 ≠ "method") ∨ Form.FirstOf pairs "method" "") := by
  unfold namedProcedure?
  constructor
  · intro name
    rw [Option.filter_eq_some_iff, Form.first?_text_eq_some_iff, bne_iff_ne]
  · rw [← Form.first?_text_eq_none_iff, ← Form.first?_text_eq_some_iff]
    cases Form.first? (Form.text pairs) "method" with
    | none => simp
    | some value => simp [Option.filter]

end Gateway

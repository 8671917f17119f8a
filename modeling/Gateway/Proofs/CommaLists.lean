import Gateway.Config
import Gateway.Http.Web
import Gateway.Proofs.SplitTexts
import Gateway.Proofs.TrimmedTexts

/-!
# Lists that are joined by commas

Cutting a text at its commas undoes joining the pieces, provided that no piece holds a comma.  `splitList` also trims
the pieces and leaves out the empty ones, so the items that it reads are not empty and have no comma and no blank at
their ends.  Such items are read back from every text whose pieces are the items with blanks around them and blank
pieces among them (`Padded.splitList_intercalate`), and every text is one of these (`Padded.of_itemsOf`).  A comma and a
space between the items is one way to join them.  Tokens are such items.
-/

namespace Gateway

/-! ## Cutting at commas -/

namespace Text

theorem splitText_intercalate {pieces : List String} (hpieces : ∀ s ∈ pieces, ',' ∉ s.toList) (hne : pieces ≠ []) :
    splitText ',' (",".intercalate pieces) = pieces := by
  have hchars : ∀ p ∈ pieces.map String.toList, ',' ∉ p := List.forall_mem_map.mpr hpieces
  rw [splitText, String.toList_intercalate]
  change (splitWhere (· == ',') ([','].intercalate (pieces.map String.toList))).map String.ofList = pieces
  rw [splitWhere_intercalate ',' hchars (List.map_eq_nil_iff.not.mpr hne), List.map_map]
  exact (List.map_congr_left fun s _ => String.ofList_toList).trans (List.map_id pieces)

theorem intercalate_splitText (text : String) : ",".intercalate (splitText ',' text) = text := by
  apply String.toList_inj.mp
  have hchars : (splitText ',' text).map String.toList = splitWhere (· == ',') text.toList := by
    rw [splitText, List.map_map]
    exact (List.map_congr_left fun p _ => String.toList_ofList).trans (List.map_id _)
  rw [String.toList_intercalate, hchars]
  exact intercalate_splitWhere ',' text.toList

theorem comma_not_mem_of_mem_splitText {text s : String} (hs : s ∈ splitText ',' text) : ',' ∉ s.toList := by
  obtain ⟨p, hp, rfl⟩ := List.mem_map.mp hs
  rw [String.toList_ofList]
  intro hcomma
  exact absurd (not_isSeparator_of_mem_splitWhere hp ',' hcomma) (by decide)

/-- Joining with two symbols is joining with the first what starts with the second. -/
theorem intercalate_two {α : Type} (a b : α) (piece : List α) (pieces : List (List α)) :
    [a, b].intercalate (piece :: pieces) = [a].intercalate (piece :: pieces.map (b :: ·)) := by
  induction pieces generalizing piece with
  | nil => rfl
  | cons next rest ih =>
    rw [List.map_cons, List.intercalate_cons_cons, List.intercalate_cons_cons, ih next]
    cases rest with
    | nil => simp
    | cons last rest => simp

/-- A list that is joined with a comma and a space: all items but the first one start with the space. -/
theorem intercalate_comma_space (first : String) (rest : List String) :
    ", ".intercalate (first :: rest) = ",".intercalate (first :: rest.map (" " ++ ·)) := by
  have hspaced : (rest.map (" " ++ ·)).map String.toList = (rest.map String.toList).map (' ' :: ·) := by
    rw [List.map_map, List.map_map]
    apply List.map_congr_left
    intro s _
    simp
  apply String.toList_inj.mp
  rw [String.toList_intercalate, String.toList_intercalate, List.map_cons, List.map_cons, hspaced]
  exact intercalate_two ',' ' ' first.toList (rest.map String.toList)

theorem InBlanks.comma_not_mem {s piece : String} (h : InBlanks s piece) (hs : ',' ∉ s.toList) :
    ',' ∉ piece.toList := by
  obtain ⟨before, after, hbefore, hafter, rfl⟩ := h
  have hblanks : ∀ blanks : List Char, blanks.all isBlank = true → ',' ∉ blanks := by
    intro blanks hall hcomma
    exact absurd (List.all_eq_true.mp hall ',' hcomma) (by decide)
  simp only [String.toList_append, String.toList_ofList, List.mem_append, not_or]
  exact ⟨⟨hblanks before hbefore, hs⟩, hblanks after hafter⟩

theorem trim_of_no_blank {s : String} (h : ∀ c ∈ s.toList, isBlank c = false) : trim s = s := by
  have hdrop : ∀ cs : List Char, (∀ c ∈ cs, isBlank c = false) → cs.dropWhile isBlank = cs := by
    intro cs hcs
    cases cs with
    | nil => rfl
    | cons c cs => rw [List.dropWhile_cons_of_neg (by simp [hcs c List.mem_cons_self])]
  rw [trim, trimChars, hdrop _ h, hdrop _ fun c hc => h c (List.mem_reverse.mp hc), List.reverse_reverse,
    String.ofList_toList]

end Text

/-! ## Items -/

namespace Config

/-- What can be an item of a list that is separated by commas. -/
structure IsItem (s : String) : Prop where
  ne_empty : s ≠ ""
  no_comma : ',' ∉ s.toList
  trimmed : Text.trim s = s

instance (s : String) : Decidable (IsItem s) :=
  decidable_of_iff (s ≠ "" ∧ ',' ∉ s.toList ∧ Text.trim s = s)
    ⟨fun h => ⟨h.1, h.2.1, h.2.2⟩, fun h => ⟨h.ne_empty, h.no_comma, h.trimmed⟩⟩

/-- Pieces in which the items stand in their order, each with blanks around it, among any number of blank pieces. -/
inductive Padded : List String → List String → Prop where
  | nil : Padded [] []
  | blank {piece : String} (hpiece : Text.InBlanks "" piece) {items pieces : List String} (h : Padded items pieces) :
      Padded items (piece :: pieces)
  | item {s piece : String} (hpiece : Text.InBlanks s piece) {items pieces : List String} (h : Padded items pieces) :
      Padded (s :: items) (piece :: pieces)

/-- The items among some pieces: what is left of them after trimming, without the empty ones. -/
def itemsOf (pieces : List String) : List String :=
  (pieces.map Text.trim).filter (· != "")

theorem splitList_eq_itemsOf (text : String) : splitList text = itemsOf (Text.splitText ',' text) :=
  rfl

theorem itemsOf_cons_of_empty {piece : String} (h : Text.trim piece = "") (pieces : List String) :
    itemsOf (piece :: pieces) = itemsOf pieces := by
  rw [itemsOf, List.map_cons, h]
  rfl

theorem itemsOf_cons_of_ne {piece : String} (h : Text.trim piece ≠ "") (pieces : List String) :
    itemsOf (piece :: pieces) = Text.trim piece :: itemsOf pieces := by
  rw [itemsOf, List.map_cons]
  exact List.filter_cons_of_pos (bne_iff_ne.mpr h)

namespace Padded

variable {items pieces : List String}

theorem comma_not_mem (h : Padded items pieces) (hitems : ∀ s ∈ items, ',' ∉ s.toList) :
    ∀ piece ∈ pieces, ',' ∉ piece.toList := by
  induction h with
  | nil => exact List.forall_mem_nil _
  | blank hpiece _ ih => exact List.forall_mem_cons.mpr ⟨hpiece.comma_not_mem (by decide), ih hitems⟩
  | item hpiece _ ih =>
    obtain ⟨hs, hrest⟩ := List.forall_mem_cons.mp hitems
    exact List.forall_mem_cons.mpr ⟨hpiece.comma_not_mem hs, ih hrest⟩

theorem itemsOf_eq (h : Padded items pieces) (hitems : ∀ s ∈ items, IsItem s) : itemsOf pieces = items := by
  induction h with
  | nil => rfl
  | blank hpiece _ ih => rw [itemsOf_cons_of_empty hpiece.trim_eq, ih hitems]
  | item hpiece _ ih =>
    obtain ⟨hs, hrest⟩ := List.forall_mem_cons.mp hitems
    have htrim := hpiece.trim_eq.trans hs.trimmed
    rw [itemsOf_cons_of_ne (htrim ▸ hs.ne_empty), htrim, ih hrest]

theorem splitList_intercalate (h : Padded items pieces) (hitems : ∀ s ∈ items, IsItem s) :
    splitList (",".intercalate pieces) = items := by
  by_cases hne : pieces = []
  · subst hne
    cases h
    decide
  · rw [splitList_eq_itemsOf, Text.splitText_intercalate (h.comma_not_mem fun s hs => (hitems s hs).no_comma) hne,
      h.itemsOf_eq hitems]

/-- Any pieces are their items among blanks. -/
theorem of_itemsOf (pieces : List String) : Padded (itemsOf pieces) pieces := by
  induction pieces with
  | nil => exact .nil
  | cons piece rest ih =>
    have hpiece := Text.inBlanks_trim piece
    by_cases hempty : Text.trim piece = ""
    · rw [itemsOf_cons_of_empty hempty]
      exact .blank (hempty ▸ hpiece) ih
    · rw [itemsOf_cons_of_ne hempty]
      exact .item hpiece ih

theorem map {f : String → String} (hf : ∀ s, Text.InBlanks s (f s)) (items : List String) :
    Padded items (items.map f) := by
  induction items with
  | nil => exact .nil
  | cons s rest ih => exact .item (hf s) ih

theorem refl (items : List String) : Padded items items := by
  have h := map (f := id) Text.InBlanks.refl items
  rwa [List.map_id] at h

end Padded

/-- A list is read back from the text that joins its items with a comma and a space. -/
theorem splitList_intercalate {items : List String} (hitems : ∀ s ∈ items, IsItem s) :
    splitList (", ".intercalate items) = items := by
  cases items with
  | nil => decide
  | cons first rest =>
    have hspace : ∀ s, Text.InBlanks s (" " ++ s) := fun s => ⟨[' '], [], by decide, rfl, String.append_empty.symm⟩
    rw [Text.intercalate_comma_space]
    exact (Padded.item (.refl first) (.map hspace rest)).splitList_intercalate hitems

theorem isItem_of_mem_splitList {text s : String} (hs : s ∈ splitList text) : IsItem s := by
  rw [splitList, List.mem_filter, bne_iff_ne] at hs
  obtain ⟨hmem, hne⟩ := hs
  obtain ⟨piece, hpiece, rfl⟩ := List.mem_map.mp hmem
  refine ⟨hne, ?_, Text.trim_trim piece⟩
  intro hcomma
  exact Text.comma_not_mem_of_mem_splitText hpiece ((Text.inBlanks_trim piece).mem hcomma)

/-- Every item of a text is not empty, holds no comma and is trimmed.  Such items are read back, in their order, from
every text that joins them with commas, whatever blanks stand around them and however many blank pieces among them, and
every text joins its items so.  Joining the items of a text with commas and reading them again changes nothing. -/
theorem splitList_inverts_join :
    (∀ text, ∀ s ∈ splitList text, IsItem s) ∧
    (∀ items pieces, (∀ s ∈ items, IsItem s) → Padded items pieces → splitList (",".intercalate pieces) = items) ∧
    (∀ text, ∃ pieces, Padded (splitList text) pieces ∧ ",".intercalate pieces = text) ∧
    (∀ text, splitList (",".intercalate (splitList text)) = splitList text) := by
  refine ⟨fun text s => isItem_of_mem_splitList, ?_, ?_, ?_⟩
  · intro items pieces hitems hpadded
    exact hpadded.splitList_intercalate hitems
  · intro text
    exact ⟨Text.splitText ',' text, .of_itemsOf _, Text.intercalate_splitText text⟩
  · intro text
    exact (Padded.refl _).splitList_intercalate fun s => isItem_of_mem_splitList

/-- An ideographic space alone, blanks of three kinds around the items and a space inside one of them. -/
theorem splitList_inverts_join_origins :
    (∀ s ∈ ["*.example.org", "two words"], IsItem s) ∧
    Padded ["*.example.org", "two words"] ["", "\u00a0*.example.org\t", "\u3000", " two words", ""] ∧
    splitList (",".intercalate ["", "\u00a0*.example.org\t", "\u3000", " two words", ""]) =
      ["*.example.org", "two words"] := by
  have hitems : ∀ s ∈ ["*.example.org", "two words"], IsItem s := by decide
  have hpadded : Padded ["*.example.org", "two words"] ["", "\u00a0*.example.org\t", "\u3000", " two words", ""] := by
    apply Padded.blank (.refl "")
    apply Padded.item ⟨['\u00a0'], ['\t'], by decide, by decide, by decide⟩
    apply Padded.blank ⟨['\u3000'], [], by decide, rfl, by decide⟩
    apply Padded.item ⟨[' '], [], by decide, rfl, by decide⟩
    exact .blank (.refl "") .nil
  exact ⟨hitems, hpadded, splitList_inverts_join.2.1 _ _ hitems hpadded⟩

end Config

/-! ## Tokens -/

namespace WebHeaders

/-- A character between two printed ASCII ones is printed ASCII. -/
theorem toNat_between {low c high : Char} (hrange : low.val ≤ c.val ∧ c.val ≤ high.val) (hlow : 0x20 < low.toNat)
    (hhigh : high.toNat < 0x80) : 0x20 < c.toNat ∧ c.toNat < 0x80 :=
  ⟨Nat.lt_of_lt_of_le hlow (UInt32.le_iff_toNat_le.mp hrange.1),
    Nat.lt_of_le_of_lt (UInt32.le_iff_toNat_le.mp hrange.2) hhigh⟩

/-- The characters of tokens are printed ASCII. -/
theorem toNat_of_isTokenChar {c : Char} (h : isTokenChar c = true) : 0x20 < c.toNat ∧ c.toNat < 0x80 := by
  have hmarks : "!#$%&'*+-.^_`|~".toList.all (fun d => decide (0x20 < d.toNat ∧ d.toNat < 0x80)) = true := by decide
  rw [isTokenChar, Bool.or_eq_true, List.contains_iff_mem, Char.isAlphanum, Bool.or_eq_true] at h
  rcases h with (halpha | hdigit) | hmark
  · rcases Bool.or_eq_true_iff.mp halpha with hupper | hlower
    · exact toNat_between (of_decide_eq_true hupper) (by decide) (by decide)
    · obtain ⟨hlow, hhigh⟩ := Bool.and_eq_true_iff.mp hlower
      exact toNat_between ⟨of_decide_eq_true hlow, of_decide_eq_true hhigh⟩ (by decide) (by decide)
  · obtain ⟨hlow, hhigh⟩ := Bool.and_eq_true_iff.mp hdigit
    exact toNat_between ⟨of_decide_eq_true hlow, of_decide_eq_true hhigh⟩ (by decide) (by decide)
  · exact of_decide_eq_true (List.all_eq_true.mp hmarks c hmark)

/-- A token can be an item of a list. -/
theorem isItem_of_isToken {s : String} (h : isToken s = true) : Config.IsItem s := by
  rw [isToken, Bool.and_eq_true, bne_iff_ne, List.all_eq_true] at h
  obtain ⟨hempty, hchars⟩ := h
  refine ⟨hempty, ?_, Text.trim_of_no_blank ?_⟩
  · intro hcomma
    exact absurd (hchars ',' hcomma) (by decide)
  · intro c hc
    obtain ⟨hlow, hhigh⟩ := toNat_of_isTokenChar (hchars c hc)
    simp only [Text.isBlank, Bool.or_eq_false_iff, Bool.and_eq_false_iff, decide_eq_false_iff_not,
      beq_eq_false_iff_ne]
    omega

end WebHeaders

end Gateway

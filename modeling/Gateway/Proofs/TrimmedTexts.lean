import Gateway.Text.Blank
import Mathlib.Data.List.DropRight

/-!
# Trimmed texts

Trimming takes the blanks at the two ends of a text away and nothing else (`inBlanks_trim`), so blanks that are put
there make no difference (`trimChars_append`) and trimming twice is trimming once (`trim_trim`).
-/

namespace Gateway.Text

/-! ## Trimming -/

theorem trimChars_idem (cs : List Char) : trimChars (trimChars cs) = trimChars cs := by
  have hprefix : trimChars cs <+: cs.dropWhile isBlank :=
    List.rdropWhile_prefix isBlank _
  -- What is left after both ends were trimmed starts as what was left after the first was.
  have hlead : (trimChars cs).dropWhile isBlank = trimChars cs := by
    cases htrimmed : trimChars cs with
    | nil => rfl
    | cons c rest =>
      obtain ⟨tail, htail⟩ := hprefix
      rw [htrimmed, List.cons_append] at htail
      have hhead : isBlank c = false := by
        have hne : cs.dropWhile isBlank ≠ [] := by simp [← htail]
        have := List.head_dropWhile_not isBlank hne
        simpa [← htail] using this
      rw [List.dropWhile_cons_of_neg (by simp [hhead])]
  calc trimChars (trimChars cs)
      = ((trimChars cs).dropWhile isBlank).rdropWhile isBlank := rfl
    _ = (trimChars cs).rdropWhile isBlank := by rw [hlead]
    _ = trimChars cs := List.rdropWhile_idempotent isBlank _

theorem trim_trim (s : String) : trim (trim s) = trim s := by
  simp [trim, trimChars_idem]

/-- Blanks around a text do not show in the trimmed text. -/
theorem trimChars_append {before after : List Char} (hbefore : ∀ c ∈ before, isBlank c = true)
    (hafter : ∀ c ∈ after, isBlank c = true) (cs : List Char) : trimChars (before ++ cs ++ after) = trimChars cs := by
  have hdropped : after.dropWhile isBlank = [] := List.dropWhile_eq_nil_iff.mpr hafter
  have hreversed : ∀ c ∈ after.reverse, isBlank c = true := fun c hc => hafter c (List.mem_reverse.mp hc)
  unfold trimChars
  rw [List.append_assoc, List.dropWhile_append_of_pos hbefore, List.dropWhile_append]
  split
  · rename_i hempty
    rw [hdropped, List.isEmpty_iff.mp hempty]
  · rw [List.reverse_append, List.dropWhile_append_of_pos hreversed]

theorem trim_ofList_append {before after : List Char} (hbefore : ∀ c ∈ before, isBlank c = true)
    (hafter : ∀ c ∈ after, isBlank c = true) (s : String) :
    trim (String.ofList before ++ s ++ String.ofList after) = trim s := by
  simp only [trim, String.toList_append, String.toList_ofList, trimChars_append hbefore hafter]

/-- A piece is a text with blanks around it, possibly none. -/
def InBlanks (s piece : String) : Prop :=
  ∃ before after : List Char, before.all isBlank = true ∧ after.all isBlank = true ∧
    piece = String.ofList before ++ s ++ String.ofList after

theorem InBlanks.refl (s : String) : InBlanks s s :=
  ⟨[], [], rfl, rfl, by simp⟩

theorem InBlanks.mem {s piece : String} (h : InBlanks s piece) {c : Char} (hc : c ∈ s.toList) : c ∈ piece.toList := by
  obtain ⟨before, after, -, -, rfl⟩ := h
  simp [hc]

theorem InBlanks.trim_eq {s piece : String} (h : InBlanks s piece) : trim piece = trim s := by
  obtain ⟨before, after, hbefore, hafter, rfl⟩ := h
  exact trim_ofList_append (List.all_eq_true.mp hbefore) (List.all_eq_true.mp hafter) s

/-- Trimming takes nothing but blanks away. -/
theorem inBlanks_trim (s : String) : InBlanks (trim s) s := by
  have hafter : ((s.toList.dropWhile isBlank).rtakeWhile isBlank).all isBlank = true :=
    List.all_eq_true.mpr fun _ => List.mem_rtakeWhile_imp
  refine ⟨s.toList.takeWhile isBlank, _, List.all_takeWhile, hafter, String.toList_inj.mp ?_⟩
  rw [trim, String.toList_append, String.toList_append, String.toList_ofList, String.toList_ofList,
    String.toList_ofList, List.append_assoc]
  calc s.toList = s.toList.takeWhile isBlank ++ s.toList.dropWhile isBlank := List.takeWhile_append_dropWhile.symm
    _ = s.toList.takeWhile isBlank ++ (trimChars s.toList ++ (s.toList.dropWhile isBlank).rtakeWhile isBlank) :=
        congrArg _ List.rdropWhile_append_rtakeWhile.symm

/-- Characters are trimmed exactly if neither the first nor the last one is blank. -/
theorem trimChars_eq_self_iff (cs : List Char) :
    trimChars cs = cs ↔ (∀ c ∈ cs.head?, isBlank c = false) ∧ ∀ c ∈ cs.getLast?, isBlank c = false := by
  have hlead : cs.dropWhile isBlank = cs ↔ ∀ c ∈ cs.head?, isBlank c = false := by
    cases cs with
    | nil => simp
    | cons c rest => simp [List.dropWhile_eq_self_iff]
  have htail : cs.rdropWhile isBlank = cs ↔ ∀ c ∈ cs.getLast?, isBlank c = false := by
    rw [List.rdropWhile_eq_self_iff]
    constructor
    · intro h c hc
      obtain ⟨hne, rfl⟩ := List.mem_getLast?_eq_getLast hc
      simpa using h hne
    · intro h hne
      simpa using h _ (List.getLast_mem_getLast? hne)
  rw [← hlead, ← htail]
  constructor
  · intro htrimmed
    -- Nothing was dropped on either side, or the result would be shorter.
    have hdropped : cs.dropWhile isBlank = cs := by
      have hshort : cs.length ≤ (cs.dropWhile isBlank).length := by
        conv_lhs => rw [← htrimmed]
        exact (List.rdropWhile_prefix isBlank _).length_le
      exact (List.dropWhile_suffix isBlank).eq_of_length_le hshort
    refine ⟨hdropped, ?_⟩
    conv_rhs => rw [← htrimmed]
    exact congrArg (List.rdropWhile isBlank) hdropped.symm
  · rintro ⟨hdropped, hkept⟩
    change (cs.dropWhile isBlank).rdropWhile isBlank = cs
    rw [hdropped, hkept]

end Gateway.Text

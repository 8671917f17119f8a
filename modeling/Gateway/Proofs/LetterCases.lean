import Gateway.Proofs.RangeTables
import Gateway.Proofs.TrimmedTexts

/-!
# Letter case

What holds of the case of every character is read off the tables, by sweeps that are evaluated once: no lower case of a
letter has a lower case of its own, no blank is cased, and a letter and its lower case are both cased and not skipped.
Hence a text in lower case is its own lower case (`lower_lower`), whatever becomes of a capital sigma, and a text may be
trimmed before or after (`trim_lower`).  Upper case is its own upper case as well (`upper_upper`).
-/

namespace Gateway.Text

/-! ## Letters and their other cases -/

namespace CaseRun

/-- As many numbers as a run has letters, at the same distances, in ranges. -/
def spread (r : CaseRun) (start : Nat) : List (Nat × Nat) :=
  if r.step = 1 then [(start, start + (r.last - r.first))]
  else (List.range ((r.last - r.first) / r.step + 1)).map fun k => (start + k * r.step, start + k * r.step)

theorem listed_spread {r : CaseRun} {n : Nat} (hlow : r.first ≤ n) (hhigh : n ≤ r.last)
    (hstep : (n - r.first) % r.step = 0) (start : Nat) : Listed (start + (n - r.first)) (r.spread start) := by
  unfold spread
  split
  · exact ⟨_, List.mem_singleton.mpr rfl, Nat.le_add_right _ _, by simp only; omega⟩
  · have hdistance : (n - r.first) / r.step * r.step = n - r.first := Nat.div_mul_cancel (Nat.dvd_of_mod_eq_zero hstep)
    have hk : (n - r.first) / r.step < (r.last - r.first) / r.step + 1 :=
      Nat.lt_succ_of_le (Nat.div_le_div_right (by omega))
    refine ⟨_, List.mem_map.mpr ⟨_, List.mem_range.mpr hk, rfl⟩, ?_, ?_⟩ <;> simp only [hdistance] <;> omega

/-- The letters of a table. -/
def letters (runs : List CaseRun) : List (Nat × Nat) :=
  runs.flatMap fun r => r.spread r.first

/-- The other cases of the letters of a table. -/
def images (runs : List CaseRun) : List (Nat × Nat) :=
  runs.flatMap fun r => r.spread r.image

/-- A number that a table changes is one of its letters, and becomes one of its other cases. -/
theorem listed_of_imageIn_ne {n : Nat} {runs : List CaseRun} (h : imageIn n runs ≠ n) :
    Listed n (letters runs) ∧ Listed (imageIn n runs) (images runs) := by
  induction runs with
  | nil => exact absurd rfl h
  | cons r rest ih =>
    have hhere : ∀ {m : Nat} {f : CaseRun → List (Nat × Nat)}, Listed m (f r) → Listed m ((r :: rest).flatMap f) := by
      rintro m f ⟨x, hx, hbounds⟩
      exact ⟨x, List.mem_flatMap.mpr ⟨r, List.mem_cons_self, hx⟩, hbounds⟩
    have hthere : ∀ {m : Nat} {f : CaseRun → List (Nat × Nat)}, Listed m (rest.flatMap f) →
        Listed m ((r :: rest).flatMap f) := by
      rintro m f ⟨x, hx, hbounds⟩
      exact ⟨x, List.mem_append_right _ hx, hbounds⟩
    unfold imageIn at h ⊢
    split at h
    · exact absurd rfl h
    · rename_i hlow
      rw [if_neg hlow]
      split at h
      · rename_i hin
        rw [if_pos hin]
        have hletter := listed_spread (Nat.le_of_not_lt hlow) hin.1 hin.2 r.first
        rw [Nat.add_sub_cancel' (Nat.le_of_not_lt hlow)] at hletter
        exact ⟨hhere hletter, hhere (listed_spread (Nat.le_of_not_lt hlow) hin.1 hin.2 r.image)⟩
      · rename_i hout
        rw [if_neg hout]
        obtain ⟨hletter, himage⟩ := ih h
        exact ⟨hthere hletter, hthere himage⟩

end CaseRun

/-- The numbers of characters. -/
def characterRanges : List (Nat × Nat) := [(0, 0xD7FF), (0xE000, 0x10FFFF)]

theorem toNat_ofNat_of_listed {n : Nat} (h : Listed n characterRanges) : (Char.ofNat n).toNat = n := by
  have hvalid : n.isValidChar := by
    obtain ⟨x, hx, hbounds⟩ := h
    rcases List.mem_cons.mp hx with rfl | hx
    · exact .inl (by simp only at hbounds; omega)
    · obtain rfl := List.mem_singleton.mp hx
      exact .inr (by simp only at hbounds; omega)
  rw [Char.ofNat, dif_pos hvalid]
  rfl

/-- The numbers of blanks. -/
def blankRanges : List (Nat × Nat) :=
  [(0x09, 0x0D), (0x20, 0x20), (0xA0, 0xA0), (0x1680, 0x1680), (0x2000, 0x200A), (0x2028, 0x2029), (0x202F, 0x202F),
    (0x205F, 0x205F), (0x3000, 0x3000), (0xFEFF, 0xFEFF)]

theorem listed_blankRanges {c : Char} (h : isBlank c = true) : Listed c.toNat blankRanges := by
  simp only [isBlank, Bool.or_eq_true, Bool.and_eq_true, decide_eq_true_eq, beq_iff_eq] at h
  simp only [Listed, blankRanges, List.mem_cons, List.not_mem_nil, or_false, exists_eq_or_imp, exists_eq_left]
  omega

/-! ## Lower case of characters -/

theorem lowerImages_checked :
    (fun images => sweep endsBefore images (CaseRun.letters lowerRuns) && sweep endsBefore images [(0x130, 0x130)] &&
      sweep endsBefore images ignorableRanges && sweep liesIn images casedRanges && sweep liesIn images characterRanges)
      (sorted (CaseRun.images lowerRuns)) = true := by
  decide +kernel

theorem lowerLetters_checked :
    ascends 0 (CaseRun.letters lowerRuns) = true ∧ sweep endsBefore (CaseRun.letters lowerRuns) ignorableRanges = true ∧
      sweep liesIn (CaseRun.letters lowerRuns) casedRanges = true := by
  decide +kernel

theorem casedRanges_checked :
    ascends 0 casedRanges = true ∧ ascends 0 ignorableRanges = true ∧ ascends 0 blankRanges = true ∧
      sweep endsBefore casedRanges blankRanges = true := by
  decide +kernel

theorem isCased_iff (c : Char) : isCased c = true ↔ Listed c.toNat casedRanges :=
  ⟨listed_of_inRanges, inRanges_of_listed ((ascends_iff 0 _).mp casedRanges_checked.1).2⟩

theorem isIgnorable_iff (c : Char) : isIgnorable c = true ↔ Listed c.toNat ignorableRanges :=
  ⟨listed_of_inRanges, inRanges_of_listed ((ascends_iff 0 _).mp casedRanges_checked.2.1).2⟩

theorem isCased_of_isBlank {c : Char} (h : isBlank c = true) : isCased c = false := by
  obtain ⟨hcased, -, hblank, hsweep⟩ := casedRanges_checked
  rw [← Bool.not_eq_true, isCased_iff]
  intro hlisted
  exact not_listed_of_sweep ((ascends_iff 0 _).mp hcased).2 ((ascends_iff 0 _).mp hblank).2 hsweep hlisted
    (listed_blankRanges h)

/-- A letter that stands for a word's letter on its own: it is cased and not skipped. -/
structure IsLetter (c : Char) : Prop where
  cased : isCased c = true
  counted : isIgnorable c = false

theorem IsLetter.not_blank {c : Char} (h : IsLetter c) : isBlank c = false := by
  rw [← Bool.not_eq_true]
  intro hblank
  have hcased := isCased_of_isBlank hblank
  rw [h.cased] at hcased
  cases hcased

theorem isLetter_of_listed {c : Char} (h : Listed c.toNat (CaseRun.letters lowerRuns)) : IsLetter c := by
  obtain ⟨hletters, hcounted, hcased⟩ := lowerLetters_checked
  have hsorted := ((ascends_iff 0 _).mp hletters).2
  refine ⟨(isCased_iff c).mpr (listed_of_sweep hsorted hcased h), ?_⟩
  rw [← Bool.not_eq_true, isIgnorable_iff]
  exact not_listed_of_sweep hsorted ((ascends_iff 0 _).mp casedRanges_checked.2.1).2 hcounted h

/-- What the tables say of the lower case of a letter: it is a letter again and has no other lower case. -/
theorem settled_of_listed {n : Nat} (h : Listed n (CaseRun.images lowerRuns)) :
    (Char.ofNat n).toNat = n ∧ IsLetter (Char.ofNat n) ∧ lowerChar (Char.ofNat n) = [Char.ofNat n] := by
  have himage := listed_sorted h
  have hsorted := pairwise_sorted (CaseRun.images lowerRuns)
  have hchecked := lowerImages_checked
  simp only [Bool.and_eq_true] at hchecked
  obtain ⟨⟨⟨⟨hletters, hdotted⟩, hcounted⟩, hcased⟩, hcharacter⟩ := hchecked
  have hn := toNat_ofNat_of_listed (listed_of_sweep hsorted hcharacter himage)
  have hplain : n ≠ 0x130 := by
    rintro rfl
    exact not_listed_of_sweep hsorted (List.pairwise_singleton _ _) hdotted himage
      ⟨_, List.mem_singleton.mpr rfl, Nat.le_refl _, Nat.le_refl _⟩
  have hkept : CaseRun.imageIn n lowerRuns = n := by
    by_contra hne
    exact not_listed_of_sweep hsorted ((ascends_iff 0 _).mp lowerLetters_checked.1).2 hletters himage
      (CaseRun.listed_of_imageIn_ne hne).1
  refine ⟨hn, ⟨?_, ?_⟩, ?_⟩
  · rw [isCased_iff, hn]
    exact listed_of_sweep hsorted hcased himage
  · rw [← Bool.not_eq_true, isIgnorable_iff, hn]
    exact not_listed_of_sweep hsorted ((ascends_iff 0 _).mp casedRanges_checked.2.1).2 hcounted himage
  · rw [lowerChar, hn, if_neg hplain, hkept]

/-- The dotted capital I. -/
def dottedI : Char := Char.ofNat 0x130

/-- The dot that is put above a letter. -/
def dotAbove : Char := Char.ofNat 0x307

/-- The lower case of a character is itself, or another letter, or that of the dotted capital I. -/
theorem lowerChar_cases (c : Char) :
    lowerChar c = [c] ∨ (∃ d, lowerChar c = [d] ∧ lowerChar d = [d] ∧ IsLetter c ∧ IsLetter d) ∨
      c = dottedI ∧ lowerChar c = ['i', dotAbove] := by
  by_cases hdotted : c.toNat = 0x130
  · have hc : c = dottedI := Char.toNat_inj.mp hdotted
    refine .inr (.inr ⟨hc, ?_⟩)
    rw [lowerChar, if_pos hdotted]
    rfl
  · by_cases hkept : CaseRun.imageIn c.toNat lowerRuns = c.toNat
    · left
      rw [lowerChar, if_neg hdotted, hkept, Char.ofNat_toNat]
    · obtain ⟨hletter, himage⟩ := CaseRun.listed_of_imageIn_ne hkept
      obtain ⟨-, hd, hsettled⟩ := settled_of_listed himage
      refine .inr (.inl ⟨_, ?_, hsettled, isLetter_of_listed hletter, hd⟩)
      rw [lowerChar, if_neg hdotted]

theorem lowerChar_ne_nil (c : Char) : lowerChar c ≠ [] := by
  rcases lowerChar_cases c with h | ⟨d, h, -⟩ | ⟨-, h⟩ <;> rw [h] <;> exact List.cons_ne_nil _ _

theorem ne_capitalSigma {c : Char} (h : lowerChar c = [c]) : c ≠ capitalSigma := by
  rintro rfl
  exact absurd h (by decide)

theorem lowerChar_of_mem_lowerChar {c d : Char} (h : d ∈ lowerChar c) : lowerChar d = [d] := by
  rcases lowerChar_cases c with hc | ⟨e, hc, he, -⟩ | ⟨-, hc⟩
  · rw [hc, List.mem_singleton] at h
    rw [h, hc]
  · rw [hc, List.mem_singleton] at h
    rw [h, he]
  · rw [hc] at h
    rcases List.mem_cons.mp h with rfl | h
    · decide
    · obtain rfl := List.mem_singleton.mp h
      decide

/-- Lower case makes no blank and no character out of a blank. -/
theorem isBlank_of_mem_lowerChar {c d : Char} (h : d ∈ lowerChar c) : isBlank d = isBlank c := by
  rcases lowerChar_cases c with hc | ⟨e, hc, -, hletter, he⟩ | ⟨rfl, hc⟩
  · rw [hc, List.mem_singleton] at h
    rw [h]
  · rw [hc, List.mem_singleton] at h
    rw [h, hletter.not_blank, he.not_blank]
  · rw [hc] at h
    rcases List.mem_cons.mp h with rfl | h
    · decide
    · obtain rfl := List.mem_singleton.mp h
      decide

theorem lowerChar_of_isBlank {c : Char} (h : isBlank c = true) : lowerChar c = [c] := by
  rcases lowerChar_cases c with hc | ⟨d, -, -, hletter, -⟩ | ⟨rfl, -⟩
  · exact hc
  · rw [hletter.not_blank] at h
    cases h
  · exact absurd h (by decide)

/-! ## Lower case of texts -/

/-- The lower case of a character in its place. -/
def lowerAt (afterCased : Bool) (c : Char) (rest : List Char) : List Char :=
  if c = capitalSigma then [if afterCased && !startsCased rest then finalSigma else smallSigma] else lowerChar c

/-- Whether the last character that is not skipped is cased, after one more. -/
def casedAfter (afterCased : Bool) (c : Char) : Bool :=
  if isIgnorable c then afterCased else isCased c

theorem lowerFrom_cons (afterCased : Bool) (c : Char) (rest : List Char) :
    lowerFrom afterCased (c :: rest) = lowerAt afterCased c rest ++ lowerFrom (casedAfter afterCased c) rest :=
  rfl

theorem lowerAt_of_ne {c : Char} (h : c ≠ capitalSigma) (afterCased : Bool) (rest : List Char) :
    lowerAt afterCased c rest = lowerChar c :=
  if_neg h

/-- A capital sigma becomes one of two small ones, neither of which is changed again. -/
theorem lowerAt_capitalSigma (afterCased : Bool) (rest : List Char) :
    lowerAt afterCased capitalSigma rest = [finalSigma] ∨ lowerAt afterCased capitalSigma rest = [smallSigma] := by
  rw [lowerAt, if_pos rfl]
  split
  · exact .inl rfl
  · exact .inr rfl

theorem lowerAt_ne_nil (afterCased : Bool) (c : Char) (rest : List Char) : lowerAt afterCased c rest ≠ [] := by
  by_cases h : c = capitalSigma
  · subst h
    rcases lowerAt_capitalSigma afterCased rest with h | h <;> rw [h] <;> exact List.cons_ne_nil _ _
  · rw [lowerAt_of_ne h]
    exact lowerChar_ne_nil c

theorem lowerChar_of_mem_lowerAt {afterCased : Bool} {c d : Char} {rest : List Char}
    (h : d ∈ lowerAt afterCased c rest) : lowerChar d = [d] := by
  by_cases hc : c = capitalSigma
  · subst hc
    rcases lowerAt_capitalSigma afterCased rest with hsigma | hsigma <;> rw [hsigma, List.mem_singleton] at h <;>
      subst h <;> decide
  · rw [lowerAt_of_ne hc] at h
    exact lowerChar_of_mem_lowerChar h

theorem isBlank_of_mem_lowerAt {afterCased : Bool} {c d : Char} {rest : List Char}
    (h : d ∈ lowerAt afterCased c rest) : isBlank d = isBlank c := by
  by_cases hc : c = capitalSigma
  · subst hc
    rcases lowerAt_capitalSigma afterCased rest with hsigma | hsigma <;> rw [hsigma, List.mem_singleton] at h <;>
      subst h <;> decide
  · rw [lowerAt_of_ne hc] at h
    exact isBlank_of_mem_lowerChar h

theorem lowerChar_of_mem_lowerFrom {afterCased : Bool} {cs : List Char} {d : Char} (h : d ∈ lowerFrom afterCased cs) :
    lowerChar d = [d] := by
  induction cs generalizing afterCased with
  | nil => cases h
  | cons c rest ih =>
    rw [lowerFrom_cons] at h
    rcases List.mem_append.mp h with h | h
    · exact lowerChar_of_mem_lowerAt h
    · exact ih h

/-- Characters without another lower case stay as they are, wherever they stand. -/
theorem lowerFrom_of_settled {cs : List Char} (h : ∀ c ∈ cs, lowerChar c = [c]) (afterCased : Bool) :
    lowerFrom afterCased cs = cs := by
  induction cs generalizing afterCased with
  | nil => rfl
  | cons c rest ih =>
    obtain ⟨hc, hrest⟩ := List.forall_mem_cons.mp h
    rw [lowerFrom_cons, lowerAt_of_ne (ne_capitalSigma hc), hc, ih hrest]
    rfl

theorem lower_lower (s : String) : lower (lower s) = lower s := by
  rw [lower, lower, String.toList_ofList, lowerFrom_of_settled fun _ => lowerChar_of_mem_lowerFrom]

/-! ## Lower case and trimming -/

theorem casedAfter_of_isBlank {c : Char} (h : isBlank c = true) : casedAfter false c = false := by
  rw [casedAfter, isCased_of_isBlank h, ite_self]

theorem startsCased_append_blanks {after : List Char} (hafter : ∀ c ∈ after, isBlank c = true) (cs : List Char) :
    startsCased (cs ++ after) = startsCased cs := by
  induction cs with
  | nil =>
    induction after with
    | nil => rfl
    | cons c rest ih =>
      obtain ⟨hc, hrest⟩ := List.forall_mem_cons.mp hafter
      have hnone : startsCased rest = false := ih hrest
      change (if isIgnorable c then startsCased rest else isCased c) = false
      rw [hnone, isCased_of_isBlank hc, ite_self]
  | cons c rest ih => rw [List.cons_append, startsCased, startsCased, ih]

theorem lowerFrom_blanks_append {before : List Char} (hbefore : ∀ c ∈ before, isBlank c = true) (cs : List Char) :
    lowerFrom false (before ++ cs) = before ++ lowerFrom false cs := by
  induction before with
  | nil => rfl
  | cons c rest ih =>
    obtain ⟨hc, hrest⟩ := List.forall_mem_cons.mp hbefore
    have hkept := lowerChar_of_isBlank hc
    rw [List.cons_append, lowerFrom_cons, lowerAt_of_ne (ne_capitalSigma hkept), hkept, casedAfter_of_isBlank hc,
      ih hrest]
    rfl

theorem lowerFrom_append_blanks {after : List Char} (hafter : ∀ c ∈ after, isBlank c = true) (afterCased : Bool)
    (cs : List Char) : lowerFrom afterCased (cs ++ after) = lowerFrom afterCased cs ++ after := by
  induction cs generalizing afterCased with
  | nil => exact lowerFrom_of_settled (fun c hc => lowerChar_of_isBlank (hafter c hc)) afterCased
  | cons c rest ih =>
    rw [List.cons_append, lowerFrom_cons, lowerFrom_cons, ih, List.append_assoc, lowerAt, lowerAt,
      startsCased_append_blanks hafter]

/-- The lower case of the last character ends that of the text. -/
theorem lowerFrom_concat (afterCased : Bool) (cs : List Char) (c : Char) :
    ∃ front d, lowerFrom afterCased (cs ++ [c]) = front ++ [d] ∧ isBlank d = isBlank c := by
  induction cs generalizing afterCased with
  | nil =>
    have hne := lowerAt_ne_nil afterCased c []
    refine ⟨(lowerAt afterCased c []).dropLast, _, ?_, isBlank_of_mem_lowerAt (List.getLast_mem hne)⟩
    rw [List.dropLast_append_getLast hne, List.nil_append, lowerFrom_cons, lowerFrom, List.append_nil]
  | cons e rest ih =>
    obtain ⟨front, d, hfront, hd⟩ := ih (casedAfter afterCased e)
    refine ⟨lowerAt afterCased e (rest ++ [c]) ++ front, d, ?_, hd⟩
    rw [List.cons_append, lowerFrom_cons, hfront, List.append_assoc]

theorem trimChars_lowerFrom {cs : List Char} (h : trimChars cs = cs) (afterCased : Bool) :
    trimChars (lowerFrom afterCased cs) = lowerFrom afterCased cs := by
  rw [trimChars_eq_self_iff] at h ⊢
  obtain ⟨hfirst, hlast⟩ := h
  constructor
  · cases cs with
    | nil => simp [lowerFrom]
    | cons c rest =>
      obtain ⟨d, piece, hpiece⟩ := List.exists_cons_of_ne_nil (lowerAt_ne_nil afterCased c rest)
      have hd : isBlank d = isBlank c := isBlank_of_mem_lowerAt (hpiece ▸ List.mem_cons_self)
      rw [lowerFrom_cons, hpiece]
      simpa [hd] using hfirst
  · rcases List.eq_nil_or_concat cs with rfl | ⟨init, c, rfl⟩
    · simp [lowerFrom]
    · obtain ⟨front, d, hfront, hd⟩ := lowerFrom_concat afterCased init c
      rw [List.concat_eq_append] at hlast ⊢
      rw [hfront]
      simpa [hd] using hlast

/-- A text may be trimmed before or after it is put into lower case. -/
theorem trim_lower (s : String) : trim (lower s) = lower (trim s) := by
  obtain ⟨before, after, hbefore, hafter, hs⟩ := inBlanks_trim s
  have hbefore := List.all_eq_true.mp hbefore
  have hafter := List.all_eq_true.mp hafter
  have hchars : s.toList = before ++ trimChars s.toList ++ after := by
    conv_lhs => rw [hs]
    simp [trim]
  have hlower : lowerFrom false s.toList = before ++ lowerFrom false (trimChars s.toList) ++ after := by
    conv_lhs => rw [hchars]
    rw [List.append_assoc, lowerFrom_blanks_append hbefore, lowerFrom_append_blanks hafter, List.append_assoc]
  rw [trim, lower, String.toList_ofList, hlower, trimChars_append hbefore hafter,
    trimChars_lowerFrom (trimChars_idem _), lower, trim, String.toList_ofList]

/-! ## Upper case -/

/-- The characters of upper cases that take several. -/
def longUpperImages : List (Nat × Nat) :=
  (longUpperCases.flatMap (·.2)).map fun n => (n, n)

/-- The letters whose upper case takes several characters. -/
def longUpperLetters : List (Nat × Nat) :=
  longUpperCases.map fun p => (p.1, p.1)

/-- The numbers of a table are those of characters without another upper case. -/
def settledInUpper (images : List (Nat × Nat)) : Bool :=
  sweep endsBefore images (CaseRun.letters upperRuns) && sweep endsBefore images longUpperLetters &&
    sweep liesIn images characterRanges

theorem upperImages_checked :
    settledInUpper (sorted (CaseRun.images upperRuns)) = true ∧ settledInUpper (sorted longUpperImages) = true := by
  decide +kernel

theorem upperLetters_checked : ascends 0 (CaseRun.letters upperRuns) = true ∧ ascends 0 longUpperLetters = true := by
  decide +kernel

theorem upperChar_of_listed {images : List (Nat × Nat)} (hchecked : settledInUpper (sorted images) = true) {n : Nat}
    (h : Listed n images) : upperChar (Char.ofNat n) = [Char.ofNat n] := by
  have himage := listed_sorted h
  have hsorted := pairwise_sorted images
  simp only [settledInUpper, Bool.and_eq_true] at hchecked
  obtain ⟨⟨hletters, hlong⟩, hcharacter⟩ := hchecked
  have hn := toNat_ofNat_of_listed (listed_of_sweep hsorted hcharacter himage)
  have hkept : CaseRun.imageIn n upperRuns = n := by
    by_contra hne
    exact not_listed_of_sweep hsorted ((ascends_iff 0 _).mp upperLetters_checked.1).2 hletters himage
      (CaseRun.listed_of_imageIn_ne hne).1
  have hshort : longUpperCases.lookup n = none := by
    rw [List.lookup_eq_none_iff]
    intro p hp
    rw [bne_iff_ne]
    rintro rfl
    exact not_listed_of_sweep hsorted ((ascends_iff 0 _).mp upperLetters_checked.2).2 hlong himage
      ⟨_, List.mem_map.mpr ⟨p, hp, rfl⟩, Nat.le_refl _, Nat.le_refl _⟩
  rw [upperChar, hn, hshort, hkept]

theorem upperChar_of_mem_upperChar {c d : Char} (h : d ∈ upperChar c) : upperChar d = [d] := by
  have hcase := h
  unfold upperChar at hcase
  split at hcase
  · rename_i numbers hlookup
    obtain ⟨n, hn, rfl⟩ := List.mem_map.mp hcase
    obtain ⟨l₁, l₂, htable, -⟩ := List.lookup_eq_some_iff.mp hlookup
    apply upperChar_of_listed upperImages_checked.2
    refine ⟨(n, n), List.mem_map.mpr ⟨n, ?_, rfl⟩, Nat.le_refl _, Nat.le_refl _⟩
    refine List.mem_flatMap.mpr ⟨(c.toNat, numbers), ?_, hn⟩
    rw [htable]
    exact List.mem_append_right _ List.mem_cons_self
  · rename_i hlookup
    obtain rfl := List.mem_singleton.mp hcase
    by_cases hkept : CaseRun.imageIn c.toNat upperRuns = c.toNat
    · rw [hkept, Char.ofNat_toNat, upperChar, hlookup, hkept, Char.ofNat_toNat]
    · exact upperChar_of_listed upperImages_checked.1 (CaseRun.listed_of_imageIn_ne hkept).2

theorem upper_upper (s : String) : upper (upper s) = upper s := by
  have hsettled : ∀ cs : List Char, (∀ c ∈ cs, upperChar c = [c]) → cs.flatMap upperChar = cs := by
    intro cs hcs
    rw [List.flatMap_congr hcs, List.flatMap_singleton']
  rw [upper, upper, String.toList_ofList, hsettled]
  intro d hd
  obtain ⟨c, -, hc⟩ := List.mem_flatMap.mp hd
  exact upperChar_of_mem_upperChar hc

end Gateway.Text

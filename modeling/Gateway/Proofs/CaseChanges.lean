import Gateway.Proofs.LetterCases

/-!
# Changes of letter case

A text is changed in letter case by writing the lower case of a character in its place, or the other way round.  The
capital sigma has two: the final one where it ends a word (`EndsWord`), and the small one elsewhere.  A change can turn
neither a cased character into one without case nor a skipped one into one that counts, so it does not decide whether
another sigma ends a word, and the text in lower case stays the same (`CaseChange.lower_eq`).
-/

namespace Gateway.Text

/-! ## The end of a word -/

/-- The characters that are not skipped when one looks for a cased one. -/
def counted (cs : List Char) : List Char :=
  cs.filter fun c => !isIgnorable c

/-- A character between two texts ends a word: of those that are not skipped the last one before it is cased, and the
first one after it is not. -/
def EndsWord (before after : List Char) : Prop :=
  (∃ c ∈ (counted before).getLast?, isCased c = true) ∧ ∀ c ∈ (counted after).head?, isCased c = false

theorem startsCased_eq_false_iff (cs : List Char) :
    startsCased cs = false ↔ ∀ c ∈ (counted cs).head?, isCased c = false := by
  induction cs with
  | nil => simp [startsCased, counted]
  | cons c cs ih =>
    rw [startsCased]
    split
    · rename_i hskipped
      rw [ih, counted, counted, List.filter_cons_of_neg (by simp [hskipped])]
    · rename_i hcounted
      rw [counted, List.filter_cons_of_pos (by simp [hcounted])]
      simp

/-- Whether the last character that is not skipped is cased, after some text. -/
def casedAfterAll (afterCased : Bool) (cs : List Char) : Bool :=
  cs.foldl casedAfter afterCased

theorem casedAfterAll_eq_true_iff (cs : List Char) :
    casedAfterAll false cs = true ↔ ∃ c ∈ (counted cs).getLast?, isCased c = true := by
  induction cs using List.reverseRecOn with
  | nil => simp [casedAfterAll, counted]
  | append_singleton cs c ih =>
    rw [casedAfterAll, List.foldl_append, List.foldl_cons, List.foldl_nil, ← casedAfterAll, casedAfter, counted,
      List.filter_append, ← counted]
    by_cases hskipped : isIgnorable c = true
    · simp [hskipped, ih]
    · simp [hskipped]

theorem endsWord_iff (before after : List Char) :
    EndsWord before after ↔ (casedAfterAll false before && !startsCased after) = true := by
  rw [EndsWord, ← casedAfterAll_eq_true_iff, ← startsCased_eq_false_iff, Bool.and_eq_true, Bool.not_eq_true']

/-! ## Changes -/

/-- One text is another in which a character is written in lower case. -/
inductive CaseChange : List Char → List Char → Prop where
  | lower (before : List Char) {c : Char} (hc : c ≠ capitalSigma) (after : List Char) :
      CaseChange (before ++ c :: after) (before ++ (lowerChar c ++ after))
  | finalSigma {before after : List Char} (h : EndsWord before after) :
      CaseChange (before ++ capitalSigma :: after) (before ++ finalSigma :: after)
  | smallSigma {before after : List Char} (h : ¬EndsWord before after) :
      CaseChange (before ++ capitalSigma :: after) (before ++ smallSigma :: after)

theorem startsCased_append_congr {xs ys : List Char} (h : startsCased xs = startsCased ys) (before : List Char) :
    startsCased (before ++ xs) = startsCased (before ++ ys) := by
  induction before with
  | nil => exact h
  | cons c before ih => rw [List.cons_append, List.cons_append, startsCased, startsCased, ih]

/-- What stands before a place is written in lower case without regard to how the rest starts, but for its case. -/
theorem lowerFrom_append_congr {xs ys : List Char} (hstarts : startsCased xs = startsCased ys) {before : List Char}
    {afterCased : Bool}
    (h : lowerFrom (casedAfterAll afterCased before) xs = lowerFrom (casedAfterAll afterCased before) ys) :
    lowerFrom afterCased (before ++ xs) = lowerFrom afterCased (before ++ ys) := by
  induction before generalizing afterCased with
  | nil => exact h
  | cons c before ih =>
    have hrest := startsCased_append_congr hstarts before
    rw [List.cons_append, List.cons_append, lowerFrom_cons, lowerFrom_cons, ih h, lowerAt, lowerAt, hrest]

theorem IsLetter.casedAfter {c : Char} (h : IsLetter c) (afterCased : Bool) : casedAfter afterCased c = true := by
  simp [Text.casedAfter, h.counted, h.cased]

theorem IsLetter.startsCased {c : Char} (h : IsLetter c) (rest : List Char) : startsCased (c :: rest) = true := by
  simp [Text.startsCased, h.counted, h.cased]

theorem isLetter_dottedI : IsLetter dottedI :=
  ⟨by decide +kernel, by decide +kernel⟩

theorem isLetter_i : IsLetter 'i' :=
  ⟨by decide +kernel, by decide +kernel⟩

theorem dotAbove_facts : isIgnorable dotAbove = true ∧ lowerChar dotAbove = [dotAbove] := by
  decide +kernel

/-- The three sigmas are letters. -/
theorem isLetter_sigmas : IsLetter capitalSigma ∧ IsLetter smallSigma ∧ IsLetter Text.finalSigma :=
  ⟨⟨by decide +kernel, by decide +kernel⟩, ⟨by decide +kernel, by decide +kernel⟩,
    ⟨by decide +kernel, by decide +kernel⟩⟩

/-- A character and its lower case agree on whether a text starts with a cased character. -/
theorem startsCased_lowerChar (c : Char) (rest : List Char) :
    startsCased (lowerChar c ++ rest) = startsCased (c :: rest) := by
  rcases lowerChar_cases c with hc | ⟨d, hc, -, hletter, hlower⟩ | ⟨rfl, hc⟩
  · rw [hc, List.singleton_append]
  · rw [hc, List.singleton_append, hletter.startsCased, hlower.startsCased]
  · rw [hc, List.cons_append, isLetter_i.startsCased, isLetter_dottedI.startsCased]

/-- The lower case of a character is in lower case already, and leaves the rest of the text as it is. -/
theorem lowerFrom_lowerChar {c : Char} (hc : c ≠ capitalSigma) (afterCased : Bool) (rest : List Char) :
    lowerFrom afterCased (lowerChar c ++ rest) = lowerFrom afterCased (c :: rest) := by
  rw [lowerFrom_cons, lowerAt_of_ne hc]
  rcases lowerChar_cases c with hself | ⟨d, hd, hsettled, hletter, hlower⟩ | ⟨rfl, hi⟩
  · rw [hself, List.singleton_append, lowerFrom_cons, lowerAt_of_ne hc, hself]
  · rw [hd, List.singleton_append, lowerFrom_cons, lowerAt_of_ne (ne_capitalSigma hsettled), hsettled,
      hletter.casedAfter, hlower.casedAfter]
  · have hdot : lowerFrom true (dotAbove :: rest) = dotAbove :: lowerFrom true rest := by
      rw [lowerFrom_cons, lowerAt_of_ne (by decide), casedAfter, dotAbove_facts.1, dotAbove_facts.2]
      rfl
    rw [hi, List.cons_append, List.singleton_append, lowerFrom_cons, lowerAt_of_ne (by decide), isLetter_i.casedAfter,
      isLetter_dottedI.casedAfter, hdot]
    rfl

/-- A capital sigma is written as the sigma that it becomes where it stands. -/
theorem lowerFrom_sigma {afterCased : Bool} {sigma : Char} {rest : List Char} (hletter : IsLetter sigma)
    (hsettled : lowerChar sigma = [sigma])
    (hsigma : sigma = if afterCased && !startsCased rest then finalSigma else smallSigma) :
    lowerFrom afterCased (capitalSigma :: rest) = lowerFrom afterCased (sigma :: rest) := by
  rw [lowerFrom_cons, lowerFrom_cons, lowerAt_of_ne (ne_capitalSigma hsettled), hsettled, lowerAt, if_pos rfl, ← hsigma,
    isLetter_sigmas.1.casedAfter, hletter.casedAfter]

/-- A change of letter case does not change the text in lower case. -/
theorem CaseChange.lower_eq {xs ys : List Char} (h : CaseChange xs ys) :
    Text.lower (String.ofList xs) = Text.lower (String.ofList ys) := by
  obtain ⟨hcapital, hsmall, hfinal⟩ := isLetter_sigmas
  suffices hsame : lowerFrom false xs = lowerFrom false ys by
    rw [Text.lower, Text.lower, String.toList_ofList, String.toList_ofList, hsame]
  cases h with
  | lower before hc after =>
    exact lowerFrom_append_congr (startsCased_lowerChar _ _).symm (lowerFrom_lowerChar hc _ _).symm
  | finalSigma hends =>
    apply lowerFrom_append_congr
    · rw [hcapital.startsCased, hfinal.startsCased]
    · rw [endsWord_iff] at hends
      exact lowerFrom_sigma hfinal (by decide +kernel) (by rw [if_pos hends])
  | smallSigma hends =>
    apply lowerFrom_append_congr
    · rw [hcapital.startsCased, hsmall.startsCased]
    · rw [endsWord_iff] at hends
      exact lowerFrom_sigma hsmall (by decide +kernel) (by rw [if_neg hends])

end Gateway.Text

import Gateway.Log.RequestId
import Gateway.Proofs.NearestNaturals

/-!
# Integers in base 36

The text of an integer below 2^53 in magnitude is its sign and its digits (`radixChars_int`): the remainders and
quotients that are taken on the way are exact, and no digit is left out, since neighbouring numbers are at most one
apart.  Digits are read back by the value of each (`foldl_digitsBefore`), leading zeros or not, so an integer and a
counter value can be told from their texts.
-/

namespace Gateway

theorem SafeInt.eq_of_val_eq {a b : SafeInt} (h : a.val = b.val) : a = b := by
  obtain ⟨val, _⟩ := a
  obtain rfl : val = b.val := h
  rfl

namespace Number

/-! ## Dividing by the base -/

theorem parts?_ofInt {n : Nat} (hn : n < safeBound) : (ofInt n).parts? = some ((n : Int), 0) := by
  rw [ofInt_of_lt hn]
  rfl

theorem isNegative_ofInt {n : Nat} (hn : n < safeBound) : (ofInt n).isNegative = false := by
  rw [ofInt_of_lt hn]
  exact decide_eq_false (Int.not_lt.mpr (Int.natCast_nonneg n))

theorem floorNat_ofInt {n : Nat} (hn : n < safeBound) : (ofInt n).floorNat = n := by
  rw [ofInt_of_lt hn]
  rfl

theorem ofSafe_eq_ofInt {n : Nat} (hn : n < safeBound) : ofSafe false n = ofInt n := by
  rw [ofInt_of_lt hn, ofSafe, dif_pos hn]
  rfl

theorem remainder_ofInt {n : Nat} (hn : n < safeBound) (base : Nat) :
    (ofInt n).remainder base = ofInt (n % base : Nat) := by
  have hrest : n % base < safeBound := (Nat.mod_le n base).trans_lt hn
  have hratio : (ofInt n).remainder base = ofRatio false (n % base) 1 := by
    simp [remainder, parts?_ofInt hn, isNegative_ofInt hn, ofShifted, shiftRatio]
  rw [hratio, ofRatio_safe false hrest, ofSafe_eq_ofInt hrest]

theorem shrink_ofInt {q base : Nat} (hbase : 0 < base) (h : q * base < safeBound) :
    (ofInt (q * base : Nat)).shrink base = ofInt q := by
  have hq : q < safeBound := (Nat.le_mul_of_pos_right q hbase).trans_lt h
  have hratio : (ofInt (q * base : Nat)).shrink base = ofRatio false (q * base) base := by
    simp only [shrink, parts?_ofInt h, isNegative_ofInt h, Int.natAbs_natCast, ofShifted]
    simp [shiftRatio]
  rw [hratio, ofRatio_exact false hq hbase, ofSafe_eq_ofInt hq]

/-- Half the distance to the next number is positive, and less than half the base. -/
theorem halfGap_ofInt {n : Nat} (hn : n < safeBound) :
    (ofInt n).halfGap.atMost (ofInt (0 : Nat)) = false ∧
      (ofInt (36 : Nat)).less ((ofInt n).halfGap.scale 2) = false := by
  have hlog : n.log2 < 53 := by
    rcases Nat.eq_zero_or_pos n with rfl | hpos
    · decide
    · exact (Nat.log2_lt hpos.ne').mpr hn
  have hgap : ∀ k : Nat, k < 53 → (ofShifted false 1 1 ((k : Int) - 53)).atMost (ofInt (0 : Nat)) = false ∧
      (ofInt (36 : Nat)).less ((ofShifted false 1 1 ((k : Int) - 53)).scale 2) = false := by
    decide +kernel
  rw [ofInt_of_lt hn]
  exact hgap n.log2 hlog

/-! ## Digits -/

open RequestId (digitsBefore)

/-- One step finds the last digit, and goes on with the quotient unless it is zero. -/
theorem integerDigits_step (fuel : Nat) {n : Nat} (hn : n < safeBound) (rest : List Char) :
    integerDigits 36 (fuel + 1) (ofInt n) rest =
      if 0 < n / 36 then integerDigits 36 fuel (ofInt (n / 36 : Nat)) (radixDigit (n % 36) :: rest)
      else radixDigit (n % 36) :: rest := by
  have hrest : n % 36 < safeBound := (Nat.mod_le n 36).trans_lt hn
  have hquotient : n / 36 < safeBound := (Nat.div_le_self n 36).trans_lt hn
  have hmultiple : n - n % 36 = n / 36 * 36 := by omega
  have hnext : ((ofInt n).sub (ofInt (n % 36 : Nat))).shrink 36 = ofInt (n / 36 : Nat) := by
    rw [ofInt_sub_ofInt (Nat.mod_le n 36) hn, hmultiple]
    exact shrink_ofInt (by decide) (by omega)
  have hmore : (0 : Number).less (ofInt (n / 36 : Nat)) = true ↔ 0 < n / 36 :=
    ofInt_less_ofInt_iff hquotient.le
  rw [integerDigits, remainder_ofInt hn, hnext, floorNat_ofInt hrest]
  simp only [hmore]

/-- The digits of a natural below 2^53 are found one by one, if there is room for all of them. -/
theorem integerDigits_ofInt (fuel : Nat) {n : Nat} (hn : n < safeBound) (hfuel : n < 36 ^ (fuel + 1))
    (rest : List Char) : integerDigits 36 (fuel + 1) (ofInt n) rest = digitsBefore n rest := by
  induction fuel generalizing n rest with
  | zero =>
    have hsmall : n < 36 := hfuel
    rw [integerDigits_step 0 hn, if_neg (by omega), digitsBefore, if_pos hsmall, Nat.mod_eq_of_lt hsmall]
  | succ fuel ih =>
    rw [integerDigits_step (fuel + 1) hn, digitsBefore]
    by_cases hsmall : n < 36
    · rw [if_neg (by omega), if_pos hsmall, Nat.mod_eq_of_lt hsmall]
    · have hquotient : n / 36 < 36 ^ (fuel + 1) := by
        rw [Nat.div_lt_iff_lt_mul (by decide), ← Nat.pow_succ]
        exact hfuel
      rw [if_pos (by omega), if_neg hsmall, ih (by omega) hquotient]

theorem unsignedRadix_ofInt {n : Nat} (hn : n < safeBound) : unsignedRadix 36 (ofInt n) = digitsBefore n [] := by
  obtain ⟨hpositive, hsmall⟩ := halfGap_ofInt hn
  have hwhole : ofInt ((ofInt n).truncate?.getD 0) = ofInt n := by
    rw [ofInt_of_lt hn]
    exact ofInt_of_lt hn
  have hfraction : (ofInt n).sub (ofInt n) = ofInt (0 : Nat) := by
    rw [ofInt_sub_ofInt (Nat.le_refl n) hn, Nat.sub_self]
  have hroom : n < 36 ^ (63 + 1) := hn.trans_le (by decide +kernel)
  rw [unsignedRadix, hwhole, hfraction]
  simp only [hpositive, Bool.false_eq_true, if_false]
  rw [wholeDigits]
  simp only [hsmall, Bool.false_eq_true, if_false]
  exact integerDigits_ofInt 63 hn hroom []

theorem int_less_zero_iff (n : SafeInt) : (Number.int n).less 0 = true ↔ n.val < 0 := by
  have horder : compare? (.int n) 0 = some (compareParts (n.val, 0) (0, 0)) := rfl
  rw [less, horder, beq_iff_eq, Option.some.injEq, compareParts_eq_lt_iff]
  simp

/-- The text of an integer below 2^53 in magnitude: a minus sign if it is negative, and its digits. -/
theorem radixChars_int (n : SafeInt) :
    (Number.int n).radixChars 36 = (if n.val < 0 then ['-'] else []) ++ digitsBefore n.val.natAbs [] := by
  have hchars : (Number.int n).radixChars 36 =
      if (Number.int n).less 0 then '-' :: unsignedRadix 36 (Number.int n).neg else unsignedRadix 36 (.int n) := rfl
  simp only [hchars, int_less_zero_iff]
  have hmagnitude := unsignedRadix_ofInt n.bound
  split
  · rename_i hnegative
    have hneg : (Number.int n).neg = ofInt n.val.natAbs := by
      have hne : n ≠ 0 := by
        rintro rfl
        exact absurd hnegative (by decide)
      have hval : (n.val.natAbs : Int) = -n.val := Int.ofNat_natAbs_of_nonpos hnegative.le
      rw [neg, if_neg hne, hval, ofInt, dif_pos]
    rw [hneg, hmagnitude, List.singleton_append]
  · rename_i hnonneg
    have hsame : Number.int n = ofInt n.val.natAbs := by
      rw [Int.natAbs_of_nonneg (Int.not_lt.mp hnonneg), ofInt, dif_pos n.bound]
    rw [hsame, hmagnitude, List.nil_append]

end Number

namespace RequestId

open Number (radixDigit)

/-! ## Reading digits back -/

/-- The value of a digit in base 36. -/
def digitValue (c : Char) : Nat :=
  if c.toNat < 0x61 then c.toNat - 0x30 else c.toNat - 0x61 + 10

/-- Reads one more digit. -/
def readDigit (value : Nat) (c : Char) : Nat :=
  36 * value + digitValue c

theorem digitValue_radixDigit {d : Nat} (h : d < 36) : digitValue (radixDigit d) = d := by
  revert d
  decide

theorem radixDigit_ne_dash {d : Nat} (h : d < 36) : radixDigit d ≠ '-' := by
  revert d
  decide

/-- Digits read back as the number that they were found for. -/
theorem foldl_digitsBefore (n : Nat) (rest : List Char) :
    (digitsBefore n rest).foldl readDigit 0 = rest.foldl readDigit n := by
  induction n, rest using digitsBefore.induct with
  | case1 n rest hsmall =>
    rw [digitsBefore, if_pos hsmall, List.foldl_cons, readDigit, digitValue_radixDigit hsmall, Nat.mul_zero,
      Nat.zero_add]
  | case2 n rest hlarge ih =>
    rw [digitsBefore, if_neg hlarge, ih, List.foldl_cons, readDigit,
      digitValue_radixDigit (Nat.mod_lt n (by decide)), Nat.div_add_mod]

theorem foldl_zeros (count : Nat) (ds : List Char) :
    (List.replicate count '0' ++ ds).foldl readDigit 0 = ds.foldl readDigit 0 := by
  induction count with
  | zero => rfl
  | succ count ih => exact ih

theorem foldl_counterText (counter : Nat) : (counterText counter).foldl readDigit 0 = counter := by
  rw [counterText, foldl_zeros, foldl_digitsBefore]
  rfl

theorem dash_not_mem_digitsBefore (n : Nat) {rest : List Char} (hrest : '-' ∉ rest) : '-' ∉ digitsBefore n rest := by
  induction n, rest using digitsBefore.induct with
  | case1 n rest hsmall =>
    rw [digitsBefore, if_pos hsmall, List.mem_cons, not_or]
    exact ⟨(radixDigit_ne_dash hsmall).symm, hrest⟩
  | case2 n rest hlarge ih =>
    rw [digitsBefore, if_neg hlarge]
    apply ih
    rw [List.mem_cons, not_or]
    exact ⟨(radixDigit_ne_dash (Nat.mod_lt n (by decide))).symm, hrest⟩

theorem dash_not_mem_counterText (counter : Nat) : '-' ∉ counterText counter := by
  rw [counterText, List.mem_append, not_or]
  refine ⟨?_, dash_not_mem_digitsBefore counter List.not_mem_nil⟩
  intro hmem
  exact absurd (List.eq_of_mem_replicate hmem) (by decide)

/-- Integers below 2^53 in magnitude have different texts. -/
theorem radixChars_int_injective {a b : SafeInt}
    (h : (Number.int a).radixChars 36 = (Number.int b).radixChars 36) : a = b := by
  rw [Number.radixChars_int, Number.radixChars_int] at h
  have hdigits : ∀ {m n : Nat}, digitsBefore m [] = digitsBefore n [] → m = n := by
    intro m n hsame
    have hread := congrArg (List.foldl readDigit 0) hsame
    rwa [foldl_digitsBefore, foldl_digitsBefore] at hread
  have hdash : ∀ {m n : Nat}, ['-'] ++ digitsBefore m [] ≠ [] ++ digitsBefore n [] := by
    intro m n hsame
    apply dash_not_mem_digitsBefore n List.not_mem_nil
    rw [← List.nil_append (digitsBefore n []), ← hsame]
    exact List.mem_cons_self
  apply SafeInt.eq_of_val_eq
  split at h <;> split at h
  · have hmagnitude := hdigits (List.append_cancel_left h)
    omega
  · exact absurd h hdash
  · exact absurd h.symm hdash
  · have hmagnitude := hdigits (List.append_cancel_left h)
    omega

end RequestId

end Gateway

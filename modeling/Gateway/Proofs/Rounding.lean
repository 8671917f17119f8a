import Gateway.Number.Basic
import Mathlib.Algebra.Order.Field.Power
import Mathlib.Tactic.FieldSimp
import Mathlib.Tactic.Linarith
import Mathlib.Tactic.Positivity
import Mathlib.Tactic.Ring

/-!
# Rounding to the nearest number

`RoundsTo m e x` says that of all numbers `m * 2 ^ e` is the one nearest to `x`, a half counting for the even
mantissa.  `ofRatio_of_roundsTo` is the main statement: `ofRatio` finds that number from any quotient that rounds to
it.  An integer below 2^53 rounds to itself.
-/

namespace Gateway.Number

/-- How far below `4 * m * 2 ^ e` the quotients that round to `m * 2 ^ e` reach, in quarters of `2 ^ e`: the numbers
below a power of two stand twice as close. -/
def reachBelow (m : Nat) (e : Int) : Nat :=
  if m = 2 ^ 52 ∧ -1074 < e then 1 else 2

/-- The quotients that round to `m * 2 ^ e`: up to half the way to the next number on either side, the ends included
if the mantissa is even. -/
structure RoundsTo (m : Nat) (e : Int) (x : ℚ) : Prop where
  low : (4 * m - reachBelow m e) * 2 ^ e ≤ 4 * x
  high : 4 * x ≤ (4 * m + 2) * 2 ^ e
  low_of_odd : m % 2 = 1 → (4 * m - reachBelow m e) * 2 ^ e < 4 * x
  high_of_odd : m % 2 = 1 → 4 * x < (4 * m + 2) * 2 ^ e

/-- The mantissas and exponents of positive numbers: the exponent is as small as possible. -/
structure IsParts (m : Nat) (e : Int) : Prop where
  pos : 0 < m
  mantissa_lt : m < 2 ^ 53
  le_exponent : -1074 ≤ e
  exponent_le : e ≤ 971
  full : 2 ^ 52 ≤ m ∨ e = -1074

theorem IsParts.ofScaled {m : Nat} {e : Int} (h : IsScaled m e) : IsParts m e := by
  refine ⟨?_, h.mantissa_lt, h.le_exponent, h.exponent_le, h.full⟩
  rcases Nat.eq_zero_or_pos m with hm | hm
  · -- A mantissa of zero would have the least exponent, and no fraction.
    subst hm
    rcases h.full with hfull | hleast
    · omega
    · exact absurd (Nat.zero_mod _) (h.fraction (by omega))
  · exact hm

/-! ## The steps of rounding -/

theorem shiftRatio_pos {num den : Nat} (hden : 0 < den) (shift : Int) :
    0 < (shiftRatio num den shift).2 := by
  unfold shiftRatio
  split
  · exact hden
  · positivity

theorem shiftRatio_quotient (num den : Nat) (shift : Int) :
    ((shiftRatio num den shift).1 : ℚ) / (shiftRatio num den shift).2 = num / den * 2 ^ shift := by
  unfold shiftRatio
  split
  next hshift =>
    obtain ⟨k, rfl⟩ := Int.eq_ofNat_of_zero_le hshift
    simp only [Int.toNat_natCast, zpow_natCast]
    push_cast
    ring
  next hshift =>
    obtain ⟨k, hk⟩ := Int.eq_ofNat_of_zero_le (a := -shift) (by omega)
    obtain rfl : shift = -(k : Int) := by omega
    simp only [neg_neg, Int.toNat_natCast, zpow_neg, zpow_natCast]
    push_cast
    rw [div_mul_eq_div_div]
    rfl

/-- A natural between two powers of two, as a quotient. -/
theorem log2_bounds {n : Nat} (hn : 0 < n) :
    (2 : ℚ) ^ (n.log2 : Int) ≤ n ∧ (n : ℚ) < 2 ^ ((n.log2 : Int) + 1) := by
  constructor
  · rw [zpow_natCast]
    exact_mod_cast Nat.log2_self_le (by omega)
  · have h : n < 2 ^ (n.log2 + 1) := Nat.lt_log2_self
    exact_mod_cast h

theorem binaryExponent_spec {num den : Nat} (hnum : 0 < num) (hden : 0 < den) :
    (2 : ℚ) ^ binaryExponent num den ≤ num / den ∧
      (num / den : ℚ) < 2 ^ (binaryExponent num den + 1) := by
  obtain ⟨hnumLow, hnumHigh⟩ := log2_bounds hnum
  obtain ⟨hdenLow, hdenHigh⟩ := log2_bounds hden
  have hdenPos : (0 : ℚ) < den := by exact_mod_cast hden
  set guess : Int := (num.log2 : Int) - den.log2 with hguess
  -- The guess is right or one too large.
  have habove : (num / den : ℚ) < 2 ^ (guess + 1) := by
    rw [div_lt_iff₀ hdenPos]
    calc (num : ℚ) < 2 ^ ((num.log2 : Int) + 1) := hnumHigh
      _ = 2 ^ (guess + 1) * 2 ^ (den.log2 : Int) := by
        rw [← zpow_add₀ two_ne_zero]
        congr 1
        omega
      _ ≤ 2 ^ (guess + 1) * den := by gcongr
  have hbelow : (2 : ℚ) ^ (guess - 1) ≤ num / den := by
    rw [le_div_iff₀ hdenPos]
    calc (2 : ℚ) ^ (guess - 1) * den ≤ 2 ^ (guess - 1) * 2 ^ ((den.log2 : Int) + 1) := by gcongr
      _ = 2 ^ (num.log2 : Int) := by
        rw [← zpow_add₀ two_ne_zero]
        congr 1
        omega
      _ ≤ num := hnumLow
  have hquotient := shiftRatio_quotient num den (-guess)
  have hsecond : (0 : ℚ) < (shiftRatio num den (-guess)).2 := by
    exact_mod_cast shiftRatio_pos hden (-guess)
  rw [zpow_neg, ← div_eq_mul_inv] at hquotient
  have hpower : (0 : ℚ) < 2 ^ guess := by positivity
  have hdef : binaryExponent num den =
      if (shiftRatio num den (-guess)).1 < (shiftRatio num den (-guess)).2 then guess - 1 else guess := rfl
  rw [hdef]
  split
  next hless =>
    rw [Int.sub_add_cancel]
    have hlt : ((shiftRatio num den (-guess)).1 : ℚ) / (shiftRatio num den (-guess)).2 < 1 := by
      rw [div_lt_one hsecond]
      exact_mod_cast hless
    rw [hquotient, div_lt_one hpower] at hlt
    exact ⟨hbelow, hlt⟩
  next hmore =>
    have hge : 1 ≤ ((shiftRatio num den (-guess)).1 : ℚ) / (shiftRatio num den (-guess)).2 := by
      rw [one_le_div hsecond]
      exact_mod_cast Nat.le_of_not_lt hmore
    rw [hquotient, one_le_div hpower] at hge
    exact ⟨hge, habove⟩

/-- The exponent of the greatest power of two below a quotient is the only one with its bounds. -/
theorem binaryExponent_eq {num den : Nat} (hnum : 0 < num) (hden : 0 < den) {k : Int}
    (hlow : (2 : ℚ) ^ k ≤ num / den) (hhigh : (num / den : ℚ) < 2 ^ (k + 1)) :
    binaryExponent num den = k := by
  obtain ⟨hlow', hhigh'⟩ := binaryExponent_spec hnum hden
  have hle : k < binaryExponent num den + 1 := (zpow_lt_zpow_iff_right₀ one_lt_two).mp (hlow.trans_lt hhigh')
  have hge : binaryExponent num den < k + 1 := (zpow_lt_zpow_iff_right₀ one_lt_two).mp (hlow'.trans_lt hhigh)
  omega

/-- A quotient within one half of an integer rounds to it; at one half exactly if it is even. -/
theorem roundDiv_eq {num den m : Nat} (hden : 0 < den) (hlow : 2 * m * den ≤ 2 * num + den)
    (hhigh : 2 * num ≤ (2 * m + 1) * den)
    (hodd : m % 2 = 1 → 2 * m * den < 2 * num + den ∧ 2 * num < (2 * m + 1) * den) :
    roundDiv num den = m := by
  have hdivision : den * (num / den) + num % den = num := Nat.div_add_mod num den
  have hrest : num % den < den := Nat.mod_lt num hden
  -- The floor is `m` or `m - 1`.
  have hfloor : num / den = m ∨ num / den + 1 = m := by
    have hle : num / den < m + 1 := by
      rw [Nat.div_lt_iff_lt_mul hden]
      nlinarith
    have hge : m ≤ num / den + 1 := by
      by_contra hcontra
      have : (num / den + 2) * den ≤ m * den := Nat.mul_le_mul_right _ (by omega)
      nlinarith
    omega
  unfold roundDiv
  rcases hfloor with hfloor | hfloor
  · rw [hfloor] at hdivision ⊢
    have hhalf : 2 * (num % den) ≤ den := by nlinarith
    by_cases hless : 2 * (num % den) < den
    · simp [hless]
    · have heven : m % 2 = 0 := by
        by_contra hcontra
        have := (hodd (by omega)).2
        nlinarith
      simp [hless, heven, Nat.not_lt.mpr hhalf]
  · have hm : m = num / den + 1 := hfloor.symm
    have hhalf : den ≤ 2 * (num % den) := by
      subst hm
      nlinarith
    have hnot : ¬2 * (num % den) < den := Nat.not_lt.mpr hhalf
    by_cases hmore : den < 2 * (num % den)
    · simp [hnot, hmore, hfloor]
    · have hfloorOdd : ¬num / den % 2 = 0 := by
        intro heven
        have := (hodd (by omega)).1
        subst hm
        nlinarith
      simp [hnot, hmore, hfloorOdd, hfloor]

/-- The same for a quotient of rationals. -/
theorem roundDiv_eq_of_bounds {num den m : Nat} (hden : 0 < den) {y : ℚ} (hy : (num : ℚ) / den = y)
    (hlow : 2 * m - 1 ≤ 2 * y) (hhigh : 2 * y ≤ 2 * m + 1)
    (hodd : m % 2 = 1 → 2 * m - 1 < 2 * y ∧ 2 * y < 2 * m + 1) :
    roundDiv num den = m := by
  have hdenPos : (0 : ℚ) < den := by exact_mod_cast hden
  obtain rfl : (num : ℚ) / den = y := hy
  have hscale : (num : ℚ) / den * den = num := by field_simp
  refine roundDiv_eq hden ?_ ?_ fun hm => ⟨?_, ?_⟩
  · have h := mul_le_mul_of_nonneg_right hlow hdenPos.le
    have h' : (2 * m * den : ℚ) ≤ 2 * num + den := by nlinarith
    exact_mod_cast h'
  · have h := mul_le_mul_of_nonneg_right hhigh hdenPos.le
    have h' : (2 * num : ℚ) ≤ (2 * m + 1) * den := by nlinarith
    exact_mod_cast h'
  · have h := mul_lt_mul_of_pos_right (hodd hm).1 hdenPos
    have h' : (2 * m * den : ℚ) < 2 * num + den := by nlinarith
    exact_mod_cast h'
  · have h := mul_lt_mul_of_pos_right (hodd hm).2 hdenPos
    have h' : (2 * num : ℚ) < (2 * m + 1) * den := by nlinarith
    exact_mod_cast h'

/-! ## The nearest number -/

/-- The parts that rounding ends with: a mantissa that was rounded up to 2^53 is halved. -/
theorem ofRatio_eq {num den M : Nat} {E : Int} (negative : Bool) (hnum : num ≠ 0)
    (hE : max (binaryExponent num den - 52) (-1074) = E)
    (hM : roundDiv (shiftRatio num den (-E)).1 (shiftRatio num den (-E)).2 = M) :
    ofRatio negative num den =
      let parts := if M = 2 ^ 53 then (2 ^ 52, E + 1) else (M, E)
      if parts.2 > 971 then .infinity negative
      else if parts.1 = 0 then ofSafe negative 0
      else ofScaled negative parts.1 parts.2 := by
  subst hE hM
  unfold ofRatio
  rw [if_neg hnum]

theorem reachBelow_le (m : Nat) (e : Int) : (reachBelow m e : ℚ) ≤ 2 := by
  unfold reachBelow
  split <;> norm_num

theorem two_zpow_add (e : Int) (k : Nat) : (2 : ℚ) ^ (e + k) = 2 ^ e * 2 ^ k := by
  rw [zpow_add₀ two_ne_zero, zpow_natCast]

theorem RoundsTo.of_lt {m : Nat} {e : Int} {x : ℚ} (hlow : (4 * m - reachBelow m e) * 2 ^ e < 4 * x)
    (hhigh : 4 * x < (4 * m + 2) * 2 ^ e) : RoundsTo m e x :=
  ⟨hlow.le, hhigh.le, fun _ => hlow, fun _ => hhigh⟩

theorem RoundsTo.pos {m : Nat} {e : Int} {x : ℚ} (h : RoundsTo m e x) (hm : 0 < m) : 0 < x := by
  have hpower : (0 : ℚ) < 2 ^ e := by positivity
  have hreach := reachBelow_le m e
  have hone : (1 : ℚ) ≤ m := by exact_mod_cast hm
  have hlow := h.low
  nlinarith

theorem RoundsTo.lt {m : Nat} {e : Int} {x : ℚ} (h : RoundsTo m e x) (hm : m < 2 ^ 53) :
    x < 2 ^ (e + 53) := by
  have hpower : (0 : ℚ) < 2 ^ e := by positivity
  have hbound : (m : ℚ) + 1 ≤ 2 ^ 53 := by exact_mod_cast hm
  have hhigh := h.high
  have hsplit : (2 : ℚ) ^ (e + 53) = 2 ^ e * 2 ^ 53 := two_zpow_add e 53
  rw [hsplit]
  nlinarith

theorem zpow_shift_back (x : ℚ) (e : Int) : x * 2 ^ (-e) * 2 ^ e = x := by
  rw [mul_assoc, ← zpow_add₀ two_ne_zero, Int.add_left_neg, zpow_zero, mul_one]

theorem RoundsTo.num_pos {num den m : Nat} {e : Int} (h : RoundsTo m e (num / den)) (hm : 0 < m) :
    0 < num := by
  rcases Nat.eq_zero_or_pos num with hzero | hpos
  · have hx := h.pos hm
    simp [hzero] at hx
  · exact hpos

/-- A quotient with the exponent of the number itself. -/
theorem ofRatio_of_exponent {num den m : Nat} {e : Int} (negative : Bool) (hparts : IsParts m e)
    (hden : 0 < den) (hrounds : RoundsTo m e (num / den))
    (hE : max (binaryExponent num den - 52) (-1074) = e) :
    ofRatio negative num den = ofScaled negative m e := by
  have hpower : (0 : ℚ) < 2 ^ e := by positivity
  have hreach := reachBelow_le m e
  have hquotient := zpow_shift_back ((num : ℚ) / den) e
  have hM : roundDiv (shiftRatio num den (-e)).1 (shiftRatio num den (-e)).2 = m := by
    refine roundDiv_eq_of_bounds (shiftRatio_pos hden _) (shiftRatio_quotient num den (-e)) ?_ ?_ ?_
    · have hlow := hrounds.low
      rw [← hquotient, ← mul_assoc, mul_le_mul_iff_left₀ hpower] at hlow
      linarith
    · have hhigh := hrounds.high
      rw [← hquotient, ← mul_assoc, mul_le_mul_iff_left₀ hpower] at hhigh
      linarith
    · intro hodd
      have hlow := hrounds.low_of_odd hodd
      have hhigh := hrounds.high_of_odd hodd
      rw [← hquotient, ← mul_assoc, mul_lt_mul_iff_left₀ hpower] at hlow hhigh
      constructor <;> linarith
  have hcarry : m ≠ 2 ^ 53 := hparts.mantissa_lt.ne
  have hfinite : ¬e > 971 := Int.not_lt.mpr hparts.exponent_le
  rw [ofRatio_eq negative (hrounds.num_pos hparts.pos).ne' hE hM]
  simp only [if_neg hcarry, if_neg hfinite, if_neg hparts.pos.ne']

/-- A quotient below a power of two that is rounded up to it. -/
theorem ofRatio_of_below {num den : Nat} {e : Int} (negative : Bool) (hparts : IsParts (2 ^ 52) e)
    (hden : 0 < den) (hrounds : RoundsTo (2 ^ 52) e (num / den)) (hleast : e ≠ -1074)
    (hbelow : (num / den : ℚ) < 2 ^ (e + 52)) :
    ofRatio negative num den = ofScaled negative (2 ^ 52) e := by
  have hnum := hrounds.num_pos hparts.pos
  have hfirst := hparts.le_exponent
  have hpower : (0 : ℚ) < 2 ^ (e - 1) := by positivity
  have hhalf : (2 : ℚ) ^ e = 2 ^ (e - 1) * 2 := by
    have h := two_zpow_add (e - 1) 1
    simpa using h
  -- The numbers below the power of two stand closer, so the quotient is off by one quarter at most.
  have hlow := hrounds.low
  have hreach : reachBelow (2 ^ 52) e = 1 := by
    unfold reachBelow
    rw [if_pos ⟨rfl, by omega⟩]
  rw [hreach, hhalf] at hlow
  push_cast at hlow
  have hE : max (binaryExponent num den - 52) (-1074) = e - 1 := by
    have hexact : binaryExponent num den = e + 51 := by
      apply binaryExponent_eq hnum hden
      · have hsplit : (2 : ℚ) ^ (e + 51) = 2 ^ e * 2 ^ 51 := two_zpow_add e 51
        rw [hsplit, hhalf]
        nlinarith
      · rwa [Int.add_assoc]
    rw [hexact]
    omega
  have hquotient := zpow_shift_back ((num : ℚ) / den) (e - 1)
  have hM : roundDiv (shiftRatio num den (-(e - 1))).1 (shiftRatio num den (-(e - 1))).2 = 2 ^ 53 := by
    refine roundDiv_eq_of_bounds (shiftRatio_pos hden _) (shiftRatio_quotient num den (-(e - 1))) ?_ ?_ ?_
    · rw [← hquotient] at hlow
      have h : ((4 * 2 ^ 52 - 1) * 2 : ℚ) ≤ 4 * (num / den * 2 ^ (-(e - 1))) := by nlinarith
      push_cast
      linarith
    · have hsplit : (2 : ℚ) ^ (e + 52) = 2 ^ e * 2 ^ 52 := two_zpow_add e 52
      rw [← hquotient, hsplit, hhalf] at hbelow
      have h : ((num : ℚ) / den * 2 ^ (-(e - 1))) < 2 * 2 ^ 52 := by nlinarith
      push_cast
      linarith
    · intro hodd
      norm_num at hodd
  have hfinite : ¬e > 971 := Int.not_lt.mpr hparts.exponent_le
  rw [ofRatio_eq negative hnum.ne' hE hM]
  simp only [if_true, Int.sub_add_cancel, if_neg hfinite, if_neg hparts.pos.ne']

/-- A quotient that rounds to a number is read as that number. -/
theorem ofRatio_of_roundsTo {num den m : Nat} {e : Int} (negative : Bool) (hparts : IsParts m e)
    (hden : 0 < den) (hrounds : RoundsTo m e (num / den)) :
    ofRatio negative num den = ofScaled negative m e := by
  have hnum := hrounds.num_pos hparts.pos
  have hlt := hrounds.lt hparts.mantissa_lt
  have hfirst := hparts.le_exponent
  by_cases hleast : e = -1074
  · apply ofRatio_of_exponent negative hparts hden hrounds
    obtain ⟨hexponentLow, -⟩ := binaryExponent_spec hnum hden
    have hexponent : binaryExponent num den < e + 53 :=
      (zpow_lt_zpow_iff_right₀ one_lt_two).mp (hexponentLow.trans_lt hlt)
    omega
  · by_cases hbelow : (num / den : ℚ) < 2 ^ (e + 52)
    · -- Only a power of two has quotients below it in another range of exponents.
      have hm : m = 2 ^ 52 := by
        have hfull := hparts.full.resolve_right hleast
        by_contra hne
        have hmore : (2 : ℚ) ^ 52 + 1 ≤ m := by
          have : 2 ^ 52 + 1 ≤ m := by omega
          exact_mod_cast this
        have hpower : (0 : ℚ) < 2 ^ e := by positivity
        have hsplit : (2 : ℚ) ^ (e + 52) = 2 ^ e * 2 ^ 52 := two_zpow_add e 52
        have hreach := reachBelow_le m e
        have hlow := hrounds.low
        nlinarith
      subst hm
      exact ofRatio_of_below negative hparts hden hrounds hleast hbelow
    · apply ofRatio_of_exponent negative hparts hden hrounds
      rw [binaryExponent_eq hnum hden (not_lt.mp hbelow) (by rwa [Int.add_assoc])]
      omega

/-! ## Numbers round to themselves -/

theorem roundsTo_self (m : Nat) (e : Int) : RoundsTo m e (m * 2 ^ e) := by
  have hpower : (0 : ℚ) < 2 ^ e := by positivity
  have hreach : (0 : ℚ) < reachBelow m e := by
    unfold reachBelow
    split <;> norm_num
  apply RoundsTo.of_lt
  · nlinarith
  · nlinarith

theorem ofScaled_of_isScaled {m : Nat} {e : Int} (negative : Bool) (h : IsScaled m e) :
    ofScaled negative m e = .scaled negative m e h := by
  unfold ofScaled
  rw [dif_pos h]

/-- A quotient that is an integer below 2^53 is exact. -/
theorem ofRatio_exact (negative : Bool) {n den : Nat} (hn : n < safeBound) (hden : 0 < den) :
    ofRatio negative (n * den) den = ofSafe negative n := by
  unfold safeBound at hn
  rcases Nat.eq_zero_or_pos n with hzero | hpos
  · simp [ofRatio, hzero]
  · -- The mantissa is the integer shifted to 53 digits.
    have hlog : n.log2 < 53 := (Nat.log2_lt hpos.ne').mpr hn
    obtain ⟨k, hk⟩ : ∃ k, n.log2 + k = 52 := ⟨52 - n.log2, by omega⟩
    have hlow : 2 ^ 52 ≤ n * 2 ^ k := by
      have h := Nat.mul_le_mul_right (2 ^ k) (Nat.log2_self_le hpos.ne')
      rwa [← Nat.pow_add, hk] at h
    have hhigh : n * 2 ^ k < 2 ^ 53 := by
      have h := Nat.mul_lt_mul_of_pos_right (Nat.lt_log2_self (n := n)) (Nat.two_pow_pos k)
      rwa [← Nat.pow_add, show n.log2 + 1 + k = 53 by omega] at h
    have hparts : IsParts (n * 2 ^ k) (-k) := ⟨by positivity, hhigh, by omega, by omega, .inl hlow⟩
    have hvalue : ((n * 2 ^ k : Nat) : ℚ) * 2 ^ (-k : Int) = ((n * den : Nat) : ℚ) / den := by
      have hne : (den : ℚ) ≠ 0 := Nat.cast_ne_zero.mpr hden.ne'
      rw [zpow_neg, zpow_natCast]
      push_cast
      field_simp
    have hrounds := roundsTo_self (n * 2 ^ k) (-k)
    rw [hvalue] at hrounds
    rw [ofRatio_of_roundsTo negative hparts hden hrounds]
    have hnot : ¬IsScaled (n * 2 ^ k) (-k) := by
      intro h
      have hne := h.ne_zero
      exact h.fraction (by omega) (by simp)
    have hzero : (-(k : Int)).toNat = 0 := by omega
    rw [ofScaled, dif_neg hnot, hzero, neg_neg, Int.toNat_natCast, pow_zero, mul_one,
      Nat.mul_div_cancel _ (Nat.two_pow_pos k)]

/-- An integer below 2^53 is its own nearest number. -/
theorem ofRatio_safe (negative : Bool) {n : Nat} (hn : n < safeBound) :
    ofRatio negative n 1 = ofSafe negative n := by
  have h := ofRatio_exact negative hn Nat.one_pos
  rwa [Nat.mul_one] at h

end Gateway.Number

import Gateway.Number.Reader
import Gateway.Number.Shortest
import Gateway.Proofs.Rounding

/-!
# The digits of a number read back

`shortest` always finds digits that round to the number: on the grid of 17 digits one of the two neighbours of every
number does.  `shortest_spec` is the main statement.  That no fewer digits would do is not stated here.
-/

namespace Gateway.Number

/-! ## The interval of a number -/

theorem zpow_toNat_div (b : ℚ) (k : Int) : b ^ k.toNat / b ^ (-k).toNat = b ^ k := by
  rcases Int.le_total 0 k with hk | hk
  · obtain ⟨n, rfl⟩ := Int.eq_ofNat_of_zero_le hk
    have hzero : (-(n : Int)).toNat = 0 := by omega
    rw [hzero, Int.toNat_natCast, pow_zero, div_one, zpow_natCast]
  · obtain ⟨n, hn⟩ := Int.eq_ofNat_of_zero_le (a := -k) (by omega)
    obtain rfl : k = -(n : Int) := by omega
    have hzero : (-(n : Int)).toNat = 0 := by omega
    rw [hzero, neg_neg, Int.toNat_natCast, pow_zero, zpow_neg, zpow_natCast, one_div]

theorem intervalOf_den_pos (m : Nat) (e : Int) : (0 : ℚ) < (intervalOf m e).den := by
  simp only [intervalOf]
  positivity

theorem intervalOf_value (m : Nat) (e : Int) :
    ((intervalOf m e).value : ℚ) / (intervalOf m e).den = m * 2 ^ e := by
  rw [← zpow_toNat_div 2 e]
  simp only [intervalOf]
  push_cast
  field_simp

theorem intervalOf_high (m : Nat) (e : Int) :
    ((intervalOf m e).high : ℚ) / (intervalOf m e).den = (4 * m + 2) * 2 ^ e / 4 := by
  rw [← zpow_toNat_div 2 e]
  simp only [intervalOf]
  push_cast
  field_simp

theorem intervalOf_low {m : Nat} (hm : 0 < m) (e : Int) :
    ((intervalOf m e).low : ℚ) / (intervalOf m e).den = (4 * m - reachBelow m e) * 2 ^ e / 4 := by
  have hreach : reachBelow m e ≤ 4 * m := by
    unfold reachBelow
    split <;> omega
  rw [← zpow_toNat_div 2 e, ← Nat.cast_ofNat (n := 4), ← Nat.cast_mul, ← Nat.cast_sub hreach]
  simp only [intervalOf, reachBelow, gt_iff_lt]
  push_cast
  field_simp

/-- The interval of a number holds the quotients that round to it. -/
theorem holds_iff {m num den : Nat} (hm : 0 < m) (e : Int) (hden : 0 < den) (digits : Nat) :
    (intervalOf m e).holds digits num den = true ↔ RoundsTo m e (digits * (num / den)) := by
  have hdenPos : (0 : ℚ) < den := by exact_mod_cast hden
  have hiden := intervalOf_den_pos m e
  have hlow := intervalOf_low hm e
  have hhigh := intervalOf_high m e
  have hclosed : (intervalOf m e).closed = decide (m % 2 = 0) := rfl
  set i := intervalOf m e
  set x : ℚ := digits * (num / den) with hx
  -- The test compares cross products with the ends of the interval.
  have hquotient : ((digits * num : Nat) : ℚ) / den = x := by
    rw [hx]
    push_cast
    ring
  have hlowLe : i.low * den ≤ digits * num * i.den ↔ (4 * m - reachBelow m e) * 2 ^ e ≤ 4 * x := by
    rw [← div_le_iff₀' (by norm_num), ← hlow, ← hquotient, div_le_div_iff₀ hiden hdenPos]
    exact_mod_cast Iff.rfl
  have hhighLe : digits * num * i.den ≤ i.high * den ↔ 4 * x ≤ (4 * m + 2) * 2 ^ e := by
    rw [← le_div_iff₀' (by norm_num), ← hhigh, ← hquotient, div_le_div_iff₀ hdenPos hiden]
    exact_mod_cast Iff.rfl
  have hlowLt : i.low * den < digits * num * i.den ↔ (4 * m - reachBelow m e) * 2 ^ e < 4 * x := by
    rw [← div_lt_iff₀' (by norm_num), ← hlow, ← hquotient, div_lt_div_iff₀ hiden hdenPos]
    exact_mod_cast Iff.rfl
  have hhighLt : digits * num * i.den < i.high * den ↔ 4 * x < (4 * m + 2) * 2 ^ e := by
    rw [← lt_div_iff₀' (by norm_num), ← hhigh, ← hquotient, div_lt_div_iff₀ hdenPos hiden]
    exact_mod_cast Iff.rfl
  unfold Interval.holds
  by_cases heven : m % 2 = 0
  · simp only [hclosed, heven, decide_true, if_true, Bool.and_eq_true, decide_eq_true_eq, hlowLe, hhighLe]
    constructor
    · rintro ⟨hl, hh⟩
      exact ⟨hl, hh, by omega, by omega⟩
    · intro h
      exact ⟨h.low, h.high⟩
  · simp only [hclosed, heven, decide_false, Bool.false_eq_true, if_false, Bool.and_eq_true, decide_eq_true_eq,
      hlowLt, hhighLt]
    constructor
    · rintro ⟨hl, hh⟩
      exact .of_lt hl hh
    · intro h
      exact ⟨h.low_of_odd (by omega), h.high_of_odd (by omega)⟩

/-! ## The grids of digits -/

theorem gridUnit (point : Int) (count : Nat) :
    ((10 ^ (point - count).toNat : Nat) : ℚ) / (10 ^ (-(point - count)).toNat : Nat) = 10 ^ (point - count) := by
  push_cast
  exact zpow_toNat_div 10 (point - count)

/-- What a grid finds rounds to the number. -/
theorem onGrid?_roundsTo {m digits count : Nat} (hm : 0 < m) {e point : Int}
    (h : (intervalOf m e).onGrid? point count = some digits) :
    RoundsTo m e (digits * 10 ^ (point - count)) := by
  have hiff : ∀ d, (intervalOf m e).holds d (10 ^ (point - count).toNat) (10 ^ (-(point - count)).toNat) = true ↔
      RoundsTo m e (d * 10 ^ (point - count)) := by
    intro d
    rw [← gridUnit point count]
    exact holds_iff hm e (Nat.pow_pos (by norm_num)) d
  unfold Interval.onGrid? at h
  dsimp only at h
  split at h
  next hboth =>
    obtain ⟨hbelow, habove⟩ := (Bool.and_eq_true _ _).mp hboth
    split at h
    · obtain rfl := Option.some.inj h
      exact (hiff _).mp hbelow
    · obtain rfl := Option.some.inj h
      exact (hiff _).mp habove
  next =>
    split at h
    next hbelow =>
      obtain rfl := Option.some.inj h
      exact (hiff _).mp hbelow
    next =>
      split at h
      next habove =>
        obtain rfl := Option.some.inj h
        exact (hiff _).mp habove
      next => cases h

/-- On a grid that is finer than the numbers, one of the neighbours of a number rounds to it. -/
theorem roundsTo_neighbour {m : Nat} {e : Int} {f : Nat} {u : ℚ} (hm : m < 2 ^ 53) (hu : 0 < u)
    (hfine : u * 10 ^ 16 ≤ m * 2 ^ e) (hfloor : f * u ≤ m * 2 ^ e) (hceil : (m * 2 ^ e : ℚ) < (f + 1) * u) :
    RoundsTo m e (f * u) ∨ RoundsTo m e ((f + 1 : Nat) * u) := by
  have hpower : (0 : ℚ) < 2 ^ e := by positivity
  have hbound : (m : ℚ) + 1 ≤ 2 ^ 53 := by exact_mod_cast hm
  push_cast
  by_cases hspecial : m = 2 ^ 52 ∧ -1074 < e
  · -- Below a power of two the numbers stand closer, but there the grid is finer, too.
    right
    have hvalue : (m : ℚ) = 2 ^ 52 := by exact_mod_cast hspecial.1
    have hreach : (reachBelow m e : ℚ) = 1 := by rw [reachBelow, if_pos hspecial, Nat.cast_one]
    rw [hvalue] at hfine hfloor hceil
    apply RoundsTo.of_lt
    · rw [hvalue, hreach]
      nlinarith
    · rw [hvalue]
      nlinarith
  · have hreach : (reachBelow m e : ℚ) = 2 := by rw [reachBelow, if_neg hspecial, Nat.cast_ofNat]
    -- The step of the grid is less than the gap between two numbers, so the nearer neighbour is within half the gap.
    have hgap : u < 2 ^ e := by nlinarith
    by_cases hnear : 2 * (m * 2 ^ e - f * u) ≤ u
    · left
      apply RoundsTo.of_lt
      · rw [hreach]
        nlinarith
      · nlinarith
    · right
      apply RoundsTo.of_lt
      · rw [hreach]
        nlinarith
      · nlinarith

/-! ## Seventeen digits are enough -/

theorem le_mul_leadingZeros {num den fuel : Nat} (h : den ≤ num * 10 ^ fuel) :
    den ≤ num * 10 ^ leadingZeros num den fuel := by
  induction fuel generalizing num with
  | zero => exact h
  | succ fuel ih =>
    unfold leadingZeros
    split
    next hle => simpa using hle
    next =>
      have hnext : den ≤ num * 10 * 10 ^ fuel := by
        rw [mul_assoc, ← pow_succ']
        exact h
      rw [pow_succ', ← mul_assoc]
      exact ih hnext

/-- A natural lies between the powers of ten with as many digits and with one more. -/
theorem length_toDigits_bounds {n : Nat} (hn : 0 < n) :
    (10 : ℚ) ^ (((Nat.toDigits 10 n).length : Int) - 1) ≤ n ∧
      (n : ℚ) < 10 ^ ((Nat.toDigits 10 n).length : Int) := by
  obtain ⟨k, hk⟩ : ∃ k, (Nat.toDigits 10 n).length = k + 1 :=
    ⟨_, (Nat.succ_pred_eq_of_pos Nat.length_toDigits_pos).symm⟩
  rw [hk, Nat.cast_succ, Int.add_sub_cancel, zpow_natCast]
  constructor
  · have hpower : 10 ^ k ≤ n := by
      rcases Nat.eq_zero_or_pos k with hzero | hpos
      · rw [hzero]
        exact hn
      · by_contra hlt
        have hshort := (Nat.length_toDigits_le_iff (b := 10) (by norm_num) hpos).mpr (Nat.lt_of_not_le hlt)
        omega
    exact_mod_cast hpower
  · have hpower := (Nat.length_toDigits_le_iff (b := 10) (by norm_num) k.succ_pos).mp hk.le
    exact_mod_cast hpower

/-- The point stands no further right than the first digit. -/
theorem zpow_decimalPoint_le {num den : Nat} (hden : 0 < den) (h : den ≤ num * 10 ^ 400) :
    (10 : ℚ) ^ (decimalPoint num den - 1) ≤ num / den := by
  have hdenPos : (0 : ℚ) < den := by exact_mod_cast hden
  rw [le_div_iff₀ hdenPos]
  unfold decimalPoint
  split
  next hle =>
    have hquotient : 0 < num / den := Nat.div_pos hle hden
    have hpower := (length_toDigits_bounds hquotient).1
    have hproduct : ((num / den : Nat) : ℚ) * den ≤ num := by exact_mod_cast Nat.div_mul_le_self num den
    exact (mul_le_mul_of_nonneg_right hpower hdenPos.le).trans hproduct
  next =>
    have hexponent : 1 - (leadingZeros num den 400 : Int) - 1 = -(leadingZeros num den 400 : Int) := by omega
    have hpower : (0 : ℚ) < 10 ^ leadingZeros num den 400 := by positivity
    rw [hexponent, zpow_neg, zpow_natCast, inv_mul_le_iff₀ hpower, mul_comm]
    exact_mod_cast le_mul_leadingZeros h

theorem onGrid?_isSome {i : Interval} {point : Int} {count : Nat}
    (h : ∀ floor, floor = i.value * 10 ^ (-(point - count)).toNat / (i.den * 10 ^ (point - count).toNat) →
      i.holds floor (10 ^ (point - count).toNat) (10 ^ (-(point - count)).toNat) = true ∨
        i.holds (floor + 1) (10 ^ (point - count).toNat) (10 ^ (-(point - count)).toNat) = true) :
    (i.onGrid? point count).isSome = true := by
  unfold Interval.onGrid?
  rcases h _ rfl with hbelow | habove
  · simp only [hbelow, Bool.true_and, if_true]
    split <;> rfl
  · simp only [habove, Bool.and_true, if_true]
    split <;> rfl

theorem two_pow_le_ten_pow {j k : Nat} (h : j ≤ 3 * k) : 2 ^ j ≤ 10 ^ k := by
  calc 2 ^ j ≤ 2 ^ (3 * k) := Nat.pow_le_pow_right (by norm_num) h
    _ = 8 ^ k := Nat.pow_mul 2 3 k
    _ ≤ 10 ^ k := Nat.pow_le_pow_left (by norm_num) k

/-- The grid of 17 digits has a point that rounds to the number. -/
theorem onGrid?_seventeen {m : Nat} {e : Int} (hparts : IsParts m e) :
    ((intervalOf m e).onGrid? (decimalPoint (intervalOf m e).value (intervalOf m e).den) 17).isSome = true := by
  have hvalue := intervalOf_value m e
  have hiden := intervalOf_den_pos m e
  have hidenNat : 0 < (intervalOf m e).den := by exact_mod_cast hiden
  have hleast : (intervalOf m e).den ≤ (intervalOf m e).value * 10 ^ 400 := by
    have hfirst := hparts.le_exponent
    have hexponent : 2 ^ (-e).toNat ≤ 10 ^ 400 := two_pow_le_ten_pow (by omega)
    have hone : 1 ≤ m * 2 ^ e.toNat := Nat.mul_pos hparts.pos (Nat.two_pow_pos _)
    calc 4 * 2 ^ (-e).toNat ≤ 4 * (1 * 10 ^ 400) := by
          rw [one_mul]
          exact Nat.mul_le_mul_left 4 hexponent
      _ ≤ 4 * (m * 2 ^ e.toNat * 10 ^ 400) := Nat.mul_le_mul_left 4 (Nat.mul_le_mul_right _ hone)
      _ = 4 * m * 2 ^ e.toNat * 10 ^ 400 := by rw [← mul_assoc, ← mul_assoc]
  have hpoint := zpow_decimalPoint_le hidenNat hleast
  rw [hvalue] at hpoint
  set point := decimalPoint (intervalOf m e).value (intervalOf m e).den
  have hunit := gridUnit point 17
  set num := 10 ^ (point - (17 : Nat)).toNat with hnum
  set den := 10 ^ (-(point - (17 : Nat))).toNat with hden
  have hnumPos : 0 < num := by positivity
  have hdenPos : 0 < den := by positivity
  have hdenRat : (0 : ℚ) < den := by exact_mod_cast hdenPos
  have hfine : (num / den : ℚ) * 10 ^ 16 ≤ m * 2 ^ e := by
    rw [hunit, ← zpow_natCast, ← zpow_add₀ (by norm_num)]
    calc (10 : ℚ) ^ (point - (17 : Nat) + (16 : Nat)) = 10 ^ (point - 1) := by
          congr 1
          omega
      _ ≤ m * 2 ^ e := hpoint
  apply onGrid?_isSome
  intro floor hfloor
  rw [holds_iff hparts.pos e hdenPos, holds_iff hparts.pos e hdenPos]
  -- The floor and its successor enclose the number.
  have hproduct : 0 < (intervalOf m e).den * num := Nat.mul_pos hidenNat hnumPos
  have hfloorLe : floor * num * (intervalOf m e).den ≤ (intervalOf m e).value * den := by
    have h := Nat.div_mul_le_self ((intervalOf m e).value * den) ((intervalOf m e).den * num)
    rw [← hfloor] at h
    linarith
  have hceilLt : (intervalOf m e).value * den < (floor + 1) * num * (intervalOf m e).den := by
    have h := Nat.lt_div_mul_add hproduct (a := (intervalOf m e).value * den)
    rw [← hfloor] at h
    linarith
  apply roundsTo_neighbour hparts.mantissa_lt (by positivity) hfine
  · rw [← hvalue, ← mul_div_assoc, div_le_div_iff₀ hdenRat hiden]
    exact_mod_cast hfloorLe
  · rw [← hvalue, ← mul_div_assoc, div_lt_div_iff₀ hiden hdenRat]
    exact_mod_cast hceilLt

/-- A search that reaches a grid with a point of the interval ends with digits that round to the number. -/
theorem search_roundsTo {m : Nat} {e point : Int} (hm : 0 < m) {count fuel last : Nat}
    (hcount : count ≤ last) (hlast : last < count + fuel)
    (hsome : ((intervalOf m e).onGrid? point last).isSome = true) :
    RoundsTo m e (((intervalOf m e).search point count fuel).1 *
      10 ^ (point - ((intervalOf m e).search point count fuel).2)) := by
  induction fuel generalizing count with
  | zero => omega
  | succ fuel ih =>
    unfold Interval.search
    split
    next digits hdigits => exact onGrid?_roundsTo hm hdigits
    next hnone =>
      have hne : count ≠ last := by
        rintro rfl
        rw [hnone] at hsome
        cases hsome
      exact ih (by omega) (by omega)

/-! ## Digit strings -/

theorem digitsValue_eq (cs : List Char) : digitsValue cs = Nat.ofDigitChars 10 cs 0 := by
  rw [Nat.ofDigitChars_eq_foldl]
  simp only [digitsValue, digitValue, Nat.mul_comm]
  rfl

theorem digitsValue_append (as bs : List Char) :
    digitsValue (as ++ bs) = digitsValue as * 10 ^ bs.length + digitsValue bs := by
  rw [digitsValue_eq, digitsValue_eq, digitsValue_eq, Nat.ofDigitChars_append,
    Nat.ofDigitChars_eq_ofDigitChars_zero, Nat.mul_comm]

theorem digitsValue_replicate (k : Nat) : digitsValue (List.replicate k '0') = 0 := by
  rw [digitsValue_eq, Nat.ofDigitChars_replicate_zero, Nat.mul_zero]

theorem digitsValue_toDigits (n : Nat) : digitsValue (Nat.toDigits 10 n) = n := by
  rw [digitsValue_eq, Nat.ofDigitChars_ten_toDigits]

/-- A run of digits that starts with none that could be left out. -/
structure IsNumeral (ds : List Char) : Prop where
  isDigit : ∀ d ∈ ds, d.isDigit = true
  head : ∃ d rest, ds = d :: rest ∧ d ≠ '0'

theorem isNumeral_toDigits {n : Nat} (hn : 0 < n) : IsNumeral (Nat.toDigits 10 n) := by
  refine ⟨fun d hd => Nat.isDigit_of_mem_toDigits (by norm_num) (by norm_num) hd, ?_⟩
  induction n using Nat.strongRecOn with
  | ind n ih =>
    rcases Nat.lt_or_ge n 10 with hlt | hge
    · rw [Nat.toDigits_of_lt_base hlt]
      have hdigit : ∀ k < 10, 0 < k → k.digitChar ≠ '0' := by decide
      exact ⟨_, _, rfl, hdigit n hlt hn⟩
    · rw [Nat.toDigits_of_base_le (by norm_num) hge]
      obtain ⟨d, rest, heq, hne⟩ := ih (n / 10) (by omega) (by omega)
      exact ⟨d, rest ++ [(n % 10).digitChar], by rw [heq]; rfl, hne⟩

/-- The digits of a numeral without its last zeros. -/
theorem exists_stripped {ds : List Char} (hds : IsNumeral ds) :
    ∃ k, ds = (ds.reverse.dropWhile (· == '0')).reverse ++ List.replicate k '0' ∧
      IsNumeral (ds.reverse.dropWhile (· == '0')).reverse := by
  set stripped := (ds.reverse.dropWhile (· == '0')).reverse with hstripped
  set zeros := ds.reverse.takeWhile (· == '0') with hzeros
  have hall : zeros = List.replicate zeros.length '0' := by
    apply List.eq_replicate_of_mem
    intro c hc
    exact beq_iff_eq.mp (List.all_eq_true.mp List.all_takeWhile c hc)
  have hsplit : ds = stripped ++ List.replicate zeros.length '0' := by
    have h := congrArg List.reverse (List.takeWhile_append_dropWhile (p := (· == '0')) (l := ds.reverse))
    rw [List.reverse_append, List.reverse_reverse, ← hzeros, ← hstripped, hall, List.reverse_replicate] at h
    exact h.symm
  refine ⟨zeros.length, hsplit, ?_, ?_⟩
  · intro d hd
    apply hds.isDigit
    rw [hsplit]
    exact List.mem_append_left _ hd
  · obtain ⟨d, rest, heq, hne⟩ := hds.head
    cases hcase : stripped with
    | nil =>
      -- Then all digits would be zeros.
      rw [hcase, heq, List.nil_append] at hsplit
      exact absurd (List.eq_of_mem_replicate (hsplit ▸ List.mem_cons_self)) hne
    | cons c cs =>
      rw [hcase, heq, List.cons_append, List.cons.injEq] at hsplit
      exact ⟨c, cs, rfl, hsplit.1 ▸ hne⟩

/-! ## Reading the shortest digits -/

/-- The shortest digits of a number are a numeral and round to the number. -/
theorem shortest_spec {m : Nat} {e : Int} (hparts : IsParts m e) :
    IsNumeral (shortest m e).1 ∧
      RoundsTo m e (digitsValue (shortest m e).1 *
        10 ^ ((shortest m e).2 - ((shortest m e).1.length : Int))) := by
  have hsearch := search_roundsTo hparts.pos (by norm_num : 1 ≤ 17) (by norm_num : 17 < 1 + 17)
    (onGrid?_seventeen hparts)
  simp only [shortest]
  generalize decimalPoint (intervalOf m e).value (intervalOf m e).den = point at hsearch ⊢
  generalize (intervalOf m e).search point 1 17 = found at hsearch ⊢
  obtain ⟨digits, count⟩ := found
  dsimp only at hsearch ⊢
  have hdigits : 0 < digits := by
    have hpos := hsearch.pos hparts.pos
    by_contra hzero
    obtain rfl : digits = 0 := by omega
    simp at hpos
  obtain ⟨k, hsplit, hnumeral⟩ := exists_stripped (isNumeral_toDigits hdigits)
  set text := Nat.toDigits 10 digits with htext
  set stripped := (text.reverse.dropWhile (· == '0')).reverse
  refine ⟨hnumeral, ?_⟩
  -- The zeros that are left out go into the power of ten.
  have hvalue : digits = digitsValue stripped * 10 ^ k := by
    calc digits = digitsValue text := (digitsValue_toDigits digits).symm
      _ = digitsValue (stripped ++ List.replicate k '0') := by rw [← hsplit]
      _ = digitsValue stripped * 10 ^ k := by
        rw [digitsValue_append, digitsValue_replicate, List.length_replicate, Nat.add_zero]
  have hlength : text.length = stripped.length + k := by
    have h := congrArg List.length hsplit
    rwa [List.length_append, List.length_replicate] at h
  have hexponent : point + ((text.length : Int) - count) - stripped.length = k + (point - count) := by
    rw [hlength]
    push_cast
    ring
  rw [hexponent, zpow_add₀ (by norm_num), zpow_natCast, ← mul_assoc]
  rw [hvalue] at hsearch
  push_cast at hsearch
  exact hsearch

/-- A quotient that rounds to a number lies between the powers of ten that reading cuts off. -/
theorem RoundsTo.bounds {m : Nat} {e : Int} {x : ℚ} (hparts : IsParts m e) (hrounds : RoundsTo m e x) :
    (10 : ℚ) ^ (-400 : Int) < x ∧ x < 10 ^ (309 : Int) := by
  have hfirst := hparts.le_exponent
  have hlast := hparts.exponent_le
  constructor
  · have hone : (1 : ℚ) ≤ m := by exact_mod_cast hparts.pos
    have hreach := reachBelow_le m e
    have hlow := hrounds.low
    have hpower : (2 : ℚ) ^ (-1074 : Int) ≤ 2 ^ e := zpow_le_zpow_right₀ one_le_two hfirst
    have hsmall : (10 : ℚ) ^ (-400 : Int) ≤ 2 ^ (-1076 : Int) := by
      rw [zpow_neg, zpow_neg, inv_le_inv₀ (by positivity) (by positivity)]
      exact_mod_cast two_pow_le_ten_pow (j := 1076) (k := 400) (by norm_num)
    have hquarter : (2 : ℚ) ^ (-1074 : Int) = 2 ^ (-1076 : Int) * 4 := by
      rw [show (-1074 : Int) = -1076 + (2 : Nat) by norm_num, two_zpow_add]
      norm_num
    have htiny : (0 : ℚ) < 2 ^ (-1076 : Int) := by positivity
    nlinarith
  · have hlt := hrounds.lt hparts.mantissa_lt
    have hpower : (2 : ℚ) ^ (e + 53) ≤ 2 ^ (1024 : Int) := zpow_le_zpow_right₀ one_le_two (by omega)
    have hlarge : (2 : ℚ) ^ (1024 : Int) ≤ 10 ^ (309 : Int) := by
      have h : 2 ^ 1024 ≤ 10 ^ 309 := by decide +kernel
      exact_mod_cast h
    exact hlt.trans_le (hpower.trans hlarge)

/-- Digits that round to a number are read as that number. -/
theorem ofDecimal_of_roundsTo {m digits : Nat} {e exponent : Int} (negative : Bool) (hparts : IsParts m e)
    (hrounds : RoundsTo m e (digits * 10 ^ exponent)) :
    ofDecimal negative digits exponent = ofScaled negative m e := by
  obtain ⟨hlow, hhigh⟩ := hrounds.bounds hparts
  have hdigits : 0 < digits := by
    rcases Nat.eq_zero_or_pos digits with rfl | hpos
    · have hpos := hrounds.pos hparts.pos
      simp at hpos
    · exact hpos
  obtain ⟨hwidthLow, hwidthHigh⟩ := length_toDigits_bounds hdigits
  have hpower : (0 : ℚ) < 10 ^ exponent := by positivity
  -- The quotient is too small and too large for the cuts.
  have hupper : exponent + ((Nat.toDigits 10 digits).length : Int) ≤ 309 := by
    have h : (10 : ℚ) ^ (((Nat.toDigits 10 digits).length : Int) - 1 + exponent) < 10 ^ (309 : Int) := by
      rw [zpow_add₀ (by norm_num)]
      exact (mul_le_mul_of_nonneg_right hwidthLow hpower.le).trans_lt hhigh
    have := (zpow_lt_zpow_iff_right₀ (by norm_num)).mp h
    omega
  have hlower : -400 < exponent + ((Nat.toDigits 10 digits).length : Int) := by
    have h : (10 : ℚ) ^ (-400 : Int) < 10 ^ (((Nat.toDigits 10 digits).length : Int) + exponent) := by
      rw [zpow_add₀ (by norm_num)]
      exact hlow.trans (mul_lt_mul_of_pos_right hwidthHigh hpower)
    have := (zpow_lt_zpow_iff_right₀ (by norm_num)).mp h
    omega
  unfold ofDecimal
  split
  next hsafe =>
    rw [← ofRatio_safe negative hsafe.2]
    apply ofRatio_of_roundsTo negative hparts Nat.one_pos
    simpa [hsafe.1] using hrounds
  next =>
    dsimp only
    rw [if_neg hdigits.ne', if_neg (by omega), if_neg (by omega)]
    split
    next hnonneg =>
      apply ofRatio_of_roundsTo negative hparts Nat.one_pos
      obtain ⟨k, rfl⟩ := Int.eq_ofNat_of_zero_le hnonneg
      simpa using hrounds
    next hneg =>
      apply ofRatio_of_roundsTo negative hparts (by positivity)
      obtain ⟨k, hk⟩ := Int.eq_ofNat_of_zero_le (a := -exponent) (by omega)
      obtain rfl : exponent = -(k : Int) := by omega
      simpa [div_eq_mul_inv] using hrounds

end Gateway.Number

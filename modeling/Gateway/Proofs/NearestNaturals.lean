import Gateway.Number.Arithmetic
import Gateway.Proofs.Rounding

/-!
# The numbers nearest to naturals

`nearest n` is the natural that the number `ofInt n` stands for; it is `n` itself below 2^53.  A finite number is less
than `ofInt n` exactly if it is less than `nearest n` (`less_ofInt_iff`), and `nearest` never decreases.  So a number
that is less than the number of some natural is less than those of all greater ones (`less_ofInt_mono`), and the same
holds of being at most that number (`atMost_ofInt_mono`).  Below 2^53 naturals are compared and subtracted exactly.
-/

namespace Gateway.Number

/-! ## Rounded quotients -/

theorem roundDiv_bounds (num den : Nat) : num / den ≤ roundDiv num den ∧ roundDiv num den ≤ num / den + 1 := by
  simp only [roundDiv]
  constructor <;> grind

theorem roundDiv_mono {a b : Nat} (den : Nat) (h : a ≤ b) : roundDiv a den ≤ roundDiv b den := by
  rcases Nat.lt_or_eq_of_le (Nat.div_le_div_right (c := den) h) with hless | hsame
  · exact (roundDiv_bounds a den).2.trans ((Nat.succ_le_of_lt hless).trans (roundDiv_bounds b den).1)
  · -- Of two quotients with one floor the greater has the greater remainder.
    have hrest : a % den ≤ b % den := by
      have ha := Nat.div_add_mod a den
      have hb := Nat.div_add_mod b den
      rw [hsame] at ha
      omega
    simp only [roundDiv, hsame]
    grind

theorem roundDiv_mul_self (q : Nat) {den : Nat} (hden : 0 < den) : roundDiv (q * den) den = q := by
  simp [roundDiv, Nat.mul_div_cancel q hden, hden]

/-! ## The nearest natural -/

/-- How many binary digits are dropped from a natural that is too long for a mantissa. -/
def dropped (n : Nat) : Nat := n.log2 - 52

/-- The natural that is nearest to `n` among those with a mantissa below 2^53. -/
def nearest (n : Nat) : Nat :=
  if n < safeBound then n else roundDiv n (2 ^ dropped n) * 2 ^ dropped n

theorem le_log2_of_large {n : Nat} (h : safeBound ≤ n) : 53 ≤ n.log2 := by
  have hpos : n ≠ 0 := by
    rintro rfl
    exact absurd h (by decide)
  exact (Nat.le_log2 hpos).mpr h

/-- The mantissa of a large natural has 53 digits, or is rounded up to 2^53. -/
theorem mantissa_bounds {n : Nat} (h : safeBound ≤ n) :
    2 ^ 52 ≤ roundDiv n (2 ^ dropped n) ∧ roundDiv n (2 ^ dropped n) ≤ 2 ^ 53 := by
  have hlog := le_log2_of_large h
  have hpos : n ≠ 0 := by
    rintro rfl
    exact absurd h (by decide)
  have hlow : 2 ^ 52 * 2 ^ dropped n ≤ n := by
    rw [← Nat.pow_add, dropped, show 52 + (n.log2 - 52) = n.log2 by omega]
    exact Nat.log2_self_le hpos
  have hhigh : n ≤ 2 ^ 53 * 2 ^ dropped n := by
    rw [← Nat.pow_add, dropped, show 53 + (n.log2 - 52) = n.log2 + 1 by omega]
    exact Nat.lt_log2_self.le
  have hden : 0 < 2 ^ dropped n := Nat.two_pow_pos _
  have hlow' := roundDiv_mono (2 ^ dropped n) hlow
  have hhigh' := roundDiv_mono (2 ^ dropped n) hhigh
  rw [roundDiv_mul_self _ hden] at hlow' hhigh'
  exact ⟨hlow', hhigh'⟩

theorem nearest_bounds {n : Nat} (h : safeBound ≤ n) : 2 ^ n.log2 ≤ nearest n ∧ nearest n ≤ 2 ^ (n.log2 + 1) := by
  have hlog := le_log2_of_large h
  obtain ⟨hlow, hhigh⟩ := mantissa_bounds h
  rw [nearest, if_neg (Nat.not_lt.mpr h)]
  constructor
  · calc 2 ^ n.log2 = 2 ^ 52 * 2 ^ dropped n := by
          rw [← Nat.pow_add, dropped]
          congr 1
          omega
      _ ≤ _ := Nat.mul_le_mul_right _ hlow
  · calc roundDiv n (2 ^ dropped n) * 2 ^ dropped n ≤ 2 ^ 53 * 2 ^ dropped n := Nat.mul_le_mul_right _ hhigh
      _ = 2 ^ (n.log2 + 1) := by
          rw [← Nat.pow_add, dropped]
          congr 1
          omega

theorem log2_mono {a b : Nat} (h : a ≤ b) : a.log2 ≤ b.log2 := by
  rcases Nat.eq_zero_or_pos a with rfl | ha
  · simp
  · exact (Nat.le_log2 (by omega)).mpr ((Nat.log2_self_le (by omega)).trans h)

theorem nearest_mono {a b : Nat} (h : a ≤ b) : nearest a ≤ nearest b := by
  by_cases hb : b < safeBound
  · rw [nearest, nearest, if_pos hb, if_pos (by omega)]
    exact h
  · rw [Nat.not_lt] at hb
    obtain ⟨hlow, -⟩ := nearest_bounds hb
    by_cases ha : a < safeBound
    · calc nearest a = a := if_pos ha
        _ ≤ 2 ^ 53 := ha.le
        _ ≤ 2 ^ b.log2 := Nat.pow_le_pow_right (by decide) (le_log2_of_large hb)
        _ ≤ nearest b := hlow
    · rw [Nat.not_lt] at ha
      obtain ⟨-, hhigh⟩ := nearest_bounds ha
      rcases Nat.lt_or_eq_of_le (log2_mono h) with hless | hsame
      · -- A power of two stands between the two.
        calc nearest a ≤ 2 ^ (a.log2 + 1) := hhigh
          _ ≤ 2 ^ b.log2 := Nat.pow_le_pow_right (by decide) hless
          _ ≤ nearest b := hlow
      · have hdropped : dropped a = dropped b := by rw [dropped, dropped, hsame]
        rw [nearest, nearest, if_neg (Nat.not_lt.mpr ha), if_neg (Nat.not_lt.mpr hb), hdropped]
        exact Nat.mul_le_mul_right _ (roundDiv_mono _ h)

/-! ## The number of a natural -/

/-- The least magnitude that no finite number has. -/
def overflow : Nat := 2 ^ 53 * 2 ^ 971

theorem binaryExponent_natural {n : Nat} (hn : 0 < n) : binaryExponent n 1 = n.log2 := by
  obtain ⟨hlow, hhigh⟩ := log2_bounds hn
  exact binaryExponent_eq hn Nat.one_pos (by simpa using hlow) (by simpa using hhigh)

/-- A large natural has a mantissa of 53 digits; its number is infinite if the exponent is too large. -/
theorem ofInt_large {n : Nat} (h : safeBound ≤ n) :
    ∃ m k : Nat, 2 ^ 52 ≤ m ∧ m * 2 ^ k = nearest n ∧
      (971 < k ∧ ofInt n = .infinity false ∨ ∃ form : IsScaled m k, ofInt n = .scaled false m k form) := by
  have hlog := le_log2_of_large h
  have hpos : 0 < n := Nat.lt_of_lt_of_le (by decide) h
  obtain ⟨hlow, hhigh⟩ := mantissa_bounds h
  have hexponent : max (binaryExponent n 1 - 52) (-1074) = (dropped n : Int) := by
    rw [binaryExponent_natural hpos, dropped]
    omega
  have hshift : shiftRatio n 1 (-(dropped n : Int)) = (n, 2 ^ dropped n) := by
    have hdropped : 0 < dropped n := by
      rw [dropped]
      omega
    rw [shiftRatio, if_neg (by omega)]
    simp
  have hratio : ofInt n = ofRatio false n 1 := by
    rw [ofInt, dif_neg (by simpa using h), Int.natAbs_natCast, decide_eq_false (by omega)]
  have hmantissa : roundDiv (shiftRatio n 1 (-(dropped n : Int))).1 (shiftRatio n 1 (-(dropped n : Int))).2 =
      roundDiv n (2 ^ dropped n) := by rw [hshift]
  have hparts : ∃ m k : Nat, 2 ^ 52 ≤ m ∧ m < 2 ^ 53 ∧ 0 < k ∧ m * 2 ^ k = nearest n ∧
      ofInt n = if (k : Int) > 971 then .infinity false else ofScaled false m k := by
    rw [hratio, ofRatio_eq false hpos.ne' hexponent hmantissa, nearest, if_neg (Nat.not_lt.mpr h)]
    rcases Nat.lt_or_eq_of_le hhigh with hless | hcarry
    · refine ⟨_, dropped n, hlow, hless, ?_, rfl, ?_⟩
      · rw [dropped]
        omega
      · have hzero : roundDiv n (2 ^ dropped n) ≠ 0 := by omega
        simp only [hless.ne, hzero, if_false]
    · refine ⟨2 ^ 52, dropped n + 1, Nat.le_refl _, by decide, Nat.succ_pos _, ?_, ?_⟩
      · rw [hcarry, ← Nat.pow_add, ← Nat.pow_add]
        congr 1
        omega
      · have hzero : (2 : Nat) ^ 52 ≠ 0 := by decide
        simp only [hcarry, hzero, if_true, if_false, Nat.cast_add, Nat.cast_one]
  obtain ⟨m, k, hm, hm', hk, hvalue, hnumber⟩ := hparts
  refine ⟨m, k, hm, hvalue, ?_⟩
  by_cases hlarge : (k : Int) > 971
  · exact .inl ⟨by omega, by rw [hnumber, if_pos hlarge]⟩
  · have form : IsScaled m k := ⟨hm', by omega, by omega, .inl hm, by omega, fun hneg => by omega⟩
    exact .inr ⟨form, by rw [hnumber, if_neg hlarge, ofScaled_of_isScaled]⟩

/-- The number of a natural is infinite, or has the nearest natural as its value. -/
theorem ofInt_cases (n : Nat) :
    (ofInt n = .infinity false ∧ overflow ≤ nearest n) ∨
      ∃ m k : Nat, (ofInt n).parts? = some ((m : Int), (k : Int)) ∧ m * 2 ^ k = nearest n := by
  by_cases hn : n < safeBound
  · refine .inr ⟨n, 0, ?_, ?_⟩
    · rw [ofInt, dif_pos (by simpa using hn)]
      rfl
    · rw [nearest, if_pos hn, Nat.pow_zero, Nat.mul_one]
  · obtain ⟨m, k, hm, hvalue, hnumber⟩ := ofInt_large (Nat.not_lt.mp hn)
    rcases hnumber with ⟨hk, hinfinite⟩ | ⟨form, hscaled⟩
    · refine .inl ⟨hinfinite, ?_⟩
      obtain ⟨j, rfl⟩ : ∃ j, k = j + 1 := ⟨k - 1, by omega⟩
      have hpower : ∀ i ≤ j, 2 ^ i ≤ 2 ^ j := fun i hi => Nat.pow_le_pow_right (by decide) hi
      have hfinite := hpower 971 (by omega)
      calc overflow ≤ 2 ^ 52 * (2 ^ j * 2) := by
            rw [overflow]
            omega
        _ ≤ m * (2 ^ j * 2) := Nat.mul_le_mul_right _ hm
        _ = nearest n := hvalue
    · refine .inr ⟨m, k, ?_, hvalue⟩
      rw [hscaled]
      rfl

/-! ## Comparing with the number of a natural -/

theorem compareParts_eq_lt_iff (a b : Int × Int) :
    compareParts a b = .lt ↔ (a.1 : ℚ) * 2 ^ a.2 < b.1 * 2 ^ b.2 := by
  have hscale : ∀ p : Int × Int, min a.2 b.2 ≤ p.2 →
      (p.1 : ℚ) * 2 ^ p.2 = ((p.1 * 2 ^ (p.2 - min a.2 b.2).toNat : Int) : ℚ) * 2 ^ min a.2 b.2 := by
    intro p hp
    push_cast
    rw [mul_assoc, ← zpow_natCast, ← zpow_add₀ two_ne_zero, Int.toNat_of_nonneg (by omega), Int.sub_add_cancel]
  have hpower : (0 : ℚ) < 2 ^ min a.2 b.2 := by positivity
  rw [hscale a (min_le_left _ _), hscale b (min_le_right _ _), mul_lt_mul_iff_left₀ hpower, Int.cast_lt]
  simp only [compareParts, compare_lt_iff_lt]

theorem compare?_of_parts {a b : Number} {x y : Int × Int} (ha : a.parts? = some x) (hb : b.parts? = some y) :
    compare? a b = some (compareParts x y) := by
  cases a <;> cases b <;> simp_all [parts?, compare?]

theorem parts_lt {a : Number} {m e : Int} (h : a.parts? = some (m, e)) : (m : ℚ) * 2 ^ e < overflow := by
  have hbound : ∀ (mantissa : Nat) (exponent : Int), mantissa < 2 ^ 53 → exponent ≤ 971 →
      (mantissa : ℚ) * 2 ^ exponent < overflow := by
    intro mantissa exponent hmantissa hexponent
    have hcast : (mantissa : ℚ) < 2 ^ 53 := by exact_mod_cast hmantissa
    have hpower : (0 : ℚ) < 2 ^ exponent := by positivity
    calc (mantissa : ℚ) * 2 ^ exponent < 2 ^ 53 * 2 ^ exponent := mul_lt_mul_of_pos_right hcast hpower
      _ ≤ 2 ^ 53 * 2 ^ (971 : Int) := by
        gcongr
        exact one_le_two
      _ = overflow := by
        rw [overflow, Nat.cast_mul, Nat.cast_pow, Nat.cast_pow]
        rfl
  have hsign : ∀ (n : Int) (exponent : Int), (n : ℚ) * 2 ^ exponent ≤ (n.natAbs : ℚ) * 2 ^ exponent := by
    intro n exponent
    have hle : (n : ℚ) ≤ ((n.natAbs : Int) : ℚ) := Int.cast_le.mpr Int.le_natAbs
    rw [Int.cast_natCast] at hle
    have hpower : (0 : ℚ) < 2 ^ exponent := by positivity
    exact mul_le_mul_of_nonneg_right hle hpower.le
  refine (hsign m e).trans_lt ?_
  cases a with
  | nan => cases h
  | infinity negative => cases h
  | negZero =>
    cases h
    exact hbound 0 0 (by decide) (by decide)
  | int n =>
    cases h
    exact hbound _ 0 n.bound (by decide)
  | scaled negative mantissa exponent form =>
    cases h
    refine hbound _ _ ?_ form.exponent_le
    have hmantissa := form.mantissa_lt
    split <;> omega

/-- A finite number is less than that of a natural exactly if it is less than the nearest natural. -/
theorem less_ofInt_iff {limit : Number} {m e : Int} (h : limit.parts? = some (m, e)) (n : Nat) :
    limit.less (.ofInt n) = true ↔ (m : ℚ) * 2 ^ e < nearest n := by
  rcases ofInt_cases n with ⟨hinfinite, hlarge⟩ | ⟨m', k, hparts, hvalue⟩
  · have hless : limit.less (.ofInt n) = true := by
      rw [hinfinite, less]
      cases limit <;> simp_all [parts?, compare?]
    have hcast : (overflow : ℚ) ≤ nearest n := by exact_mod_cast hlarge
    exact iff_of_true hless ((parts_lt h).trans_le hcast)
  · rw [less, compare?_of_parts h hparts, beq_iff_eq, Option.some.injEq, compareParts_eq_lt_iff, ← hvalue]
    push_cast
    rw [zpow_natCast]

theorem ofInt_infinite_or_finite (n : Nat) : ofInt n = .infinity false ∨ ∃ parts, (ofInt n).parts? = some parts := by
  rcases ofInt_cases n with ⟨hinfinite, -⟩ | ⟨m, k, hparts, -⟩
  · exact .inl hinfinite
  · exact .inr ⟨_, hparts⟩

theorem ofInt_ne_nan (n : Nat) : ofInt n ≠ .nan := by
  intro h
  rcases ofInt_infinite_or_finite n with hinfinite | ⟨parts, hparts⟩
  · rw [h] at hinfinite
    cases hinfinite
  · rw [h] at hparts
    cases hparts

theorem less_ofInt_of_infinite {limit : Number} (h : limit.parts? = none) (n : Nat) :
    limit.less (.ofInt n) = decide (limit = .infinity true) := by
  have hnumber := ofInt_infinite_or_finite n
  generalize ofInt n = x at hnumber
  cases limit with
  | nan => rfl
  | infinity negative =>
    rcases hnumber with rfl | ⟨parts, hparts⟩
    · cases negative <;> rfl
    · cases x with
      | nan => cases hparts
      | infinity => cases hparts
      | _ => cases negative <;> rfl
  | negZero => cases h
  | int => cases h
  | scaled => cases h

/-- A number that is less than that of a natural is less than those of all greater ones. -/
theorem less_ofInt_mono {limit : Number} {a b : Nat} (hle : a ≤ b) (h : limit.less (.ofInt a) = true) :
    limit.less (.ofInt b) = true := by
  cases hparts : limit.parts? with
  | none =>
    rw [less_ofInt_of_infinite hparts] at h ⊢
    exact h
  | some parts =>
    rw [less_ofInt_iff hparts] at h ⊢
    have hnearest : (nearest a : ℚ) ≤ nearest b := by exact_mod_cast nearest_mono hle
    exact h.trans_le hnearest

theorem compareParts_swap (a b : Int × Int) : compareParts b a = (compareParts a b).swap := by
  simp only [compareParts, min_comm b.2 a.2]
  exact Std.OrientedOrd.eq_swap

/-- Two numbers have an order, and the other way round the opposite one. -/
theorem exists_order {a b : Number} (ha : a ≠ .nan) (hb : b ≠ .nan) :
    ∃ order, compare? a b = some order ∧ compare? b a = some order.swap := by
  cases a with
  | nan => exact absurd rfl ha
  | infinity negative =>
    cases b with
    | nan => exact absurd rfl hb
    | infinity negative' => cases negative <;> cases negative' <;> exact ⟨_, rfl, rfl⟩
    | _ => cases negative <;> exact ⟨_, rfl, rfl⟩
  | _ =>
    cases b with
    | nan => exact absurd rfl hb
    | infinity negative => cases negative <;> exact ⟨_, rfl, rfl⟩
    | _ => exact ⟨_, rfl, congrArg some (compareParts_swap _ _)⟩

theorem atMost_of_not_less {a b : Number} (ha : a ≠ .nan) (hb : b ≠ .nan) (h : b.less a = false) :
    a.atMost b = true := by
  obtain ⟨order, hab, hba⟩ := exists_order ha hb
  rw [less, hba] at h
  rw [atMost, hab]
  cases order with
  | lt => rfl
  | eq => rfl
  | gt => exact absurd h (by decide)

/-- A finite number is at most that of a natural exactly if it is at most the nearest natural. -/
theorem atMost_ofInt_iff {limit : Number} {m e : Int} (h : limit.parts? = some (m, e)) (n : Nat) :
    limit.atMost (.ofInt n) = true ↔ (m : ℚ) * 2 ^ e ≤ nearest n := by
  rcases ofInt_cases n with ⟨hinfinite, hlarge⟩ | ⟨m', k, hparts, hvalue⟩
  · have hatMost : limit.atMost (.ofInt n) = true := by
      rw [hinfinite, atMost]
      cases limit <;> simp_all [parts?, compare?]
    have hcast : (overflow : ℚ) ≤ nearest n := by exact_mod_cast hlarge
    exact iff_of_true hatMost ((parts_lt h).le.trans hcast)
  · have hnot : limit.atMost (.ofInt n) = true ↔ ¬compareParts (m', k) (m, e) = .lt := by
      rw [atMost, compare?_of_parts h hparts, compareParts_swap]
      cases compareParts (m', k) (m, e) <;> simp [Ordering.swap]
    rw [hnot, compareParts_eq_lt_iff, not_lt, ← hvalue]
    push_cast
    rw [zpow_natCast]

theorem atMost_ofInt_of_infinite {limit : Number} (h : limit.parts? = none) (n : Nat) :
    limit.atMost (.ofInt n) = true ↔
      limit = .infinity true ∨ limit = .infinity false ∧ ofInt n = .infinity false := by
  have hnumber := ofInt_infinite_or_finite n
  generalize ofInt n = x at hnumber ⊢
  cases limit with
  | nan => simp [atMost, compare?]
  | infinity negative =>
    rcases hnumber with rfl | ⟨parts, hparts⟩
    · cases negative <;> simp [atMost, compare?]
    · cases x with
      | nan => cases hparts
      | infinity => cases hparts
      | _ => cases negative <;> simp [atMost, compare?]
  | negZero => cases h
  | int => cases h
  | scaled => cases h

/-- The number of a natural is infinite if that of a smaller one is. -/
theorem ofInt_infinite_mono {a b : Nat} (hle : a ≤ b) (h : ofInt a = .infinity false) :
    ofInt b = .infinity false := by
  have hlarge : overflow ≤ nearest a := by
    rcases ofInt_cases a with ⟨-, hlarge⟩ | ⟨m, k, hparts, -⟩
    · exact hlarge
    · rw [h] at hparts
      cases hparts
  rcases ofInt_cases b with ⟨hinfinite, -⟩ | ⟨m, k, hparts, hvalue⟩
  · exact hinfinite
  · -- What is finite is below the overflow.
    have hfinite := parts_lt hparts
    have hcast : (overflow : ℚ) ≤ nearest b := by exact_mod_cast hlarge.trans (nearest_mono hle)
    rw [← hvalue] at hcast
    push_cast at hcast hfinite
    rw [zpow_natCast] at hfinite
    exact absurd hfinite (not_lt.mpr hcast)

/-- A number that is at most that of a natural is at most those of all greater ones. -/
theorem atMost_ofInt_mono {limit : Number} {a b : Nat} (hle : a ≤ b) (h : limit.atMost (.ofInt a) = true) :
    limit.atMost (.ofInt b) = true := by
  cases hparts : limit.parts? with
  | none =>
    rw [atMost_ofInt_of_infinite hparts] at h ⊢
    exact h.imp_right fun hboth => ⟨hboth.1, ofInt_infinite_mono hle hboth.2⟩
  | some parts =>
    rw [atMost_ofInt_iff hparts] at h ⊢
    have hnearest : (nearest a : ℚ) ≤ nearest b := by exact_mod_cast nearest_mono hle
    exact h.trans hnearest

/-! ## Naturals up to 2^53 -/

theorem nearest_of_le {n : Nat} (h : n ≤ safeBound) : nearest n = n := by
  rcases Nat.lt_or_eq_of_le h with hless | rfl
  · rw [nearest, if_pos hless]
  · decide +kernel

/-- The numbers of naturals up to 2^53 are compared as the naturals are. -/
theorem ofInt_atMost_ofInt_iff {limit n : Nat} (hlimit : limit ≤ safeBound) (hn : n ≤ safeBound) :
    (ofInt limit).atMost (.ofInt n) = true ↔ limit ≤ n := by
  rcases ofInt_cases limit with ⟨hinfinite, hlarge⟩ | ⟨m, k, hparts, hvalue⟩
  · rw [nearest_of_le hlimit] at hlarge
    exact absurd (hlarge.trans hlimit) (by decide +kernel)
  · rw [nearest_of_le hlimit] at hvalue
    rw [atMost_ofInt_iff hparts, nearest_of_le hn, zpow_natCast, ← hvalue]
    exact_mod_cast Iff.rfl

theorem nearest_lt_iff {limit n : Nat} (hn : n ≤ safeBound) : nearest limit < n ↔ limit < n := by
  rcases Nat.le_total limit safeBound with hlimit | hlimit
  · rw [nearest_of_le hlimit]
  · have hnearest := nearest_mono hlimit
    rw [nearest_of_le (Nat.le_refl _)] at hnearest
    omega

theorem ofInt_less_ofInt_iff {limit n : Nat} (hn : n ≤ safeBound) :
    (ofInt limit).less (.ofInt n) = true ↔ limit < n := by
  rw [← nearest_lt_iff hn]
  rcases ofInt_cases limit with ⟨hinfinite, hlarge⟩ | ⟨m, k, hparts, hvalue⟩
  · have hsmall : safeBound < overflow := by decide +kernel
    rw [hinfinite, less_ofInt_of_infinite rfl]
    exact iff_of_false (by decide) (by omega)
  · rw [less_ofInt_iff hparts, nearest_of_le hn, zpow_natCast, ← hvalue]
    exact_mod_cast Iff.rfl

theorem ofInt_of_lt {n : Nat} (h : n < safeBound) : ofInt n = .int ⟨n, h⟩ := by
  rw [ofInt, dif_pos (by simpa using h)]

/-! ## Exact arithmetic -/

/-- The difference of two naturals below 2^53 is exact. -/
theorem ofInt_sub_ofInt {a b : Nat} (hle : b ≤ a) (ha : a < safeBound) :
    (ofInt a).sub (.ofInt b) = .ofInt (a - b : Nat) := by
  have hb : b < safeBound := by omega
  rw [ofInt_of_lt ha, ofInt_of_lt hb, sub, neg]
  split
  · rename_i hzero
    obtain rfl : b = 0 := Int.ofNat_inj.mp (congrArg SafeInt.val hzero)
    -- A negative zero is added by its parts.
    have hparts : add (.int ⟨a, ha⟩) .negZero = ofRatio false a 1 := by
      have hsign : decide ((a : Int) < 0) = false := decide_eq_false (Int.not_lt.mpr (Int.natCast_nonneg a))
      simp [add, parts?, addParts, ofShifted, shiftRatio, hsign]
    rw [hparts, ofRatio_safe false ha, ofSafe, dif_pos ha, Nat.sub_zero, ofInt_of_lt ha]
    rfl
  · have hsum : (a : Int) + -b = (a - b : Nat) := by omega
    exact congrArg ofInt hsum

end Gateway.Number

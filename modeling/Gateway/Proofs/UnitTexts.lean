import Gateway.Text.Units
import Mathlib.Order.Lattice

/-!
# Texts and their UTF-16 units

Units read back the text they were taken from (`ofUnits_units`), so no two texts have the same units, and comparing
texts unit by unit orders them all (`unitsBefore_total`).
-/

namespace Gateway.Text

/-! ## Units of a text -/

theorem units_ofList (cs : List Char) : units (String.ofList cs) = cs.flatMap unitsOfChar := by
  simp [units]

theorem flatMap_intercalate {α β : Type} (f : α → List β) (separator : List α) (pieces : List (List α)) :
    (separator.intercalate pieces).flatMap f = (separator.flatMap f).intercalate (pieces.map fun p => p.flatMap f) := by
  induction pieces with
  | nil => rfl
  | cons p rest ih =>
    cases rest with
    | nil => simp
    | cons q rest =>
      rw [List.intercalate_cons_cons, List.flatMap_append, List.flatMap_append, ih]
      simp

theorem unitsOfChar_ne_nil (c : Char) : unitsOfChar c ≠ [] := by
  unfold unitsOfChar
  split <;> simp

theorem units_eq_nil_iff (s : String) : units s = [] ↔ s = "" := by
  rw [units, List.flatMap_eq_nil_iff, ← String.toList_eq_nil_iff]
  constructor
  · intro h
    cases hcs : s.toList with
    | nil => rfl
    | cons c cs => exact absurd (h c (by simp [hcs])) (unitsOfChar_ne_nil c)
  · intro h
    simp [h]

/-- A character below U+10000 is its own unit. -/
theorem unitsOfChar_of_lt {c : Char} (h : c.toNat < 0x10000) : unitsOfChar c = [UInt16.ofNat c.toNat] := by
  rw [unitsOfChar, if_pos h]

theorem toNat_ofNat_unit {n : Nat} (h : n < 0x10000) : (UInt16.ofNat n).toNat = n :=
  UInt16.toNat_ofNat_of_lt' h

/-- A unit below the surrogates is among those of a character only if it is that character. -/
theorem toNat_eq_of_mem_unitsOfChar {u : UInt16} {c : Char} (h : u ∈ unitsOfChar c) (hu : u.toNat < 0xD800) :
    u.toNat = c.toNat := by
  have hvalid : c.toNat < 0xD800 ∨ 0xDFFF < c.toNat ∧ c.toNat < 0x110000 := c.valid
  unfold unitsOfChar at h
  split at h
  · rename_i hsmall
    rw [List.mem_singleton.mp h, toNat_ofNat_unit hsmall]
  · -- Both units of a pair are surrogates.
    rcases List.mem_cons.mp h with rfl | h
    · rw [toNat_ofNat_unit (by omega)] at hu
      omega
    · rw [List.mem_singleton.mp h, toNat_ofNat_unit (by omega)] at hu
      omega

/-! ## Reading units back -/

/-- A unit that is no surrogate is read as the character it is. -/
theorem charsOfUnits_single {u : UInt16} (hhigh : isHighSurrogate u = false) (hlow : isLowSurrogate u = false)
    (rest : List UInt16) : charsOfUnits (u :: rest) = Char.ofNat u.toNat :: charsOfUnits rest := by
  cases rest with
  | nil => simp [charsOfUnits, hhigh, hlow]
  | cons v rest => simp [charsOfUnits, hhigh, hlow]

theorem charsOfUnits_pair {u v : UInt16} (hhigh : isHighSurrogate u = true) (hlow : isLowSurrogate v = true)
    (rest : List UInt16) : charsOfUnits (u :: v :: rest) = charOfPair u v :: charsOfUnits rest := by
  simp [charsOfUnits, hhigh, hlow]

/-- The units of a character are read as that character, whatever follows. -/
theorem charsOfUnits_unitsOfChar (c : Char) (rest : List UInt16) :
    charsOfUnits (unitsOfChar c ++ rest) = c :: charsOfUnits rest := by
  have hvalid : c.toNat < 0xD800 ∨ 0xDFFF < c.toNat ∧ c.toNat < 0x110000 := c.valid
  unfold unitsOfChar
  split
  next hsmall =>
    have hunit := toNat_ofNat_unit hsmall
    have hhigh : isHighSurrogate (UInt16.ofNat c.toNat) = false := by
      rw [isHighSurrogate, hunit, Bool.and_eq_false_iff, decide_eq_false_iff_not, decide_eq_false_iff_not]
      omega
    have hlow : isLowSurrogate (UInt16.ofNat c.toNat) = false := by
      rw [isLowSurrogate, hunit, Bool.and_eq_false_iff, decide_eq_false_iff_not, decide_eq_false_iff_not]
      omega
    rw [List.singleton_append, charsOfUnits_single hhigh hlow, hunit, Char.ofNat_toNat]
  next hlarge =>
    -- The offset above U+10000 has twenty bits, ten for each unit of the pair.
    have hfirst := toNat_ofNat_unit (n := 0xD800 + (c.toNat - 0x10000) / 0x400) (by omega)
    have hsecond := toNat_ofNat_unit (n := 0xDC00 + (c.toNat - 0x10000) % 0x400) (by omega)
    have hhigh : isHighSurrogate (UInt16.ofNat (0xD800 + (c.toNat - 0x10000) / 0x400)) = true := by
      rw [isHighSurrogate, hfirst, Bool.and_eq_true_iff, decide_eq_true_iff, decide_eq_true_iff]
      omega
    have hlow : isLowSurrogate (UInt16.ofNat (0xDC00 + (c.toNat - 0x10000) % 0x400)) = true := by
      rw [isLowSurrogate, hsecond, Bool.and_eq_true_iff, decide_eq_true_iff, decide_eq_true_iff]
      omega
    have hoffset : 0x10000 + (0xD800 + (c.toNat - 0x10000) / 0x400 - 0xD800) * 0x400 +
        (0xDC00 + (c.toNat - 0x10000) % 0x400 - 0xDC00) = c.toNat := by omega
    rw [List.cons_append, List.singleton_append, charsOfUnits_pair hhigh hlow, charOfPair, hfirst, hsecond,
      hoffset, Char.ofNat_toNat]

theorem charsOfUnits_flatMap (cs : List Char) : charsOfUnits (cs.flatMap unitsOfChar) = cs := by
  induction cs with
  | nil => rfl
  | cons c cs ih => rw [List.flatMap_cons, charsOfUnits_unitsOfChar, ih]

/-- A text is read back from its units. -/
theorem ofUnits_units (s : String) : ofUnits (units s) = s := by
  rw [ofUnits, units, charsOfUnits_flatMap, String.ofList_toList]

theorem units_injective : Function.Injective units :=
  Function.LeftInverse.injective ofUnits_units

/-! ## Order -/

theorem unitsBefore_iff (a b : String) : unitsBefore a b = true ↔ units a < units b := by
  simp [unitsBefore]

theorem unitsBefore_trans {a b c : String} (hab : unitsBefore a b = true) (hbc : unitsBefore b c = true) :
    unitsBefore a c = true := by
  rw [unitsBefore_iff] at *
  exact List.lt_trans hab hbc

theorem unitsBefore_asymm {a b : String} (h : unitsBefore a b = true) : unitsBefore b a = false := by
  rw [← Bool.not_eq_true, unitsBefore_iff]
  exact List.lt_asymm ((unitsBefore_iff a b).mp h)

theorem unitsBefore_irrefl (a : String) : unitsBefore a a = false := by
  by_contra hself
  exact hself (unitsBefore_asymm (Bool.eq_true_of_not_eq_false hself))

/-- Of two different texts one comes before the other. -/
theorem unitsBefore_total {a b : String} (h : a ≠ b) : unitsBefore a b = true ∨ unitsBefore b a = true := by
  rw [unitsBefore_iff, unitsBefore_iff]
  by_contra hneither
  obtain ⟨hab, hba⟩ := not_or.mp hneither
  exact h (units_injective (List.le_antisymm hba hab))

end Gateway.Text

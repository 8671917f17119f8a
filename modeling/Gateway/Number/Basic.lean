/-!
# Double-precision numbers

A `Number` is one of the values of a 64-bit floating-point number, held exactly.  The integers below
2^53 in magnitude, over which arithmetic is exact, have a constructor of their own; every other finite
value is a mantissa times a power of two, in the one form that the type admits.  `ofRatio` rounds a quotient
to the nearest value, a half to the even mantissa, so reading a number never goes through inexact arithmetic.
-/

namespace Gateway

-- Powers are the built-in ones, whatever other instances are in scope.
attribute [local instance (high)] instPowNat

/-- The first magnitude that is no safe integer. -/
def Number.safeBound : Nat := 2 ^ (53 : Nat)

/-- An integer of magnitude below 2^53. -/
structure SafeInt where
  val : Int
  bound : val.natAbs < Number.safeBound
  deriving DecidableEq, Repr

instance : OfNat SafeInt 0 := ⟨⟨0, by decide⟩⟩

/-- Whether `mantissa * 2 ^ exponent` is the form of a finite value that is no safe integer: the mantissa is below
2^53, the exponent is as small as possible from -1074 up, and the value is large or has a fraction. -/
structure IsScaled (mantissa : Nat) (exponent : Int) : Prop where
  mantissa_lt : mantissa < 2 ^ (53 : Nat)
  le_exponent : -1074 ≤ exponent
  exponent_le : exponent ≤ 971
  full : 2 ^ (52 : Nat) ≤ mantissa ∨ exponent = -1074
  ne_zero : exponent ≠ 0
  fraction : exponent < 0 → mantissa % 2 ^ (-exponent).toNat ≠ 0

instance (mantissa : Nat) (exponent : Int) : Decidable (IsScaled mantissa exponent) :=
  decidable_of_iff
    (mantissa < 2 ^ (53 : Nat) ∧ -1074 ≤ exponent ∧ exponent ≤ 971 ∧
      (2 ^ (52 : Nat) ≤ mantissa ∨ exponent = -1074) ∧ exponent ≠ 0 ∧
      (exponent < 0 → mantissa % 2 ^ (-exponent).toNat ≠ 0))
    ⟨fun ⟨a, b, c, d, e, f⟩ => ⟨a, b, c, d, e, f⟩, fun ⟨a, b, c, d, e, f⟩ => ⟨a, b, c, d, e, f⟩⟩

/-- A double-precision number. -/
inductive Number where
  | nan
  | infinity (negative : Bool)
  /-- The zero with a minus sign. -/
  | negZero
  /-- An integer of magnitude below 2^53. -/
  | int (n : SafeInt)
  /-- Any other finite value, `± mantissa * 2 ^ exponent`. -/
  | scaled (negative : Bool) (mantissa : Nat) (exponent : Int) (form : IsScaled mantissa exponent)
  deriving DecidableEq, Repr

namespace Number

/-- The number of a natural below `safeBound` and a sign; none of other naturals. -/
def ofSafe (negative : Bool) (n : Nat) : Number :=
  if h : n < safeBound then
    if negative then (if n = 0 then .negZero else .int ⟨-n, by omega⟩) else .int ⟨n, by omega⟩
  else .nan

/-- The number `± mantissa * 2 ^ exponent`, an integer if it is a safe one. -/
def ofScaled (negative : Bool) (mantissa : Nat) (exponent : Int) : Number :=
  if h : IsScaled mantissa exponent then .scaled negative mantissa exponent h
  else ofSafe negative (mantissa * 2 ^ exponent.toNat / 2 ^ (-exponent).toNat)

/-- A quotient rounded to the nearest integer, a half to the even one. -/
def roundDiv (num den : Nat) : Nat :=
  let q := num / den
  let r := num % den
  if 2 * r < den then q
  else if 2 * r > den then q + 1
  else if q % 2 = 0 then q else q + 1

/-- The quotient `num / den` times `2 ^ shift`, as a numerator and a denominator. -/
def shiftRatio (num den : Nat) (shift : Int) : Nat × Nat :=
  if shift ≥ 0 then (num * 2 ^ shift.toNat, den) else (num, den * 2 ^ (-shift).toNat)

/-- The exponent of the greatest power of two that is at most `num / den`. -/
def binaryExponent (num den : Nat) : Int :=
  let guess : Int := (num.log2 : Int) - (den.log2 : Int)
  let (a, b) := shiftRatio num den (-guess)
  if a < b then guess - 1 else guess

/-- The number nearest to `± num / den`, a half to the even mantissa, with overflow to infinity. -/
def ofRatio (negative : Bool) (num den : Nat) : Number :=
  if num = 0 then ofSafe negative 0
  else
    let exponent := max (binaryExponent num den - 52) (-1074)
    let (a, b) := shiftRatio num den (-exponent)
    let mantissa := roundDiv a b
    let (mantissa, exponent) :=
      if mantissa = 2 ^ (53 : Nat) then (2 ^ (52 : Nat), exponent + 1) else (mantissa, exponent)
    if exponent > 971 then .infinity negative
    else if mantissa = 0 then ofSafe negative 0
    else ofScaled negative mantissa exponent

/-- The number nearest to an integer. -/
def ofInt (n : Int) : Number :=
  if h : n.natAbs < safeBound then .int ⟨n, h⟩ else ofRatio (n < 0) n.natAbs 1

instance (n : Nat) : OfNat Number n := ⟨ofInt n⟩

/-- The number nearest to `± digits * 10 ^ exponent`. -/
def ofDecimal (negative : Bool) (digits : Nat) (exponent : Int) : Number :=
  if exponent = 0 ∧ digits < safeBound then ofSafe negative digits
  else if digits = 0 then ofSafe negative 0
  else
    let width : Int := (Nat.toDigits 10 digits).length
    if exponent + width > 310 then .infinity negative
    else if exponent + width < -400 then ofSafe negative 0
    else if exponent ≥ 0 then ofRatio negative (digits * 10 ^ exponent.toNat) 1
    else ofRatio negative digits (10 ^ (-exponent).toNat)

/-- Whether a number is an integer of magnitude below 2^53, the zero with a minus sign included. -/
def isSafeInteger : Number → Bool
  | .int _ | .negZero => true
  | _ => false

/-- Whether a number is finite and has no fraction. -/
def isInteger : Number → Bool
  | .int _ | .negZero => true
  | .scaled _ _ exponent _ => exponent ≥ 0
  | _ => false

/-- A finite number as a signed mantissa and an exponent of two. -/
def parts? : Number → Option (Int × Int)
  | .int n => some (n.val, 0)
  | .negZero => some (0, 0)
  | .scaled negative m e _ => some (if negative then -(m : Int) else m, e)
  | _ => none

/-- The order of two finite numbers given by their parts. -/
def compareParts (a b : Int × Int) : Ordering :=
  let e := min a.2 b.2
  compare (a.1 * 2 ^ (a.2 - e).toNat) (b.1 * 2 ^ (b.2 - e).toNat)

/-- The order of two numbers; `none` if either is no number. -/
def compare? : Number → Number → Option Ordering
  | .nan, _ | _, .nan => none
  | .infinity a, .infinity b =>
    some (if a = b then .eq else if a then .lt else .gt)
  | .infinity a, _ => some (if a then .lt else .gt)
  | _, .infinity b => some (if b then .gt else .lt)
  | a, b =>
    match a.parts?, b.parts? with
    | some x, some y => some (compareParts x y)
    | _, _ => none

/-- The order of an integer of any size and a number; `none` if the latter is no number. -/
def compareInt? (n : Int) : Number → Option Ordering
  | .nan => none
  | .infinity negative => some (if negative then .gt else .lt)
  | b => b.parts?.map (compareParts (n, 0))

/-- `a ≤ b`; false if either is no number. -/
def atMost (a b : Number) : Bool :=
  match compare? a b with
  | some .lt | some .eq => true
  | _ => false

/-- `a < b`; false if either is no number. -/
def less (a b : Number) : Bool :=
  compare? a b == some .lt

/-- Equality of numbers as quantities: both zeros are equal and no number equals `nan`. -/
def same (a b : Number) : Bool :=
  compare? a b == some .eq

/-- The integer part of a finite number, its fraction dropped. -/
def truncate? : Number → Option Int
  | .int n => some n.val
  | .negZero => some 0
  | .scaled negative m e _ =>
    let size : Nat := if e ≥ 0 then m * 2 ^ e.toNat else m / 2 ^ (-e).toNat
    some (if negative then -(size : Int) else size)
  | _ => none

end Number

end Gateway

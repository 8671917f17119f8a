import Gateway.Number.Basic

/-!
# Arithmetic of numbers

Every operation gives the number nearest to the exact result, a half to the even mantissa.  The remainder is
exact and has the sign of the dividend.
-/

namespace Gateway.Number

-- Powers are the built-in ones, whatever other instances are in scope.
attribute [local instance (high)] instPowNat

/-- The number nearest to `± num / den * 2 ^ exponent`. -/
def ofShifted (negative : Bool) (num den : Nat) (exponent : Int) : Number :=
  let (a, b) := shiftRatio num den exponent
  ofRatio negative a b

/-- Whether a number has a minus sign. -/
def isNegative : Number → Bool
  | .nan => false
  | .infinity negative => negative
  | .negZero => true
  | .int n => n.val < 0
  | .scaled negative _ _ _ => negative

/-- A number with the other sign. -/
def neg : Number → Number
  | .nan => .nan
  | .infinity negative => .infinity !negative
  | .negZero => .int 0
  | .int n => if n = 0 then .negZero else .int ⟨-n.val, by simpa using n.bound⟩
  | .scaled negative m e h => .scaled (!negative) m e h

/-- The number nearest to the sum of two finite numbers given by their parts. -/
def addParts (a b : Int × Int) : Number :=
  let e := min a.2 b.2
  let sum := a.1 * 2 ^ (a.2 - e).toNat + b.1 * 2 ^ (b.2 - e).toNat
  ofShifted (sum < 0) sum.natAbs 1 e

/-- The number nearest to the sum of two numbers. -/
def add : Number → Number → Number
  | .int a, .int b => ofInt (a.val + b.val)
  | .negZero, .negZero => .negZero
  | .nan, _ | _, .nan => .nan
  | .infinity s, .infinity t => if s = t then .infinity s else .nan
  | .infinity s, _ | _, .infinity s => .infinity s
  | a, b =>
    match a.parts?, b.parts? with
    | some x, some y => addParts x y
    | _, _ => .nan

/-- The number nearest to the difference of two numbers. -/
def sub (a b : Number) : Number :=
  add a b.neg

/-- A finite number times a natural, to the nearest number. -/
def scale (a : Number) (k : Nat) : Number :=
  match a.parts? with
  | some (m, e) => ofShifted a.isNegative (m.natAbs * k) 1 e
  | none => a

/-- A finite number divided by a positive natural, to the nearest number. -/
def shrink (a : Number) (k : Nat) : Number :=
  match a.parts? with
  | some (m, e) => ofShifted a.isNegative m.natAbs k e
  | none => a

/-- The remainder of a finite number by a positive natural, with the sign of the number; `nan` of others. -/
def remainder (a : Number) (k : Nat) : Number :=
  match a.parts? with
  | some (m, e) =>
    if e ≥ 0 then ofShifted a.isNegative (m.natAbs * 2 ^ e.toNat % k) 1 0
    else ofShifted a.isNegative (m.natAbs % (k * 2 ^ (-e).toNat)) 1 e
  | none => .nan

/-- The distance from a positive number to the next greater one, halved, but no less than the least positive
number. -/
def halfGap : Number → Number
  | .int n => ofShifted false 1 1 ((n.val.natAbs.log2 : Int) - 53)
  | .scaled _ _ e _ => ofShifted false 1 1 (max (e - 1) (-1074))
  | _ => ofShifted false 1 1 (-1074)

end Gateway.Number

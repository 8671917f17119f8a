import Gateway.Number.Arithmetic
import Gateway.Number.Shortest

/-!
# Numbers in other bases

The text of a number in a base up to 36.  The fraction has as many digits as tell the number from its
neighbours, the last one rounded.  The last digit of an integer whose neighbours are further apart than the base
is not told apart: it is a zero, and the integer is divided by the base, to the nearest number.
-/

namespace Gateway.Number

/-- The digit of a value below 36. -/
def radixDigit (d : Nat) : Char :=
  if d < 10 then Char.ofNat (0x30 + d) else Char.ofNat (0x61 + (d - 10))

/-- The natural part of a number that is not negative. -/
def floorNat (a : Number) : Nat :=
  (a.truncate?.getD 0).toNat

/-- Adds one to the last of some digits, given last one first; digits that overflow are dropped, and `none`
means that one has to be added to the integer part. -/
def carry (base : Nat) : List Nat → Option (List Nat)
  | [] => none
  | d :: rest => if d + 1 < base then some ((d + 1) :: rest) else carry base rest

/-- The digits of a fraction, `done` being those before it, last one first, and whether one has to be added to
the integer part.  Writing ends when what is left is smaller than `gap`. -/
def fractionDigits (base : Nat) : Nat → List Nat → Number → Number → List Nat × Bool
  | 0, done, _, _ => (done.reverse, false)
  | fuel + 1, done, fraction, gap =>
    let fraction := fraction.scale base
    let gap := gap.scale base
    let digit := fraction.floorNat
    let fraction := fraction.sub (.ofInt digit)
    let half := ofRatio false 1 2
    let roundsUp := half.less fraction || (fraction.same half && digit % 2 == 1)
    if roundsUp && (1 : Number).less (fraction.add gap) then
      match carry base (digit :: done) with
      | some digits => (digits.reverse, false)
      | none => ([], true)
    else if gap.atMost fraction then fractionDigits base fuel (digit :: done) fraction gap
    else ((digit :: done).reverse, false)

/-- The digits of an integer one by one, before the digits `rest`. -/
def integerDigits (base : Nat) : Nat → Number → List Char → List Char
  | 0, _, rest => rest
  | fuel + 1, n, rest =>
    let digit := n.remainder base
    let next := (n.sub digit).shrink base
    let digits := radixDigit digit.floorNat :: rest
    if (0 : Number).less next then integerDigits base fuel next digits else digits

/-- The digits of an integer, before the digits `rest`; those that are not told apart are zeros. -/
def wholeDigits (base : Nat) : Nat → Number → List Char → List Char
  | 0, _, rest => rest
  | fuel + 1, n, rest =>
    if (ofInt base).less (n.halfGap.scale 2) then wholeDigits base fuel (n.shrink base) ('0' :: rest)
    else integerDigits base 64 n rest

/-- The digits of a finite number that is not negative. -/
def unsignedRadix (base : Nat) (n : Number) : List Char :=
  let whole := ofInt (n.truncate?.getD 0)
  let fraction := n.sub whole
  let gap := n.halfGap
  if gap.atMost fraction then
    let (digits, carried) := fractionDigits base 1100 [] fraction gap
    let whole := if carried then whole.add 1 else whole
    let tail := if digits.isEmpty then [] else '.' :: digits.map radixDigit
    wholeDigits base 1100 whole tail
  else wholeDigits base 1100 whole []

/-- The text of a number in a base. -/
def radixChars (base : Nat) (n : Number) : List Char :=
  match n with
  | .nan | .infinity _ => n.chars
  | _ =>
    if n.less 0 then '-' :: unsignedRadix base n.neg else unsignedRadix base n

end Gateway.Number

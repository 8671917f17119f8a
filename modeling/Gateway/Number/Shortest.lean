import Gateway.Number.Basic

/-!
# The shortest decimal text of a number

`shortest` finds the fewest decimal digits that read back as the number, and of these the nearest to it,
by testing the two neighbours of the value on the grid of one digit, two digits and so on in exact
arithmetic.  `format` places them: positional up to 21 integer digits and down to six leading zeros,
otherwise with an exponent.
-/

namespace Gateway.Number

-- Powers are the built-in ones, whatever other instances are in scope.
attribute [local instance (high)] instPowNat

/-- The reals that round to `mantissa * 2 ^ exponent`, over one denominator: the value and the two ends
of the interval, which belong to it when the mantissa is even. -/
structure Interval where
  value : Nat
  low : Nat
  high : Nat
  den : Nat
  closed : Bool

/-- The interval of the reals that round to `mantissa * 2 ^ exponent`. -/
def intervalOf (mantissa : Nat) (exponent : Int) : Interval :=
  let up := 2 ^ exponent.toNat
  let den := 4 * 2 ^ (-exponent).toNat
  let below := if mantissa = 2 ^ (52 : Nat) ∧ exponent > -1074 then 1 else 2
  { value := 4 * mantissa * up
    low := (4 * mantissa - below) * up
    high := (4 * mantissa + 2) * up
    den := den
    closed := mantissa % 2 = 0 }

/-- Whether `digits * unit` lies in the interval, `unit` being `num / den`. -/
def Interval.holds (i : Interval) (digits num den : Nat) : Bool :=
  let x := digits * num * i.den
  let low := i.low * den
  let high := i.high * den
  if i.closed then low ≤ x && x ≤ high else low < x && x < high

/-- The least `k` up to a bound with `num * 10 ^ k ≥ den`. -/
def leadingZeros (num den : Nat) : Nat → Nat
  | 0 => 0
  | fuel + 1 => if num ≥ den then 0 else leadingZeros (num * 10) den fuel + 1

/-- The number of digits before the point of `num / den`; zero or less below one tenth. -/
def decimalPoint (num den : Nat) : Int :=
  if num ≥ den then (Nat.toDigits 10 (num / den)).length
  else 1 - (leadingZeros num den 400 : Int)

/-- The closest digits on the grid of `count` digits that lie in the interval. -/
def Interval.onGrid? (i : Interval) (point : Int) (count : Nat) : Option Nat :=
  let power := point - count
  let num := 10 ^ power.toNat
  let den := 10 ^ (-power).toNat
  let floor := i.value * den / (i.den * num)
  let below := i.holds floor num den
  let above := i.holds (floor + 1) num den
  let rest := i.value * den - floor * (i.den * num)
  if below && above then
    some (if 2 * rest < i.den * num ∨ (2 * rest = i.den * num ∧ floor % 2 = 0) then floor else floor + 1)
  else if below then some floor
  else if above then some (floor + 1)
  else none

/-- The first grid, from `count` digits on, that has a point in the interval. -/
def Interval.search (i : Interval) (point : Int) (count : Nat) : Nat → Nat × Nat
  | 0 => (0, count)
  | fuel + 1 =>
    match i.onGrid? point count with
    | some digits => (digits, count)
    | none => i.search point (count + 1) fuel

/-- The fewest digits that read back as `mantissa * 2 ^ exponent`, and the place of the point. -/
def shortest (mantissa : Nat) (exponent : Int) : List Char × Int :=
  let i := intervalOf mantissa exponent
  let point := decimalPoint i.value i.den
  let (digits, count) := i.search point 1 17
  -- A digit string that was rounded up to a power of ten is one longer.
  let text := Nat.toDigits 10 digits
  let point := point + ((text.length : Int) - count)
  ((text.reverse.dropWhile (· == '0')).reverse, point)

/-- Decimal digits with the point after `point` of them. -/
def format (digits : List Char) (point : Int) : List Char :=
  let count : Int := digits.length
  if count ≤ point ∧ point ≤ 21 then digits ++ List.replicate (point - count).toNat '0'
  else if 0 < point ∧ point ≤ 21 then digits.take point.toNat ++ '.' :: digits.drop point.toNat
  else if -6 < point ∧ point ≤ 0 then '0' :: '.' :: (List.replicate (-point).toNat '0' ++ digits)
  else
    let e := point - 1
    let tail := 'e' :: (if e < 0 then '-' else '+') :: Nat.toDigits 10 e.natAbs
    match digits with
    | [d] => d :: tail
    | d :: ds => d :: '.' :: (ds ++ tail)
    | [] => tail

/-- The decimal text of an integer. -/
def intChars (n : Int) : List Char :=
  if n < 0 then '-' :: Nat.toDigits 10 n.natAbs else Nat.toDigits 10 n.natAbs

/-- The text of a number. -/
def chars : Number → List Char
  | .nan => "NaN".toList
  | .infinity negative => (if negative then "-Infinity" else "Infinity").toList
  | .negZero => ['0']
  | .int n => intChars n.val
  | .scaled negative m e _ =>
    let (digits, point) := shortest m e
    (if negative then ['-'] else []) ++ format digits point

/-- The text of a number. -/
def text (n : Number) : String :=
  String.ofList n.chars

end Gateway.Number

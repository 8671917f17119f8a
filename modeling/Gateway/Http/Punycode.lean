/-!
# Punycode

The ASCII form of a label with other characters: its ASCII characters, a hyphen, and the places and values of
the others, in ascending order of value, as differences in a variable-length base 36.  `decode?` reads it back.
-/

namespace Gateway.Punycode

/-- The digit of a value below 36: letters first. -/
def digit (d : Nat) : Char :=
  if d < 26 then Char.ofNat (0x61 + d) else Char.ofNat (0x30 + (d - 26))

/-- The least value that a digit at distance `k` does not end a number with. -/
def threshold (k bias : Nat) : Nat :=
  if k ≤ bias then 1 else if bias + 26 ≤ k then 26 else k - bias

/-- The digits of a difference; a number never needs more steps than its value. -/
def digitsOf (bias : Nat) : Nat → Nat → Nat → List Char
  | 0, _, _ => []
  | steps + 1, k, q =>
    let t := threshold k bias
    if q < t then [digit q]
    else digit (t + (q - t) % (36 - t)) :: digitsOf bias steps (k + 36) ((q - t) / (36 - t))

/-- Scales a difference down for the next bias. -/
def scaleDown : Nat → Nat → Nat → Nat
  | 0, k, _ => k
  | steps + 1, k, delta =>
    if delta > 455 then scaleDown steps (k + 36) (delta / 35) else k + 36 * delta / (delta + 38)

/-- The bias after a difference, the first one being damped more. -/
def adapt (delta count : Nat) (isFirst : Bool) : Nat :=
  let delta := if isFirst then delta / 700 else delta / 2
  let delta := delta + delta / count
  scaleDown (delta + 1) 0 delta

/-- How far the writing has come. -/
structure State where
  output : List Char
  delta : Nat
  bias : Nat
  handled : Nat

/-- One character of the label while the value `value` is written. -/
def visit (basic value : Nat) (st : State) (c : Char) : State :=
  if c.toNat < value then { st with delta := st.delta + 1 }
  else if c.toNat = value then
    { output := st.output ++ digitsOf st.bias (st.delta + 1) 36 st.delta
      delta := 0
      bias := adapt st.delta (st.handled + 1) (st.handled == basic)
      handled := st.handled + 1 }
  else st

/-- Writes the values of a list in ascending order, the last value written being below `next`. -/
def writeValues (label : List Char) (basic : Nat) (st : State) (next : Nat) : List Nat → State
  | [] => st
  | value :: rest =>
    let st := { st with delta := st.delta + (value - next) * (st.handled + 1) }
    let st := label.foldl (visit basic value) st
    writeValues label basic { st with delta := st.delta + 1 } (value + 1) rest

/-- The punycode of a label. -/
def encode (label : List Char) : List Char :=
  let basic := label.filter fun c => c.toNat < 0x80
  let values := ((label.filter fun c => 0x80 ≤ c.toNat).map Char.toNat).mergeSort.eraseDups
  let start : State := ⟨[], 0, 72, basic.length⟩
  (if basic.isEmpty then [] else basic ++ ['-']) ++
    (writeValues label basic.length start 0x80 values).output

/-- The value of a digit. -/
def digitValue? (c : Char) : Option Nat :=
  if 'a' ≤ c ∧ c ≤ 'z' then some (c.toNat - 0x61)
  else if '0' ≤ c ∧ c ≤ '9' then some (c.toNat - 0x30 + 26)
  else none

/-- Reads one difference, added to `sum`, and gives back the rest; `weight` is that of the next digit. -/
def readDigits? (bias : Nat) : List Char → Nat → Nat → Nat → Option (Nat × List Char)
  | [], _, _, _ => none
  | c :: rest, k, weight, sum =>
    (digitValue? c).bind fun d =>
      if d < threshold k bias then some (sum + d * weight, rest)
      else readDigits? bias rest (k + 36) (weight * (36 - threshold k bias)) (sum + d * weight)

/-- Puts the characters that some digits name among those of `output`, at most so many of them. -/
def readValues? : Nat → Nat → Nat → Nat → List Char → List Char → Option (List Char)
  | _, _, _, _, output, [] => some output
  | 0, _, _, _, _, _ :: _ => none
  | steps + 1, bias, value, place, output, digits =>
    (readDigits? bias digits 36 1 place).bind fun (sum, rest) =>
      let count := output.length + 1
      let value := value + sum / count
      if Nat.isValidChar value then
        readValues? steps (adapt (sum - place) count (place == 0)) value (sum % count + 1)
          (output.insertIdx (sum % count) (Char.ofNat value)) rest
      else none

/-- The label that a punycode spells. -/
def decode? (cs : List Char) : Option (List Char) :=
  let digits := (cs.reverse.takeWhile (· != '-')).reverse
  let basic := cs.take (cs.length - digits.length - 1)
  readValues? digits.length 72 0x80 0 basic digits

/-- A label as it goes into a host name. -/
def label (cs : List Char) : List Char :=
  if cs.all fun c => c.toNat < 0x80 then cs else "xn--".toList ++ encode cs

end Gateway.Punycode

import Gateway.Number.Basic
import Gateway.Text.Blank
import Gateway.Text.Percent

/-!
# Reading numbers

`Number.ofText` reads the wide grammar: blanks around the text, a blank text for zero, a sign, a fraction
without digits on one side of the point, an exponent, `Infinity`, and hexadecimal, octal and binary
integers without a sign.  `readInteger?` reads integers of any size by the same grammar without point
and exponent.
-/

namespace Gateway.Number

/-- The value of a decimal digit. -/
def digitValue (c : Char) : Nat :=
  c.toNat - 0x30

/-- The value of a run of decimal digits. -/
def digitsValue (cs : List Char) : Nat :=
  cs.foldl (fun n c => n * 10 + digitValue c) 0

/-- The value of a non-empty run of digits in base `base`. -/
def radixValue? (base : Nat) (cs : List Char) : Option Nat :=
  if cs.isEmpty then none
  else
    cs.foldl
      (fun acc c =>
        acc.bind fun n =>
          (Text.Percent.hexValue? c).bind fun d => if d < base then some (n * base + d) else none)
      (some 0)

/-- The optional sign of a text, and the rest. -/
def splitSign : List Char → Bool × List Char
  | '-' :: rest => (true, rest)
  | '+' :: rest => (false, rest)
  | cs => (false, cs)

/-- An exponent: `e` or `E`, an optional sign and digits up to the end; nothing at all is zero. -/
def exponentValue? : List Char → Option Int
  | [] => some 0
  | c :: rest =>
    if c = 'e' ∨ c = 'E' then
      let (negative, digits) := splitSign rest
      if digits.isEmpty || !digits.all Char.isDigit then none
      else some (if negative then -(digitsValue digits : Int) else digitsValue digits)
    else none

/-- An unsigned decimal: digits on at least one side of the point, and an optional exponent. -/
def unsigned? (negative : Bool) (cs : List Char) : Option Number :=
  let whole := cs.takeWhile Char.isDigit
  let rest := cs.dropWhile Char.isDigit
  let (fraction, rest) :=
    match rest with
    | '.' :: more => (more.takeWhile Char.isDigit, more.dropWhile Char.isDigit)
    | _ => ([], rest)
  if whole.isEmpty && fraction.isEmpty then none
  else
    (exponentValue? rest).map fun e =>
      ofDecimal negative (digitsValue (whole ++ fraction)) (e - fraction.length)

/-- The base that a marker after a leading zero chooses. -/
def radix? (c : Char) : Option Nat :=
  if c = 'x' ∨ c = 'X' then some 16
  else if c = 'o' ∨ c = 'O' then some 8
  else if c = 'b' ∨ c = 'B' then some 2
  else none

/-- The digits and the base of an integer written with a base marker. -/
def splitRadix? : List Char → Option (Nat × List Char)
  | '0' :: c :: rest => (radix? c).map fun base => (base, rest)
  | _ => none

/-- The number that a trimmed text spells. -/
def ofTrimmed (cs : List Char) : Number :=
  if cs.isEmpty then .int 0
  else
    match splitRadix? cs with
    | some (base, digits) =>
      match radixValue? base digits with
      | some n => ofInt n
      | none => .nan
    | none =>
      let (negative, rest) := splitSign cs
      if rest = "Infinity".toList then .infinity negative
      else (unsigned? negative rest).getD .nan

/-- The number that a text spells, `nan` if it spells none. -/
def ofText (s : String) : Number :=
  ofTrimmed (Text.trimChars s.toList)

/-- The integer that a text spells. -/
def readInteger? (s : String) : Option Int :=
  let cs := Text.trimChars s.toList
  if cs.isEmpty then some 0
  else
    match splitRadix? cs with
    | some (base, digits) => (radixValue? base digits).map fun n => (n : Int)
    | none =>
      let (negative, digits) := splitSign cs
      if digits.isEmpty || !digits.all Char.isDigit then none
      else some (if negative then -(digitsValue digits : Int) else digitsValue digits)

end Gateway.Number

import Gateway.Number.Reader
import Gateway.Text.Units
import Gateway.Value.Basic

/-!
# Reading JSON

A strict reader of JSON texts: only space, tab, LF and CR are blanks, and nothing may follow the value.
A key written twice keeps its first place and its last value; a surrogate escape without its partner
reads as U+FFFD.  The readers for nested values carry a bound on the number of steps, which `read?` takes
from the length of the text: every step takes at least one character.
-/

namespace Gateway.Json

/-- Whether a character is a blank of the format. -/
def isSpace (c : Char) : Bool :=
  c == ' ' || c == '\t' || c == '\n' || c == '\r'

/-- A text without its leading blanks. -/
def skipSpace (cs : List Char) : List Char :=
  cs.dropWhile isSpace

/-- The value of four hexadecimal digits. -/
def hex4? (a b c d : Char) : Option Nat := do
  let a ← Text.Percent.hexValue? a
  let b ← Text.Percent.hexValue? b
  let c ← Text.Percent.hexValue? c
  let d ← Text.Percent.hexValue? d
  some (((a * 16 + b) * 16 + c) * 16 + d)

/-- The character of a short escape. -/
def shortEscape? (c : Char) : Option Char :=
  if c = '"' ∨ c = '\\' ∨ c = '/' then some c
  else if c = 'b' then some (Char.ofNat 8)
  else if c = 'f' then some (Char.ofNat 12)
  else if c = 'n' then some '\n'
  else if c = 'r' then some '\r'
  else if c = 't' then some '\t'
  else none

/-- The rest of a string after its opening quote, as UTF-16 escapes and characters: `pending` is a high
surrogate whose partner may follow, `done` the characters read so far, last one first. -/
def readString (pending : Option Nat) (done : List Char) : List Char → Option (List Char × List Char)
  | [] => none
  | '"' :: rest => some ((flush pending done).reverse, rest)
  | '\\' :: 'u' :: a :: b :: c :: d :: rest =>
    match hex4? a b c d with
    | none => none
    | some n =>
      if 0xDC00 ≤ n ∧ n < 0xE000 then
        match pending with
        | some high =>
          readString none (Char.ofNat (0x10000 + (high - 0xD800) * 0x400 + (n - 0xDC00)) :: done) rest
        | none => readString none (Text.replacement :: done) rest
      else if 0xD800 ≤ n ∧ n < 0xDC00 then readString (some n) (flush pending done) rest
      else readString none (Char.ofNat n :: flush pending done) rest
  | '\\' :: c :: rest =>
    match shortEscape? c with
    | some e => readString none (e :: flush pending done) rest
    | none => none
  | c :: rest =>
    if c.toNat < 0x20 ∨ c = '\\' then none
    else readString none (c :: flush pending done) rest
where
  /-- A high surrogate that found no partner. -/
  flush (pending : Option Nat) (done : List Char) : List Char :=
    match pending with
    | some _ => Text.replacement :: done
    | none => done

/-- The digits at the start of a text, at least one, and the rest. -/
def digits? (cs : List Char) : Option (List Char × List Char) :=
  let ds := cs.takeWhile Char.isDigit
  if ds.isEmpty then none else some (ds, cs.dropWhile Char.isDigit)

/-- The whole part of a number: no leading zero. -/
def wholePart? : List Char → Option (List Char × List Char)
  | '0' :: rest => some (['0'], rest)
  | cs => digits? cs

/-- The fraction of a number, empty if there is none. -/
def fractionPart? : List Char → Option (List Char × List Char)
  | '.' :: rest => digits? rest
  | cs => some ([], cs)

/-- The exponent of a number, zero if there is none. -/
def exponentPart? : List Char → Option (Int × List Char)
  | c :: rest =>
    if c = 'e' ∨ c = 'E' then
      let (negative, rest) := Number.splitSign rest
      (digits? rest).map fun (ds, rest) =>
        (if negative then -(Number.digitsValue ds : Int) else Number.digitsValue ds, rest)
    else some (0, c :: rest)
  | [] => some (0, [])

/-- A number at the start of a text. -/
def readUnsigned? (negative : Bool) (cs : List Char) : Option (Number × List Char) := do
  let (whole, rest) ← wholePart? cs
  let (fraction, rest) ← fractionPart? rest
  let (exponent, rest) ← exponentPart? rest
  some (Number.ofDecimal negative (Number.digitsValue (whole ++ fraction))
    (exponent - fraction.length), rest)

/-- A number with its optional minus sign. -/
def readNumber? : List Char → Option (Number × List Char)
  | '-' :: rest => readUnsigned? true rest
  | cs => readUnsigned? false cs

/-- The rest of a text after a fixed word. -/
def word? (word : List Char) (cs : List Char) : Option (List Char) :=
  if word.isPrefixOf cs then some (cs.drop word.length) else none

mutual

/-- A value at the start of a text, and the rest. -/
def readValue : Nat → List Char → Option (Value × List Char)
  | 0, _ => none
  | steps + 1, cs =>
    match skipSpace cs with
    | [] => none
    | '"' :: rest => (readString none [] rest).map fun (s, rest) => (.string (String.ofList s), rest)
    | '[' :: rest =>
      match skipSpace rest with
      | ']' :: rest => some (.array [], rest)
      | _ => readItems steps [] rest
    | '{' :: rest =>
      match skipSpace rest with
      | '}' :: rest => some (.object [], rest)
      | _ => readMembers steps [] rest
    | 'n' :: rest => (word? "ull".toList rest).map fun rest => (.null, rest)
    | 't' :: rest => (word? "rue".toList rest).map fun rest => (.bool true, rest)
    | 'f' :: rest => (word? "alse".toList rest).map fun rest => (.bool false, rest)
    | cs => (readNumber? cs).map fun (n, rest) => (.number n, rest)

/-- The items of a list from the next one on; `done` holds those before, last one first. -/
def readItems : Nat → List Value → List Char → Option (Value × List Char)
  | 0, _, _ => none
  | steps + 1, done, cs =>
    match readValue steps cs with
    | none => none
    | some (v, rest) =>
      match skipSpace rest with
      | ',' :: rest => readItems steps (v :: done) rest
      | ']' :: rest => some (.array (v :: done).reverse, rest)
      | _ => none

/-- The members of an object from the next one on; `done` holds those before, last one first. -/
def readMembers : Nat → List (String × Value) → List Char → Option (Value × List Char)
  | 0, _, _ => none
  | steps + 1, done, cs =>
    match skipSpace cs with
    | '"' :: rest =>
      match readString none [] rest with
      | none => none
      | some (key, rest) =>
        match skipSpace rest with
        | ':' :: rest =>
          match readValue steps rest with
          | none => none
          | some (v, rest) =>
            match skipSpace rest with
            | ',' :: rest => readMembers steps ((String.ofList key, v) :: done) rest
            | '}' :: rest =>
              some (.object (Entries.ofPairs ((String.ofList key, v) :: done).reverse), rest)
            | _ => none
        | _ => none
    | _ => none

end

/-- The value of a list of characters that is one JSON text. -/
def readChars? (cs : List Char) : Option Value :=
  match readValue (cs.length + 1) cs with
  | some (v, rest) => if (skipSpace rest).isEmpty then some v else none
  | none => none

/-- The value of a JSON text. -/
def read? (s : String) : Option Value :=
  readChars? s.toList

end Gateway.Json

/-!
# Text measured in UTF-16 units

Lengths, cuts and comparisons of text count UTF-16 units: a character above U+FFFF is two units, a
surrogate pair.  `ofUnits` reads units back; a surrogate without its partner reads as U+FFFD, so
`ofUnits (units s) = s`, while the converse needs every surrogate to be paired.
-/

namespace Gateway.Text

/-- The UTF-16 units of one character. -/
def unitsOfChar (c : Char) : List UInt16 :=
  if c.toNat < 0x10000 then
    [UInt16.ofNat c.toNat]
  else
    [UInt16.ofNat (0xD800 + (c.toNat - 0x10000) / 0x400),
      UInt16.ofNat (0xDC00 + (c.toNat - 0x10000) % 0x400)]

/-- The UTF-16 units of a text, in order. -/
def units (s : String) : List UInt16 :=
  s.toList.flatMap unitsOfChar

/-- A unit that opens a surrogate pair. -/
def isHighSurrogate (u : UInt16) : Bool :=
  0xD800 ≤ u.toNat && u.toNat < 0xDC00

/-- A unit that closes a surrogate pair. -/
def isLowSurrogate (u : UInt16) : Bool :=
  0xDC00 ≤ u.toNat && u.toNat < 0xE000

/-- What stands for a surrogate without its partner and for bytes that are no UTF-8. -/
def replacement : Char :=
  Char.ofNat 0xFFFD

/-- The character of a surrogate pair. -/
def charOfPair (high low : UInt16) : Char :=
  Char.ofNat (0x10000 + (high.toNat - 0xD800) * 0x400 + (low.toNat - 0xDC00))

/-- The characters that a list of units spells. -/
def charsOfUnits : List UInt16 → List Char
  | [] => []
  | [u] =>
    if isHighSurrogate u || isLowSurrogate u then [replacement] else [Char.ofNat u.toNat]
  | u :: v :: rest =>
    if isHighSurrogate u then
      if isLowSurrogate v then charOfPair u v :: charsOfUnits rest
      else replacement :: charsOfUnits (v :: rest)
    else if isLowSurrogate u then replacement :: charsOfUnits (v :: rest)
    else Char.ofNat u.toNat :: charsOfUnits (v :: rest)

/-- The text that a list of units spells. -/
def ofUnits (us : List UInt16) : String :=
  String.ofList (charsOfUnits us)

/-- The length of a text in UTF-16 units. -/
def unitLength (s : String) : Nat :=
  (units s).length

/-- Whether the first text comes before the second, unit by unit. -/
def unitsBefore (a b : String) : Bool :=
  decide (units a < units b)

end Gateway.Text

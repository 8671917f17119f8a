import Gateway.Http.Punycode
import Gateway.Text.Case
import Gateway.Text.Percent
import Gateway.Text.Split

/-!
# Host names of URLs

A host is an IPv6 address in brackets, an IPv4 address in any of its number forms, or a domain name.  Addresses
are brought to one form; names are percent-decoded, put into lower case, and a label with characters outside
ASCII becomes punycode.  Of the characters that stand for others only a few are known.
-/

namespace Gateway.Host

-- Powers are the built-in ones, whatever other instances are in scope.
attribute [local instance (high)] instPowNat

/-- A character that no domain name holds. -/
def isForbidden (c : Char) : Bool :=
  c.toNat ≤ 0x20 || c.toNat == 0x7F || "#%/:<>?@[\\]^|".toList.contains c

/-- A character of a domain name in its common form; the empty list drops it. -/
def mapChar (c : Char) : List Char :=
  let n := c.toNat
  if n = 0xA0 then [' ']
  else if n = 0xAD ∨ n = 0x200B ∨ n = 0x2060 ∨ n = 0xFEFF then []
  else if n = 0x3002 ∨ n = 0xFF0E ∨ n = 0xFF61 then ['.']
  else if 0xFF01 ≤ n ∧ n ≤ 0xFF5E then Text.lowerChar (Char.ofNat (n - 0xFEE0))
  else Text.lowerChar c

/-- Whether a character outside ASCII may stand in a label as it is: it is no control, none that another one
stands for, and not assigned to private use.  Beyond Latin-1 only capital Greek and Cyrillic letters, punctuation
and wide forms are told apart. -/
def isSettled (c : Char) : Bool :=
  let n := c.toNat
  if n < 0xA0 then false
  else if n < 0xC0 then
    !([0xA0, 0xA8, 0xAA, 0xAD, 0xAF, 0xB2, 0xB3, 0xB4, 0xB5, 0xB8, 0xB9, 0xBA, 0xBC, 0xBD, 0xBE].contains n)
  else if n < 0xDF then n == 0xD7
  else
    !((0x391 ≤ n && n ≤ 0x3A9) || (0x400 ≤ n && n ≤ 0x42F) || (0x2000 ≤ n && n ≤ 0x206F) ||
      (0xE000 ≤ n && n ≤ 0xF8FF) || (0xFDD0 ≤ n && n ≤ 0xFDEF) || (0xFF01 ≤ n && n ≤ 0xFF5E) ||
      n % 0x10000 ≥ 0xFFFE)

/-- Whether a character joins the one before it. -/
def isCombining (c : Char) : Bool :=
  0x300 ≤ c.toNat && c.toNat ≤ 0x36F

/-- The mark of a label in punycode. -/
def punycodeMark : List Char := "xn--".toList

/-- Whether a punycode spells a label that has to be written so. -/
def spellsLabel (cs : List Char) : Bool :=
  match Punycode.decode? cs with
  | none => false
  | some label =>
    label.any (fun c => 0x80 ≤ c.toNat) && label.all (fun c => c.toNat < 0x80 || isSettled c) &&
      !label.head?.any isCombining && Punycode.encode label == cs

/-- A label of a domain name in its common form. -/
def asciiLabel? (label : List Char) : Option (List Char) :=
  if punycodeMark.isPrefixOf label then
    if spellsLabel (label.drop punycodeMark.length) then some label else none
  else some (Punycode.label label)

/-- A domain name in its common form. -/
def asciiDomain? (cs : List Char) : Option (List Char) := do
  let mapped := cs.flatMap mapChar
  let labels ← (Text.splitWhere (· == '.') mapped).mapM asciiLabel?
  let ascii := ['.'].intercalate labels
  if ascii.isEmpty || mapped.contains Text.replacement || ascii.any isForbidden then none
  some ascii

/-- The value of a non-empty run of digits in a base. -/
def numberIn? (base : Nat) (cs : List Char) : Option Nat :=
  cs.foldl
    (fun acc c =>
      acc.bind fun n =>
        (Text.Percent.hexValue? c).bind fun d => if d < base then some (n * base + d) else none)
    (some 0)

/-- A part of an IPv4 address: hexadecimal after `0x`, octal after `0`, else decimal. -/
def ipv4Number? : List Char → Option Nat
  | [] => none
  | '0' :: 'x' :: rest | '0' :: 'X' :: rest => numberIn? 16 rest
  | '0' :: c :: rest => numberIn? 8 (c :: rest)
  | cs => numberIn? 10 cs

/-- The parts of a name between dots, without one trailing empty part. -/
def dotParts (cs : List Char) : List (List Char) :=
  let parts := Text.splitWhere (· == '.') cs
  if 1 < parts.length ∧ parts.getLast? = some [] then parts.dropLast else parts

/-- Whether the last part of a name is a number, so that the name has to be an IPv4 address. -/
def endsInNumber (cs : List Char) : Bool :=
  match (dotParts cs).getLast? with
  | some last => (!last.isEmpty && last.all Char.isDigit) || (ipv4Number? last).isSome
  | none => false

/-- The address of the numbers of an IPv4 name: the last one fills all bytes that are left. -/
def ipv4Address? (numbers : List Nat) : Option Nat :=
  match numbers.reverse with
  | [] => none
  | last :: front =>
    if 4 < numbers.length ∨ front.any (255 < ·) ∨ last ≥ 256 ^ (5 - numbers.length) then none
    else
      let bytes := (List.range front.length).zip front.reverse
      some (bytes.foldl (fun n (i, b) => n + b * 256 ^ (3 - i)) last)

/-- A number in decimal digits. -/
def decimal (n : Nat) : List Char :=
  Nat.toDigits 10 n

/-- The IPv4 address that a name spells, in its common form. -/
def ipv4? (cs : List Char) : Option (List Char) := do
  let numbers ← (dotParts cs).mapM ipv4Number?
  let n ← ipv4Address? numbers
  some (['.'].intercalate
    [decimal (n / 0x1000000), decimal (n / 0x10000 % 0x100), decimal (n / 0x100 % 0x100),
      decimal (n % 0x100)])

/-- A piece of an IPv6 address: one to four hexadecimal digits. -/
def ipv6Piece? (cs : List Char) : Option Nat :=
  if cs.isEmpty ∨ 4 < cs.length then none else numberIn? 16 cs

/-- A byte of a dotted address inside an IPv6 address: no leading zero. -/
def dottedByte? (cs : List Char) : Option Nat :=
  if cs.isEmpty ∨ (1 < cs.length ∧ cs.head? = some '0') ∨ !cs.all Char.isDigit then none
  else (numberIn? 10 cs).bind fun n => if n ≤ 255 then some n else none

/-- The two pieces of a dotted address at the end of an IPv6 address. -/
def dottedPieces? (cs : List Char) : Option (List Nat) := do
  let bytes ← (Text.splitWhere (· == '.') cs).mapM dottedByte?
  match bytes with
  | [a, b, c, d] => some [a * 256 + b, c * 256 + d]
  | _ => none

/-- The pieces between colons; only the last text of an address may be dotted. -/
def pieces? (mayEndDotted : Bool) : List (List Char) → Option (List Nat)
  | [] => some []
  | [part] =>
    if mayEndDotted && part.contains '.' then dottedPieces? part else (ipv6Piece? part).map ([·])
  | part :: rest => do
    let piece ← ipv6Piece? part
    let others ← pieces? mayEndDotted rest
    some (piece :: others)

/-- The pieces of one side of a gap; an empty side has none. -/
def side? (mayEndDotted : Bool) (cs : List Char) : Option (List Nat) :=
  if cs.isEmpty then some [] else pieces? mayEndDotted (Text.splitWhere (· == ':') cs)

/-- What stands before and after the first double colon. -/
def splitGap : List Char → List Char × Option (List Char)
  | ':' :: ':' :: rest => ([], some rest)
  | c :: rest =>
    let (before, after) := splitGap rest
    (c :: before, after)
  | [] => ([], none)

/-- The eight pieces of an IPv6 address. -/
def ipv6Pieces? (cs : List Char) : Option (List Nat) :=
  match splitGap cs with
  | (all, none) =>
    (side? true all).bind fun pieces => if pieces.length = 8 then some pieces else none
  | (before, some after) => do
    let front ← side? false before
    let back ← side? true after
    if front.length + back.length > 7 then none
    some (front ++ List.replicate (8 - front.length - back.length) 0 ++ back)

/-- The lengths of the runs of zeros that start at each piece. -/
def zeroRuns (pieces : List Nat) : List Nat :=
  (List.range pieces.length).map fun i => ((pieces.drop i).takeWhile (· == 0)).length

/-- The first longest run of at least two zeros: its place and length. -/
def longestZeros (pieces : List Nat) : Option (Nat × Nat) :=
  let runs := zeroRuns pieces
  let longest := runs.foldl max 0
  if longest < 2 then none else some (runs.idxOf longest, longest)

/-- A number in lower-case hexadecimal digits. -/
def hexadecimal (n : Nat) : List Char :=
  Nat.toDigits 16 n

/-- The common form of an IPv6 address: the longest run of zeros is a double colon. -/
def ipv6Text (pieces : List Nat) : List Char :=
  let text (ps : List Nat) := [':'].intercalate (ps.map hexadecimal)
  match longestZeros pieces with
  | none => text pieces
  | some (place, length) => text (pieces.take place) ++ "::".toList ++ text (pieces.drop (place + length))

/-- The common form of an IPv6 address in brackets, from what follows the opening one. -/
def bracketed? (rest : List Char) : Option (List Char) :=
  if rest.getLast? = some ']' then
    (ipv6Pieces? rest.dropLast).map fun pieces => '[' :: (ipv6Text pieces ++ [']'])
  else none

/-- The common form of a host as it stands in a URL of the web. -/
def normalize? (cs : List Char) : Option (List Char) :=
  match cs with
  | '[' :: rest => bracketed? rest
  | _ =>
    let decoded := Text.Utf8.decodeLossyFrom .start [] (Text.Percent.lenientBytes cs)
    (asciiDomain? decoded).bind fun name => if endsInNumber name then ipv4? name else some name

/-- A character that no host holds, whatever the scheme. -/
def isForbiddenAnywhere (c : Char) : Bool :=
  "\x00\t\n\r #/:<>?@[\\]^|".toList.contains c

/-- A host of another scheme, which is kept but for controls and what is not ASCII. -/
def keep? (cs : List Char) : Option (List Char) :=
  match cs with
  | '[' :: rest => bracketed? rest
  | _ =>
    if cs.any isForbiddenAnywhere then none
    else some (Text.Percent.encodeWhere (fun c => 0x20 ≤ c.toNat && c.toNat ≤ 0x7E) cs)

end Gateway.Host

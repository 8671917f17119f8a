import Gateway.Text.Utf8

/-!
# Percent-encoding

`encodeComponent` writes every byte outside the unreserved set as `%XX`.  `decodeUnits?` reads such text
back, unit by unit, and refuses a broken escape and escapes that spell no UTF-8; `decodeLenient` leaves
broken escapes as they stand and replaces what is no UTF-8.
-/

namespace Gateway.Text.Percent

/-- The value of a hexadecimal digit. -/
def hexValue? (c : Char) : Option Nat :=
  if '0' ≤ c ∧ c ≤ '9' then some (c.toNat - 0x30)
  else if 'A' ≤ c ∧ c ≤ 'F' then some (c.toNat - 0x41 + 10)
  else if 'a' ≤ c ∧ c ≤ 'f' then some (c.toNat - 0x61 + 10)
  else none

/-- The upper-case hexadecimal digit of a value below 16. -/
def hexDigit (n : Nat) : Char :=
  if n < 10 then Char.ofNat (0x30 + n) else Char.ofNat (0x41 + (n - 10))

/-- The escape of a byte. -/
def escapeByte (b : UInt8) : List Char :=
  ['%', hexDigit (b.toNat / 16), hexDigit (b.toNat % 16)]

/-- The characters that a component keeps: letters, digits and `- _ . ! ~ * ' ( )`. -/
def isUnreserved (c : Char) : Bool :=
  ('a' ≤ c && c ≤ 'z') || ('A' ≤ c && c ≤ 'Z') || ('0' ≤ c && c ≤ '9') ||
    "-_.!~*'()".toList.contains c

/-- The escapes of the UTF-8 bytes of every character outside `keep`. -/
def encodeWhere (keep : Char → Bool) (cs : List Char) : List Char :=
  cs.flatMap fun c => if keep c then [c] else (Utf8.encodeChar c).flatMap escapeByte

/-- A text as a component of a URL. -/
def encodeComponent (s : String) : String :=
  String.ofList (encodeWhere isUnreserved s.toList)

/-- The value of a unit that is a hexadecimal digit. -/
def hexUnit? (u : UInt16) : Option Nat :=
  hexValue? (Char.ofNat u.toNat)

/-- The units of a component whose every `%` opens an escape.  The machine reads the bytes of the escapes, and
other units stand between two characters only; `done` holds the units read so far, last first. -/
def unitsFrom? (st : Utf8.State) (done : List UInt16) : List UInt16 → Option (List UInt16)
  | [] => if st.needed = 0 then some done.reverse else none
  | 0x25 :: a :: b :: rest =>
    match hexUnit? a, hexUnit? b with
    | some x, some y =>
      match Utf8.step st (UInt8.ofNat (x * 16 + y)) with
      | some (st', none) => unitsFrom? st' done rest
      | some (st', some c) => unitsFrom? st' ((unitsOfChar c).reverse ++ done) rest
      | none => none
    | _, _ => none
  | u :: rest => if u ≠ 0x25 ∧ st.needed = 0 then unitsFrom? st (u :: done) rest else none

/-- The units of a component; refused if an escape is broken or escapes spell no UTF-8. -/
def decodeUnits? (us : List UInt16) : Option (List UInt16) :=
  unitsFrom? .start [] us

/-- The units of a component, or the component itself if it is refused. -/
def decodeOrKeep (us : List UInt16) : List UInt16 :=
  (decodeUnits? us).getD us

/-- The bytes of a text, with every `%` that opens no escape kept. -/
def lenientBytesFrom (done : List UInt8) : List Char → List UInt8
  | [] => done.reverse
  | c :: a :: b :: rest =>
    if c = '%' then
      match hexValue? a, hexValue? b with
      | some x, some y => lenientBytesFrom (UInt8.ofNat (x * 16 + y) :: done) rest
      | _, _ => lenientBytesFrom (0x25 :: done) (a :: b :: rest)
    else lenientBytesFrom ((Utf8.encodeChar c).reverse ++ done) (a :: b :: rest)
  | c :: rest => lenientBytesFrom ((Utf8.encodeChar c).reverse ++ done) rest

/-- The bytes of a text, broken escapes kept. -/
def lenientBytes (cs : List Char) : List UInt8 :=
  lenientBytesFrom [] cs

/-- The text of a component, broken escapes kept and bytes that are no UTF-8 replaced. -/
def decodeLenient (s : String) : String :=
  Utf8.decodeLossy (lenientBytes s.toList)

end Gateway.Text.Percent

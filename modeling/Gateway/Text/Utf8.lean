import Gateway.Text.Units

/-!
# UTF-8

Writing is `encode`.  Reading is a machine that takes one byte at a time: `step` refuses a byte that no
UTF-8 text has at that place, overlong forms, surrogates and values above U+10FFFF included.  `decodeLossy`
writes one U+FFFD for each longest refused start of a character and goes on with the byte that broke it.
-/

namespace Gateway.Text.Utf8

/-- The UTF-8 bytes of one character. -/
def encodeChar (c : Char) : List UInt8 :=
  let n := c.toNat
  if n < 0x80 then [UInt8.ofNat n]
  else if n < 0x800 then [UInt8.ofNat (0xC0 + n / 0x40), UInt8.ofNat (0x80 + n % 0x40)]
  else if n < 0x10000 then
    [UInt8.ofNat (0xE0 + n / 0x1000), UInt8.ofNat (0x80 + n / 0x40 % 0x40),
      UInt8.ofNat (0x80 + n % 0x40)]
  else
    [UInt8.ofNat (0xF0 + n / 0x40000), UInt8.ofNat (0x80 + n / 0x1000 % 0x40),
      UInt8.ofNat (0x80 + n / 0x40 % 0x40), UInt8.ofNat (0x80 + n % 0x40)]

/-- The UTF-8 bytes of a text. -/
def encode (s : String) : List UInt8 :=
  s.toList.flatMap encodeChar

/-- Where the machine stands: how many bytes the current character still needs, between which bounds
the next one lies, and the bits read so far. -/
structure State where
  needed : Nat := 0
  low : Nat := 0x80
  high : Nat := 0xBF
  bits : Nat := 0
  deriving DecidableEq, Repr

/-- The machine between two characters. -/
def State.start : State := {}

/-- The first byte of a character. -/
def stepFirst (b : Nat) : Option (State × Option Char) :=
  if b < 0x80 then some (.start, some (Char.ofNat b))
  else if 0xC2 ≤ b ∧ b ≤ 0xDF then some (⟨1, 0x80, 0xBF, b - 0xC0⟩, none)
  else if b = 0xE0 then some (⟨2, 0xA0, 0xBF, 0⟩, none)
  else if b = 0xED then some (⟨2, 0x80, 0x9F, 0xD⟩, none)
  else if 0xE1 ≤ b ∧ b ≤ 0xEF then some (⟨2, 0x80, 0xBF, b - 0xE0⟩, none)
  else if b = 0xF0 then some (⟨3, 0x90, 0xBF, 0⟩, none)
  else if b = 0xF4 then some (⟨3, 0x80, 0x8F, 4⟩, none)
  else if 0xF1 ≤ b ∧ b ≤ 0xF3 then some (⟨3, 0x80, 0xBF, b - 0xF0⟩, none)
  else none

/-- A later byte of a character. -/
def stepNext (st : State) (b : Nat) : Option (State × Option Char) :=
  if st.low ≤ b ∧ b ≤ st.high then
    let bits := st.bits * 0x40 + (b - 0x80)
    if st.needed = 1 then some (.start, some (Char.ofNat bits))
    else some (⟨st.needed - 1, 0x80, 0xBF, bits⟩, none)
  else none

/-- One byte: the next state and the character it completes, or a refusal. -/
def step (st : State) (b : UInt8) : Option (State × Option Char) :=
  if st.needed = 0 then stepFirst b.toNat else stepNext st b.toNat

/-- The machine's run; `done` holds the characters read so far, last one first.  A refused byte closes the broken
character with U+FFFD and is read again as a first byte. -/
def decodeLossyFrom (st : State) (done : List Char) : List UInt8 → List Char
  | [] => (if st.needed = 0 then done else replacement :: done).reverse
  | b :: bs =>
    match step st b with
    | some (st', none) => decodeLossyFrom st' done bs
    | some (st', some c) => decodeLossyFrom st' (c :: done) bs
    | none =>
      if st.needed = 0 then decodeLossyFrom .start (replacement :: done) bs
      else
        match stepFirst b.toNat with
        | some (st', none) => decodeLossyFrom st' (replacement :: done) bs
        | some (st', some c) => decodeLossyFrom st' (c :: replacement :: done) bs
        | none => decodeLossyFrom .start (replacement :: replacement :: done) bs

/-- The text of a list of bytes, with U+FFFD where they are no UTF-8. -/
def decodeLossy (bs : List UInt8) : String :=
  String.ofList (decodeLossyFrom .start [] bs)

/-- The text of a list of bytes as a document: one leading byte order mark is dropped. -/
def decodeDocument : List UInt8 → String
  | 0xEF :: 0xBB :: 0xBF :: bs => decodeLossy bs
  | bs => decodeLossy bs

end Gateway.Text.Utf8

import Gateway.Text.Utf8
import Mathlib.Tactic.NormNum

/-!
# Texts and their UTF-8 bytes

The machine that reads UTF-8 gets to the end of a character on its bytes and on no others (`completes_encodeChar`,
`eq_encodeChar_of_completes`), so its run reads a text back from its bytes (`decodeLossy_encode`).  The bytes are the
ones that a string is stored in (`encode_eq_toUTF8`).
-/

namespace Gateway.Text.Utf8

/-- The bytes that take the machine from a state to the end of a character. -/
inductive Completes : State → List UInt8 → Char → Prop
  | last {st : State} {b : UInt8} {c : Char} (h : step st b = some (.start, some c)) : Completes st [b] c
  | next {st st' : State} {b : UInt8} {bs : List UInt8} {c : Char} (h : step st b = some (st', none))
      (hrest : Completes st' bs c) : Completes st (b :: bs) c

/-! ## One byte -/

theorem step_first {b : Nat} (hb : b < 256) : step .start (UInt8.ofNat b) = stepFirst b := by
  have hbyte : (UInt8.ofNat b).toNat = b := UInt8.toNat_ofNat_of_lt' hb
  simp [step, State.start, hbyte]

theorem step_next {st : State} {b : Nat} (hst : st.needed ≠ 0) (hb : b < 256) :
    step st (UInt8.ofNat b) = stepNext st b := by
  have hbyte : (UInt8.ofNat b).toNat = b := UInt8.toNat_ofNat_of_lt' hb
  simp [step, hst, hbyte]

/-- The last byte of a character completes its bits. -/
theorem step_last {low high n : Nat} (hlow : low ≤ 0x80 + n % 0x40) (hhigh : 0x80 + n % 0x40 ≤ high) :
    step ⟨1, low, high, n / 0x40⟩ (UInt8.ofNat (0x80 + n % 0x40)) = some (.start, some (Char.ofNat n)) := by
  rw [step_next (by norm_num) (by omega), stepNext, if_pos ⟨hlow, hhigh⟩]
  simp [Nat.div_add_mod']

/-- A byte in the middle of a character adds six bits. -/
theorem step_middle {k low high n : Nat} (hlow : low ≤ 0x80 + n % 0x40) (hhigh : 0x80 + n % 0x40 ≤ high) :
    step ⟨k + 2, low, high, n / 0x40⟩ (UInt8.ofNat (0x80 + n % 0x40)) =
      some (⟨k + 1, 0x80, 0xBF, n⟩, none) := by
  rw [step_next (by simp) (by omega), stepNext, if_pos ⟨hlow, hhigh⟩]
  simp [Nat.div_add_mod']

/-! ## One character -/

theorem completes_two {n : Nat} (hlow : 0x80 ≤ n) (hhigh : n < 0x800) :
    Completes .start [UInt8.ofNat (0xC0 + n / 0x40), UInt8.ofNat (0x80 + n % 0x40)] (Char.ofNat n) := by
  have hfirst : stepFirst (0xC0 + n / 0x40) = some (⟨1, 0x80, 0xBF, n / 0x40⟩, none) := by
    rw [stepFirst, if_neg (by omega), if_pos (by omega), Nat.add_sub_cancel_left]
  refine .next ((step_first (by omega)).trans hfirst) (.last (step_last ?_ ?_))
  · omega
  · omega

/-- The bounds of the second of three bytes keep out overlong forms and surrogates. -/
theorem stepFirst_three {n : Nat} (hlow : 0x800 ≤ n) (hhigh : n < 0x10000) (hvalid : n < 0xD800 ∨ 0xDFFF < n) :
    ∃ low high, stepFirst (0xE0 + n / 0x1000) = some (⟨2, low, high, n / 0x40 / 0x40⟩, none) ∧
      low ≤ 0x80 + n / 0x40 % 0x40 ∧ 0x80 + n / 0x40 % 0x40 ≤ high := by
  have hbits : n / 0x40 / 0x40 = n / 0x1000 := Nat.div_div_eq_div_mul n 0x40 0x40
  rw [hbits, stepFirst, if_neg (by omega), if_neg (by omega)]
  by_cases hleast : n / 0x1000 = 0
  · refine ⟨0xA0, 0xBF, ?_, by omega, by omega⟩
    rw [if_pos (by omega), hleast]
  · by_cases hsurrogate : n / 0x1000 = 0xD
    · refine ⟨0x80, 0x9F, ?_, by omega, by omega⟩
      rw [if_neg (by omega), if_pos (by omega), hsurrogate]
    · refine ⟨0x80, 0xBF, ?_, by omega, by omega⟩
      rw [if_neg (by omega), if_neg (by omega), if_pos (by omega), Nat.add_sub_cancel_left]

/-- The bounds of the second of four bytes keep out overlong forms and values above U+10FFFF. -/
theorem stepFirst_four {n : Nat} (hlow : 0x10000 ≤ n) (hhigh : n < 0x110000) :
    ∃ low high, stepFirst (0xF0 + n / 0x40000) = some (⟨3, low, high, n / 0x1000 / 0x40⟩, none) ∧
      low ≤ 0x80 + n / 0x1000 % 0x40 ∧ 0x80 + n / 0x1000 % 0x40 ≤ high := by
  have hbits : n / 0x1000 / 0x40 = n / 0x40000 := Nat.div_div_eq_div_mul n 0x1000 0x40
  rw [hbits, stepFirst, if_neg (by omega), if_neg (by omega), if_neg (by omega), if_neg (by omega),
    if_neg (by omega)]
  by_cases hleast : n / 0x40000 = 0
  · refine ⟨0x90, 0xBF, ?_, by omega, by omega⟩
    rw [if_pos (by omega), hleast]
  · by_cases hlast : n / 0x40000 = 4
    · refine ⟨0x80, 0x8F, ?_, by omega, by omega⟩
      rw [if_neg (by omega), if_pos (by omega), hlast]
    · refine ⟨0x80, 0xBF, ?_, by omega, by omega⟩
      rw [if_neg (by omega), if_neg (by omega), if_pos (by omega), Nat.add_sub_cancel_left]

/-- The bytes of a character take the machine to its end, one case for each number of bytes. -/
theorem completes_encodeChar (c : Char) : Completes .start (encodeChar c) c := by
  have hvalid : c.toNat < 0xD800 ∨ 0xDFFF < c.toNat ∧ c.toNat < 0x110000 := c.valid
  suffices h : Completes .start (encodeChar c) (Char.ofNat c.toNat) by rwa [Char.ofNat_toNat] at h
  unfold encodeChar
  generalize c.toNat = n at hvalid ⊢
  dsimp only
  split
  next hascii =>
    have hfirst : stepFirst n = some (.start, some (Char.ofNat n)) := by rw [stepFirst, if_pos hascii]
    exact .last ((step_first (by omega)).trans hfirst)
  next =>
    split
    next htwo => exact completes_two (by omega) htwo
    next =>
      split
      next hthree =>
        obtain ⟨low, high, hfirst, hl, hh⟩ := stepFirst_three (by omega) hthree (by omega)
        refine .next ((step_first (by omega)).trans hfirst) (.next (step_middle hl hh) (.last (step_last ?_ ?_)))
        · omega
        · omega
      next =>
        obtain ⟨low, high, hfirst, hl, hh⟩ := stepFirst_four (by omega) (by omega : n < 0x110000)
        refine .next ((step_first (by omega)).trans hfirst) (.next (step_middle hl hh) ?_)
        have hmiddle : n / 0x1000 = n / 0x40 / 0x40 := (Nat.div_div_eq_div_mul n 0x40 0x40).symm
        rw [hmiddle]
        refine .next (step_middle ?_ ?_) (.last (step_last ?_ ?_))
        · omega
        · omega
        · omega
        · omega

/-! ## The bytes that complete a character -/

theorem toNat_ofNat_of_valid {n : Nat} (h : n < 0xD800 ∨ 0xDFFF < n ∧ n < 0x110000) : (Char.ofNat n).toNat = n := by
  rw [Char.ofNat, dif_pos h]
  rfl

/-- The last byte of a character that needs one more. -/
theorem of_completes_last {low high bits : Nat} {bs : List UInt8} {c : Char}
    (h : Completes ⟨1, low, high, bits⟩ bs c) :
    ∃ b : UInt8, bs = [b] ∧ low ≤ b.toNat ∧ b.toNat ≤ high ∧ c = Char.ofNat (bits * 0x40 + (b.toNat - 0x80)) := by
  have hstep : ∀ b : UInt8, step ⟨1, low, high, bits⟩ b =
      if low ≤ b.toNat ∧ b.toNat ≤ high then
        some (.start, some (Char.ofNat (bits * 0x40 + (b.toNat - 0x80)))) else none := fun _ => rfl
  cases h with
  | @last _ b _ h =>
    rw [hstep] at h
    split at h
    · rename_i hbounds
      obtain ⟨-, hc⟩ := Prod.mk.inj (Option.some.inj h)
      exact ⟨b, rfl, hbounds.1, hbounds.2, (Option.some.inj hc).symm⟩
    · cases h
  | next h _ =>
    rw [hstep] at h
    split at h <;> cases h

/-- The next byte of a character that needs more than one. -/
theorem of_completes_next {k low high bits : Nat} {bs : List UInt8} {c : Char}
    (h : Completes ⟨k + 2, low, high, bits⟩ bs c) :
    ∃ (b : UInt8) (rest : List UInt8), bs = b :: rest ∧ low ≤ b.toNat ∧ b.toNat ≤ high ∧
      Completes ⟨k + 1, 0x80, 0xBF, bits * 0x40 + (b.toNat - 0x80)⟩ rest c := by
  have hstep : ∀ b : UInt8, step ⟨k + 2, low, high, bits⟩ b =
      if low ≤ b.toNat ∧ b.toNat ≤ high then
        some (⟨k + 1, 0x80, 0xBF, bits * 0x40 + (b.toNat - 0x80)⟩, none) else none := by
    intro b
    rw [step, if_neg (by simp), stepNext]
    split
    · rw [if_neg (by simp)]
      rfl
    · rfl
  cases h with
  | last h =>
    rw [hstep] at h
    split at h <;> cases h
  | @next _ st' b rest _ h hrest =>
    rw [hstep] at h
    split at h
    · rename_i hbounds
      cases h
      exact ⟨b, rest, rfl, hbounds.1, hbounds.2, hrest⟩
    · cases h

/-- What the first byte of a character leaves to be read: nothing, or one, two or three bytes, the first of them between
bounds that keep out overlong forms, surrogates and values above U+10FFFF. -/
theorem stepFirst_cases {b : Nat} {st : State} {c : Option Char} (h : stepFirst b = some (st, c)) :
    (b < 0x80 ∧ st = .start ∧ c = some (Char.ofNat b)) ∨
      c = none ∧
        ((0xC2 ≤ b ∧ b ≤ 0xDF ∧ st = ⟨1, 0x80, 0xBF, b - 0xC0⟩) ∨
          (∃ low high, 0xE0 ≤ b ∧ b ≤ 0xEF ∧ st = ⟨2, low, high, b - 0xE0⟩ ∧ 0x80 ≤ low ∧ high ≤ 0xBF ∧
            (b = 0xE0 → 0xA0 ≤ low) ∧ (b = 0xED → high ≤ 0x9F)) ∨
          ∃ low high, 0xF0 ≤ b ∧ b ≤ 0xF4 ∧ st = ⟨3, low, high, b - 0xF0⟩ ∧ 0x80 ≤ low ∧ high ≤ 0xBF ∧
            (b = 0xF0 → 0x90 ≤ low) ∧ (b = 0xF4 → high ≤ 0x8F)) := by
  unfold stepFirst at h
  split at h
  · rename_i hb
    obtain ⟨rfl, rfl⟩ := Prod.mk.inj (Option.some.inj h)
    exact .inl ⟨hb, rfl, rfl⟩
  refine .inr ?_
  split at h
  · rename_i hb
    obtain ⟨rfl, rfl⟩ := Prod.mk.inj (Option.some.inj h)
    exact ⟨rfl, .inl ⟨hb.1, hb.2, rfl⟩⟩
  split at h
  · rename_i hb
    obtain ⟨rfl, rfl⟩ := Prod.mk.inj (Option.some.inj h)
    exact ⟨rfl, .inr (.inl ⟨0xA0, 0xBF, by omega, by omega, by rw [hb], by omega, by omega, by omega, by omega⟩)⟩
  split at h
  · rename_i hb
    obtain ⟨rfl, rfl⟩ := Prod.mk.inj (Option.some.inj h)
    exact ⟨rfl, .inr (.inl ⟨0x80, 0x9F, by omega, by omega, by rw [hb], by omega, by omega, by omega, by omega⟩)⟩
  split at h
  · rename_i hb
    obtain ⟨rfl, rfl⟩ := Prod.mk.inj (Option.some.inj h)
    exact ⟨rfl, .inr (.inl ⟨0x80, 0xBF, by omega, by omega, rfl, by omega, by omega, by omega, by omega⟩)⟩
  split at h
  · rename_i hb
    obtain ⟨rfl, rfl⟩ := Prod.mk.inj (Option.some.inj h)
    exact ⟨rfl, .inr (.inr ⟨0x90, 0xBF, by omega, by omega, by rw [hb], by omega, by omega, by omega, by omega⟩)⟩
  split at h
  · rename_i hb
    obtain ⟨rfl, rfl⟩ := Prod.mk.inj (Option.some.inj h)
    exact ⟨rfl, .inr (.inr ⟨0x80, 0x8F, by omega, by omega, by rw [hb], by omega, by omega, by omega, by omega⟩)⟩
  split at h
  · rename_i hb
    obtain ⟨rfl, rfl⟩ := Prod.mk.inj (Option.some.inj h)
    exact ⟨rfl, .inr (.inr ⟨0x80, 0xBF, by omega, by omega, rfl, by omega, by omega, by omega, by omega⟩)⟩
  · cases h

/-- A byte completes a character exactly if the machine is at the start again. -/
theorem step_cases {st st' : State} {b : UInt8} {c : Option Char} (h : step st b = some (st', c)) :
    (c = none ∧ st'.needed ≠ 0) ∨ st' = .start ∧ c.isSome := by
  unfold step at h
  split at h
  · rcases stepFirst_cases h with ⟨-, rfl, rfl⟩ | ⟨rfl, ⟨-, -, rfl⟩ | ⟨_, _, -, -, rfl, -⟩ | ⟨_, _, -, -, rfl, -⟩⟩
    · exact .inr ⟨rfl, rfl⟩
    · exact .inl ⟨rfl, Nat.one_ne_zero⟩
    · exact .inl ⟨rfl, Nat.succ_ne_zero 1⟩
    · exact .inl ⟨rfl, Nat.succ_ne_zero 2⟩
  · unfold stepNext at h
    split at h
    · split at h
      · obtain ⟨rfl, rfl⟩ := Prod.mk.inj (Option.some.inj h)
        exact .inr ⟨rfl, rfl⟩
      · obtain ⟨rfl, rfl⟩ := Prod.mk.inj (Option.some.inj h)
        refine .inl ⟨rfl, ?_⟩
        show st.needed - 1 ≠ 0
        omega
    · cases h

theorem encodeChar_ofNat {n : Nat} (h : n < 0xD800 ∨ 0xDFFF < n ∧ n < 0x110000) :
    encodeChar (Char.ofNat n) =
      if n < 0x80 then [UInt8.ofNat n]
      else if n < 0x800 then [UInt8.ofNat (0xC0 + n / 0x40), UInt8.ofNat (0x80 + n % 0x40)]
      else if n < 0x10000 then
        [UInt8.ofNat (0xE0 + n / 0x1000), UInt8.ofNat (0x80 + n / 0x40 % 0x40), UInt8.ofNat (0x80 + n % 0x40)]
      else
        [UInt8.ofNat (0xF0 + n / 0x40000), UInt8.ofNat (0x80 + n / 0x1000 % 0x40), UInt8.ofNat (0x80 + n / 0x40 % 0x40),
          UInt8.ofNat (0x80 + n % 0x40)] := by
  rw [encodeChar, toNat_ofNat_of_valid h]

/-- Only the bytes of a character take the machine to its end. -/
theorem eq_encodeChar_of_completes {bs : List UInt8} {c : Char} (h : Completes .start bs c) : bs = encodeChar c := by
  have hbyte : ∀ (b : UInt8) (n : Nat), n = b.toNat → UInt8.ofNat n = b := by
    rintro b _ rfl
    exact UInt8.ofNat_toNat
  cases h with
  | @last _ b _ h =>
    rcases stepFirst_cases h with ⟨hb, -, hc⟩ | ⟨hc, -⟩
    · rw [Option.some.inj hc, encodeChar_ofNat (by omega), if_pos hb, UInt8.ofNat_toNat]
    · cases hc
  | @next _ _ b rest _ h hrest =>
    -- One case for each number of bytes that are left.
    rcases stepFirst_cases h with ⟨-, -, hc⟩ | ⟨-, ⟨hlow, hhigh, rfl⟩ | ⟨low, high, hlow, hhigh, rfl, hfirst⟩ |
      ⟨low, high, hlow, hhigh, rfl, hfirst⟩⟩
    · cases hc
    · obtain ⟨b₁, rfl, h₁, h₁', hc⟩ := of_completes_last hrest
      rw [hc]
      generalize hn : (b.toNat - 0xC0) * 0x40 + (b₁.toNat - 0x80) = n
      rw [encodeChar_ofNat (by omega), if_neg (by omega), if_pos (by omega), hbyte b _ (by omega), hbyte b₁ _ (by omega)]
    · obtain ⟨b₁, rest, rfl, h₁, h₁', hrest⟩ := of_completes_next hrest
      obtain ⟨b₂, rfl, h₂, h₂', hc⟩ := of_completes_last hrest
      rw [hc]
      generalize hn : ((b.toNat - 0xE0) * 0x40 + (b₁.toNat - 0x80)) * 0x40 + (b₂.toNat - 0x80) = n
      rw [encodeChar_ofNat (by omega), if_neg (by omega), if_neg (by omega), if_pos (by omega), hbyte b _ (by omega),
        hbyte b₁ _ (by omega), hbyte b₂ _ (by omega)]
    · obtain ⟨b₁, rest, rfl, h₁, h₁', hrest⟩ := of_completes_next hrest
      obtain ⟨b₂, rest, rfl, h₂, h₂', hrest⟩ := of_completes_next hrest
      obtain ⟨b₃, rfl, h₃, h₃', hc⟩ := of_completes_last hrest
      rw [hc]
      generalize hn : (((b.toNat - 0xF0) * 0x40 + (b₁.toNat - 0x80)) * 0x40 + (b₂.toNat - 0x80)) * 0x40 +
        (b₃.toNat - 0x80) = n
      rw [encodeChar_ofNat (by omega), if_neg (by omega), if_neg (by omega), if_neg (by omega), hbyte b _ (by omega),
        hbyte b₁ _ (by omega), hbyte b₂ _ (by omega), hbyte b₃ _ (by omega)]

/-! ## Whole texts -/

theorem decodeLossyFrom_of_completes {st : State} {bs : List UInt8} {c : Char} (h : Completes st bs c)
    (done : List Char) (rest : List UInt8) :
    decodeLossyFrom st done (bs ++ rest) = decodeLossyFrom .start (c :: done) rest := by
  induction h with
  | last h => simp [decodeLossyFrom, h]
  | next h _ ih => simpa [decodeLossyFrom, h] using ih

theorem decodeLossyFrom_flatMap (cs done : List Char) :
    decodeLossyFrom .start done (cs.flatMap encodeChar) = done.reverse ++ cs := by
  induction cs generalizing done with
  | nil => simp [decodeLossyFrom, State.start]
  | cons c cs ih =>
    rw [List.flatMap_cons, decodeLossyFrom_of_completes (completes_encodeChar c), ih]
    simp

theorem decodeLossy_encode (s : String) : decodeLossy (encode s) = s := by
  simp [decodeLossy, encode, decodeLossyFrom_flatMap]

/-! ## The bytes of a string -/

theorem encodeChar_eq (c : Char) : encodeChar c = String.utf8EncodeChar c := by
  have hvalid : c.toNat < 0xD800 ∨ 0xDFFF < c.toNat ∧ c.toNat < 0x110000 := c.valid
  have hval : c.val.toNat = c.toNat := rfl
  simp only [encodeChar, String.utf8EncodeChar, hval]
  generalize c.toNat = n at hvalid ⊢
  -- The first byte has room for all bits that the further bytes leave.
  by_cases hone : n < 0x80
  · rw [if_pos hone, if_pos (by omega)]
  by_cases htwo : n < 0x800
  · have hfirst : n / 64 % 32 + 192 = 0xC0 + n / 0x40 := by omega
    rw [if_neg hone, if_pos htwo, if_neg (by omega), if_pos (by omega), hfirst, Nat.add_comm (n % 64)]
  by_cases hthree : n < 0x10000
  · have hfirst : n / 4096 % 16 + 224 = 0xE0 + n / 0x1000 := by omega
    rw [if_neg hone, if_neg htwo, if_pos hthree, if_neg (by omega), if_neg (by omega), if_pos (by omega), hfirst,
      Nat.add_comm (n / 64 % 64), Nat.add_comm (n % 64)]
  · have hfirst : n / 262144 % 8 + 240 = 0xF0 + n / 0x40000 := by omega
    rw [if_neg hone, if_neg htwo, if_neg hthree, if_neg (by omega), if_neg (by omega), if_neg (by omega), hfirst,
      Nat.add_comm (n / 4096 % 64), Nat.add_comm (n / 64 % 64), Nat.add_comm (n % 64)]

/-- The bytes of a text are those that the string is stored in. -/
theorem encode_eq_toUTF8 (s : String) : encode s = s.toUTF8.data.toList := by
  rw [String.toUTF8_eq_toByteArray, ← String.utf8Encode_toList, List.utf8Encode, List.toList_data_toByteArray, encode]
  exact congrArg s.toList.flatMap (funext encodeChar_eq)

end Gateway.Text.Utf8

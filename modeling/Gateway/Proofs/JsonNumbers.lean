import Gateway.Json.Reader
import Gateway.Json.Writer
import Gateway.Proofs.ShortestDigits

/-!
# Numbers in JSON texts

A finite number is read back from its text, whatever follows the text, as long as what follows cannot be part of a
number.  Only the sign of a negative zero is lost (`readNumber?_chars`).
-/

namespace Gateway.Json

open Number

/-- Whether a text cannot go on with a number before it. -/
structure EndsNumber (rest : List Char) : Prop where
  digit : ∀ c cs, rest = c :: cs → c.isDigit = false
  point : ∀ cs, rest ≠ '.' :: cs
  exponent : ∀ c cs, rest = c :: cs → c ≠ 'e' ∧ c ≠ 'E'

/-! ## The parts of a number -/

theorem digits?_append {ds rest : List Char} (hds : ∀ d ∈ ds, d.isDigit = true) (hne : ds ≠ [])
    (hrest : ∀ c cs, rest = c :: cs → c.isDigit = false) :
    digits? (ds ++ rest) = some (ds, rest) := by
  have htake : (ds ++ rest).takeWhile Char.isDigit = ds := by
    rw [List.takeWhile_append_of_pos hds]
    cases rest with
    | nil => simp
    | cons c cs => simp [hrest c cs rfl]
  have hdrop : (ds ++ rest).dropWhile Char.isDigit = rest := by
    rw [List.dropWhile_append_of_pos hds]
    cases rest with
    | nil => rfl
    | cons c cs => simp [hrest c cs rfl]
  simp [digits?, htake, hdrop, hne]

theorem wholePart?_append {ds rest : List Char} (hds : IsNumeral ds)
    (hrest : ∀ c cs, rest = c :: cs → c.isDigit = false) :
    wholePart? (ds ++ rest) = some (ds, rest) := by
  obtain ⟨d, more, rfl, hne⟩ := hds.head
  have h := digits?_append hds.isDigit (by simp) hrest
  unfold wholePart?
  split
  next hzero =>
    rw [List.cons_append, List.cons.injEq] at hzero
    exact absurd hzero.1 hne
  next => exact h

theorem fractionPart?_of_ne {rest : List Char} (hrest : ∀ cs, rest ≠ '.' :: cs) :
    fractionPart? rest = some ([], rest) := by
  unfold fractionPart?
  split
  next cs => exact absurd rfl (hrest cs)
  next => rfl

theorem exponentPart?_of_ne {rest : List Char} (hrest : ∀ c cs, rest = c :: cs → c ≠ 'e' ∧ c ≠ 'E') :
    exponentPart? rest = some (0, rest) := by
  cases rest with
  | nil => rfl
  | cons c cs =>
    have hne := hrest c cs rfl
    simp [exponentPart?, hne.1, hne.2]

theorem exponentPart?_sign (e : Int) {rest : List Char}
    (hrest : ∀ c cs, rest = c :: cs → c.isDigit = false) :
    exponentPart? ('e' :: (if e < 0 then '-' else '+') :: (Nat.toDigits 10 e.natAbs ++ rest)) = some (e, rest) := by
  have h : digits? (Nat.toDigits 10 e.natAbs ++ rest) = some (Nat.toDigits 10 e.natAbs, rest) :=
    digits?_append (fun d hd => Nat.isDigit_of_mem_toDigits (by norm_num) (by norm_num) hd)
      Nat.toDigits_ne_nil hrest
  by_cases hneg : e < 0
  · simp only [hneg, if_true, exponentPart?, true_or, splitSign, h, Option.map_some, digitsValue_toDigits]
    rw [show -((e.natAbs : Nat) : Int) = e by omega]
  · simp only [hneg, if_false, exponentPart?, true_or, if_true, splitSign, h, Option.map_some, digitsValue_toDigits]
    simp only [Bool.false_eq_true, if_false]
    rw [show ((e.natAbs : Nat) : Int) = e by omega]

/-! ## Whole numbers and numbers with a point -/

/-- What an unsigned number is read as, part by part. -/
theorem readUnsigned?_eq {cs whole afterWhole fraction afterFraction rest : List Char} {exponent : Int}
    (negative : Bool) (hwhole : wholePart? cs = some (whole, afterWhole))
    (hfraction : fractionPart? afterWhole = some (fraction, afterFraction))
    (hexponent : exponentPart? afterFraction = some (exponent, rest)) :
    readUnsigned? negative cs =
      some (ofDecimal negative (digitsValue (whole ++ fraction)) (exponent - fraction.length), rest) := by
  unfold readUnsigned?
  rw [hwhole]
  dsimp only [bind, Option.bind]
  rw [hfraction]
  dsimp only
  rw [hexponent]

/-- A whole number without an exponent. -/
theorem readUnsigned?_whole (negative : Bool) {cs rest ds : List Char} (hrest : EndsNumber rest)
    (hwhole : wholePart? cs = some (ds, rest)) :
    readUnsigned? negative cs = some (ofDecimal negative (digitsValue ds) 0, rest) := by
  have h := readUnsigned?_eq negative hwhole (fractionPart?_of_ne hrest.point) (exponentPart?_of_ne hrest.exponent)
  simpa using h

theorem wholePart?_zero (rest : List Char) : wholePart? ('0' :: rest) = some (['0'], rest) := rfl

theorem fractionPart?_point {ds rest : List Char} (hds : ∀ d ∈ ds, d.isDigit = true) (hne : ds ≠ [])
    (hrest : ∀ c cs, rest = c :: cs → c.isDigit = false) :
    fractionPart? ('.' :: (ds ++ rest)) = some (ds, rest) :=
  digits?_append hds hne hrest

theorem isDigit_point : ∀ cs c ds, '.' :: cs = c :: ds → c.isDigit = false := by
  rintro cs c ds h
  obtain ⟨rfl, -⟩ := List.cons.inj h
  rfl

theorem isDigit_exponent (e : Int) (rest : List Char) : ∀ c cs, ('e' :: (if e < 0 then '-' else '+') ::
    Nat.toDigits 10 e.natAbs) ++ rest = c :: cs → c.isDigit = false := by
  rintro c cs h
  obtain ⟨rfl, -⟩ := List.cons.inj h
  rfl

/-- The exponent of a formatted number, with what follows. -/
theorem exponentPart?_tail (e : Int) {rest : List Char} (hrest : EndsNumber rest) :
    exponentPart? (('e' :: (if e < 0 then '-' else '+') :: Nat.toDigits 10 e.natAbs) ++ rest) = some (e, rest) :=
  exponentPart?_sign e hrest.digit

theorem isNumeral_append_zeros {ds : List Char} (hds : IsNumeral ds) (k : Nat) :
    IsNumeral (ds ++ List.replicate k '0') := by
  obtain ⟨d, more, rfl, hne⟩ := hds.head
  refine ⟨?_, d, more ++ List.replicate k '0', rfl, hne⟩
  intro c hc
  rcases List.mem_append.mp hc with hc | hc
  · exact hds.isDigit c hc
  · obtain rfl := List.eq_of_mem_replicate hc
    rfl

theorem isNumeral_take {ds : List Char} (hds : IsNumeral ds) {k : Nat} (hk : 0 < k) :
    IsNumeral (ds.take k) := by
  obtain ⟨d, more, rfl, hne⟩ := hds.head
  obtain ⟨j, rfl⟩ := Nat.exists_eq_succ_of_ne_zero hk.ne'
  exact ⟨fun c hc => hds.isDigit c (List.mem_of_mem_take hc), d, more.take j, rfl, hne⟩

/-- Whether a text is read as a decimal with the value that some digits and the place of the point give. -/
def ReadsDecimal (negative : Bool) (ds : List Char) (point : Int) (cs rest : List Char) : Prop :=
  ∃ (digits : Nat) (exponent : Int),
    readUnsigned? negative cs = some (ofDecimal negative digits exponent, rest) ∧
      (digits : ℚ) * 10 ^ exponent = digitsValue ds * 10 ^ (point - (ds.length : Int))

section

variable {ds rest : List Char} {point : Int}

/-- All digits stand before the point, with zeros after them. -/
theorem readsDecimal_integer (negative : Bool) (hds : IsNumeral ds) (hrest : EndsNumber rest)
    (hpoint : (ds.length : Int) ≤ point) :
    ReadsDecimal negative ds point (ds ++ List.replicate (point - ds.length).toNat '0' ++ rest) rest := by
  have hwhole := wholePart?_append (isNumeral_append_zeros hds (point - ds.length).toNat) hrest.digit
  refine ⟨_, _, readUnsigned?_whole negative hrest hwhole, ?_⟩
  obtain ⟨k, hk⟩ := Int.eq_ofNat_of_zero_le (a := point - ds.length) (by omega)
  rw [hk, Int.toNat_natCast, digitsValue_append, digitsValue_replicate, List.length_replicate, zpow_natCast]
  push_cast
  ring

/-- The point stands between two digits. -/
theorem readsDecimal_inside (negative : Bool) (hds : IsNumeral ds) (hrest : EndsNumber rest)
    (hpos : 0 < point) (hpoint : point < ds.length) :
    ReadsDecimal negative ds point (ds.take point.toNat ++ '.' :: ds.drop point.toNat ++ rest) rest := by
  have hlength : (ds.take point.toNat).length + (ds.drop point.toNat).length = ds.length := by
    rw [← List.length_append, List.take_append_drop]
  have hdrop : ds.drop point.toNat ≠ [] := by
    intro hnil
    rw [List.drop_eq_nil_iff] at hnil
    omega
  have hdropDigits : ∀ d ∈ ds.drop point.toNat, d.isDigit = true :=
    fun d hd => hds.isDigit d (List.mem_of_mem_drop hd)
  have hwhole := wholePart?_append (isNumeral_take hds (by omega : 0 < point.toNat))
    (isDigit_point (ds.drop point.toNat ++ rest))
  have h := readUnsigned?_eq negative hwhole (fractionPart?_point hdropDigits hdrop hrest.digit)
    (exponentPart?_of_ne hrest.exponent)
  rw [List.take_append_drop] at h
  refine ⟨_, _, by rw [List.append_assoc]; exact h, ?_⟩
  rw [List.length_take] at hlength
  congr 2
  omega

/-- Zeros stand between the point and the digits. -/
theorem readsDecimal_small (negative : Bool) (hds : IsNumeral ds) (hrest : EndsNumber rest) (hpoint : point ≤ 0) :
    ReadsDecimal negative ds point ('0' :: '.' :: (List.replicate (-point).toNat '0' ++ ds) ++ rest) rest := by
  have hfraction : ∀ d ∈ List.replicate (-point).toNat '0' ++ ds, d.isDigit = true := by
    intro d hd
    rcases List.mem_append.mp hd with hd | hd
    · obtain rfl := List.eq_of_mem_replicate hd
      rfl
    · exact hds.isDigit d hd
  have hne : List.replicate (-point).toNat '0' ++ ds ≠ [] := by
    obtain ⟨d, more, rfl, -⟩ := hds.head
    simp
  have h := readUnsigned?_eq negative (wholePart?_zero _) (fractionPart?_point hfraction hne hrest.digit)
    (exponentPart?_of_ne hrest.exponent)
  refine ⟨_, _, h, ?_⟩
  have hvalue : digitsValue (['0'] ++ (List.replicate (-point).toNat '0' ++ ds)) = digitsValue ds := by
    rw [digitsValue_append, digitsValue_append, digitsValue_replicate]
    simp [digitsValue, digitValue]
  rw [hvalue, List.length_append, List.length_replicate]
  congr 2
  omega

/-- One digit and an exponent. -/
theorem readsDecimal_single (negative : Bool) {d : Char} (hds : IsNumeral [d]) (hrest : EndsNumber rest) :
    ReadsDecimal negative [d] point
      (d :: 'e' :: (if point - 1 < 0 then '-' else '+') :: Nat.toDigits 10 (point - 1).natAbs ++ rest) rest := by
  have hwhole := wholePart?_append hds (isDigit_exponent (point - 1) rest)
  have h := readUnsigned?_eq negative hwhole (fractionPart?_of_ne (by simp)) (exponentPart?_tail (point - 1) hrest)
  exact ⟨_, _, h, by simp⟩

/-- One digit, the others after the point, and an exponent. -/
theorem readsDecimal_several (negative : Bool) {d d' : Char} {more : List Char}
    (hds : IsNumeral (d :: d' :: more)) (hrest : EndsNumber rest) :
    ReadsDecimal negative (d :: d' :: more) point
      (d :: '.' :: (d' :: more ++ 'e' :: (if point - 1 < 0 then '-' else '+') ::
        Nat.toDigits 10 (point - 1).natAbs) ++ rest) rest := by
  have hfirst : IsNumeral [d] := isNumeral_take hds Nat.one_pos
  have hothers : ∀ c ∈ d' :: more, c.isDigit = true :=
    fun c hc => hds.isDigit c (List.mem_cons_of_mem d hc)
  have hfraction := fractionPart?_point hothers (by simp) (isDigit_exponent (point - 1) rest)
  have h := readUnsigned?_eq negative (wholePart?_append hfirst (isDigit_point _)) hfraction
    (exponentPart?_tail (point - 1) hrest)
  refine ⟨_, _, by simpa using h, ?_⟩
  congr 2
  simp only [List.length_cons]
  omega

/-- A formatted numeral is read as a decimal with the value that its digits and its point give. -/
theorem readsDecimal_format (negative : Bool) (hds : IsNumeral ds) (hrest : EndsNumber rest) :
    ReadsDecimal negative ds point (format ds point ++ rest) rest := by
  unfold format
  dsimp only
  split
  next hinteger => exact readsDecimal_integer negative hds hrest hinteger.1
  next =>
    split
    next hinside => exact readsDecimal_inside negative hds hrest hinside.1 (by omega)
    next =>
      split
      next hsmall => exact readsDecimal_small negative hds hrest hsmall.2
      next =>
        obtain ⟨d, more, rfl, -⟩ := hds.head
        cases more with
        | nil => exact readsDecimal_single negative hds hrest
        | cons d' more => exact readsDecimal_several negative hds hrest

end

/-! ## Numbers -/

theorem scaled_read {m : Nat} {e : Int} (negative : Bool) (h : IsScaled m e) {rest : List Char}
    (hrest : EndsNumber rest) :
    readUnsigned? negative (format (shortest m e).1 (shortest m e).2 ++ rest) =
      some (.scaled negative m e h, rest) := by
  have hparts := IsParts.ofScaled h
  obtain ⟨hnumeral, hrounds⟩ := shortest_spec hparts
  obtain ⟨digits, exponent, hread, hvalue⟩ := readsDecimal_format negative hnumeral hrest
  -- The digits were chosen to round to the number, and reading rounds the same quotient.
  rw [← hvalue] at hrounds
  rw [hread, ofDecimal_of_roundsTo negative hparts hrounds, ofScaled_of_isScaled negative h]

/-- The digits of a natural below 2^53 are read as that natural with the sign before them. -/
theorem toDigits_read (negative : Bool) {n : Nat} (hn : n < safeBound) {rest : List Char}
    (hrest : EndsNumber rest) :
    readUnsigned? negative (Nat.toDigits 10 n ++ rest) = some (ofSafe negative n, rest) := by
  have hwhole : wholePart? (Nat.toDigits 10 n ++ rest) = some (Nat.toDigits 10 n, rest) := by
    rcases Nat.eq_zero_or_pos n with rfl | hpos
    · exact wholePart?_zero rest
    · exact wholePart?_append (isNumeral_toDigits hpos) hrest.digit
  rw [readUnsigned?_whole negative hrest hwhole, digitsValue_toDigits, ofDecimal, if_pos ⟨rfl, hn⟩]

theorem ofSafe_natAbs (n : SafeInt) : ofSafe (decide (n.val < 0)) n.val.natAbs = .int n := by
  obtain ⟨n, hn⟩ := n
  unfold ofSafe
  rw [dif_pos hn]
  by_cases hneg : n < 0
  · have hne : n.natAbs ≠ 0 := by omega
    simp only [hneg, decide_true, if_true, hne, if_false]
    congr 2
    omega
  · simp only [hneg, decide_false, Bool.false_eq_true, if_false]
    congr 2
    omega

theorem toDigits_head (n : Nat) : ∃ c cs, Nat.toDigits 10 n = c :: cs ∧ c.isDigit = true := by
  cases h : Nat.toDigits 10 n with
  | nil => exact absurd h Nat.toDigits_ne_nil
  | cons c cs =>
    exact ⟨c, cs, rfl, Nat.isDigit_of_mem_toDigits (n := n) (by norm_num) (by norm_num : 10 ≤ 10) (by simp [h])⟩

theorem format_head {ds : List Char} (hds : IsNumeral ds) (point : Int) :
    ∃ c cs, format ds point = c :: cs ∧ c.isDigit = true := by
  obtain ⟨d, more, rfl, -⟩ := hds.head
  have hd : d.isDigit = true := hds.isDigit d List.mem_cons_self
  unfold format
  dsimp only
  split
  · exact ⟨d, _, rfl, hd⟩
  · split
    next hinside =>
      obtain ⟨k, hk⟩ := Nat.exists_eq_succ_of_ne_zero (by omega : point.toNat ≠ 0)
      rw [hk]
      exact ⟨d, _, rfl, hd⟩
    next =>
      split
      · exact ⟨'0', _, rfl, rfl⟩
      · cases more with
        | nil => exact ⟨d, _, rfl, hd⟩
        | cons d' more => exact ⟨d, _, rfl, hd⟩

theorem readNumber?_of_digit {c : Char} (hc : c.isDigit = true) (cs : List Char) :
    readNumber? (c :: cs) = readUnsigned? false (c :: cs) := by
  unfold readNumber?
  split
  next h =>
    obtain ⟨rfl, -⟩ := List.cons.inj h
    cases hc
  next => rfl

/-- The number that a JSON text keeps of a finite one: the sign of a negative zero is lost. -/
def keptNumber : Number → Number
  | .negZero => 0
  | n => n

/-- Whether a number has a JSON text of its own. -/
def hasNumeral : Number → Bool
  | .nan | .infinity _ => false
  | _ => true

/-- The text of a number starts with a sign or a digit. -/
theorem chars_head {n : Number} (hn : hasNumeral n = true) :
    ∃ c cs, n.chars = c :: cs ∧ (c = '-' ∨ c.isDigit = true) := by
  cases n with
  | nan => cases hn
  | infinity negative => cases hn
  | negZero => exact ⟨'0', [], rfl, .inr rfl⟩
  | int n =>
    obtain ⟨c, cs, hcs, hc⟩ := toDigits_head n.val.natAbs
    simp only [chars, intChars, hcs]
    split
    · exact ⟨'-', _, rfl, .inl rfl⟩
    · exact ⟨c, cs, rfl, .inr hc⟩
  | scaled negative m e h =>
    obtain ⟨c, cs, hcs, hc⟩ := format_head (shortest_spec (IsParts.ofScaled h)).1 (shortest m e).2
    simp only [chars, hcs]
    cases negative with
    | true => exact ⟨'-', _, rfl, .inl rfl⟩
    | false => exact ⟨c, cs, rfl, .inr hc⟩

/-- The text of a finite number is read as that number, whatever follows it. -/
theorem readNumber?_chars {n : Number} (hn : hasNumeral n = true) {rest : List Char} (hrest : EndsNumber rest) :
    readNumber? (n.chars ++ rest) = some (keptNumber n, rest) := by
  cases n with
  | nan => cases hn
  | infinity negative => cases hn
  | negZero =>
    -- A negative zero is written without its sign.
    have h := toDigits_read false (by decide : 0 < safeBound) hrest
    exact h
  | int n =>
    have hread := toDigits_read (decide (n.val < 0)) n.bound hrest
    rw [ofSafe_natAbs] at hread
    simp only [chars, intChars]
    split
    next hneg =>
      rw [decide_eq_true hneg] at hread
      exact hread
    next hpos =>
      obtain ⟨c, cs, hcs, hc⟩ := toDigits_head n.val.natAbs
      rw [decide_eq_false hpos, hcs] at hread
      rw [hcs]
      exact (readNumber?_of_digit hc (cs ++ rest)).trans hread
  | scaled negative m e h =>
    have hread := scaled_read negative h hrest
    cases negative with
    | true => exact hread
    | false =>
      obtain ⟨c, cs, hcs, hc⟩ := format_head (shortest_spec (IsParts.ofScaled h)).1 (shortest m e).2
      simp only [chars, hcs] at hread ⊢
      exact (readNumber?_of_digit hc (cs ++ rest)).trans hread

end Gateway.Json

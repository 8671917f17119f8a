import Gateway.Text.Percent
import Gateway.Proofs.UnitTexts
import Gateway.Proofs.Utf8Bytes

/-!
# Texts as components of a URL

A component spells a text if every percent sign in it opens an escape, runs of escapes spell the UTF-8 bytes of
characters, and every other unit stands for itself (`Spells`).  The strict reader gives what a component spells, and
refuses it if it spells nothing (`decodeUnits?_eq_some_iff`).  A text is read back from the component it was written
as, by the strict reader and by the lenient one.  A component is made of letters, digits and a few marks of ASCII only
(`isComponentChar`), so nothing in it can be taken for a separator, a line end or a plus sign.
-/

namespace Gateway.Text.Percent

/-! ## What a component spells -/

/-- A unit is the hexadecimal digit of a number, in either case. -/
def IsHexDigit (n : Nat) (u : UInt16) : Prop :=
  ∃ c : Char, u.toNat = c.toNat ∧ ("0123456789ABCDEF".toList[n]? = some c ∨ "0123456789abcdef".toList[n]? = some c)

/-- Units that write bytes as escapes: a percent sign and two hexadecimal digits for each byte. -/
inductive Escapes : List UInt8 → List UInt16 → Prop where
  | nil : Escapes [] []
  | cons {b : UInt8} {bs : List UInt8} {high low : UInt16} {raw : List UInt16} (hhigh : IsHexDigit (b.toNat / 16) high)
      (hlow : IsHexDigit (b.toNat % 16) low) (h : Escapes bs raw) : Escapes (b :: bs) (0x25 :: high :: low :: raw)

/-- Units spell other units: those that are no percent sign stand for themselves, and the escapes of the UTF-8 bytes
of a character stand for its units. -/
inductive Spells : List UInt16 → List UInt16 → Prop where
  | nil : Spells [] []
  | plain {u : UInt16} {raw text : List UInt16} (hu : u ≠ 0x25) (h : Spells raw text) : Spells (u :: raw) (u :: text)
  | char {c : Char} {escapes raw text : List UInt16} (hescapes : Escapes (String.utf8EncodeChar c) escapes)
      (h : Spells raw text) : Spells (escapes ++ raw) (unitsOfChar c ++ text)

theorem hexValue?_eq_some_iff (c : Char) (n : Nat) :
    hexValue? c = some n ↔ "0123456789ABCDEF".toList[n]? = some c ∨ "0123456789abcdef".toList[n]? = some c := by
  have hdigits : ∀ k < 10, "0123456789ABCDEF".toList[k]? = some (Char.ofNat (0x30 + k)) := by decide
  have hupper : ∀ k < 6, "0123456789ABCDEF".toList[k + 10]? = some (Char.ofNat (0x41 + k)) := by decide
  have hlower : ∀ k < 6, "0123456789abcdef".toList[k + 10]? = some (Char.ofNat (0x61 + k)) := by decide
  constructor
  · intro h
    simp only [hexValue?, Char.le_def, UInt32.le_iff_toNat_le] at h
    -- One case for the digits, and one for the letters of each case.
    split at h
    · rename_i hc
      have hc : 0x30 ≤ c.toNat ∧ c.toNat ≤ 0x39 := hc
      obtain rfl := Option.some.inj h
      left
      rw [hdigits _ (by omega), Nat.add_sub_cancel' hc.1, Char.ofNat_toNat]
    · split at h
      · rename_i hc
        have hc : 0x41 ≤ c.toNat ∧ c.toNat ≤ 0x46 := hc
        obtain rfl := Option.some.inj h
        left
        rw [hupper _ (by omega), Nat.add_sub_cancel' hc.1, Char.ofNat_toNat]
      · split at h
        · rename_i hc
          have hc : 0x61 ≤ c.toNat ∧ c.toNat ≤ 0x66 := hc
          obtain rfl := Option.some.inj h
          right
          rw [hlower _ (by omega), Nat.add_sub_cancel' hc.1, Char.ofNat_toNat]
        · cases h
  · have hvalues : ∀ k < 16, "0123456789ABCDEF".toList[k]?.all (fun d => hexValue? d == some k) = true ∧
        "0123456789abcdef".toList[k]?.all (fun d => hexValue? d == some k) = true := by
      decide
    intro h
    have hn : n < 16 := by
      rcases h with h | h <;> exact (List.getElem?_eq_some_iff.mp h).1
    obtain ⟨hfirst, hsecond⟩ := hvalues n hn
    rcases h with h | h
    · rw [h] at hfirst
      exact eq_of_beq hfirst
    · rw [h] at hsecond
      exact eq_of_beq hsecond

theorem hexUnit?_eq_some_iff (u : UInt16) (n : Nat) : hexUnit? u = some n ↔ IsHexDigit n u := by
  rw [hexUnit?, hexValue?_eq_some_iff, IsHexDigit]
  constructor
  · intro h
    refine ⟨Char.ofNat u.toNat, ?_, h⟩
    -- A surrogate is read as a null character, which is no digit.
    by_contra hsurrogate
    have hnull : Char.ofNat u.toNat = Char.ofNat 0 := by
      rw [Char.ofNat, dif_neg]
      · rfl
      · intro hvalid
        exact hsurrogate (Utf8.toNat_ofNat_of_valid hvalid).symm
    rw [hnull, ← hexValue?_eq_some_iff] at h
    cases h
  · rintro ⟨c, hu, h⟩
    rwa [hu, Char.ofNat_toNat]

theorem IsHexDigit.lt {n : Nat} {u : UInt16} (h : IsHexDigit n u) : n < 16 := by
  obtain ⟨c, -, h | h⟩ := h <;> exact (List.getElem?_eq_some_iff.mp h).1

/-- A percent sign and two digits escape the byte that the digits spell. -/
theorem Escapes.cons_of_hexUnit? {a b : UInt16} {x y : Nat} (hx : hexUnit? a = some x) (hy : hexUnit? b = some y)
    {bs : List UInt8} {raw : List UInt16} (h : Escapes bs raw) :
    Escapes (UInt8.ofNat (x * 16 + y) :: bs) (0x25 :: a :: b :: raw) := by
  have hhigh := (hexUnit?_eq_some_iff a x).mp hx
  have hlow := (hexUnit?_eq_some_iff b y).mp hy
  have hxlt := hhigh.lt
  have hylt := hlow.lt
  have hlt : x * 16 + y < 256 := by omega
  have hbyte : (UInt8.ofNat (x * 16 + y)).toNat = x * 16 + y := UInt8.toNat_ofNat_of_lt' hlt
  refine .cons ?_ ?_ h
  · rwa [hbyte, show (x * 16 + y) / 16 = x by omega]
  · rwa [hbyte, show (x * 16 + y) % 16 = y by omega]

/-- The escapes of the bytes that are left of a character complete it. -/
theorem unitsFrom?_of_completes {st : Utf8.State} {bs : List UInt8} {c : Char} (h : Utf8.Completes st bs c)
    {escapes : List UInt16} (hescapes : Escapes bs escapes) (done rest : List UInt16) :
    unitsFrom? st done (escapes ++ rest) = unitsFrom? .start ((unitsOfChar c).reverse ++ done) rest := by
  have hbyte : ∀ b : UInt8, UInt8.ofNat (b.toNat / 16 * 16 + b.toNat % 16) = b := by
    intro b
    rw [Nat.div_add_mod', UInt8.ofNat_toNat]
  induction h generalizing escapes with
  | last h =>
    cases hescapes with
    | cons hhigh hlow hrest =>
      cases hrest
      rw [List.cons_append, List.cons_append, List.cons_append, List.nil_append, unitsFrom?,
        (hexUnit?_eq_some_iff _ _).mpr hhigh, (hexUnit?_eq_some_iff _ _).mpr hlow]
      simp only [hbyte, h]
  | next h _ ih =>
    cases hescapes with
    | cons hhigh hlow hrest =>
      rw [List.cons_append, List.cons_append, List.cons_append, unitsFrom?, (hexUnit?_eq_some_iff _ _).mpr hhigh,
        (hexUnit?_eq_some_iff _ _).mpr hlow]
      simp only [hbyte, h, ih hrest]

theorem unitsFrom?_plain {u : UInt16} (hu : u ≠ 0x25) (st : Utf8.State) (done rest : List UInt16) :
    unitsFrom? st done (u :: rest) = if st.needed = 0 then unitsFrom? st (u :: done) rest else none := by
  rw [unitsFrom?.eq_def]
  split
  · rename_i h
    cases h
  · rename_i h
    exact absurd (List.cons.inj h).1 hu
  · rename_i h
    obtain ⟨rfl, rfl⟩ := List.cons.inj h
    simp [hu]

theorem unitsFrom?_of_spells {raw text : List UInt16} (h : Spells raw text) (done : List UInt16) :
    unitsFrom? .start done raw = some (done.reverse ++ text) := by
  have hstart : Utf8.State.start.needed = 0 := rfl
  induction h generalizing done with
  | nil => rw [unitsFrom?, if_pos hstart, List.append_nil]
  | plain hu _ ih =>
    rw [unitsFrom?_plain hu, if_pos hstart, ih, List.reverse_cons, List.append_assoc]
    rfl
  | @char c escapes raw text hescapes _ ih =>
    rw [← Utf8.encodeChar_eq] at hescapes
    rw [unitsFrom?_of_completes (Utf8.completes_encodeChar c) hescapes, ih, List.reverse_append, List.reverse_reverse,
      List.append_assoc]

/-- Escapes that take the machine from the start to the end of a character spell the character. -/
theorem Spells.of_completes {bs : List UInt8} {c : Char} {escapes raw text : List UInt16}
    (hcompletes : Utf8.Completes .start bs c) (hescapes : Escapes bs escapes) (h : Spells raw text) :
    Spells (escapes ++ raw) (unitsOfChar c ++ text) := by
  rw [Utf8.eq_encodeChar_of_completes hcompletes, Utf8.encodeChar_eq] at hescapes
  exact .char hescapes h

/-- What is read from the middle of a character starts with escapes that complete it. -/
theorem spells_of_unitsFrom? {st : Utf8.State} {done raw out : List UInt16} (h : unitsFrom? st done raw = some out) :
    (st.needed = 0 → ∃ text, Spells raw text ∧ out = done.reverse ++ text) ∧
      (st.needed ≠ 0 → ∃ bs c escapes rest text, raw = escapes ++ rest ∧ Utf8.Completes st bs c ∧ Escapes bs escapes ∧
        Spells rest text ∧ out = done.reverse ++ (unitsOfChar c ++ text)) := by
  -- A machine between two characters may be taken for one at the start.
  have hbetween : ∀ {st : Utf8.State} {b : UInt8}, st.needed = 0 → Utf8.step st b = Utf8.step .start b := by
    intro st b hst
    rw [Utf8.step, if_pos hst]
    rfl
  fun_induction unitsFrom? st done raw with
  | case1 st done hst =>
    obtain rfl := Option.some.inj h
    exact ⟨fun _ => ⟨[], .nil, by simp⟩, fun hneeded => absurd hst hneeded⟩
  | case2 => cases h
  | case3 st done a b rest x y hy hx st' hstep ih =>
    -- The byte opens or continues a character that further escapes complete.
    obtain ⟨-, hneeded⟩ | ⟨-, hc⟩ := Utf8.step_cases hstep
    · obtain ⟨bs, c, escapes, raw, text, rfl, hcompletes, hescapes, hspells, hout⟩ := (ih h).2 hneeded
      have hall := hescapes.cons_of_hexUnit? hx hy
      constructor
      · intro hst
        rw [hbetween hst] at hstep
        exact ⟨_, .of_completes (.next hstep hcompletes) hall hspells, hout⟩
      · intro _
        exact ⟨_, c, _, raw, text, rfl, .next hstep hcompletes, hall, hspells, hout⟩
    · cases hc
  | case4 st done a b rest x y hy hx st' c hstep ih =>
    -- The byte ends a character.
    obtain ⟨hc, -⟩ | ⟨rfl, -⟩ := Utf8.step_cases hstep
    · cases hc
    · obtain ⟨text, hspells, rfl⟩ := (ih h).1 rfl
      have hone := Escapes.nil.cons_of_hexUnit? hx hy
      have hout : ((unitsOfChar c).reverse ++ done).reverse ++ text = done.reverse ++ (unitsOfChar c ++ text) := by
        rw [List.reverse_append, List.reverse_reverse, List.append_assoc]
      constructor
      · intro hst
        rw [hbetween hst] at hstep
        exact ⟨_, .of_completes (.last hstep) hone hspells, hout⟩
      · intro _
        exact ⟨_, c, _, rest, text, rfl, .last hstep, hone, hspells, hout⟩
  | case5 => cases h
  | case6 => cases h
  | case7 st done u rest _ hu ih =>
    obtain ⟨text, hspells, rfl⟩ := (ih h).1 hu.2
    refine ⟨fun _ => ⟨u :: text, .plain hu.1 hspells, by simp⟩, fun hneeded => absurd hu.2 hneeded⟩
  | case8 => cases h

/-- The strict reader gives the units that a component spells. -/
theorem decodeUnits?_eq_some_iff (raw text : List UInt16) : decodeUnits? raw = some text ↔ Spells raw text := by
  constructor
  · intro h
    obtain ⟨text', hspells, rfl⟩ := (spells_of_unitsFrom? h).1 rfl
    exact hspells
  · intro h
    exact unitsFrom?_of_spells h []

/-- What a component stands for: the units that it spells, or itself if it spells none. -/
def Decodes (raw text : List UInt16) : Prop :=
  Spells raw text ∨ (∀ other, ¬Spells raw other) ∧ text = raw

theorem decodeOrKeep_eq_iff (raw text : List UInt16) : decodeOrKeep raw = text ↔ Decodes raw text := by
  simp only [Decodes, ← decodeUnits?_eq_some_iff, decodeOrKeep]
  cases decodeUnits? raw with
  | none => simp [eq_comm]
  | some other => simp

/-! ## The characters of components -/

/-- A character that a component may hold. -/
def isComponentChar (c : Char) : Bool :=
  isUnreserved c || c == '%'

theorem isComponentChar_hexDigit : ∀ n < 16, isComponentChar (hexDigit n) = true := by
  decide

theorem isComponentChar_of_mem {s : String} {c : Char} (h : c ∈ (encodeComponent s).toList) :
    isComponentChar c = true := by
  rw [encodeComponent, String.toList_ofList, encodeWhere, List.mem_flatMap] at h
  obtain ⟨d, -, hc⟩ := h
  split at hc
  · rename_i hkept
    obtain rfl := List.mem_singleton.mp hc
    simp [isComponentChar, hkept]
  · obtain ⟨b, -, hc⟩ := List.mem_flatMap.mp hc
    have hbyte : b.toNat < 256 := b.toNat_lt
    simp only [escapeByte, List.mem_cons, List.not_mem_nil, or_false] at hc
    rcases hc with rfl | rfl | rfl
    · decide
    · exact isComponentChar_hexDigit _ (by omega)
    · exact isComponentChar_hexDigit _ (by omega)

theorem not_mem_encodeComponent {c : Char} (h : isComponentChar c = false) (s : String) :
    c ∉ (encodeComponent s).toList := by
  intro hmem
  rw [isComponentChar_of_mem hmem] at h
  cases h

/-- Taking plus signs for spaces leaves a component as it is. -/
theorem plusToSpace_encodeComponent (s : String) :
    (encodeComponent s).toList.map (fun c => if c = '+' then ' ' else c) = (encodeComponent s).toList := by
  conv_rhs => rw [← List.map_id (encodeComponent s).toList]
  apply List.map_congr_left
  intro c hc
  rw [if_neg]
  · rfl
  · rintro rfl
    exact not_mem_encodeComponent (by decide) s hc

/-- The characters of components are printed ASCII. -/
theorem toNat_of_isComponentChar {c : Char} (h : isComponentChar c = true) : 0x20 < c.toNat ∧ c.toNat < 0x80 := by
  have hmarks : "-_.!~*'()".toList.all (fun d => decide (0x20 < d.toNat ∧ d.toNat < 0x80)) = true := by
    decide
  have ha : 'a'.val.toNat = 97 := rfl
  have hz : 'z'.val.toNat = 122 := rfl
  have hA : 'A'.val.toNat = 65 := rfl
  have hZ : 'Z'.val.toNat = 90 := rfl
  have h0 : '0'.val.toNat = 48 := rfl
  have h9 : '9'.val.toNat = 57 := rfl
  simp only [isComponentChar, isUnreserved, Bool.or_eq_true, Bool.and_eq_true, decide_eq_true_eq, beq_iff_eq,
    List.contains_iff_mem, Char.le_def, UInt32.le_iff_toNat_le] at h
  rcases h with (((h | h) | h) | hmark) | rfl
  · show 0x20 < c.val.toNat ∧ c.val.toNat < 0x80
    omega
  · show 0x20 < c.val.toNat ∧ c.val.toNat < 0x80
    omega
  · show 0x20 < c.val.toNat ∧ c.val.toNat < 0x80
    omega
  · exact of_decide_eq_true (List.all_eq_true.mp hmarks c hmark)
  · decide

/-- Each character of a component is one unit. -/
theorem exists_char_of_mem_units {s : String} {u : UInt16} (h : u ∈ units (encodeComponent s)) :
    ∃ c, isComponentChar c = true ∧ u.toNat = c.toNat := by
  obtain ⟨c, hc, hu⟩ := List.mem_flatMap.mp h
  have hcomponent := isComponentChar_of_mem hc
  have hbounds := toNat_of_isComponentChar hcomponent
  rw [unitsOfChar_of_lt (by omega), List.mem_singleton] at hu
  exact ⟨c, hcomponent, by rw [hu, toNat_ofNat_unit (by omega)]⟩

/-! ## Reading components back -/

theorem hexValue?_hexDigit : ∀ n < 16, hexValue? (hexDigit n) = some n := by
  decide

theorem hexDigit_lt : ∀ n < 16, (hexDigit n).toNat < 0x80 := by
  decide

theorem isHexDigit_hexDigit {n : Nat} (hn : n < 16) : IsHexDigit n (UInt16.ofNat (hexDigit n).toNat) := by
  have hdigit := hexDigit_lt n hn
  refine ⟨hexDigit n, toNat_ofNat_unit (by omega), ?_⟩
  rw [← hexValue?_eq_some_iff]
  exact hexValue?_hexDigit n hn

/-- Bytes that are written as escapes are escaped by them. -/
theorem escapes_escapeByte (bs : List UInt8) : Escapes bs ((bs.flatMap escapeByte).flatMap unitsOfChar) := by
  induction bs with
  | nil => exact .nil
  | cons b bs ih =>
    have hb : b.toNat < 256 := b.toNat_lt
    have hhigh : b.toNat / 16 < 16 := by omega
    have hlow : b.toNat % 16 < 16 := by omega
    have hdigits : (escapeByte b).flatMap unitsOfChar =
        [0x25, UInt16.ofNat (hexDigit (b.toNat / 16)).toNat, UInt16.ofNat (hexDigit (b.toNat % 16)).toNat] := by
      have hpercent : unitsOfChar '%' = [0x25] := by decide
      rw [escapeByte, List.flatMap_cons, List.flatMap_cons, List.flatMap_singleton, hpercent,
        unitsOfChar_of_lt (Nat.lt_trans (hexDigit_lt _ hhigh) (by decide)),
        unitsOfChar_of_lt (Nat.lt_trans (hexDigit_lt _ hlow) (by decide))]
      rfl
    rw [List.flatMap_cons, List.flatMap_append, hdigits]
    exact .cons (isHexDigit_hexDigit hhigh) (isHexDigit_hexDigit hlow) ih

/-- What is written spells the text, whichever characters of ASCII but `%` are kept. -/
theorem spells_encodeWhere {keep : Char → Bool} (hkeep : ∀ c, keep c = true → c ≠ '%' ∧ c.toNat < 0x80)
    (cs : List Char) : Spells ((encodeWhere keep cs).flatMap unitsOfChar) (cs.flatMap unitsOfChar) := by
  induction cs with
  | nil => exact .nil
  | cons c cs ih =>
    have hcons : encodeWhere keep (c :: cs) =
        (if keep c then [c] else (Utf8.encodeChar c).flatMap escapeByte) ++ encodeWhere keep cs := rfl
    rw [hcons, List.flatMap_append, List.flatMap_cons]
    split
    · rename_i hc
      obtain ⟨hpercent, hascii⟩ := hkeep c hc
      rw [List.flatMap_singleton, unitsOfChar_of_lt (by omega)]
      refine .plain ?_ ih
      intro hunit
      have hnat := congrArg UInt16.toNat hunit
      rw [toNat_ofNat_unit (by omega)] at hnat
      exact hpercent (Char.toNat_inj.mp hnat)
    · exact .char (Utf8.encodeChar_eq c ▸ escapes_escapeByte _) ih

/-- A text is read back from its component. -/
theorem decodeUnits?_encodeComponent (s : String) : decodeUnits? (units (encodeComponent s)) = some (units s) := by
  have hkeep : ∀ c, isUnreserved c = true → c ≠ '%' ∧ c.toNat < 0x80 := by
    intro c hc
    refine ⟨?_, (toNat_of_isComponentChar (by simp [isComponentChar, hc])).2⟩
    rintro rfl
    revert hc
    decide
  rw [decodeUnits?_eq_some_iff, encodeComponent, units_ofList]
  exact spells_encodeWhere hkeep s.toList

theorem decodeOrKeep_encodeComponent (s : String) : decodeOrKeep (units (encodeComponent s)) = units s := by
  rw [decodeOrKeep, decodeUnits?_encodeComponent, Option.getD_some]

theorem encodeComponent_ne_empty {s : String} (h : s ≠ "") : encodeComponent s ≠ "" := by
  intro hempty
  have hread := decodeUnits?_encodeComponent s
  rw [hempty] at hread
  have hunits : [] = units s := Option.some.inj hread
  exact h ((units_eq_nil_iff s).mp hunits.symm)

/-! ## Lenient reading -/

theorem lenientBytesFrom_plain {c : Char} (hc : c ≠ '%') (done : List UInt8) (rest : List Char) :
    lenientBytesFrom done (c :: rest) = lenientBytesFrom ((Utf8.encodeChar c).reverse ++ done) rest := by
  -- The reader looks for an escape only if two more characters follow.
  match rest with
  | [] => rw [lenientBytesFrom.eq_def]
  | [a] => rw [lenientBytesFrom.eq_def]
  | a :: b :: rest => rw [lenientBytesFrom, if_neg hc]

theorem lenientBytesFrom_escapes (done bs : List UInt8) (rest : List Char) :
    lenientBytesFrom done (bs.flatMap escapeByte ++ rest) = lenientBytesFrom (bs.reverse ++ done) rest := by
  induction bs generalizing done with
  | nil => rfl
  | cons b bs ih =>
    have hb : b.toNat < 256 := b.toNat_lt
    have hhigh := hexValue?_hexDigit (b.toNat / 16) (by omega)
    have hlow := hexValue?_hexDigit (b.toNat % 16) (by omega)
    rw [List.flatMap_cons, List.append_assoc]
    show lenientBytesFrom done
      ('%' :: hexDigit (b.toNat / 16) :: hexDigit (b.toNat % 16) :: (bs.flatMap escapeByte ++ rest)) = _
    rw [lenientBytesFrom, if_pos rfl, hhigh, hlow]
    simp only [Nat.div_add_mod', UInt8.ofNat_toNat]
    rw [ih, List.reverse_cons, List.append_assoc]
    rfl

theorem lenientBytesFrom_encodeWhere {keep : Char → Bool} (hkeep : keep '%' = false) (done : List UInt8)
    (cs : List Char) :
    lenientBytesFrom done (encodeWhere keep cs) = done.reverse ++ cs.flatMap Utf8.encodeChar := by
  induction cs generalizing done with
  | nil =>
    rw [List.flatMap_nil, List.append_nil]
    rfl
  | cons c cs ih =>
    have hcons : encodeWhere keep (c :: cs) =
        (if keep c then [c] else (Utf8.encodeChar c).flatMap escapeByte) ++ encodeWhere keep cs := rfl
    -- Kept or escaped, the character adds its bytes to those read so far, which stand last first.
    have hfirst : lenientBytesFrom done (encodeWhere keep (c :: cs)) =
        lenientBytesFrom ((Utf8.encodeChar c).reverse ++ done) (encodeWhere keep cs) := by
      rw [hcons]
      split
      · rename_i hkept
        have hc : c ≠ '%' := by
          rintro rfl
          rw [hkeep] at hkept
          cases hkept
        exact lenientBytesFrom_plain hc done _
      · exact lenientBytesFrom_escapes done (Utf8.encodeChar c) _
    rw [hfirst, ih, List.reverse_append, List.reverse_reverse, List.flatMap_cons, List.append_assoc]

theorem decodeLenient_encodeComponent (s : String) : decodeLenient (encodeComponent s) = s := by
  rw [decodeLenient, lenientBytes, encodeComponent, String.toList_ofList,
    lenientBytesFrom_encodeWhere (by decide : isUnreserved '%' = false), List.reverse_nil, List.nil_append]
  exact Utf8.decodeLossy_encode s

end Gateway.Text.Percent

import Gateway.Proofs.JsonNumbers

/-!
# JSON texts are read back

`Reads cs v` says that wherever a value may stand, the text `cs` is read as `v` and what follows it is left.  Each
part of the writer gives such texts: quoted strings, numbers, lists and objects.  `kept` is what a JSON text keeps of a
value, and `reads_write` says that the text of a value is read as that.
-/

namespace Gateway.Json

/-! ## Strings -/

theorem hex4?_hexDigit : ∀ n < 0x20, hex4? '0' '0' (hexDigit (n / 16)) (hexDigit (n % 16)) = some n := by
  decide

theorem readString_plain {c : Char} (hquote : c ≠ '"') (hslash : c ≠ '\\') (hcontrol : ¬c.toNat < 0x20)
    (done more : List Char) : readString none done (c :: more) = readString none (c :: done) more := by
  rw [readString.eq_5 _ _ _ _ hquote (fun _ _ _ _ _ h => absurd h hslash) (fun _ _ h => absurd h hslash),
    if_neg (not_or.mpr ⟨hcontrol, hslash⟩)]
  rfl

/-- An escaped character is read as itself. -/
theorem readString_escapeChar (c : Char) (done more : List Char) :
    readString none done (escapeChar c ++ more) = readString none (c :: done) more := by
  unfold escapeChar
  split_ifs with hquote hslash hnewline hreturn htab hback hfeed hcontrol
  · subst hquote; rfl
  · subst hslash; rfl
  · subst hnewline; rfl
  · subst hreturn; rfl
  · subst htab; rfl
  · obtain rfl : c = Char.ofNat 8 := by rw [← hback, Char.ofNat_toNat]
    rfl
  · obtain rfl : c = Char.ofNat 12 := by rw [← hfeed, Char.ofNat_toNat]
    rfl
  · -- A control character is written with its code, which is no surrogate.
    have hvalue := hex4?_hexDigit c.toNat hcontrol
    have hlow : ¬(0xDC00 ≤ c.toNat ∧ c.toNat < 0xE000) := by omega
    have hhigh : ¬(0xD800 ≤ c.toNat ∧ c.toNat < 0xDC00) := by omega
    simp only [List.cons_append, List.nil_append, readString, hvalue, hlow, hhigh, if_false, Char.ofNat_toNat,
      readString.flush]
  · exact readString_plain hquote hslash hcontrol done more

theorem readString_flatMap (cs done rest : List Char) :
    readString none done (cs.flatMap escapeChar ++ '"' :: rest) = some (done.reverse ++ cs, rest) := by
  induction cs generalizing done with
  | nil => simp [readString, readString.flush]
  | cons c cs ih =>
    rw [List.flatMap_cons, List.append_assoc, readString_escapeChar, ih]
    simp

/-- A quoted string is read as itself, whatever follows it. -/
theorem readString_quote (cs rest : List Char) :
    readString none [] (cs.flatMap escapeChar ++ '"' :: rest) = some (cs, rest) :=
  readString_flatMap cs [] rest

/-! ## Texts of values -/

/-- Whether a character may start the text of a value: it is no blank, no end of a list and no byte order mark. -/
def StartsValue (c : Char) : Prop :=
  isSpace c = false ∧ c ≠ ']' ∧ c.toNat < 0x80

instance (c : Char) : Decidable (StartsValue c) :=
  inferInstanceAs (Decidable (_ ∧ _))

/-- Whether a text is read as a value wherever a value may stand: with as many steps as it has characters, and before
anything that is no part of a number. -/
structure Reads (cs : List Char) (v : Value) : Prop where
  start : ∃ c more, cs = c :: more ∧ StartsValue c
  read : ∀ {steps : Nat} {rest : List Char}, cs.length ≤ steps → EndsNumber rest →
    readValue steps (cs ++ rest) = some (v, rest)

theorem skipSpace_cons {c : Char} (hc : isSpace c = false) (cs : List Char) : skipSpace (c :: cs) = c :: cs := by
  simp [skipSpace, hc]

theorem endsNumber_cons {c : Char} (hc : c.isDigit = false) (hpoint : c ≠ '.') (hexp : c ≠ 'e' ∧ c ≠ 'E')
    (rest : List Char) : EndsNumber (c :: rest) := by
  constructor
  · intro d ds h
    obtain ⟨rfl, -⟩ := List.cons.inj h
    exact hc
  · intro ds h
    exact hpoint (List.cons.inj h).1
  · intro d ds h
    obtain ⟨rfl, -⟩ := List.cons.inj h
    exact hexp

/-- A text of at least one character is read with at least one step. -/
theorem Reads.mk_succ {c : Char} {more : List Char} {v : Value} (hstart : StartsValue c)
    (h : ∀ steps rest, more.length ≤ steps → EndsNumber rest →
      readValue (steps + 1) (c :: (more ++ rest)) = some (v, rest)) :
    Reads (c :: more) v := by
  refine ⟨⟨c, more, rfl, hstart⟩, ?_⟩
  intro steps rest hsteps hrest
  cases steps with
  | zero => simp at hsteps
  | succ steps => exact h steps rest (by simpa using hsteps) hrest

theorem reads_null : Reads "null".toList .null :=
  .mk_succ (by decide) fun _ _ _ _ => rfl

theorem reads_bool (b : Bool) : Reads (if b then "true" else "false").toList (.bool b) := by
  cases b with
  | true => exact .mk_succ (by decide) fun _ _ _ _ => rfl
  | false => exact .mk_succ (by decide) fun _ _ _ _ => rfl

theorem reads_quote (cs : List Char) : Reads (quote cs) (.string (String.ofList cs)) := by
  refine .mk_succ (by decide) ?_
  intro steps rest _ _
  rw [List.append_assoc, List.singleton_append]
  simp only [readValue, skipSpace_cons (by rfl : isSpace '"' = false), readString_quote, Option.map_some]

/-- The first character of a number is no other sign. -/
theorem ne_of_numeral {c : Char} (hc : c = '-' ∨ c.isDigit = true) {d : Char} (hminus : d ≠ '-')
    (hdigit : d.isDigit = false) : c ≠ d := by
  rintro rfl
  rcases hc with rfl | hc
  · exact hminus rfl
  · rw [hdigit] at hc
    cases hc

theorem isSpace_of_numeral {c : Char} (hc : c = '-' ∨ c.isDigit = true) : isSpace c = false := by
  simp [isSpace, ne_of_numeral hc (by decide) (by rfl : ' '.isDigit = false),
    ne_of_numeral hc (by decide) (by rfl : '\t'.isDigit = false),
    ne_of_numeral hc (by decide) (by rfl : '\n'.isDigit = false),
    ne_of_numeral hc (by decide) (by rfl : '\r'.isDigit = false)]

theorem startsValue_of_numeral {c : Char} (hc : c = '-' ∨ c.isDigit = true) : StartsValue c := by
  refine ⟨isSpace_of_numeral hc, ne_of_numeral hc (by decide) rfl, ?_⟩
  rcases hc with rfl | hc
  · decide
  · have h : c.toNat ≤ 0x39 := (Char.isDigit_iff_toNat.mp hc).2
    omega

theorem readValue_numeral {c : Char} (hc : c = '-' ∨ c.isDigit = true) (steps : Nat) (cs : List Char) :
    readValue (steps + 1) (c :: cs) = (readNumber? (c :: cs)).map fun (n, rest) => (.number n, rest) := by
  rw [readValue, skipSpace_cons (isSpace_of_numeral hc)]
  split
  · next h => cases h
  · next h => exact absurd (List.cons.inj h).1 (ne_of_numeral hc (by decide) rfl)
  · next h => exact absurd (List.cons.inj h).1 (ne_of_numeral hc (by decide) rfl)
  · next h => exact absurd (List.cons.inj h).1 (ne_of_numeral hc (by decide) rfl)
  · next h => exact absurd (List.cons.inj h).1 (ne_of_numeral hc (by decide) rfl)
  · next h => exact absurd (List.cons.inj h).1 (ne_of_numeral hc (by decide) rfl)
  · next h => exact absurd (List.cons.inj h).1 (ne_of_numeral hc (by decide) rfl)
  · rfl

/-- What a JSON text keeps of a number: one that is not finite is sent as null. -/
def keptOfNumber (n : Number) : Value :=
  if hasNumeral n then .number (keptNumber n) else .null

theorem reads_writeNumber (n : Number) : Reads (writeNumber n) (keptOfNumber n) := by
  cases hn : hasNumeral n with
  | false =>
    cases n with
    | nan => exact reads_null
    | infinity negative => exact reads_null
    | _ => cases hn
  | true =>
    have hwrite : writeNumber n = n.chars := by
      cases n with
      | nan => cases hn
      | infinity negative => cases hn
      | _ => rfl
    obtain ⟨c, cs, hcs, hc⟩ := chars_head hn
    rw [hwrite, keptOfNumber, if_pos hn, hcs]
    refine .mk_succ (startsValue_of_numeral hc) ?_
    intro steps rest _ hrest
    have hread := readNumber?_chars hn hrest
    rw [hcs, List.cons_append] at hread
    rw [readValue_numeral hc, hread]
    rfl

/-! ## Lists -/

theorem endsNumber_comma (rest : List Char) : EndsNumber (',' :: rest) :=
  endsNumber_cons rfl (by decide) (by decide) rest

theorem endsNumber_bracket (rest : List Char) : EndsNumber (']' :: rest) :=
  endsNumber_cons rfl (by decide) (by decide) rest

theorem endsNumber_brace (rest : List Char) : EndsNumber ('}' :: rest) :=
  endsNumber_cons rfl (by decide) (by decide) rest

theorem Reads.length_pos {cs : List Char} {v : Value} (h : Reads cs v) : 0 < cs.length := by
  obtain ⟨c, more, rfl, -⟩ := h.start
  exact Nat.succ_pos _

theorem readItems_comma {steps : Nat} {cs more : List Char} {v : Value}
    (h : readValue steps cs = some (v, ',' :: more)) (done : List Value) :
    readItems (steps + 1) done cs = readItems steps (v :: done) more := by
  simp [readItems, h, skipSpace, isSpace]

theorem readItems_end {steps : Nat} {cs more : List Char} {v : Value}
    (h : readValue steps cs = some (v, ']' :: more)) (done : List Value) :
    readItems (steps + 1) done cs = some (.array (v :: done).reverse, more) := by
  simp [readItems, h, skipSpace, isSpace]

theorem commas_cons_cons (part next : List Char) (parts : List (List Char)) :
    commas (part :: next :: parts) = part ++ ',' :: commas (next :: parts) := rfl

/-- Items with commas between them are read up to the end of the list. -/
theorem readItems_commas {part : List Char} {v : Value} {parts : List (List Char)} {vs : List Value}
    (hfirst : Reads part v) (hrest : List.Forall₂ Reads parts vs) {steps : Nat} {done : List Value}
    {rest : List Char} (hsteps : (commas (part :: parts)).length < steps) :
    readItems steps done (commas (part :: parts) ++ ']' :: rest) =
      some (.array (done.reverse ++ v :: vs), rest) := by
  induction hrest generalizing part v steps done with
  | nil =>
    obtain ⟨k, rfl⟩ := Nat.exists_eq_succ_of_ne_zero (by omega : steps ≠ 0)
    have hread := hfirst.read (Nat.le_of_lt_succ hsteps) (endsNumber_bracket rest)
    rw [commas, readItems_end hread, List.reverse_cons]
  | @cons next w parts vs hnext _ ih =>
    -- An item costs one step and has at least one character, so the steps that are left are enough for the rest.
    obtain ⟨k, rfl⟩ := Nat.exists_eq_succ_of_ne_zero (by omega : steps ≠ 0)
    have hpos := hfirst.length_pos
    rw [commas_cons_cons, List.length_append, List.length_cons] at hsteps
    rw [commas_cons_cons, List.append_assoc, List.cons_append]
    have hread := hfirst.read (by omega : part.length ≤ k) (endsNumber_comma (commas (next :: parts) ++ ']' :: rest))
    rw [readItems_comma hread, ih hnext (by omega), List.reverse_cons, List.append_assoc, List.singleton_append]

theorem commas_start {part : List Char} {v : Value} (h : Reads part v) (parts : List (List Char)) :
    ∃ c more, commas (part :: parts) = c :: more ∧ StartsValue c := by
  obtain ⟨c, more, rfl, hc⟩ := h.start
  cases parts with
  | nil => exact ⟨c, more, rfl, hc⟩
  | cons next parts => exact ⟨c, more ++ ',' :: commas (next :: parts), rfl, hc⟩

theorem readValue_items {steps : Nat} {c : Char} {cs : List Char} (hc : StartsValue c) :
    readValue (steps + 1) ('[' :: c :: cs) = readItems steps [] (c :: cs) := by
  rw [readValue, skipSpace_cons (by rfl)]
  simp only [skipSpace_cons hc.1]
  split
  · next h => exact absurd (List.cons.inj h).1 hc.2.1
  · rfl

/-- A list is read item by item. -/
theorem reads_brackets {parts : List (List Char)} {vs : List Value} (h : List.Forall₂ Reads parts vs) :
    Reads (brackets parts) (.array vs) := by
  refine .mk_succ (by decide) ?_
  intro steps rest hsteps _
  cases h with
  | nil => rfl
  | @cons part v parts vs hfirst hothers =>
    rw [List.length_append, List.length_singleton] at hsteps
    have hread : readItems steps [] (commas (part :: parts) ++ ']' :: rest) = some (.array (v :: vs), rest) :=
      readItems_commas hfirst hothers (by omega)
    obtain ⟨c, more, hstart, hc⟩ := commas_start hfirst parts
    rw [hstart, List.cons_append] at hread
    rw [List.append_assoc, List.singleton_append, hstart, List.cons_append, readValue_items hc, hread]

/-! ## Objects -/

/-- Whether a text is that of a member of an object. -/
def ReadsMember (cs : List Char) (member : String × Value) : Prop :=
  ∃ text, cs = memberText member.1 text ∧ Reads text member.2

theorem memberText_append (key : String) (text rest : List Char) :
    memberText key text ++ rest = '"' :: (key.toList.flatMap escapeChar ++ '"' :: ':' :: (text ++ rest)) := by
  simp [memberText, quote]

theorem readMembers_comma {steps : Nat} {text rest more : List Char} {v : Value}
    (h : readValue steps (text ++ rest) = some (v, ',' :: more)) (key : String) (done : List (String × Value)) :
    readMembers (steps + 1) done (memberText key text ++ rest) = readMembers steps ((key, v) :: done) more := by
  rw [memberText_append, readMembers, skipSpace_cons (by rfl)]
  simp [readString_quote, skipSpace, isSpace, h]

theorem readMembers_end {steps : Nat} {text rest more : List Char} {v : Value}
    (h : readValue steps (text ++ rest) = some (v, '}' :: more)) (key : String) (done : List (String × Value)) :
    readMembers (steps + 1) done (memberText key text ++ rest) =
      some (.object (Entries.ofPairs ((key, v) :: done).reverse), more) := by
  rw [memberText_append, readMembers, skipSpace_cons (by rfl)]
  simp [readString_quote, skipSpace, isSpace, h]

/-- Members with commas between them are read up to the end of the object. -/
theorem readMembers_commas {part : List Char} {m : String × Value} {parts : List (List Char)}
    {ms : List (String × Value)} (hfirst : ReadsMember part m) (hrest : List.Forall₂ ReadsMember parts ms)
    {steps : Nat} {done : List (String × Value)} {rest : List Char}
    (hsteps : (commas (part :: parts)).length < steps) :
    readMembers steps done (commas (part :: parts) ++ '}' :: rest) =
      some (.object (Entries.ofPairs (done.reverse ++ m :: ms)), rest) := by
  induction hrest generalizing part m steps done with
  | nil =>
    obtain ⟨text, rfl, hread⟩ := hfirst
    obtain ⟨k, rfl⟩ := Nat.exists_eq_succ_of_ne_zero (by omega : steps ≠ 0)
    have hlength : text.length ≤ k := by
      simp only [commas, memberText, List.length_append, List.length_cons] at hsteps
      omega
    have h := hread.read hlength (endsNumber_brace rest)
    rw [commas, readMembers_end h, List.reverse_cons]
  | @cons next n parts ms hnext _ ih =>
    obtain ⟨text, rfl, hread⟩ := hfirst
    obtain ⟨k, rfl⟩ := Nat.exists_eq_succ_of_ne_zero (by omega : steps ≠ 0)
    simp only [commas_cons_cons, memberText, List.length_append, List.length_cons] at hsteps
    rw [commas_cons_cons, List.append_assoc, List.cons_append]
    -- The key and its quotes make a member longer than the text of its value.
    have h := hread.read (by omega : text.length ≤ k) (endsNumber_comma (commas (next :: parts) ++ '}' :: rest))
    rw [readMembers_comma h, ih hnext (by omega), List.reverse_cons, List.append_assoc, List.singleton_append]

/-- An object is read member by member. -/
theorem reads_braces {parts : List (List Char)} {ms : List (String × Value)}
    (h : List.Forall₂ ReadsMember parts ms) : Reads (braces parts) (.object (Entries.ofPairs ms)) := by
  refine .mk_succ (by decide) ?_
  intro steps rest hsteps _
  cases h with
  | nil => rfl
  | @cons part m parts ms hfirst hothers =>
    rw [List.length_append, List.length_singleton] at hsteps
    have hread : readMembers steps [] (commas (part :: parts) ++ '}' :: rest) =
        some (.object (Entries.ofPairs (m :: ms)), rest) := readMembers_commas hfirst hothers (by omega)
    obtain ⟨more, hstart⟩ : ∃ more, commas (part :: parts) = '"' :: more := by
      obtain ⟨text, rfl, -⟩ := hfirst
      cases parts with
      | nil => exact ⟨_, rfl⟩
      | cons next parts => exact ⟨_, rfl⟩
    rw [hstart, List.cons_append] at hread
    rw [List.append_assoc, List.singleton_append, hstart, List.cons_append, ← hread]
    rfl

/-! ## What a text keeps of a value -/

/-- The object that is read from the members of a written one, if it is written entry by entry. -/
def keptObject (form : Form) (members : List (String × Value)) : Option Value :=
  match form with
  | .entries => some (.object (Entries.ofPairs members))
  | _ => none

mutual

/-- What a JSON text keeps of a value, if the value has a text. -/
def kept : Value → Option Value
  | .undefined | .function _ _ | .symbol _ | .bigint _ => none
  | .null => some .null
  | .bool b => some (.bool b)
  | .number n => some (keptOfNumber n)
  | .string s => some (.string s)
  | .date none => some .null
  | .date (some moment) => some (.string (Calendar.write moment))
  | .error _ _ => some (.object [])
  | .raised mark fields =>
    keptObject (raisedForm fields) (keptMembers (writesField fields) fields ++ [Value.tagEntry mark])
  | .array items => some (.array (keptItems items))
  | .object entries =>
    keptObject (formOf ((Value.object entries).member "toJSON")) (keptMembers (fun _ _ => true) entries)
  | .heir parent entries =>
    keptObject (formOf ((Value.heir parent entries).member "toJSON")) (keptMembers (fun _ _ => true) entries)

/-- What is kept of the items of a list: null for those without a text. -/
def keptItems : List Value → List Value
  | [] => []
  | v :: rest => (kept v).getD .null :: keptItems rest

/-- What is kept of the members of an object: those with a text. -/
def keptMembers (shown : String → Value → Bool) : List (String × Value) → List (String × Value)
  | [] => []
  | (key, v) :: rest =>
    if shown key v then
      match kept v with
      | some w => (key, w) :: keptMembers shown rest
      | none => keptMembers shown rest
    else keptMembers shown rest

end

/-- An object whose members are read is read, if it is written entry by entry. -/
theorem reads_keptObject {form : Form} {written : Attempt (List (List Char))}
    {members : List (String × Value)} {text : Option (List Char)} (finish : List (List Char) → List (List Char))
    (hwritten : ∀ parts, written = .ok parts → List.Forall₂ ReadsMember (finish parts) members)
    (h : (match form with
      | .nothing => .ok none
      | .fault f => .error f
      | .entries => written.map fun parts => some (braces (finish parts)) : Attempt (Option (List Char))) = .ok text) :
    Option.Rel Reads text (keptObject form members) := by
  cases form with
  | nothing =>
    obtain rfl := Except.ok.inj h
    exact .none
  | fault f => cases h
  | entries =>
    cases written with
    | error f => cases h
    | ok parts =>
      obtain rfl := Except.ok.inj h
      exact .some (reads_braces (hwritten parts rfl))

theorem readsMember_tag (mark : ErrorMark) :
    ReadsMember (memberText "_tag" (quote mark.tag.toList)) (Value.tagEntry mark) := by
  refine ⟨_, rfl, ?_⟩
  have h := reads_quote mark.tag.toList
  rwa [String.ofList_toList] at h

/-- An item without a text is written, and read, as null. -/
theorem reads_getD {text : Option (List Char)} {w : Option Value} (h : Option.Rel Reads text w) :
    Reads (text.getD "null".toList) (w.getD .null) := by
  cases h with
  | some h => exact h
  | none => exact reads_null

mutual

/-- The text of a value is read as what it keeps of the value. -/
theorem reads_write : ∀ {v : Value} {text : Option (List Char)}, write v = .ok text → Option.Rel Reads text (kept v)
  | .undefined, _, h | .function _ _, _, h | .symbol _, _, h => by
    obtain rfl := Except.ok.inj h
    exact .none
  | .bigint _, _, h => by cases h
  | .null, _, h => by
    obtain rfl := Except.ok.inj h
    exact .some reads_null
  | .bool b, _, h => by
    obtain rfl := Except.ok.inj h
    exact .some (reads_bool b)
  | .number n, _, h => by
    obtain rfl := Except.ok.inj h
    exact .some (reads_writeNumber n)
  | .string s, _, h => by
    obtain rfl := Except.ok.inj h
    have hs := reads_quote s.toList
    rw [String.ofList_toList] at hs
    exact .some hs
  | .date none, _, h => by
    obtain rfl := Except.ok.inj h
    exact .some reads_null
  | .date (some moment), _, h => by
    obtain rfl := Except.ok.inj h
    have hs := reads_quote (Calendar.write moment).toList
    rw [String.ofList_toList] at hs
    exact .some hs
  | .error _ _, _, h => by
    obtain rfl := Except.ok.inj h
    exact .some (reads_braces .nil)
  | .raised mark fields, _, h => by
    rw [write] at h
    rw [kept]
    refine reads_keptObject (fun parts => parts ++ [memberText "_tag" (quote mark.tag.toList)]) ?_ h
    intro parts hparts
    exact List.rel_append (reads_writeMembers hparts) (.cons (readsMember_tag mark) .nil)
  | .array items, _, h => by
    rw [write] at h
    cases hitems : writeItems items with
    | error f =>
      rw [hitems] at h
      cases h
    | ok parts =>
      rw [hitems] at h
      obtain rfl := Except.ok.inj h
      exact .some (reads_brackets (reads_writeItems hitems))
  | .object entries, _, h => by
    rw [write] at h
    rw [kept]
    exact reads_keptObject id (fun parts hparts => reads_writeMembers hparts) h
  | .heir parent entries, _, h => by
    rw [write] at h
    rw [kept]
    exact reads_keptObject id (fun parts hparts => reads_writeMembers hparts) h

theorem reads_writeItems : ∀ {items : List Value} {parts : List (List Char)}, writeItems items = .ok parts →
    List.Forall₂ Reads parts (keptItems items)
  | [], _, h => by
    obtain rfl := Except.ok.inj h
    exact .nil
  | v :: rest, _, h => by
    rw [writeItems] at h
    cases hv : write v with
    | error f =>
      rw [hv] at h
      cases h
    | ok text =>
      rw [hv] at h
      cases hrest : writeItems rest with
      | error f =>
        rw [hrest] at h
        cases h
      | ok parts =>
        rw [hrest] at h
        obtain rfl := Except.ok.inj h
        exact .cons (reads_getD (reads_write hv)) (reads_writeItems hrest)

theorem reads_writeMembers : ∀ {shown : String → Value → Bool} {entries : List (String × Value)}
    {parts : List (List Char)}, writeMembers shown entries = .ok parts →
    List.Forall₂ ReadsMember parts (keptMembers shown entries)
  | _, [], _, h => by
    obtain rfl := Except.ok.inj h
    exact .nil
  | shown, (key, v) :: rest, _, h => by
    rw [writeMembers] at h
    rw [keptMembers]
    cases hshown : shown key v with
    | false =>
      rw [hshown] at h
      exact reads_writeMembers h
    | true =>
      rw [hshown, if_pos rfl] at h
      rw [if_pos rfl]
      cases hv : write v with
      | error f =>
        rw [hv] at h
        cases h
      | ok text =>
        have hread := reads_write hv
        rw [hv] at h
        generalize kept v = w at hread ⊢
        cases hread with
        | none => exact reads_writeMembers h
        | @some cs w hcs =>
          cases hrest : writeMembers shown rest with
          | error f =>
            rw [hrest] at h
            cases h
          | ok parts =>
            rw [hrest] at h
            obtain rfl := Except.ok.inj h
            exact .cons ⟨cs, rfl, hcs⟩ (reads_writeMembers hrest)

end

end Gateway.Json

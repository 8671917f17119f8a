import Gateway.Proofs.Conversions
import Gateway.Proofs.UnsignedZeros

/-!
# Reading does not tell zeros apart

A conversion respects values up to the signs of zeros if it gives such values for such values, or the same refusal or
fault (`Respects`).  Each way to build a conversion from others keeps this, so reading by any schema has it
(`respects_convert`, by recursion on the schema, and `respects_decode`).  A stronger statement fails: a text may spell
a negative zero, so what is read from a value without negative zeros need not be without them.
-/

namespace Gateway

/-! ## Verdicts up to a view -/

namespace Verdict

variable {α β γ δ : Type}

/-- Two verdicts that are alike in some view accept values that are, or refuse both, or stop at one fault. -/
theorem cases_of_map {f : α → γ} {v w : Verdict α} (h : v.map f = w.map f) :
    (∃ a b, v = .accepted a ∧ w = .accepted b ∧ f a = f b) ∨ (v = .refused ∧ w = .refused) ∨
      ∃ fault, v = .broken fault ∧ w = .broken fault := by
  cases v with
  | accepted a =>
    cases w with
    | accepted b => exact .inl ⟨a, b, rfl, rfl, accepted.inj h⟩
    | _ => cases h
  | refused =>
    cases w with
    | refused => exact .inr (.inl ⟨rfl, rfl⟩)
    | _ => cases h
  | broken fault =>
    cases w with
    | broken fault' =>
      obtain rfl := broken.inj h
      exact .inr (.inr ⟨fault, rfl, rfl⟩)
    | _ => cases h

/-- Verdicts that are alike go on alike, if what follows does not look closer. -/
theorem bind_of_map {f : α → γ} {k : β → δ} {v w : Verdict α} {g h : α → Verdict β} (hvw : v.map f = w.map f)
    (hnext : ∀ a b, f a = f b → (g a).map k = (h b).map k) : (v.bind g).map k = (w.bind h).map k := by
  rcases cases_of_map hvw with ⟨a, b, rfl, rfl, hab⟩ | ⟨rfl, rfl⟩ | ⟨fault, rfl, rfl⟩
  · exact hnext a b hab
  · rfl
  · rfl

theorem map_of_map {f : α → γ} {k : β → δ} {v w : Verdict α} {p q : α → β} (hvw : v.map f = w.map f)
    (hnext : ∀ a b, f a = f b → k (p a) = k (q b)) : (v.map p).map k = (w.map q).map k :=
  bind_of_map hvw fun a b hab => congrArg accepted (hnext a b hab)

theorem orElse_of_map {f : α → γ} {v w : Verdict α} {g h : Unit → Verdict α} (hvw : v.map f = w.map f)
    (hnext : (g ()).map f = (h ()).map f) : (v.orElse g).map f = (w.orElse h).map f := by
  rcases cases_of_map hvw with ⟨a, b, rfl, rfl, -⟩ | ⟨rfl, rfl⟩ | ⟨fault, rfl, rfl⟩
  · exact hvw
  · exact hnext
  · rfl

theorem after_of_map {f : α → γ} {a : Attempt β} {g h : β → Verdict α} (hnext : ∀ b, (g b).map f = (h b).map f) :
    (after a g).map f = (after a h).map f := by
  cases a with
  | ok b => exact hnext b
  | error fault => rfl

end Verdict

namespace Schema

open Value (unsigned unsignedItems unsignedEntries unsignedItems_eq_map unsignedEntries_eq_map)

/-! ## Conditions and choices -/

theorem isLiteral_unsigned (l : Literal) (v : Value) : isLiteral l v.unsigned = isLiteral l v := by
  cases v with
  | number n =>
    cases l with
    | number m => exact Number.same_keptNumber m n
    | _ => rfl
  | _ => cases l <;> rfl

theorem lengthOf_unsigned (v : Value) : lengthOf v.unsigned = (lengthOf v).map unsigned := by
  have hother : ∀ w : Value, (if w.unsigned.isScalar then .undefined else w.unsigned.member "length") =
      (if w.isScalar then .undefined else w.member "length").unsigned := by
    intro w
    rw [Value.isScalar_unsigned, Value.member_unsigned]
    split <;> rfl
  cases v with
  | undefined | null => rfl
  | string s => simp only [unsigned, lengthOf, Except.map, Number.keptNumber_ofInt]
  | _ => exact congrArg Except.ok (hother _)

theorem holds_unsigned (f : Filter) (v : Value) : holds f v.unsigned = holds f v := by
  cases f with
  | safeInteger =>
    cases v with
    | number n => exact congrArg Except.ok (Number.isSafeInteger_keptNumber n)
    | _ => rfl
  | nonEmpty => cases v <;> rfl
  | minLength n =>
    simp only [holds, lengthOf_unsigned]
    cases lengthOf v with
    | error fault => rfl
    | ok w => exact Value.atLeast_unsigned w n
  | maxLength n =>
    simp only [holds, lengthOf_unsigned]
    cases lengthOf v with
    | error fault => rfl
    | ok w => exact Value.atMost_unsigned w n
  | between low high => simp only [holds, Value.atLeast_unsigned, Value.atMost_unsigned]

theorem shown_unsigned (v : Value) (tagged : Entries (Entries (List Nat))) :
    Filing.shown v.unsigned tagged = Filing.shown v tagged := by
  induction tagged with
  | nil => rfl
  | cons bucket rest ih =>
    rw [Filing.shown, Filing.shown, Value.own?_unsigned, ih]
    cases v.own? bucket.1 with
    | none => rfl
    | some w => simp only [Option.map_some, Value.display_unsigned]

theorem candidates_unsigned (defs : Definitions) (side : Side) (members : List Schema) (v : Value) :
    candidates defs side members v.unsigned = candidates defs side members v := by
  unfold candidates
  congr 1
  funext filing
  rw [Filing.candidates, Filing.candidates, Value.isComposite_unsigned, shown_unsigned]

/-! ## Parts -/

/-- A conversion that does not tell zeros apart: from values that differ in the signs of zeros only it gives such
values, or the same refusal or fault. -/
def Respects (c : Conversion) : Prop :=
  ∀ v w : Value, v.unsigned = w.unsigned → (c v).map unsigned = (c w).map unsigned

theorem respects_of_unsigned {c : Conversion} (h : ∀ v : Value, (c v.unsigned).map unsigned = (c v).map unsigned) :
    Respects c := by
  intro v w hvw
  rw [← h v, hvw, h w]

theorem respects_guarded {holds : Value → Bool} (h : ∀ v : Value, holds v.unsigned = holds v) :
    Respects fun v => .guarded (holds v) v := by
  refine respects_of_unsigned fun v => ?_
  rw [h]
  cases holds v with
  | false => rfl
  | true => exact congrArg Verdict.accepted (Value.unsigned_unsigned v)

theorem bind_cons_unsigned {x y : Verdict Value} {r q : Verdict (List Value)} (hxy : x.map unsigned = y.map unsigned)
    (hrq : r.map unsignedItems = q.map unsignedItems) :
    (x.bind fun w => r.map (w :: ·)).map unsignedItems = (y.bind fun w => q.map (w :: ·)).map unsignedItems := by
  refine Verdict.bind_of_map hxy fun a b hab => Verdict.map_of_map hrq fun as bs habs => ?_
  rw [unsignedItems, unsignedItems, hab, habs]

theorem bind_cons_entry_unsigned (key : String) {x y : Verdict Value} {r q : Verdict (Entries Value)}
    (hxy : x.map unsigned = y.map unsigned) (hrq : r.map unsignedEntries = q.map unsignedEntries) :
    (x.bind fun w => r.map ((key, w) :: ·)).map unsignedEntries =
      (y.bind fun w => q.map ((key, w) :: ·)).map unsignedEntries := by
  refine Verdict.bind_of_map hxy fun a b hab => Verdict.map_of_map hrq fun as bs habs => ?_
  rw [unsignedEntries, unsignedEntries, hab, habs]

theorem convertItems_cons (item : Conversion) (v : Value) (rest : List Value) :
    convertItems item (v :: rest) = (item v).bind fun w => (convertItems item rest).map (w :: ·) := by
  rw [convertItems]
  cases item v <;> rfl

theorem convertItems_unsigned {item : Conversion} (hitem : Respects item) (items : List Value) :
    (convertItems item (unsignedItems items)).map unsignedItems = (convertItems item items).map unsignedItems := by
  induction items with
  | nil => rfl
  | cons v rest ih =>
    rw [unsignedItems, convertItems_cons, convertItems_cons]
    exact bind_cons_unsigned (hitem _ _ (Value.unsigned_unsigned v)) ih

theorem convertEntries_cons (value : Conversion) (key : String) (v : Value) (rest : Entries Value) :
    convertEntries value ((key, v) :: rest) =
      (value v).bind fun w => (convertEntries value rest).map ((key, w) :: ·) := by
  rw [convertEntries]
  cases value v <;> rfl

theorem convertEntries_unsigned {value : Conversion} (hvalue : Respects value) (es : Entries Value) :
    (convertEntries value (unsignedEntries es)).map unsignedEntries =
      (convertEntries value es).map unsignedEntries := by
  induction es with
  | nil => rfl
  | cons e rest ih =>
    obtain ⟨key, v⟩ := e
    rw [unsignedEntries, convertEntries_cons, convertEntries_cons]
    exact bind_cons_entry_unsigned key (hvalue _ _ (Value.unsigned_unsigned v)) ih

theorem convertPlaces_cons (e : Element Conversion) (places : List (Element Conversion)) (v : Value)
    (rest : List Value) :
    convertPlaces (e :: places) (v :: rest) = (e.type v).bind fun w => (convertPlaces places rest).map (w :: ·) := by
  rw [convertPlaces]
  cases e.type v <;> rfl

theorem convertPlaces_unsigned {places : List (Element Conversion)} (hplaces : ∀ e ∈ places, Respects e.type)
    (items : List Value) :
    (convertPlaces places (unsignedItems items)).map unsignedItems =
      (convertPlaces places items).map unsignedItems := by
  induction places generalizing items with
  | nil => rfl
  | cons e places ih =>
    rw [List.forall_mem_cons] at hplaces
    cases items with
    | nil => rfl
    | cons v rest =>
      rw [unsignedItems, convertPlaces_cons, convertPlaces_cons]
      exact bind_cons_unsigned (hplaces.1 _ _ (Value.unsigned_unsigned v)) (ih hplaces.2 rest)

theorem convertFurther_unsigned {rest : Option Conversion} (hrest : ∀ c ∈ rest, Respects c) (items : List Value) :
    (convertFurther rest (unsignedItems items)).map unsignedItems = (convertFurther rest items).map unsignedItems := by
  cases rest with
  | none => rfl
  | some item => exact convertItems_unsigned (hrest item rfl) items

theorem respects_convertTuple {elements : List (Element Conversion)} {rest : Option Conversion}
    (helements : ∀ e ∈ elements, Respects e.type) (hrest : ∀ c ∈ rest, Respects c) :
    Respects (convertTuple elements rest) := by
  refine respects_of_unsigned fun v => ?_
  cases v with
  | array items =>
    have hdrop : (unsignedItems items).drop elements.length = unsignedItems (items.drop elements.length) := by
      simp
    rw [unsigned, convertTuple, convertTuple, hdrop, unsignedItems_eq_map, List.length_map, ← unsignedItems_eq_map]
    split
    · rfl
    · split
      · rfl
      · refine Verdict.bind_of_map (convertPlaces_unsigned helements items) fun as bs hhead =>
          Verdict.map_of_map (convertFurther_unsigned hrest _) ?_
        intro as' bs' htail
        simp only [unsigned, unsignedItems_eq_map, List.map_append] at hhead htail ⊢
        rw [hhead, htail]
  | _ => rfl

theorem fieldSource_unsigned (v : Value) (name : String) (optional : Bool) :
    fieldSource v.unsigned name optional = (fieldSource v name optional).map unsigned := by
  rw [fieldSource, fieldSource, Value.own?_unsigned]
  cases v.own? name with
  | some w => rfl
  | none =>
    cases optional with
    | true => rfl
    | false => simp

theorem convertFields_cons (exact : Bool) (f : Field Conversion) (rest : List (Field Conversion)) (v : Value) :
    convertFields exact (f :: rest) v =
      if exact && !f.optional && (v.own? f.name).isNone then .refused
      else
        match fieldSource v f.name f.optional with
        | none => convertFields exact rest v
        | some w => (f.type w).bind fun x => (convertFields exact rest v).map ((f.name, x) :: ·) := by
  rw [convertFields]
  cases fieldSource v f.name f.optional with
  | none => rfl
  | some w =>
    dsimp only
    cases f.type w <;> rfl

theorem convertFields_unsigned (exact : Bool) {fields : List (Field Conversion)}
    (hfields : ∀ f ∈ fields, Respects f.type) (v : Value) :
    (convertFields exact fields v.unsigned).map unsignedEntries =
      (convertFields exact fields v).map unsignedEntries := by
  induction fields with
  | nil => rfl
  | cons f rest ih =>
    rw [List.forall_mem_cons] at hfields
    rw [convertFields_cons, convertFields_cons, Value.own?_unsigned, Option.isNone_map, fieldSource_unsigned]
    split
    · rfl
    · cases fieldSource v f.name f.optional with
      | none => exact ih hfields.2
      | some w => exact bind_cons_entry_unsigned f.name (hfields.1 _ _ (Value.unsigned_unsigned w)) (ih hfields.2)

theorem ofEntries_unsigned (es : Entries Value) :
    Value.ofEntries (unsignedEntries es) = (Value.ofEntries es).unsigned := by
  have hfilter : (unsignedEntries es).filter (fun e => e.1 != Entries.reservedKey) =
      unsignedEntries (es.filter fun e => e.1 != Entries.reservedKey) := by
    rw [unsignedEntries_eq_map, unsignedEntries_eq_map, List.filter_map]
    rfl
  simp only [Value.ofEntries, hfilter]
  rw [unsignedEntries_eq_map es, Entries.get?_map]
  cases Entries.get? es Entries.reservedKey with
  | none => rfl
  | some parent =>
    simp only [Option.map_some, Value.mayBeParent_unsigned]
    split <;> rfl

theorem unsigned_ofEntries {es fs : Entries Value} (h : unsignedEntries es = unsignedEntries fs) :
    (Value.ofEntries es).unsigned = (Value.ofEntries fs).unsigned := by
  rw [← ofEntries_unsigned, h, ofEntries_unsigned]

theorem respects_convertStruct (exact : Bool) {fields : List (Field Conversion)}
    (hfields : ∀ f ∈ fields, Respects f.type) : Respects (convertStruct exact fields) := by
  have hempty : Respects fun v => .guarded (!v.isNothing) v :=
    respects_guarded fun v => congrArg not (Value.isNothing_unsigned v)
  refine respects_of_unsigned fun v => ?_
  rw [convertStruct, convertStruct, Value.isObject_unsigned]
  split
  · exact hempty _ _ (Value.unsigned_unsigned v)
  · split
    · exact Verdict.map_of_map (convertFields_unsigned exact hfields v) fun es fs => unsigned_ofEntries
    · rfl

theorem respects_convertRecord {value : Conversion} (hvalue : Respects value) : Respects (convertRecord value) := by
  refine respects_of_unsigned fun v => ?_
  rw [convertRecord, convertRecord, Value.isObject_unsigned, Value.entries_unsigned, ← unsignedEntries_eq_map]
  split
  · exact Verdict.map_of_map (convertEntries_unsigned hvalue v.entries) fun es fs => unsigned_ofEntries
  · rfl

theorem firstSuccess_unsigned {members : List Conversion} (hmembers : ∀ c ∈ members, Respects c) (v : Value)
    (positions : List Nat) :
    (firstSuccess members v.unsigned positions).map unsigned = (firstSuccess members v positions).map unsigned := by
  induction positions with
  | nil => rfl
  | cons i rest ih =>
    rw [firstSuccess, firstSuccess]
    cases hmember : members[i]? with
    | none => exact ih
    | some member =>
      exact Verdict.orElse_of_map (hmembers member (List.mem_of_getElem? hmember) _ _ (Value.unsigned_unsigned v)) ih

/-! ## Error classes -/

theorem build_unsigned (className tag : String) (names : List String) (fields : Entries Value) :
    ErrorClass.build className tag names (unsignedEntries fields) =
      (ErrorClass.build className tag names fields).map unsigned := by
  have hmessage : ∀ mark, ErrorClass.shownMessage names (.raised mark (unsignedEntries fields)) =
      ErrorClass.shownMessage names (.raised mark fields) := by
    intro mark
    have hmember := Value.member_unsigned (.raised mark fields)
    rw [unsigned] at hmember
    simp only [ErrorClass.shownMessage, hmember, Value.inspect_unsigned]
  have hgiven : ∀ (mark : ErrorMark) (given : Value),
      (given.unsigned.text.map fun _ => Value.raised mark (unsignedEntries fields)) =
        (given.text.map fun _ => Value.raised mark fields).map unsigned := by
    intro mark given
    rw [Value.text_unsigned]
    cases given.text <;> rfl
  have hget : Entries.get? (unsignedEntries fields) "message" = (Entries.get? fields "message").map unsigned := by
    rw [unsignedEntries_eq_map, Entries.get?_map]
  simp only [ErrorClass.build, hmessage, hget]
  cases Entries.get? fields "message" with
  | none => rfl
  | some given =>
    cases given with
    | undefined => rfl
    | _ => exact hgiven _ _

namespace ClassWalk

theorem respects_build (c : ClassWalk) : Respects c.build := by
  refine respects_of_unsigned fun v => ?_
  have hfilter : v.unsigned.entries.filter (·.1 != "_tag") = unsignedEntries (v.entries.filter (·.1 != "_tag")) := by
    rw [Value.entries_unsigned, unsignedEntries_eq_map, List.filter_map]
    rfl
  rw [build, build, hfilter, build_unsigned]
  cases ErrorClass.build c.className c.tag c.names (v.entries.filter (·.1 != "_tag")) with
  | error fault => rfl
  | ok w => exact congrArg Verdict.accepted (Value.unsigned_unsigned w)

theorem respects_make (c : ClassWalk) {fields : List (Field Conversion)} (hfields : ∀ f ∈ fields, Respects f.type) :
    Respects (c.make fields) := by
  have htag : ∀ f ∈ fields ++ [c.tagField], Respects f.type := by
    intro f hf
    rcases List.mem_append.mp hf with hf | hf
    · exact hfields f hf
    · obtain rfl := List.mem_singleton.mp hf
      exact respects_guarded (isLiteral_unsigned _)
  intro v w hvw
  exact Verdict.bind_of_map (respects_convertStruct false htag v w hvw) c.respects_build

end ClassWalk

/-! ## The walk -/

section Walk

variable {defs : Definitions} {follow : Follow}

theorem respects_filtered {read : Conversion} (hread : Respects read) (f : Filter) (check write : Conversion) :
    Respects (convertFiltered .decode f check write read) := by
  intro v w hvw
  refine Verdict.bind_of_map (hread v w hvw) ?_
  intro a b hab
  have hholds : holds f a = holds f b := by
    rw [← holds_unsigned f a, hab, holds_unsigned]
  rw [keepIf, keepIf, hholds]
  refine Verdict.after_of_map fun answer => ?_
  cases answer with
  | false => rfl
  | true => exact congrArg Verdict.accepted hab

theorem walkDate_decode (v : Value) : walkDate .decode v = .ofOption (convertDate .decode v) := by
  simp [walkDate]

theorem respects_union (members : List Schema) {walks : List Conversion} (hwalks : ∀ c ∈ walks, Respects c) :
    Respects fun v =>
      Verdict.after (candidates defs .wire members v) fun positions => firstSuccess walks v positions := by
  refine respects_of_unsigned fun v => ?_
  rw [candidates_unsigned]
  exact Verdict.after_of_map (firstSuccess_unsigned hwalks v)

mutual

/-- Reading by a schema does not tell zeros apart, if following suspended schemas does not. -/
theorem respects_convert (hfollow : ∀ name, Respects (follow .decode name)) :
    ∀ s : Schema, Respects (convert defs follow .decode s)
  | .string | .boolean | .bigint | .undefined | .numberFromString | .bigintFromString | .trim =>
    respects_of_unsigned fun v => by cases v <;> rfl
  | .number => respects_of_unsigned fun v => by
    cases v with
    | number n => exact congrArg Verdict.accepted (Value.unsigned_unsigned (.number n))
    | _ => rfl
  | .void | .unknown | .any => fun v w hvw => congrArg Verdict.accepted hvw
  | .never => fun _ _ _ => rfl
  | .date => respects_of_unsigned fun v => by
    rw [convert, walkDate_decode, walkDate_decode]
    cases v <;> rfl
  | .literal l => respects_guarded (isLiteral_unsigned l)
  | .filtered of f => respects_filtered (respects_convert hfollow of) f _ _
  | .tuple elements rest =>
    respects_convertTuple (respects_convertElements hfollow elements) (respects_convertRest hfollow rest)
  | .struct _ fields => respects_convertStruct false (respects_convertFieldTypes hfollow fields)
  | .record values => respects_convertRecord (respects_convert hfollow values)
  | .union members => respects_union members (respects_convertMembers hfollow members)
  | .suspend name => hfollow name
  | .errorClass _ _ fields => ClassWalk.respects_make _ (respects_convertFieldTypes hfollow fields)

theorem respects_convertElements (hfollow : ∀ name, Respects (follow .decode name)) :
    ∀ elements : List (Element Schema), ∀ e ∈ convertElements defs follow .decode elements, Respects e.type
  | [] => fun _ he => absurd he List.not_mem_nil
  | ⟨_, type⟩ :: rest => List.forall_mem_cons.mpr
    ⟨respects_convert hfollow type, respects_convertElements hfollow rest⟩

theorem respects_convertRest (hfollow : ∀ name, Respects (follow .decode name)) :
    ∀ rest : Option Schema, ∀ c ∈ convertRest defs follow .decode rest, Respects c
  | none => fun _ hc => by cases hc
  | some s => fun c hc => by
    obtain rfl := Option.some.inj hc
    exact respects_convert hfollow s

theorem respects_convertFieldTypes (hfollow : ∀ name, Respects (follow .decode name)) :
    ∀ fields : List (Field Schema), ∀ f ∈ convertFieldTypes defs follow .decode fields, Respects f.type
  | [] => fun _ hf => absurd hf List.not_mem_nil
  | ⟨_, _, type⟩ :: rest => List.forall_mem_cons.mpr
    ⟨respects_convert hfollow type, respects_convertFieldTypes hfollow rest⟩

theorem respects_convertMembers (hfollow : ∀ name, Respects (follow .decode name)) :
    ∀ members : List Schema, ∀ c ∈ convertMembers defs follow .decode members, Respects c
  | [] => fun _ hc => absurd hc List.not_mem_nil
  | s :: rest => List.forall_mem_cons.mpr
    ⟨respects_convert hfollow s, respects_convertMembers hfollow rest⟩

end

end Walk

theorem respects_followTo (defs : Definitions) (n : Nat) (name : String) : Respects (followTo defs n .decode name) := by
  induction n generalizing name with
  | zero => exact fun _ _ _ => rfl
  | succ n ih =>
    intro v w hvw
    rw [followTo]
    exact Verdict.after_of_map fun s => Verdict.after_of_map fun _ => respects_convert ih s v w hvw

/-- From values that differ in the signs of zeros only, reading gives such values, or the same refusal or fault. -/
theorem respects_decode (defs : Definitions) (s : Schema) : Respects (decode defs s) := by
  refine respects_of_unsigned fun v => ?_
  rw [decode, decode, run, run, followBound, followBound, Value.height_unsigned]
  exact Verdict.after_of_map fun _ => respects_convert (respects_followTo defs _) s _ _ (Value.unsigned_unsigned v)

end Schema

end Gateway

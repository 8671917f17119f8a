import Gateway.Proofs.ArgumentSources
import Gateway.Proofs.NearestNaturals
import Gateway.Proofs.ParsedBodies

/-!
# Values up to the signs of zeros

`unsigned` makes every negative zero in a value zero.  What a value answers to its keys, and what its members give back
when they are called, keeps its zeros (`member_unsigned`, `perform_unsigned`); its text, its order among numbers and
its shape do not depend on their signs at all (`text_unsigned`, `order?_unsigned`, `inspect_unsigned`).
-/

namespace Gateway

/-! ## Numbers -/

namespace Number

open Json (keptNumber)

theorem chars_keptNumber (n : Number) : (keptNumber n).chars = n.chars := by
  cases n <;> rfl

theorem text_keptNumber (n : Number) : (keptNumber n).text = n.text := by
  rw [text, text, chars_keptNumber]

theorem truncate?_keptNumber (n : Number) : (keptNumber n).truncate? = n.truncate? := by
  cases n <;> rfl

theorem isSafeInteger_keptNumber (n : Number) : (keptNumber n).isSafeInteger = n.isSafeInteger := by
  cases n <;> rfl

theorem compare?_keptNumber (m n : Number) : (keptNumber m).compare? n = m.compare? n := by
  cases m <;> cases n <;> rfl

theorem same_keptNumber (m n : Number) : m.same (keptNumber n) = m.same n := by
  cases n <;> cases m <;> rfl

theorem keptNumber_ofInt (n : Nat) : keptNumber (ofInt n) = ofInt n := by
  by_cases hn : n < safeBound
  · rw [ofInt_of_lt hn]
    rfl
  · obtain ⟨m, k, -, -, ⟨-, hnumber⟩ | ⟨form, hnumber⟩⟩ := ofInt_large (Nat.not_lt.mp hn)
    · rw [hnumber]
      rfl
    · rw [hnumber]
      rfl

end Number

namespace Value

/-! ## Values -/

mutual

/-- A value with every negative zero in it made zero. -/
def unsigned : Value → Value
  | .number n => .number (Json.keptNumber n)
  | .raised mark fields => .raised mark (unsignedEntries fields)
  | .array items => .array (unsignedItems items)
  | .object entries => .object (unsignedEntries entries)
  | .heir parent entries => .heir (unsigned parent) (unsignedEntries entries)
  | v => v

/-- The items of a list with every negative zero made zero. -/
def unsignedItems : List Value → List Value
  | [] => []
  | v :: rest => unsigned v :: unsignedItems rest

/-- The entries of an object with every negative zero made zero. -/
def unsignedEntries : List (String × Value) → List (String × Value)
  | [] => []
  | (key, v) :: rest => (key, unsigned v) :: unsignedEntries rest

end

@[simp] theorem unsignedItems_eq_map (items : List Value) : unsignedItems items = items.map unsigned := by
  induction items with
  | nil => rfl
  | cons v rest ih => rw [unsignedItems, ih, List.map_cons]

@[simp] theorem unsignedEntries_eq_map (es : Entries Value) :
    unsignedEntries es = es.map fun e => (e.1, unsigned e.2) := by
  induction es with
  | nil => rfl
  | cons e rest ih => rw [unsignedEntries, ih, List.map_cons]

mutual

@[simp] theorem unsigned_unsigned : ∀ v : Value, v.unsigned.unsigned = v.unsigned
  | .number n => by cases n <;> rfl
  | .raised mark fields => by rw [unsigned, unsigned, unsignedEntries_twice]
  | .array items => by rw [unsigned, unsigned, unsignedItems_twice]
  | .object es => by rw [unsigned, unsigned, unsignedEntries_twice]
  | .heir parent es => by rw [unsigned, unsigned, unsigned_unsigned parent, unsignedEntries_twice]
  | .undefined | .null | .bool _ | .bigint _ | .string _ | .symbol _ | .function _ _ | .date _ | .error _ _ => rfl

theorem unsignedItems_twice : ∀ items : List Value, unsignedItems (unsignedItems items) = unsignedItems items
  | [] => rfl
  | v :: rest => by rw [unsignedItems, unsignedItems, unsigned_unsigned v, unsignedItems_twice rest]

theorem unsignedEntries_twice : ∀ es : List (String × Value), unsignedEntries (unsignedEntries es) = unsignedEntries es
  | [] => rfl
  | (key, v) :: rest => by rw [unsignedEntries, unsignedEntries, unsigned_unsigned v, unsignedEntries_twice rest]

end

@[simp] theorem isObject_unsigned (v : Value) : v.unsigned.isObject = v.isObject := by
  cases v <;> rfl

@[simp] theorem isComposite_unsigned (v : Value) : v.unsigned.isComposite = v.isComposite := by
  cases v <;> rfl

@[simp] theorem isScalar_unsigned (v : Value) : v.unsigned.isScalar = v.isScalar := by
  cases v <;> rfl

@[simp] theorem isNothing_unsigned (v : Value) : v.unsigned.isNothing = v.isNothing := by
  cases v <;> rfl

@[simp] theorem mayBeParent_unsigned (v : Value) : v.unsigned.mayBeParent = v.mayBeParent := by
  cases v <;> rfl

@[simp] theorem kindText_unsigned (v : Value) : v.unsigned.kindText = v.kindText := by
  cases v <;> rfl

@[simp] theorem isFalsy_unsigned (v : Value) : v.unsigned.isFalsy = v.isFalsy := by
  cases v with
  | number n => cases n <;> rfl
  | _ => rfl

@[simp] theorem isUnlisted_unsigned (key : String) (v : Value) : isUnlisted key v.unsigned = isUnlisted key v := by
  unfold isUnlisted
  split
  · rfl
  · cases v <;> rfl
  · rw [isFalsy_unsigned]
  · rfl

/-! ## Members -/

@[simp] theorem entries_unsigned (v : Value) :
    v.unsigned.entries = v.entries.map fun e => (e.1, e.2.unsigned) := by
  cases v with
  | raised mark fields => simp [unsigned, entries, List.filter_map, Function.comp_def, tagEntry]
  | object es => simp [unsigned, entries]
  | heir parent es => simp [unsigned, entries]
  | _ => rfl

@[simp] theorem own?_unsigned (v : Value) (key : String) : v.unsigned.own? key = (v.own? key).map unsigned := by
  cases v with
  | array items =>
    simp only [unsigned, own?, unsignedItems_eq_map, List.length_map]
    split
    · rw [List.getElem?_map]
    · split
      · rw [Option.map_some, unsigned, Number.keptNumber_ofInt]
      · rfl
  | error name message =>
    simp only [unsigned, own?]
    split <;> rfl
  | raised mark fields =>
    have hfields : fields.map (fun e => (e.1, e.2.unsigned)) ++ [tagEntry mark] =
        (fields ++ [tagEntry mark]).map fun e => (e.1, e.2.unsigned) := by
      rw [List.map_append]
      rfl
    rw [unsigned, own?, own?, unsignedEntries_eq_map, hfields, Entries.get?_map]
  | function name routine =>
    simp only [unsigned, own?]
    split
    · rfl
    · split <;> rfl
  | object es => rw [unsigned, own?, own?, entries, entries, unsignedEntries_eq_map, Entries.get?_map] <;> simp
  | heir parent es => rw [unsigned, own?, own?, entries, entries, unsignedEntries_eq_map, Entries.get?_map] <;> simp
  | _ => rfl

theorem unsigned_memberValue (m : Member) : m.value.unsigned = m.value := by
  cases m <;> rfl

@[simp] theorem base_unsigned : ∀ v : Value, v.unsigned.base = v.base.unsigned
  | .heir parent es => by
    rw [unsigned, base, base]
    exact base_unsigned parent
  | .undefined | .null | .bool _ | .number _ | .bigint _ | .string _ | .symbol _ | .function _ _ | .date _
  | .error _ _ | .raised _ _ | .array _ | .object _ => rfl

@[simp] theorem hasShared_unsigned : ∀ v : Value, v.unsigned.hasShared = v.hasShared
  | .heir parent es => by
    have ih := hasShared_unsigned parent
    cases parent <;> first | rfl | exact ih
  | .undefined | .null | .bool _ | .number _ | .bigint _ | .string _ | .symbol _ | .function _ _ | .date _
  | .error _ _ | .raised _ _ | .array _ | .object _ => rfl

theorem inherited_heir {parent : Value} (h : parent ≠ .null) (es : Entries Value) (key : String) :
    (heir parent es).inherited key =
      if key = Entries.reservedKey then (if (heir parent es).hasShared then parent else .undefined)
      else parent.member key := by
  cases parent <;> first | rfl | exact absurd rfl h

@[simp] theorem inherited_unsigned : ∀ (v : Value) (key : String), v.unsigned.inherited key = (v.inherited key).unsigned
  | .heir parent es, key => by
    by_cases hnull : parent = .null
    · rw [hnull]
      rfl
    · have hunsigned : parent.unsigned ≠ .null := by
        intro h
        cases parent <;> first | exact hnull rfl | cases h
      have hshared : (heir parent.unsigned (unsignedEntries es)).hasShared = (heir parent es).hasShared :=
        hasShared_unsigned (.heir parent es)
      rw [unsigned, inherited_heir hunsigned, inherited_heir hnull, hshared]
      split
      · split <;> rfl
      · rw [member, member, own?_unsigned, inherited_unsigned parent key, Option.getD_map]
  | .error name message, key => by
    simp only [unsigned, inherited]
    split
    · rfl
    · rw [unsigned_memberValue]
  | .raised mark fields, key => by
    simp only [unsigned, inherited]
    split
    · rfl
    · split
      · rfl
      · split
        · rfl
        · rw [unsigned_memberValue]
  | .undefined, key | .null, key | .bool _, key | .number _, key | .bigint _, key | .string _, key | .symbol _, key
  | .function _ _, key | .date _, key | .array _, key | .object _, key => (unsigned_memberValue _).symm

@[simp] theorem member_unsigned (v : Value) (key : String) : v.unsigned.member key = (v.member key).unsigned := by
  rw [member, member, own?_unsigned, inherited_unsigned, Option.getD_map]

/-! ## Texts and numbers -/

@[simp] theorem scalarText_unsigned (v : Value) : v.unsigned.scalarText = v.scalarText := by
  cases v with
  | number n => exact congrArg Except.ok (Number.text_keptNumber n)
  | _ => rfl

mutual

@[simp] theorem height_unsigned : ∀ v : Value, v.unsigned.height = v.height
  | .raised mark fields => by rw [unsigned, height, height, entriesHeight_unsigned]
  | .array items => by rw [unsigned, height, height, itemsHeight_unsigned]
  | .object es => by rw [unsigned, height, height, entriesHeight_unsigned]
  | .heir parent es => by rw [unsigned, height, height, height_unsigned parent, entriesHeight_unsigned]
  | .undefined | .null | .bool _ | .number _ | .bigint _ | .string _ | .symbol _ | .function _ _ | .date _
  | .error _ _ => rfl

theorem itemsHeight_unsigned : ∀ items : List Value, itemsHeight (unsignedItems items) = itemsHeight items
  | [] => rfl
  | v :: rest => by rw [unsignedItems, itemsHeight, itemsHeight, height_unsigned v, itemsHeight_unsigned rest]

theorem entriesHeight_unsigned : ∀ es : List (String × Value), entriesHeight (unsignedEntries es) = entriesHeight es
  | [] => rfl
  | (key, v) :: rest => by
    rw [unsignedEntries, entriesHeight, entriesHeight, height_unsigned v, entriesHeight_unsigned rest]

end

/-- Two attempts that are alike up to the signs of zeros stop at one fault, or give values that are. -/
theorem attempts_of_map {a b : Attempt Value} (h : a.map unsigned = b.map unsigned) :
    (∃ f, a = .error f ∧ b = .error f) ∨ ∃ v w, a = .ok v ∧ b = .ok w ∧ v.unsigned = w.unsigned := by
  cases a with
  | error f =>
    cases b with
    | error g => exact .inl ⟨f, rfl, by cases h; rfl⟩
    | ok w => cases h
  | ok v =>
    cases b with
    | error g => cases h
    | ok w => exact .inr ⟨v, w, rfl, rfl, Except.ok.inj h⟩

/-- What does not depend on the signs of zeros goes on alike from such attempts. -/
theorem bind_of_map {β : Type} {a b : Attempt Value} {f : Value → Attempt β} (h : a.map unsigned = b.map unsigned)
    (hf : ∀ v, f v.unsigned = f v) : a.bind f = b.bind f := by
  rcases attempts_of_map h with ⟨fault, rfl, rfl⟩ | ⟨v, w, rfl, rfl, hunsigned⟩
  · rfl
  · calc f v = f v.unsigned := (hf v).symm
      _ = f w := by rw [hunsigned, hf]

section Texts

variable {text : Value → Attempt String} (htext : ∀ v, text v.unsigned = text v)

include htext

theorem memberText_unsigned (v : Value) (key default : String) :
    memberText text v.unsigned key default = memberText text v key default := by
  unfold memberText
  rw [member_unsigned]
  cases hmember : v.member key with
  | undefined => rfl
  | _ => exact htext _

theorem errorText_unsigned (v : Value) : errorText text v.unsigned = errorText text v := by
  rw [errorText, errorText, memberText_unsigned htext, memberText_unsigned htext]

theorem itemTexts_unsigned (items : List Value) : itemTexts text (items.map unsigned) = itemTexts text items := by
  induction items with
  | nil => rfl
  | cons v rest ih => rw [List.map_cons, itemTexts, itemTexts, isNothing_unsigned, htext, ih]

omit htext in
theorem answeredItems?_unsigned (v : Value) :
    answeredItems? v.unsigned = (answeredItems? v).map (List.map unsigned) := by
  unfold answeredItems?
  rw [base_unsigned, member_unsigned]
  cases v.base with
  | array items =>
    cases v.member "length" with
    | number n => simp [unsigned, Number.truncate?_keptNumber, Function.comp_def]
    | _ => rfl
  | _ => rfl

omit htext in
theorem perform_listText {v : Value} (h : ∀ items, v ≠ .array items) :
    perform text .listText v =
      match answeredItems? v with
      | some items => (itemTexts text items).map fun ts => .string (",".intercalate ts)
      | none => .ok (.string v.kindText) := by
  cases v <;> first | rfl | exact absurd rfl (h _)

/-- What a routine gives back for a value depends on the signs of zeros only as far as they are in what it gives. -/
theorem perform_unsigned (routine : Routine) (v : Value) :
    (perform text routine v.unsigned).map unsigned = (perform text routine v).map unsigned := by
  cases routine with
  | identity => exact congrArg Except.ok (unsigned_unsigned v)
  | kindText => simp only [perform, kindText_unsigned]
  | listText =>
    by_cases harray : ∃ items, v = .array items
    · obtain ⟨items, rfl⟩ := harray
      simp only [unsigned, unsignedItems_eq_map, perform, itemTexts_unsigned htext]
    · have hv : ∀ items, v ≠ .array items := fun items h => harray ⟨items, h⟩
      have hunsigned : ∀ items, v.unsigned ≠ .array items := by
        intro items h
        cases v <;> first | exact hv _ rfl | cases h
      rw [perform_listText hv, perform_listText hunsigned, answeredItems?_unsigned]
      cases answeredItems? v with
      | none => simp only [Option.map_none, kindText_unsigned]
      | some items => simp only [Option.map_some, itemTexts_unsigned htext]
  | errorText => simp only [perform, errorText_unsigned htext]
  | nothing | dateText | dateMoment | dateJson | fieldsJson | functionText | other => cases v <;> rfl

theorem scalarFrom_unsigned (v : Value) (names : List String) :
    (scalarFrom text v.unsigned names).map unsigned = (scalarFrom text v names).map unsigned := by
  induction names with
  | nil => rfl
  | cons name rest ih =>
    rw [scalarFrom, scalarFrom, member_unsigned]
    cases v.member name with
    | function name routine =>
      rcases attempts_of_map (perform_unsigned htext routine v) with ⟨f, hv, hw⟩ | ⟨w, w', hv, hw, hunsigned⟩
      · simp only [unsigned, hv, hw]
      · have hscalar : w.isScalar = w'.isScalar := by
          rw [← isScalar_unsigned w, hunsigned, isScalar_unsigned]
        simp only [unsigned, hv, hw, hscalar]
        split
        · exact congrArg Except.ok hunsigned
        · exact ih
    | _ => exact ih

/-- The scalar that stands for a value where a text or a number is asked for. -/
theorem scalarOr_unsigned (v : Value) (names : List String) :
    (if v.unsigned.isScalar then .ok v.unsigned else scalarFrom text v.unsigned names).map unsigned =
      (if v.isScalar then .ok v else scalarFrom text v names).map unsigned := by
  rw [isScalar_unsigned]
  split
  · exact congrArg Except.ok (unsigned_unsigned v)
  · exact scalarFrom_unsigned htext v names

end Texts

theorem textWithin_succ (n : Nat) (v : Value) :
    textWithin (n + 1) v =
      (if v.isScalar then .ok v else scalarFrom (textWithin n) v ["toString", "valueOf"]).bind scalarText := by
  rw [textWithin]
  split
  · rfl
  · cases scalarFrom (textWithin n) v ["toString", "valueOf"] <;> rfl

theorem textWithin_unsigned (n : Nat) (v : Value) : textWithin n v.unsigned = textWithin n v := by
  induction n generalizing v with
  | zero => rfl
  | succ n ih =>
    rw [textWithin_succ, textWithin_succ]
    exact bind_of_map (scalarOr_unsigned ih v _) scalarText_unsigned

@[simp] theorem text_unsigned (v : Value) : v.unsigned.text = v.text := by
  rw [text, text, height_unsigned, textWithin_unsigned]

@[simp] theorem display_unsigned (v : Value) : v.unsigned.display = v.display := by
  cases v with
  | symbol d => rfl
  | _ => exact text_unsigned _

/-- The order of a scalar, taken as a number, and a number. -/
def scalarOrder? (n : Number) : Value → Attempt (Option Ordering)
  | .symbol _ => .error .symbolNumber
  | .number m => .ok (m.compare? n)
  | .bigint m => .ok (Number.compareInt? m n)
  | .string s => .ok ((Number.ofText s).compare? n)
  | .bool b => .ok ((if b then 1 else 0 : Number).compare? n)
  | .null => .ok ((0 : Number).compare? n)
  | _ => .ok none

theorem order?_eq (v : Value) (n : Number) :
    v.order? n = (if v.isScalar then .ok v else scalarFrom text v ["valueOf", "toString"]).bind (scalarOrder? n) := by
  unfold order?
  generalize (if v.isScalar then Except.ok v else scalarFrom text v ["valueOf", "toString"]) = scalar
  cases scalar with
  | error f => rfl
  | ok w => cases w <;> rfl

theorem scalarOrder?_unsigned (n : Number) (v : Value) : scalarOrder? n v.unsigned = scalarOrder? n v := by
  cases v with
  | number m => exact congrArg Except.ok (Number.compare?_keptNumber m n)
  | _ => rfl

@[simp] theorem order?_unsigned (v : Value) (n : Number) : v.unsigned.order? n = v.order? n := by
  rw [order?_eq, order?_eq]
  exact bind_of_map (scalarOr_unsigned text_unsigned v _) (scalarOrder?_unsigned n)

@[simp] theorem atMost_unsigned (v : Value) (n : Number) : v.unsigned.atMost n = v.atMost n := by
  rw [atMost, atMost, order?_unsigned]

@[simp] theorem atLeast_unsigned (v : Value) (n : Number) : v.unsigned.atLeast n = v.atLeast n := by
  rw [atLeast, atLeast, order?_unsigned]

/-! ## Shapes -/

theorem calledText_unsigned (routine : Routine) (v : Value) : calledText routine v.unsigned = calledText routine v := by
  rw [calledText, calledText, bind_of_map (perform_unsigned text_unsigned routine v) display_unsigned]

@[simp] theorem ownText?_unsigned (v : Value) : v.unsigned.ownText? = v.ownText? := by
  unfold ownText?
  rw [member_unsigned]
  cases v.member "toString" with
  | function name routine => cases routine <;> simp only [unsigned, calledText_unsigned]
  | _ => rfl

@[simp] theorem constructorName?_unsigned (v : Value) : constructorName? v.unsigned = constructorName? v := by
  have hname : ∀ c : Value, (if (c.unsigned.member "name").isFalsy then none
      else (c.unsigned.member "name").display.toOption) =
      if (c.member "name").isFalsy then none else (c.member "name").display.toOption := by
    intro c
    rw [member_unsigned, isFalsy_unsigned, display_unsigned]
  unfold constructorName?
  rw [member_unsigned]
  cases v.member "constructor" with
  | undefined | null => rfl
  | function name routine => rfl
  | _ => exact hname _

@[simp] theorem shapeText_unsigned (v : Value) (texts : List (String × String)) :
    shapeText v.unsigned texts = shapeText v texts := by
  rw [shapeText, shapeText, constructorName?_unsigned]

@[simp] theorem causeText_unsigned (fields : Entries Value) (texts : List (String × String)) :
    causeText (unsignedEntries fields) texts = causeText fields texts := by
  rw [causeText, causeText, unsignedEntries_eq_map, Entries.get?_map]
  cases Entries.get? fields "cause" with
  | none => rfl
  | some cause =>
    cases texts.lookup "cause" with
    | none => rfl
    | some s => simp only [Option.map_some, isFalsy_unsigned]

mutual

@[simp] theorem inspect_unsigned : ∀ v : Value, v.unsigned.inspect = v.inspect
  | .array items => by rw [unsigned, inspect, inspect, inspectItems_unsigned]
  | .object es => by
    have hown := ownText?_unsigned (.object es)
    have hshape := shapeText_unsigned (.object es)
    rw [unsigned] at hown hshape ⊢
    rw [inspect, inspect, inspectEntries_unsigned, hown, hshape]
  | .heir parent es => by
    have hown := ownText?_unsigned (.heir parent es)
    have hshape := shapeText_unsigned (.heir parent es)
    rw [unsigned] at hown hshape ⊢
    rw [inspect, inspect, inspectEntries_unsigned, hown, hshape]
  | .raised mark fields => by
    have hown := ownText?_unsigned (.raised mark fields)
    rw [unsigned] at hown ⊢
    rw [inspect, inspect, inspectEntries_unsigned, hown, causeText_unsigned]
  | .number n => by
    have hdisplay := display_unsigned (.number n)
    rw [unsigned] at hdisplay ⊢
    simp only [inspect, hdisplay]
  | .undefined | .null | .bool _ | .bigint _ | .string _ | .symbol _ | .function _ _ | .date _ | .error _ _ => rfl

theorem inspectItems_unsigned : ∀ items : List Value, inspectItems (unsignedItems items) = inspectItems items
  | [] => rfl
  | v :: rest => by rw [unsignedItems, inspectItems, inspectItems, inspect_unsigned v, inspectItems_unsigned rest]

theorem inspectEntries_unsigned : ∀ es : List (String × Value), inspectEntries (unsignedEntries es) = inspectEntries es
  | [] => rfl
  | (key, v) :: rest => by
    rw [unsignedEntries, inspectEntries, inspectEntries, inspect_unsigned v, inspectEntries_unsigned rest]

end

end Value

end Gateway

import Gateway.Proofs.ProperSchemas
import Gateway.Proofs.TrimmedTexts
import Gateway.Proofs.UnionFiling

/-!
# What was read passes the check

A value that a proper schema has read is never refused when it is checked against the same schema on the value
side.  The member of a union that has read it is tried again, because reading keeps the literals that the member
is filed under (`decode_keeps_tags`).  An error class takes what it has read as its own instance.
-/

namespace Gateway.Schema

/-! ## Objects without the reserved key -/

theorem ofEntries_of_not_mem {es : Entries Value} (h : Entries.reservedKey ∉ Entries.keys es) :
    Value.ofEntries es = .object es := by
  have hown : es.filter (fun e => e.1 != Entries.reservedKey) = es := by
    rw [List.filter_eq_self]
    intro e he
    simpa using fun hkey => h (List.mem_map.mpr ⟨e, he, hkey⟩)
  unfold Value.ofEntries
  rw [(Entries.get?_eq_none_iff _ _).mpr h]
  simp [hown]

theorem own?_object (es : Entries Value) (key : String) : (Value.object es).own? key = Entries.get? es key := rfl

/-- An accepted struct is a plain object that holds each field as it was converted, and no other. -/
theorem struct_accepted {defs : Definitions} {follow : Follow} {d : Direction} {name : Option String}
    {fields : List (Field Schema)} (hproper : Proper defs (.struct name fields)) {v w : Value}
    (h : convert defs follow d (.struct name fields) v = .accepted w) (hfields : fields ≠ []) :
    v.isObject = true ∧ ∃ es, w = .object es ∧ ∀ f ∈ fields,
      (fieldSource v f.name f.optional = none ∧ Entries.get? es f.name = none) ∨
      ∃ u x, fieldSource v f.name f.optional = some u ∧
        convert defs follow d.inner f.type u = .accepted x ∧ Entries.get? es f.name = some x := by
  rw [convert, convertFieldTypes_eq_map] at h
  unfold convertStruct at h
  rw [if_neg (by simpa using hfields)] at h
  split at h
  · rename_i hobject
    obtain ⟨es, hes, rfl⟩ := Verdict.map_eq_accepted h
    have hnames : (fields.map fun f => (⟨f.name, f.optional, convert defs follow d.inner f.type⟩ :
        Field Conversion)).map (·.name) = fields.map (·.name) := by
      rw [List.map_map]
      rfl
    have hkeys := convertFields_keys hes
    rw [hnames] at hkeys
    refine ⟨hobject, es, ofEntries_of_not_mem fun hmem => hproper.2 (hkeys.subset hmem), ?_⟩
    intro f hf
    have hmem : (⟨f.name, f.optional, convert defs follow d.inner f.type⟩ : Field Conversion) ∈
        fields.map fun f => ⟨f.name, f.optional, convert defs follow d.inner f.type⟩ := List.mem_map_of_mem hf
    have hfield := convertFields_accepted hes (hnames ▸ hproper.1) hmem
    exact hfield
  · cases h

/-! ## Instances of error classes -/

theorem convertFieldTypes_classFields (defs : Definitions) (follow : Follow) (d : Direction)
    (fields : List (Field Schema)) (c : ClassWalk) :
    convertFieldTypes defs follow d (classFields c.tag fields) =
      convertFieldTypes defs follow d fields ++ [c.tagField] := by
  rw [convertFieldTypes_eq_map, convertFieldTypes_eq_map, classFields, List.map_append]
  rfl

/-- What is built is an instance of the class with the fields that are given. -/
theorem build_eq_ok {className tag : String} {names : List String} {fields : Entries Value} {w : Value}
    (h : ErrorClass.build className tag names fields = .ok w) :
    ∃ message, w = .raised ⟨className, tag, message⟩ fields := by
  unfold ErrorClass.build at h
  dsimp only at h
  split at h
  · exact ⟨_, (Except.ok.inj h).symm⟩
  · exact ⟨_, (Except.ok.inj h).symm⟩
  · rename_i given _ _
    cases htext : given.text with
    | error fault => simp [htext, Except.map] at h
    | ok text =>
      rw [htext] at h
      exact ⟨_, (Except.ok.inj h).symm⟩

/-- An accepted error class is an instance of it with the fields that were read. -/
theorem errorClass_accepted {defs : Definitions} {follow : Follow} {className tag : String}
    {fields : List (Field Schema)} {v w : Value}
    (h : convert defs follow .decode (.errorClass className tag fields) v = .accepted w) :
    ∃ u message, convert defs follow .decode (.struct none (classFields tag fields)) v = .accepted u ∧
      w = .raised ⟨className, tag, message⟩ (u.entries.filter (·.1 != "_tag")) := by
  rw [convert] at h
  obtain ⟨u, hu, hbuild⟩ := Verdict.bind_eq_accepted h
  obtain ⟨w', hw', haccepted⟩ := Verdict.after_eq_accepted hbuild
  obtain rfl := Verdict.accepted.inj haccepted
  obtain ⟨message, rfl⟩ := build_eq_ok hw'
  refine ⟨u, message, ?_, rfl⟩
  rw [convert]
  exact (congrArg (convertStruct false · v) (convertFieldTypes_classFields defs follow .decode fields _)).trans hu

/-! ## Lists -/

/-- How the items of a tuple and what they are converted to belong together. -/
structure TupleConverted (defs : Definitions) (follow : Follow) (d : Direction)
    (elements : List (Element Schema)) (rest : Option Schema) (items head tail : List Value) : Prop where
  required : requiredCount elements ≤ items.length
  closed : rest = none → items.length ≤ elements.length
  head_length : head.length = min elements.length items.length
  tail_length : tail.length = items.length - elements.length
  places : ∀ (i : Nat) (e : Element Schema) (u : Value), elements[i]? = some e → items[i]? = some u →
    ∃ x, head[i]? = some x ∧ convert defs follow d e.type u = .accepted x
  further : ∀ t ∈ rest, ∀ x ∈ tail, ∃ u, convert defs follow d t u = .accepted x

theorem requiredCount_map {σ τ : Type} (f : σ → τ) (elements : List (Element σ)) :
    requiredCount (elements.map fun e => (⟨e.optional, f e.type⟩ : Element τ)) = requiredCount elements := by
  simp [requiredCount, List.filter_map, Function.comp_def]

/-- An accepted tuple is a list of the same length that holds each item as it was converted. -/
theorem tuple_accepted {defs : Definitions} {follow : Follow} {d : Direction}
    {elements : List (Element Schema)} {rest : Option Schema} {v w : Value}
    (h : convert defs follow d (.tuple elements rest) v = .accepted w) :
    ∃ items head tail, v = .array items ∧ w = .array (head ++ tail) ∧
      TupleConverted defs follow d.inner elements rest items head tail := by
  rw [convert, convertElements_eq_map, convertRest_eq_map] at h
  cases v with
  | array items =>
    simp only [convertTuple, requiredCount_map, List.length_map] at h
    split at h
    · cases h
    · rename_i hrequired
      split at h
      · cases h
      · rename_i hclosed
        obtain ⟨head, hhead, hmap⟩ := Verdict.bind_eq_accepted h
        obtain ⟨tail, htail, rfl⟩ := Verdict.map_eq_accepted hmap
        have hopen : rest = none → items.length ≤ elements.length := by
          rintro rfl
          simpa using hclosed
        refine ⟨items, head, tail, rfl, rfl, Nat.le_of_not_lt hrequired, hopen, ?_, ?_, ?_, ?_⟩
        · simpa using convertPlaces_length hhead
        · cases rest with
          | none =>
            obtain rfl : [] = tail := Verdict.accepted.inj htail
            have := hopen rfl
            simp
            omega
          | some t => simpa using (convertItems_accepted htail).length_eq.symm
        · intro i e u he hu
          exact convertPlaces_accepted hhead (by rw [List.getElem?_map, he]; rfl) hu
        · rintro t rfl x hx
          obtain ⟨u, -, hu⟩ := exists_of_forall₂_mem (convertItems_accepted htail) hx
          exact ⟨u, hu⟩
  | _ => cases h

/-! ## Literals -/

/-- Reading keeps a value whose schema admits one literal only. -/
theorem decode_keeps_literal {defs : Definitions} {follow : Follow} {s : Schema} {l : Literal} {v w : Value}
    (hl : soleLiteral? .wire s = some l) (h : convert defs follow .decode s v = .accepted w) : w = v := by
  induction s using parts_induction with
  | step s ih =>
    cases s with
    | literal l' =>
      rw [convert, Verdict.guarded_eq_accepted_iff] at h
      exact h.2.symm
    | filtered of f => exact ih of (by simp [parts]) hl (filtered_accepted (.inl rfl) h).1
    | _ => cases hl

theorem mem_fieldTags {side : Side} {fields : List (Field Schema)} {field text : String}
    (h : (field, text) ∈ fieldTags side fields) :
    ∃ f ∈ fields, f.name = field ∧ ∃ l, soleLiteral? side f.type = some l := by
  obtain ⟨f, hf, htag⟩ := List.mem_filterMap.mp h
  split at htag
  · cases htag
  · obtain ⟨l, hl, hpair⟩ := Option.map_eq_some_iff.mp htag
    exact ⟨f, hf, (Prod.mk.inj hpair).1, l, hl⟩

theorem mem_elementTags {side : Side} {elements : List (Element Schema)} {field text : String}
    (h : (field, text) ∈ elementTags side elements) :
    ∃ (i : Nat) (e : Element Schema), elements[i]? = some e ∧ field = String.ofList (Nat.toDigits 10 i) ∧
      ∃ l, soleLiteral? side e.type = some l := by
  obtain ⟨⟨i, e⟩, hmem, htag⟩ := List.mem_filterMap.mp h
  obtain ⟨j, hj, hpair⟩ := List.mem_iff_getElem.mp hmem
  simp only [List.getElem_zip, List.getElem_range, Prod.mk.injEq] at hpair
  obtain ⟨rfl, rfl⟩ := hpair
  dsimp only at htag
  split at htag
  · cases htag
  · obtain ⟨l, hl, hpair⟩ := Option.map_eq_some_iff.mp htag
    exact ⟨j, _, List.getElem?_eq_getElem _, (Prod.mk.inj hpair).1.symm, l, hl⟩

/-- The digits of a number spell no other index. -/
theorem indexOf?_toDigits {i j : Nat} (h : Entries.indexOf? (String.ofList (Nat.toDigits 10 i)) = some j) :
    j = i := by
  have hvalue : ∀ cs, Entries.indexOfChars? cs = some j → j = Nat.ofDigitChars 10 cs 0 := by
    intro cs hcs
    unfold Entries.indexOfChars? at hcs
    split at hcs
    · exact (Option.some.inj hcs).symm
    · cases hcs
    · split at hcs
      · cases hcs
      · dsimp only at hcs
        split at hcs
        · obtain rfl := Option.some.inj hcs
          simp [Nat.ofDigitChars, Nat.mul_comm]
        · cases hcs
  rw [Entries.indexOf?, String.toList_ofList] at h
  rw [hvalue _ h, Nat.ofDigitChars_ten_toDigits]

/-- Reading a struct keeps what the value holds under a field of one literal. -/
theorem struct_keeps_tags {defs : Definitions} {follow : Follow} {name : Option String}
    {fields : List (Field Schema)} (hproper : Proper defs (.struct name fields)) {field text : String}
    (htag : (field, text) ∈ fieldTags .wire fields) {v w x : Value}
    (h : convert defs follow .decode (.struct name fields) v = .accepted w) (hx : v.own? field = some x) :
    ∃ es, w = .object es ∧ Entries.get? es field = some x := by
  obtain ⟨f, hf, rfl, l, hl⟩ := mem_fieldTags htag
  obtain ⟨-, es, rfl, hfields⟩ := struct_accepted hproper h (List.ne_nil_of_mem hf)
  have hsource : fieldSource v f.name f.optional = some x := by
    simp [fieldSource, hx]
  rcases hfields f hf with ⟨hnone, -⟩ | ⟨u, y, hu, hy, hget⟩
  · rw [hsource] at hnone
    cases hnone
  · obtain rfl : x = u := Option.some.inj (hsource.symm.trans hu)
    exact ⟨es, rfl, by rw [hget, decode_keeps_literal hl hy]⟩

theorem fieldTags_classFields (side : Side) (tag : String) (fields : List (Field Schema)) :
    fieldTags side (classFields tag fields) = fieldTags side fields ++ [("_tag", tag)] := by
  rw [fieldTags, classFields, List.filterMap_append]
  rfl

/-- What has been read under the name of the tag is the tag. -/
theorem eq_tag_of_read {defs : Definitions} {follow : Follow} {tag : String} {fields : List (Field Schema)}
    (hproper : Proper defs (.struct none (classFields tag fields))) {v x : Value} {es : Entries Value}
    (h : convert defs follow .decode (.struct none (classFields tag fields)) v = .accepted (.object es))
    (hx : Entries.get? es "_tag" = some x) : x = .string tag := by
  have hmem : ErrorClass.tagField tag ∈ classFields tag fields := by simp [classFields]
  obtain ⟨-, es', hes', hfields⟩ := struct_accepted hproper h (List.ne_nil_of_mem hmem)
  obtain rfl : es = es' := Value.object.inj hes'
  rcases hfields _ hmem with ⟨-, hnone⟩ | ⟨u, y, -, hy, hget⟩
  · rw [show Entries.get? es "_tag" = none from hnone] at hx
    cases hx
  · obtain rfl : x = y := Option.some.inj (hx.symm.trans hget)
    obtain ⟨hliteral, rfl⟩ : isLiteral (.string tag) u = true ∧ u = x :=
      (Verdict.guarded_eq_accepted_iff _ _ _).mp hy
    cases u with
    | string t => rw [beq_iff_eq.mp (show (tag == t) = true from hliteral)]
    | _ => cases hliteral

/-- Reading an instance of an error class keeps its tag, and what the value holds under a field of one literal. -/
theorem errorClass_keeps_tags {defs : Definitions} {follow : Follow} {className tag : String}
    {fields : List (Field Schema)} (hproper : Proper defs (.errorClass className tag fields))
    {field text : String} (htag : (field, text) ∈ fieldTags .wire fields ++ [("_tag", tag)]) {v w x : Value}
    (h : convert defs follow .decode (.errorClass className tag fields) v = .accepted w)
    (hx : v.own? field = some x) : w.isComposite = true ∧ w.own? field = some x := by
  rw [← fieldTags_classFields] at htag
  obtain ⟨u, message, hu, rfl⟩ := errorClass_accepted h
  obtain ⟨es, rfl, hget⟩ := struct_keeps_tags hproper htag hu hx
  refine ⟨rfl, ?_⟩
  -- The tag is written behind the fields, from which one of its name was taken out.
  change Entries.get? (es.filter (·.1 != "_tag") ++ [("_tag", .string tag)]) field = some x
  rw [Entries.get?_append]
  by_cases hfield : field = "_tag"
  · subst hfield
    rw [(Entries.get?_eq_none_iff _ _).mpr (by simp [Entries.keys]), eq_tag_of_read hproper hu hget]
    rfl
  · rw [Entries.get?_filter_ne _ hfield, hget, Option.some_or]

/-- Reading keeps what a value holds under the tags of a schema. -/
theorem decode_keeps_tags {defs : Definitions} (hall : AllProper defs) {k n : Nat} {s : Schema}
    (hs : Everywhere (Proper defs) s) {ts : List (String × String)} (hts : tagsWithin defs .wire k s = .ok ts)
    {field text : String} (htag : (field, text) ∈ ts) {v w x : Value}
    (h : convert defs (followTo defs n) .decode s v = .accepted w) (hx : v.own? field = some x) :
    w.isComposite = true ∧ w.own? field = some x := by
  -- The tags are those of the struct or tuple at the end of a chain of conditions and suspended schemas.
  induction k generalizing n s with
  | zero => cases hts
  | succ k ih =>
    cases s with
    | struct name fields =>
      obtain rfl := Except.ok.inj hts
      obtain ⟨es, rfl, hget⟩ := struct_keeps_tags hs.here htag h hx
      exact ⟨rfl, hget⟩
    | tuple elements rest =>
      obtain rfl := Except.ok.inj hts
      obtain ⟨i, e, he, rfl, l, hl⟩ := mem_elementTags htag
      obtain ⟨items, head, tail, rfl, rfl, hconverted⟩ := tuple_accepted h
      refine ⟨rfl, ?_⟩
      simp only [Value.own?] at hx ⊢
      split at hx
      · rename_i j hj
        obtain rfl := indexOf?_toDigits hj
        obtain ⟨y, hy, hconvert⟩ := hconverted.places j e x he hx
        have hlt : j < head.length := by
          by_contra hge
          rw [List.getElem?_eq_none (Nat.le_of_not_lt hge)] at hy
          cases hy
        rw [List.getElem?_append_left hlt, hy, decode_keeps_literal hl hconvert]
      · have hlength : (head ++ tail).length = items.length := by
          rw [List.length_append, hconverted.head_length, hconverted.tail_length]
          omega
        rw [hlength]
        exact hx
    | filtered of f =>
      exact ih (hs.of_mem (by simp [parts])) hts (filtered_accepted (.inl rfl) h).1
    | suspend name =>
      simp only [tagsWithin] at hts
      cases htarget : target defs name with
      | error fault => simp [htarget] at hts
      | ok t =>
        rw [htarget] at hts
        rw [convert] at h
        obtain ⟨m, t', -, htarget', -, hconvert⟩ := followTo_accepted h
        obtain rfl := Except.ok.inj (htarget.symm.trans htarget')
        exact ih (hall name t htarget) hts hconvert
    | errorClass className tag fields =>
      obtain rfl := Except.ok.inj hts
      exact errorClass_keeps_tags hs.here htag h hx
    | _ =>
      obtain rfl := Except.ok.inj hts
      cases htag

/-! ## Values of a kind -/

theorem Kind.isScalar_of_admits {kind : Kind} {w : Value} (h : kind.admits w = true) : w.isScalar = true := by
  cases kind with
  | text =>
    cases w with
    | string => rfl
    | _ => cases h
  | number =>
    cases w with
    | number | bigint => rfl
    | _ => cases h

/-- A condition of a proper schema has held of a scalar. -/
theorem isScalar_of_holds {defs : Definitions} {n : Nat} {of : Schema} {f : Filter}
    (hproper : Proper defs (.filtered of f)) {v w : Value}
    (h : convert defs (followTo defs n) .decode of v = .accepted w) (hholds : holds f w = .ok true) :
    w.isScalar = true := by
  cases hkind : f.kind? with
  | some kind => exact Kind.isScalar_of_admits ((hproper kind hkind).admits (.inl rfl) h)
  | none =>
    cases f with
    | safeInteger =>
      cases w with
      | number => rfl
      | _ => cases hholds
    | nonEmpty =>
      cases w with
      | string => rfl
      | _ => cases hholds
    | minLength | maxLength | between => cases hkind

/-! ## Reading and checking -/

/-- What the suspended schemas have read, those of the check do not refuse. -/
def FollowsReading (defs : Definitions) (n m : Nat) : Prop :=
  ∀ name v w, followTo defs n .decode name v = .accepted w →
    followTo defs m (.validate true) name w ≠ .refused

section Reading

variable {defs : Definitions} {n m : Nat}

/-- What was read with a schema is not refused by the check. -/
def PassesCheck (defs : Definitions) (n m : Nat) (s : Schema) : Prop :=
  ∀ v w, convert defs (followTo defs n) .decode s v = .accepted w →
    convert defs (followTo defs m) (.validate true) s w ≠ .refused

theorem passesCheck_filtered {of : Schema} {f : Filter} (hproper : Proper defs (.filtered of f))
    (hof : PassesCheck defs n m of) : PassesCheck defs n m (.filtered of f) := by
  intro v w h hrefused
  obtain ⟨hread, hholds⟩ := filtered_accepted (.inl rfl) h
  rw [convert, convertFiltered_eq (.inr ⟨true, rfl⟩), ← Verdict.stop?_eq_refused_iff] at hrefused
  rcases Verdict.stop?_bind hrefused with hbelow | ⟨w', hw', hkeep⟩
  · exact hof v w hread ((Verdict.stop?_eq_refused_iff _).mp hbelow)
  · -- Checking has not changed the scalar, so the condition is asked of what it held of.
    obtain rfl := validate_scalar (isScalar_of_holds hproper hread hholds) hw'
    rw [keepIf, hholds] at hkeep
    cases hkeep

theorem passesCheck_tuple {elements : List (Element Schema)} {rest : Option Schema}
    (helements : ∀ e ∈ elements, PassesCheck defs n m e.type) (hrest : ∀ t ∈ rest, PassesCheck defs n m t) :
    PassesCheck defs n m (.tuple elements rest) := by
  intro v w h hrefused
  obtain ⟨items, head, tail, rfl, rfl, hconverted⟩ := tuple_accepted h
  have hhead := hconverted.head_length
  have htail := hconverted.tail_length
  have hrequired := hconverted.required
  -- Reading keeps the length, so the check of the length comes out as it did when the list was read.
  have hlength : (head ++ tail).length = items.length := by
    rw [List.length_append]
    omega
  rw [convert, convertElements_eq_map, convertRest_eq_map] at hrefused
  simp only [convertTuple, requiredCount_map, List.length_map, hlength] at hrefused
  rw [if_neg (by omega), if_neg, ← Verdict.stop?_eq_refused_iff] at hrefused
  · rcases Verdict.stop?_bind hrefused with hplaces | ⟨_, -, hfurther⟩
    · obtain ⟨i, e', y, he', hy, hstop⟩ := convertPlaces_stop hplaces
      rw [List.getElem?_map] at he'
      obtain ⟨e, he, rfl⟩ := Option.map_eq_some_iff.mp he'
      have hi : i < items.length := by
        rw [← hlength]
        exact (List.getElem?_eq_some_iff.mp hy).1
      obtain ⟨x, hx, hread⟩ := hconverted.places i e _ he (List.getElem?_eq_getElem hi)
      have hlt : i < head.length := (List.getElem?_eq_some_iff.mp hx).1
      rw [List.getElem?_append_left hlt, hx] at hy
      obtain rfl := Option.some.inj hy
      exact helements e (List.mem_of_getElem? he) _ x hread ((Verdict.stop?_eq_refused_iff _).mp hstop)
    · rw [Verdict.stop?_map] at hfurther
      cases rest with
      | none => cases hfurther
      | some t =>
        obtain ⟨y, hy, hstop⟩ := convertItems_stop hfurther
        have hmem : y ∈ tail := by
          rw [List.drop_append] at hy
          rcases List.mem_append.mp hy with hhere | hthere
          · rw [List.drop_eq_nil_of_le (by omega)] at hhere
            cases hhere
          · exact List.mem_of_mem_drop hthere
        obtain ⟨u, hread⟩ := hconverted.further t rfl y hmem
        exact hrest t rfl u y hread ((Verdict.stop?_eq_refused_iff _).mp hstop)
  · cases rest with
    | none =>
      have := hconverted.closed rfl
      simpa using this
    | some t => simp

theorem passesCheck_struct {name : Option String} {fields : List (Field Schema)}
    (hproper : Proper defs (.struct name fields)) (hfields : ∀ f ∈ fields, PassesCheck defs n m f.type) :
    PassesCheck defs n m (.struct name fields) := by
  intro v w h hrefused
  by_cases hempty : fields = []
  · subst hempty
    rw [convert, convertFieldTypes_eq_map] at h hrefused
    obtain ⟨hv, rfl⟩ := (Verdict.guarded_eq_accepted_iff _ _ _).mp h
    have hkept : Verdict.guarded (!v.isNothing) v = .refused := hrefused
    rw [hv] at hkept
    cases hkept
  · obtain ⟨-, es, rfl, hread⟩ := struct_accepted hproper h hempty
    rw [convert, convertFieldTypes_eq_map] at hrefused
    unfold convertStruct at hrefused
    rw [if_neg (by simpa using hempty), if_pos (show (Value.object es).isObject = true from rfl),
      ← Verdict.stop?_eq_refused_iff, Verdict.stop?_map] at hrefused
    obtain ⟨f', hf', hstop⟩ := convertFields_stop hrefused
    obtain ⟨f, hf, rfl⟩ := List.mem_map.mp hf'
    rcases hstop with ⟨-, -, hrequired, habsent⟩ | ⟨y, hown, -, hstop⟩
    · -- A required field was read from something, so it is there.
      rcases hread f hf with ⟨hnone, -⟩ | ⟨u, x, -, -, hget⟩
      · rw [show f.optional = false from hrequired] at hnone
        unfold fieldSource at hnone
        split at hnone <;> cases hnone
      · rw [own?_object] at habsent
        rw [show Entries.get? es f.name = none from habsent] at hget
        cases hget
    · have hy : Entries.get? es f.name = some y := hown rfl
      rcases hread f hf with ⟨-, hnone⟩ | ⟨u, x, -, hx, hget⟩
      · rw [hnone] at hy
        cases hy
      · obtain rfl : y = x := Option.some.inj (hy.symm.trans hget)
        exact hfields f hf u y hx ((Verdict.stop?_eq_refused_iff _).mp hstop)

theorem ofEntries_isObject (es : Entries Value) : (Value.ofEntries es).isObject = true := by
  unfold Value.ofEntries
  dsimp only
  split
  · split <;> rfl
  · rfl

theorem mem_of_mem_ofEntries {es : Entries Value} {e : String × Value} (h : e ∈ (Value.ofEntries es).entries) :
    e ∈ es := by
  have hentries : (Value.ofEntries es).entries = es.filter fun e => e.1 != Entries.reservedKey := by
    unfold Value.ofEntries
    dsimp only
    split
    · split <;> rfl
    · rfl
  rw [hentries] at h
  exact (List.mem_filter.mp h).1

theorem passesCheck_record {values : Schema} (hvalues : PassesCheck defs n m values) :
    PassesCheck defs n m (.record values) := by
  intro v w h hrefused
  rw [convert] at h hrefused
  unfold convertRecord at h hrefused
  split at h
  · obtain ⟨es, hes, rfl⟩ := Verdict.map_eq_accepted h
    rw [if_pos (ofEntries_isObject es), ← Verdict.stop?_eq_refused_iff, Verdict.stop?_map] at hrefused
    obtain ⟨e, he, hstop⟩ := convertEntries_stop hrefused
    obtain ⟨e', -, -, hread⟩ := exists_of_forall₂_mem (convertEntries_accepted hes) (mem_of_mem_ofEntries he)
    exact hvalues e'.2 e.2 hread ((Verdict.stop?_eq_refused_iff _).mp hstop)
  · cases h

/-- An instance is taken as it is, whatever its fields hold. -/
theorem passesCheck_errorClass {className tag : String} {fields : List (Field Schema)} :
    PassesCheck defs n m (.errorClass className tag fields) := by
  intro v w h hrefused
  obtain ⟨u, message, -, rfl⟩ := errorClass_accepted h
  rw [convert] at hrefused
  simp [ClassWalk.convert, ClassWalk.validate, ClassWalk.hasInstance, Value.base] at hrefused

/-- The member that has read a value is a candidate again. -/
theorem passesCheck_union (hall : AllProper defs) {members : List Schema}
    (hmembers : ∀ s ∈ members, Everywhere (Proper defs) s) (hpass : ∀ s ∈ members, PassesCheck defs n m s) :
    PassesCheck defs n m (.union members) := by
  intro v w h hrefused
  obtain ⟨positions, hpositions, i, hi, s, hs, hread⟩ := union_accepted h
  have hmem := List.mem_of_getElem? hs
  rw [convert] at hrefused
  obtain ⟨again, hagain, hfirst⟩ := Verdict.after_eq_refused hrefused
  -- The filing is the same on both sides; a tagged member is found by the literal that reading has kept.
  have hcandidate : i ∈ again := by
    rcases candidates_mem hpositions hi with
      ⟨filing, hfiling, huntagged⟩ | ⟨filing, field, text, x, s', ts, hfiling, hunder, hx, ht, hs', hts, htag⟩
    · exact mem_candidates_of_untagged hagain hfiling huntagged
    · obtain rfl : s = s' := Option.some.inj (hs.symm.trans hs')
      obtain ⟨hcomposite, hkept⟩ := decode_keeps_tags hall (hmembers s hmem) hts htag hread hx
      exact mem_candidates_of_under hagain hfiling hunder hcomposite hkept ht
  have hmember : (convertMembers defs (followTo defs m) (.validate true) members)[i]? =
      some (convert defs (followTo defs m) (.validate true) s) := by
    rw [convertMembers_eq_map, List.getElem?_map, hs, Option.map_some]
  exact hpass s hmem v w hread (firstSuccess_refused hfirst hcandidate hmember)

theorem passesCheck (hall : AllProper defs) (hfollow : FollowsReading defs n m) (s : Schema) :
    Everywhere (Proper defs) s → PassesCheck defs n m s := by
  induction s using parts_induction with
  | step s ih =>
    intro hs
    have hpart : ∀ t ∈ s.parts, PassesCheck defs n m t := fun t ht => ih t ht (hs.of_mem ht)
    cases s with
    | string | number | boolean | bigint | undefined =>
      intro v w h
      simp only [convert] at h
      split at h
      · obtain rfl := Verdict.accepted.inj h
        simp [convert]
      · cases h
    | void | unknown | any =>
      intro v w _ hrefused
      cases hrefused
    | never =>
      intro v w h
      cases h
    | literal l =>
      intro v w h
      rw [convert, Verdict.guarded_eq_accepted_iff] at h
      obtain ⟨hl, rfl⟩ := h
      simp [convert, hl, Verdict.guarded]
    | numberFromString | bigintFromString =>
      intro v w h
      cases v with
      | string t =>
        rw [convert, Verdict.ofOption_eq_accepted_iff] at h
        obtain ⟨x, -, rfl⟩ := Option.map_eq_some_iff.mp h
        intro hrefused
        cases hrefused
      | _ => cases h
    | date =>
      intro v w h
      simp only [convert, walkDate, bne_self_eq_false, Bool.and_false, Bool.false_eq_true, if_false,
        Verdict.ofOption_eq_accepted_iff] at h
      cases v with
      | string t =>
        obtain ⟨moment, -, rfl⟩ := Option.map_eq_some_iff.mp h
        intro hrefused
        cases hrefused
      | _ => cases h
    | trim =>
      intro v w h
      cases v with
      | string t =>
        obtain rfl : Value.string (Text.trim t) = w := by
          simpa [convert, convertTrimmed, Verdict.ofOption] using h
        simp [convert, convertTrimmed, Text.trim_trim, Verdict.ofOption]
      | _ => cases h
    | filtered of f => exact passesCheck_filtered hs.here (hpart of (by simp [parts]))
    | tuple elements rest =>
      refine passesCheck_tuple (fun e he => hpart e.type ?_) (fun t ht => hpart t ?_)
      · exact List.mem_append_left _ (List.mem_map_of_mem he)
      · exact List.mem_append_right _ (Option.mem_toList.mpr ht)
    | struct name fields =>
      exact passesCheck_struct hs.here fun f hf => hpart f.type (List.mem_map_of_mem hf)
    | record values => exact passesCheck_record (hpart values (by simp [parts]))
    | union members => exact passesCheck_union hall (fun t ht => hs.of_mem ht) hpart
    | suspend name =>
      intro v w h
      rw [convert] at h ⊢
      exact hfollow name v w h
    | errorClass className tag fields => exact passesCheck_errorClass

end Reading

theorem followsReading {defs : Definitions} (hall : AllProper defs) (n m : Nat) : FollowsReading defs n m := by
  -- On `n` alone: a check that runs out of definitions is broken, which is no refusal.
  induction n generalizing m with
  | zero => exact fun name v w h => nomatch h
  | succ n ih =>
    intro name v w h hrefused
    obtain ⟨n', s, hn', htarget, -, hread⟩ := followTo_accepted h
    obtain rfl : n = n' := by omega
    cases m with
    | zero => cases hrefused
    | succ m =>
      obtain ⟨s', htarget', hwalk⟩ := Verdict.after_eq_refused hrefused
      obtain rfl := Except.ok.inj (htarget.symm.trans htarget')
      obtain ⟨_, -, hconvert⟩ := Verdict.after_eq_refused hwalk
      exact passesCheck hall (ih m) s (hall name s htarget) v w hread hconvert

/-- A value that was read is never refused when it is checked. -/
theorem accepts_ne_false_of_decode {defs : Definitions} (hall : AllProper defs) {s : Schema}
    (hs : Everywhere (Proper defs) s) {v w : Value} (h : s.decode defs v = .accepted w) :
    s.accepts defs w ≠ .ok false := by
  obtain ⟨_, -, hread⟩ := Verdict.after_eq_accepted h
  unfold accepts
  intro hfalse
  cases hrun : run defs (.validate true) s w with
  | accepted x => simp [hrun] at hfalse
  | broken fault => simp [hrun] at hfalse
  | refused =>
    obtain ⟨_, -, hconvert⟩ := Verdict.after_eq_refused hrun
    exact passesCheck hall (followsReading hall _ _) s hs v w hread hconvert

end Gateway.Schema

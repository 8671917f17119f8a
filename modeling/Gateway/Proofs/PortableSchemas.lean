import Gateway.Proofs.DecodedValues
import Gateway.Proofs.JsonValues

/-!
# Schemas that write trees

What a portable schema writes for the wire is a tree of lists and objects over scalars.  Not portable are schemas that
pass any value on, integers of unbounded size, objects with any keys, error classes, and structs without fields or with
a field that an object does not list where it was written.
-/

namespace Gateway.Schema

/-- Whether a schema writes trees, if its parts do. -/
def WritesTrees : Schema → Prop
  | .struct _ fields => fields ≠ [] ∧ (fields.map (·.name)).Nodup ∧
      ∀ f ∈ fields, f.name ≠ Entries.reservedKey ∧ Entries.indexOf? f.name = none
  | .bigint | .void | .unknown | .any | .record _ | .errorClass _ _ _ => False
  | _ => True

/-- Whether a schema and all that its suspended parts may lead to write trees. -/
structure Portable (defs : Definitions) (s : Schema) : Prop where
  parts : Everywhere WritesTrees s
  definitions : ∀ name t, target defs name = .ok t → Everywhere WritesTrees t

/-! ## One schema -/

theorem isTree_of_isLiteral {l : Literal} {v : Value} (h : isLiteral l v = true) : Json.isTree v = true := by
  cases v with
  | null | bool | number | string => rfl
  | _ => cases l <;> cases h

section

variable {defs : Definitions} {follow : Follow}

/-- Whether all that a schema writes, below a condition or not, is a tree. -/
def GivesTrees (defs : Definitions) (follow : Follow) (s : Schema) : Prop :=
  ∀ checked v e, convert defs follow (.encode checked) s v = .accepted e → Json.isTree e = true

theorem givesTrees_filtered {of : Schema} {f : Filter} (hof : GivesTrees defs follow of) :
    GivesTrees defs follow (.filtered of f) := by
  intro checked v e h
  rw [convert] at h
  unfold convertFiltered at h
  rw [if_pos (by rfl)] at h
  split at h
  · exact hof true v e h
  · obtain ⟨u, -, hwrite⟩ := Verdict.bind_eq_accepted h
    exact hof true u e hwrite

theorem givesTrees_tuple {elements : List (Element Schema)} {rest : Option Schema}
    (hparts : ∀ t ∈ (Schema.tuple elements rest).parts, GivesTrees defs follow t) :
    GivesTrees defs follow (.tuple elements rest) := by
  intro checked v e h
  rw [convert, convertElements_eq_map, convertRest_eq_map] at h
  cases v with
  | array items =>
    rw [convertTuple] at h
    split at h
    · cases h
    · split at h
      · cases h
      · obtain ⟨head, hhead, htail⟩ := Verdict.bind_eq_accepted h
        obtain ⟨tail, hfurther, rfl⟩ := Verdict.map_eq_accepted htail
        rw [Json.isTree, Json.areTrees_iff]
        intro w hw
        rcases List.mem_append.mp hw with hw | hw
        · obtain ⟨place, hplace, u, hu⟩ := convertPlaces_mem hhead hw
          obtain ⟨element, helement, rfl⟩ := List.mem_map.mp hplace
          exact hparts element.type (List.mem_append_left _ (List.mem_map_of_mem helement)) false u w hu
        · cases rest with
          | none =>
            obtain rfl : [] = tail := Verdict.accepted.inj hfurther
            cases hw
          | some item =>
            obtain ⟨u, -, hu⟩ := exists_of_forall₂_mem (convertItems_accepted hfurther) hw
            exact hparts item (List.mem_append_right _ (by simp)) false u w hu
  | _ => cases h

theorem givesTrees_struct {name : Option String} {fields : List (Field Schema)}
    (hwrites : WritesTrees (.struct name fields)) (hparts : ∀ f ∈ fields, GivesTrees defs follow f.type) :
    GivesTrees defs follow (.struct name fields) := by
  obtain ⟨hne, hnodup, hnames⟩ := hwrites
  intro checked v e h
  rw [convert, convertFieldTypes_eq_map] at h
  unfold convertStruct at h
  rw [if_neg (by simpa using hne)] at h
  split at h
  · obtain ⟨es, hes, rfl⟩ := Verdict.map_eq_accepted h
    have hkeys := convertFields_keys hes
    rw [List.map_map] at hkeys
    -- No key is moved or lost when the object is put together.
    have hkey : ∀ key ∈ Entries.keys es, key ≠ Entries.reservedKey ∧ Entries.indexOf? key = none := by
      intro key hmem
      obtain ⟨f, hf, rfl⟩ := List.mem_map.mp (hkeys.subset hmem)
      exact hnames f hf
    have horder : Entries.inOrder es = true :=
      Entries.inOrder_of_nodup (hnodup.sublist hkeys) fun key hmem => (hkey key hmem).2
    have hplain : Value.ofEntries es = .object es :=
      ofEntries_of_not_mem fun hmem => (hkey _ hmem).1 rfl
    have htrees : Json.haveTrees es = true := by
      rw [Json.haveTrees_iff]
      intro entry hentry
      obtain ⟨f, hf, u, hu⟩ := convertFields_mem hes hentry
      obtain ⟨field, hfield, rfl⟩ := List.mem_map.mp hf
      exact hparts field hfield false u entry.2 hu
    rw [hplain, Json.isTree, horder, htrees]
    rfl
  · cases h

/-- The converting scalars write texts. -/
theorem isTree_of_ofOption {o : Option Value} {e : Value} (h : Verdict.ofOption o = .accepted e)
    (htext : ∀ w, o = some w → ∃ s, w = .string s) : Json.isTree e = true := by
  obtain ⟨s, rfl⟩ := htext e ((Verdict.ofOption_eq_accepted_iff _ _).mp h)
  rfl

theorem convertNumberText_encode {checked : Bool} {v w : Value}
    (h : convertNumberText (.encode checked) v = some w) : ∃ s, w = .string s := by
  cases v with
  | number n => exact ⟨_, (Option.some.inj h).symm⟩
  | _ => cases h

theorem convertIntegerText_encode {checked : Bool} {v w : Value}
    (h : convertIntegerText (.encode checked) v = some w) : ∃ s, w = .string s := by
  cases v with
  | bigint n => exact ⟨_, (Option.some.inj h).symm⟩
  | _ => cases h

theorem convertDate_encode {checked : Bool} {v w : Value} (h : convertDate (.encode checked) v = some w) :
    ∃ s, w = .string s := by
  cases v with
  | date moment =>
    cases moment with
    | none => cases h
    | some m => exact ⟨_, (Option.some.inj h).symm⟩
  | _ => cases h

theorem convertTrimmed_encode {checked : Bool} {v w : Value} (h : convertTrimmed (.encode checked) v = some w) :
    ∃ s, w = .string s := by
  cases v with
  | string s =>
    rw [convertTrimmed] at h
    · split at h
      · exact ⟨s, (Option.some.inj h).symm⟩
      · cases h
    · intro hd
      cases hd
  | _ => cases h

/-- What a schema writes is a tree if that holds of all that its suspended parts lead to. -/
theorem givesTrees (hfollow : ∀ name v e, follow (.encode false) name v = .accepted e → Json.isTree e = true)
    (s : Schema) : Everywhere WritesTrees s → GivesTrees defs follow s := by
  induction s using parts_induction with
  | step s ih =>
    intro hs
    have hparts : ∀ t ∈ s.parts, GivesTrees defs follow t := fun t ht => ih t ht (hs.of_mem ht)
    cases s with
    | filtered of f => exact givesTrees_filtered (hparts of (by simp [parts]))
    | tuple elements rest => exact givesTrees_tuple hparts
    | struct name fields =>
      exact givesTrees_struct hs.here fun f hf => hparts f.type (List.mem_map_of_mem hf)
    | union members =>
      intro checked v e h
      obtain ⟨-, -, i, -, member, hmember, hconvert⟩ := union_accepted h
      exact hparts member (List.mem_of_getElem? hmember) false v e hconvert
    | suspend name =>
      intro checked v e h
      exact hfollow name v e h
    | literal l =>
      intro checked v e h
      obtain ⟨hl, rfl⟩ := (Verdict.guarded_eq_accepted_iff _ _ _).mp h
      exact isTree_of_isLiteral hl
    | numberFromString =>
      intro checked v e h
      exact isTree_of_ofOption h fun w => convertNumberText_encode
    | bigintFromString =>
      intro checked v e h
      exact isTree_of_ofOption h fun w => convertIntegerText_encode
    | date =>
      intro checked v e h
      rw [convert, walkDate] at h
      split at h
      · cases h
      · exact isTree_of_ofOption h fun w => convertDate_encode
    | trim =>
      intro checked v e h
      exact isTree_of_ofOption h fun w => convertTrimmed_encode
    | never =>
      intro checked v e h
      cases h
    | string =>
      intro checked v e h
      cases v with
      | string s =>
        obtain rfl := Verdict.accepted.inj h
        rfl
      | _ => cases h
    | number =>
      intro checked v e h
      cases v with
      | number n =>
        obtain rfl := Verdict.accepted.inj h
        rfl
      | _ => cases h
    | boolean =>
      intro checked v e h
      cases v with
      | bool b =>
        obtain rfl := Verdict.accepted.inj h
        rfl
      | _ => cases h
    | undefined =>
      intro checked v e h
      cases v with
      | undefined =>
        obtain rfl := Verdict.accepted.inj h
        rfl
      | _ => cases h
    | _ => exact absurd hs.here id

/-- What a suspended schema writes is a tree, however many definitions are followed. -/
theorem followTo_givesTrees (hdefs : ∀ name t, target defs name = .ok t → Everywhere WritesTrees t) (n : Nat) :
    ∀ name v e, followTo defs n (.encode false) name v = .accepted e → Json.isTree e = true := by
  induction n with
  | zero =>
    intro name v e h
    cases h
  | succ n ih =>
    intro name v e h
    obtain ⟨m, t, hm, htarget, -, hconvert⟩ := followTo_accepted h
    obtain rfl := Nat.succ.inj hm
    exact givesTrees ih t (hdefs name t htarget) false v e hconvert

/-- What a portable schema writes is a tree. -/
theorem Portable.isTree_of_encode {s : Schema} (hs : s.Portable defs) {v e : Value}
    (h : s.encode defs v = .accepted e) : Json.isTree e = true := by
  obtain ⟨_, -, hconvert⟩ := Verdict.after_eq_accepted h
  exact givesTrees (followTo_givesTrees hs.definitions _) s hs.parts false v e hconvert

end

end Gateway.Schema

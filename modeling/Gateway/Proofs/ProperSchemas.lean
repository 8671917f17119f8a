import Gateway.Proofs.Conversions
import Gateway.Proofs.SchemaParts

/-!
# Schemas that are put together as their parts are meant

Lengths are those of texts and bounds those of numbers, and the fields of a struct or of an error class have names
of their own.  Below a condition of such a schema stands a scalar, and checking a scalar never changes it.
-/

namespace Gateway

/-- The kinds of scalars that conditions are about. -/
inductive Kind where
  | text
  | number
  deriving DecidableEq, Repr

namespace Kind

/-- Whether a value is of a kind. -/
def admits : Kind → Value → Bool
  | .text, .string _ => true
  | .number, .number _ | .number, .bigint _ => true
  | _, _ => false

/-- Whether a schema gives values of a kind by itself. -/
def gives : Kind → Schema → Bool
  | .text, .string | .text, .trim | .text, .literal (.string _) => true
  | .number, .number | .number, .bigint | .number, .numberFromString | .number, .bigintFromString => true
  | .number, .literal (.number _) => true
  | _, .never => true
  | _, _ => false

end Kind

/-- The kind of values that a condition is about, unless it refuses all others by itself. -/
def Filter.kind? : Filter → Option Kind
  | .minLength _ | .maxLength _ => some .text
  | .between _ _ => some .number
  | .safeInteger | .nonEmpty => none

namespace Schema

/-- The schemas whose values are all of one kind. -/
inductive OfKind (defs : Definitions) (kind : Kind) : Schema → Prop where
  | base {s : Schema} (hgives : kind.gives s = true) : OfKind defs kind s
  | filtered {of : Schema} {f : Filter} (hof : OfKind defs kind of) : OfKind defs kind (.filtered of f)
  | union {members : List Schema} (hmembers : ∀ s ∈ members, OfKind defs kind s) :
      OfKind defs kind (.union members)
  | suspend {name : String} {s : Schema} (htarget : target defs name = .ok s) (hs : OfKind defs kind s) :
      OfKind defs kind (.suspend name)

/-- The fields of an error class, with that of its tag at the end. -/
def classFields (tag : String) (fields : List (Field Schema)) : List (Field Schema) :=
  fields ++ [ErrorClass.tagField tag]

/-- Fields of distinct names, none of them reserved. -/
def DistinctFields (fields : List (Field Schema)) : Prop :=
  (fields.map (·.name)).Nodup ∧ Entries.reservedKey ∉ fields.map (·.name)

/-- A schema whose fields have distinct names, and whose condition suits the schema below it. -/
def Proper (defs : Definitions) : Schema → Prop
  | .struct _ fields => DistinctFields fields
  | .errorClass _ tag fields => DistinctFields (classFields tag fields)
  | .filtered of f => ∀ kind, f.kind? = some kind → OfKind defs kind of
  | _ => True

/-- Every schema that a suspended one may lead to is proper, with all its parts. -/
def AllProper (defs : Definitions) : Prop :=
  ∀ name s, target defs name = .ok s → Everywhere (Proper defs) s

/-! ## Following a suspended schema -/

theorem followTo_accepted {defs : Definitions} {n : Nat} {d : Direction} {name : String} {v w : Value}
    (h : followTo defs n d name v = .accepted w) :
    ∃ m s, n = m + 1 ∧ target defs name = .ok s ∧ prepare defs d s = .ok () ∧
      convert defs (followTo defs m) d s v = .accepted w := by
  cases n with
  | zero => cases h
  | succ m =>
    obtain ⟨s, htarget, hwalk⟩ := Verdict.after_eq_accepted h
    obtain ⟨_, hprepare, hconvert⟩ := Verdict.after_eq_accepted hwalk
    exact ⟨m, s, rfl, htarget, hprepare, hconvert⟩

/-! ## Conditions -/

theorem keepIf_eq_accepted {f : Filter} {v w : Value} (h : keepIf f v = .accepted w) :
    v = w ∧ holds f v = .ok true := by
  obtain ⟨b, hholds, hguarded⟩ := Verdict.after_eq_accepted h
  obtain ⟨rfl, hv⟩ := (Verdict.guarded_eq_accepted_iff _ _ _).mp hguarded
  exact ⟨hv, hholds⟩

/-- A direction in which a condition is checked on what its schema gives. -/
def Direction.readsFirst (d : Direction) : Prop :=
  d = .decode ∨ ∃ exact, d = .validate exact

theorem convertFiltered_eq {d : Direction} (hd : d.readsFirst) (f : Filter) (check write read : Conversion)
    (v : Value) : convertFiltered d f check write read v = (read v).bind (keepIf f) := by
  rcases hd with rfl | ⟨exact, rfl⟩ <;> rfl

theorem inner_of_readsFirst {d : Direction} (hd : d.readsFirst) : d.inner = d := by
  rcases hd with rfl | ⟨exact, rfl⟩ <;> rfl

theorem filtered_accepted {defs : Definitions} {follow : Follow} {d : Direction} (hd : d.readsFirst)
    {of : Schema} {f : Filter} {v w : Value} (h : convert defs follow d (.filtered of f) v = .accepted w) :
    convert defs follow d of v = .accepted w ∧ holds f w = .ok true := by
  rw [convert, convertFiltered_eq hd] at h
  obtain ⟨u, hu, hkeep⟩ := Verdict.bind_eq_accepted h
  obtain ⟨rfl, hholds⟩ := keepIf_eq_accepted hkeep
  exact ⟨hu, hholds⟩

theorem union_accepted {defs : Definitions} {follow : Follow} {d : Direction} {members : List Schema}
    {v w : Value} (h : convert defs follow d (.union members) v = .accepted w) :
    ∃ positions, candidates defs d.side members v = .ok positions ∧
      ∃ i ∈ positions, ∃ s, members[i]? = some s ∧ convert defs follow d.inner s v = .accepted w := by
  rw [convert] at h
  obtain ⟨positions, hpositions, hfirst⟩ := Verdict.after_eq_accepted h
  obtain ⟨i, hi, member, hmember, hv⟩ := firstSuccess_accepted hfirst
  rw [convertMembers_eq_map, List.getElem?_map] at hmember
  obtain ⟨s, hs, rfl⟩ := Option.map_eq_some_iff.mp hmember
  exact ⟨positions, hpositions, i, hi, s, hs, hv⟩

/-! ## Kinds -/

theorem Kind.admits_of_gives {kind : Kind} {s : Schema} (hgives : kind.gives s = true) {defs : Definitions}
    {follow : Follow} {d : Direction} (hd : d.readsFirst) {v w : Value}
    (h : convert defs follow d s v = .accepted w) : kind.admits w = true := by
  cases kind with
  | text =>
    cases s with
    | string =>
      simp only [convert] at h
      split at h
      · exact (Verdict.accepted.inj h) ▸ rfl
      · cases h
    | trim =>
      rw [convert, Verdict.ofOption_eq_accepted_iff] at h
      unfold convertTrimmed at h
      split at h
      · exact (Option.some.inj h) ▸ rfl
      · split at h
        · exact (Option.some.inj h) ▸ rfl
        · cases h
      · cases h
    | literal l =>
      rw [convert, Verdict.guarded_eq_accepted_iff] at h
      obtain ⟨hl, rfl⟩ := h
      cases l with
      | string t =>
        cases v with
        | string => rfl
        | _ => cases hl
      | _ => cases hgives
    | never => cases h
    | _ => cases hgives
  | number =>
    cases s with
    | number | bigint =>
      simp only [convert] at h
      split at h
      · exact (Verdict.accepted.inj h) ▸ rfl
      · cases h
    | numberFromString =>
      rw [convert, Verdict.ofOption_eq_accepted_iff] at h
      rcases hd with rfl | ⟨exact, rfl⟩
      · cases v with
        | string t =>
          obtain ⟨n, -, rfl⟩ := Option.map_eq_some_iff.mp h
          rfl
        | _ => cases h
      · cases v with
        | number n => exact (Option.some.inj h) ▸ rfl
        | _ => cases h
    | bigintFromString =>
      rw [convert, Verdict.ofOption_eq_accepted_iff] at h
      rcases hd with rfl | ⟨exact, rfl⟩
      · cases v with
        | string t =>
          obtain ⟨n, -, rfl⟩ := Option.map_eq_some_iff.mp h
          rfl
        | _ => cases h
      · cases v with
        | bigint n => exact (Option.some.inj h) ▸ rfl
        | _ => cases h
    | literal l =>
      rw [convert, Verdict.guarded_eq_accepted_iff] at h
      obtain ⟨hl, rfl⟩ := h
      cases l with
      | number n =>
        cases v with
        | number => rfl
        | _ => cases hl
      | _ => cases hgives
    | never => cases h
    | _ => cases hgives

/-- What a schema of a kind reads or checks is of the kind. -/
theorem OfKind.admits {defs : Definitions} {kind : Kind} {s : Schema} (hs : OfKind defs kind s)
    {d : Direction} (hd : d.readsFirst) {n : Nat} {v w : Value}
    (h : convert defs (followTo defs n) d s v = .accepted w) : kind.admits w = true := by
  induction hs generalizing n with
  | base hgives => exact Kind.admits_of_gives hgives hd h
  | filtered _ ih => exact ih (filtered_accepted hd h).1
  | union _ ih =>
    obtain ⟨positions, -, i, -, s, hs, hconvert⟩ := union_accepted h
    rw [inner_of_readsFirst hd] at hconvert
    exact ih s (List.mem_of_getElem? hs) hconvert
  | suspend htarget _ ih =>
    rw [convert, inner_of_readsFirst hd] at h
    obtain ⟨m, s', -, htarget', -, hconvert⟩ := followTo_accepted h
    obtain rfl := Except.ok.inj (htarget.symm.trans htarget')
    exact ih hconvert

/-! ## Scalars -/

/-- A follow that leaves the scalars that it accepts as they are. -/
def Follow.KeepsScalars (follow : Follow) (exact : Bool) : Prop :=
  ∀ name w w', w.isScalar = true → follow (.validate exact) name w = .accepted w' → w' = w

/-- An error class takes the instances that it accepts as they are. -/
theorem ClassWalk.validate_accepted {c : ClassWalk} {w w' : Value} (h : c.validate w = .accepted w') :
    w' = w := by
  unfold validate at h
  split at h
  · exact (Verdict.accepted.inj h).symm
  · split at h
    · split at h
      · obtain ⟨_, -, hmap⟩ := Verdict.after_eq_accepted h
        obtain ⟨_, -, hw⟩ := Verdict.map_eq_accepted hmap
        exact hw.symm
      · cases h
    · cases h

theorem isObject_of_isScalar {w : Value} (h : w.isScalar = true) : w.isObject = false := by
  cases w with
  | date | error | raised | object | heir => cases h
  | _ => rfl

theorem convert_keeps_scalars {defs : Definitions} {follow : Follow} {exact : Bool}
    (hfollow : follow.KeepsScalars exact) (s : Schema) :
    ∀ w w', w.isScalar = true → convert defs follow (.validate exact) s w = .accepted w' → w' = w := by
  have hread : Direction.readsFirst (.validate exact) := .inr ⟨exact, rfl⟩
  induction s using parts_induction with
  | step s ih =>
    intro w w' hscalar h
    have hnotObject := isObject_of_isScalar hscalar
    cases s with
    | string | number | boolean | bigint | undefined =>
      simp only [convert] at h
      split at h
      · exact (Verdict.accepted.inj h).symm
      · cases h
    | void | unknown | any => exact (Verdict.accepted.inj h).symm
    | never => cases h
    | literal l =>
      rw [convert, Verdict.guarded_eq_accepted_iff] at h
      exact h.2.symm
    | numberFromString =>
      rw [convert, Verdict.ofOption_eq_accepted_iff] at h
      cases w with
      | number n => exact (Option.some.inj h).symm
      | _ => cases h
    | bigintFromString =>
      rw [convert, Verdict.ofOption_eq_accepted_iff] at h
      cases w with
      | bigint n => exact (Option.some.inj h).symm
      | _ => cases h
    | trim =>
      rw [convert, Verdict.ofOption_eq_accepted_iff] at h
      cases w with
      | string t =>
        simp only [convertTrimmed, Option.ite_none_right_eq_some, Option.some.injEq] at h
        exact h.2.symm
      | _ => cases h
    | date =>
      rw [convert] at h
      cases w with
      | date | heir => cases hscalar
      | _ => cases h
    | filtered of f => exact ih of (by simp [parts]) w w' hscalar (filtered_accepted hread h).1
    | tuple elements rest =>
      rw [convert] at h
      cases w with
      | array items => cases hscalar
      | _ => cases h
    | struct name fields =>
      rw [convert] at h
      unfold convertStruct at h
      split at h
      · rw [Verdict.guarded_eq_accepted_iff] at h
        exact h.2.symm
      · simp [hnotObject] at h
    | record values => simp [convert, convertRecord, hnotObject] at h
    | union members =>
      obtain ⟨positions, -, i, -, t, ht, hconvert⟩ := union_accepted h
      exact ih t (List.mem_of_getElem? ht) w w' hscalar hconvert
    | suspend name =>
      rw [convert] at h
      exact hfollow name w w' hscalar h
    | errorClass className tag fields =>
      rw [convert] at h
      exact ClassWalk.validate_accepted h

theorem followTo_keepsScalars (defs : Definitions) (n : Nat) (exact : Bool) :
    Follow.KeepsScalars (followTo defs n) exact := by
  induction n with
  | zero =>
    intro name w w' _ h
    cases h
  | succ n ih =>
    intro name w w' hscalar h
    obtain ⟨m, s, hm, -, -, hconvert⟩ := followTo_accepted h
    obtain rfl : n = m := by omega
    exact convert_keeps_scalars ih s w w' hscalar hconvert

/-- Checking a scalar never changes it. -/
theorem validate_scalar {defs : Definitions} {n : Nat} {exact : Bool} {s : Schema} {w w' : Value}
    (hscalar : w.isScalar = true) (h : convert defs (followTo defs n) (.validate exact) s w = .accepted w') :
    w' = w :=
  convert_keeps_scalars (followTo_keepsScalars defs n exact) s w w' hscalar h

end Schema

end Gateway

import Gateway.Proofs.ArgumentSources
import Gateway.Proofs.NullishSchemas

/-!
# Optional schemas are those that read nothing

A parameter may be left out if the wire side of its schema admits null or undefined, while an absent parameter is read
from null and then from undefined.  For a grounded schema the two agree, as far as reading can be set up: what the
schema leads to at once reads nothing without a fault (`readsNothing`), by induction along the walk, and reads null or
undefined where it is nullish.  So an absent parameter fails exactly if it is not optional
(`optional_iff_reads_nothing`).
-/

namespace Gateway

namespace Schema

section Reading

variable {defs : Definitions}

/-- A schema of which reading can be set up: the members of its unions can be filed, and so can those of the schemas
that are suspended in it at once, all of which are defined. -/
structure Ready (defs : Definitions) (s : Schema) : Prop where
  prepared : prepare defs .decode s = .ok ()
  resolved : ∀ name, AtOnce defs s (.suspend name) → ∃ t, target defs name = .ok t ∧ prepare defs .decode t = .ok ()

/-- No condition that a schema leads to at once is laid on an optional schema. -/
def ConditionsOnPresent (defs : Definitions) (s : Schema) : Prop :=
  ∀ of f, AtOnce defs s (.filtered of f) → of.isOptional defs = false

theorem isOptional_eq_true_iff {s : Schema} : s.isOptional defs = true ↔ s.isOptional? defs = .ok true := by
  unfold isOptional
  cases s.isOptional? defs <;> simp [Except.toOption]

/-- A grounded schema that is not optional is not nullish, if no fault stops it at null or at undefined. -/
theorem not_nullish_of_not_optional {s : Schema} (hgrounded : Grounded defs s) (hoptional : s.isOptional defs = false)
    {n : Nat} {v : Value} (hv : v.isNothing = true)
    (hanswered : (convert defs (followTo defs n) .decode s v).Answered) : ¬Nullish defs s := by
  obtain ⟨b, hb⟩ := exists_admitsNothing (defs.length + 1) s n v hv (hgrounded.bounded (Nat.le_succ _)) hanswered
  intro hnullish
  obtain rfl := (admitsNothing_eq_ok _ s b hb).mpr hnullish
  rw [isOptional_eq_true_iff.mpr hb] at hoptional
  cases hoptional

/-- No fault stops the reading of nothing, and a nullish schema reads null or undefined. -/
def ReadsNothing (defs : Definitions) (n : Nat) (s : Schema) : Prop :=
  (∀ v, v.isNothing = true → (convert defs (followTo defs n) .decode s v).Answered) ∧
    (Nullish defs s → ∃ v w, v.isNothing = true ∧ convert defs (followTo defs n) .decode s v = .accepted w)

theorem readsNothing_guard {n : Nat} {s : Schema} (hguard : s.isGuard = true) : ReadsNothing defs n s := by
  refine ⟨fun v hv => answered_nothing_of_guard hguard hv, fun hnullish => ?_⟩
  exact exists_nothing_of_takesNothing ((nullish_guard_iff hguard).mp hnullish)

theorem readsNothing_filtered {n : Nat} {of : Schema} {f : Filter} (hof : ReadsNothing defs n of)
    (hnot : ¬Nullish defs of) : ReadsNothing defs n (.filtered of f) := by
  refine ⟨fun v hv => ?_, fun hnullish => absurd (nullish_filtered_iff.mp hnullish) hnot⟩
  rw [convert, convertFiltered_eq (.inl rfl), refused_of_not_nullish hv (hof.1 v hv) hnot]
  exact Verdict.answered_refused

theorem readsNothing_union {n : Nat} {members : List Schema} {filing : Filing}
    (hfiling : Filing.ofMembers defs .wire members = .ok filing) (hbounded : ∀ s ∈ members, Bounded defs n s)
    (hmembers : ∀ s ∈ members, ReadsNothing defs n s) : ReadsNothing defs n (.union members) := by
  have hanswered : ∀ v, v.isNothing = true →
      ∀ r ∈ (untagged defs members).map (convert defs (followTo defs n) .decode · v), r.Answered := by
    intro v hv r hr
    obtain ⟨s, hs, rfl⟩ := List.mem_map.mp hr
    exact (hmembers s (List.mem_of_mem_filter hs)).1 v hv
  refine ⟨fun v hv => ?_, fun hnullish => ?_⟩
  · rw [convert_union_nothing hfiling hv]
    exact Verdict.answered_firstOf (hanswered v hv)
  · obtain ⟨s, hs, hnullish⟩ := nullish_union_iff.mp hnullish
    -- A nullish member is not filed under a literal, so it is among those that are tried.
    have huntagged : s ∈ untagged defs members := by
      obtain ⟨ts, hts⟩ := Filing.tags_of_fileAll hfiling hs
      refine List.mem_filter.mpr ⟨hs, ?_⟩
      cases ts with
      | nil => simp [hts, Except.toOption]
      | cons tag others =>
        have hno := admitsNothing_of_tagged hts (List.cons_ne_nil tag others) (hbounded s hs)
        exact absurd ((admitsNothing_eq_ok n s false hno).mpr hnullish) Bool.false_ne_true
    obtain ⟨v, w, hv, haccepted⟩ := (hmembers s hs).2 hnullish
    obtain ⟨x, hx⟩ := Verdict.firstOf_accepts (hanswered v hv) (List.mem_map.mpr ⟨s, huntagged, haccepted⟩)
    exact ⟨v, x, hv, by rw [convert_union_nothing hfiling hv, hx]⟩

theorem readsNothing_suspend {n : Nat} {name : String} {t : Schema} (htarget : target defs name = .ok t)
    (hprepared : prepare defs .decode t = .ok ()) (ht : ReadsNothing defs n t) :
    ReadsNothing defs (n + 1) (.suspend name) := by
  have hwalk : ∀ v, convert defs (followTo defs (n + 1)) .decode (.suspend name) v =
      convert defs (followTo defs n) .decode t v := by
    intro v
    simp [convert, Direction.inner, followTo, walk, htarget, hprepared, Verdict.after]
  refine ⟨fun v hv => hwalk v ▸ ht.1 v hv, fun hnullish => ?_⟩
  obtain ⟨t', htarget', hnullish⟩ := nullish_suspend_iff.mp hnullish
  obtain rfl := Except.ok.inj (htarget.symm.trans htarget')
  obtain ⟨v, w, hv, haccepted⟩ := ht.2 hnullish
  exact ⟨v, w, hv, (hwalk v).trans haccepted⟩

/-- What a grounded schema leads to at once reads nothing without a fault, if the schema is ready and its conditions
are laid on schemas that are not optional. -/
theorem readsNothing {root : Schema} (hgrounded : Grounded defs root) (hready : Ready defs root)
    (hconditions : ConditionsOnPresent defs root) (n : Nat) (s : Schema) :
    AtOnce defs root s → prepare defs .decode s = .ok () → Bounded defs n s → ReadsNothing defs n s := by
  induction n, s using walk_induction with
  | guard n s hguard =>
    intro _ _ _
    exact readsNothing_guard hguard
  | filtered n of f ih =>
    intro hleads hprepared hbounded
    have hof := ih (hleads.trans (.filtered (.refl of))) (by simpa [prepare, Direction.checksFirst] using hprepared)
      hbounded.of_filtered
    refine readsNothing_filtered hof (not_nullish_of_not_optional ?_ (hconditions of f hleads) rfl (hof.1 .null rfl))
    exact hgrounded.of_atOnce (hleads.trans (.filtered (.refl of)))
  | union n members ih =>
    intro hleads hprepared hbounded
    rw [prepare] at hprepared
    cases hfiling : Filing.ofMembers defs .wire members with
    | error fault => simp [Direction.side, hfiling] at hprepared
    | ok filing =>
      have hmembers : prepareMembers defs .decode members = .ok () := by
        simpa [Direction.side, Direction.inner, hfiling] using hprepared
      rw [prepareMembers_eq_ok_iff] at hmembers
      refine readsNothing_union hfiling hbounded.of_union fun s hs => ?_
      exact ih s hs (hleads.trans (.union hs (.refl s))) (hmembers s hs) (hbounded.of_union s hs)
  | last name =>
    intro hleads _ hbounded
    obtain ⟨t, htarget, -⟩ := hready.resolved name hleads
    obtain ⟨_, hn, -⟩ := hbounded.of_suspend htarget
    cases hn
  | suspend n name ih =>
    intro hleads _ hbounded
    obtain ⟨t, htarget, hprepared⟩ := hready.resolved name hleads
    obtain ⟨_, hn, hbelow⟩ := hbounded.of_suspend htarget
    obtain rfl := Nat.succ.inj hn
    exact readsNothing_suspend htarget hprepared (ih t (hleads.trans (.suspend htarget (.refl t))) hprepared hbelow)

theorem length_le_followBound (v : Value) : defs.length ≤ followBound defs v :=
  calc defs.length ≤ defs.length + 1 := Nat.le_succ _
    _ ≤ (defs.length + 1) * (v.height + 3) := Nat.le_mul_of_pos_right _ (Nat.succ_pos _)

/-- Null and undefined are read with the same number of definitions to follow. -/
theorem decode_nothing_of_prepared {s : Schema} (hprepared : prepare defs .decode s = .ok ()) {v : Value}
    (hv : v.isNothing = true) :
    s.decode defs v = convert defs (followTo defs (followBound defs .null)) .decode s v := by
  cases v with
  | null | undefined => simp [decode, run, walk, hprepared, Verdict.after, followBound, Value.height]
  | _ => cases hv

theorem isOptional_of_decode {s : Schema} (hgrounded : Grounded defs s) {v w : Value} (hv : v.isNothing = true)
    (h : s.decode defs v = .accepted w) : s.isOptional defs = true := by
  obtain ⟨_, -, haccepted⟩ := Verdict.after_eq_accepted h
  cases hoptional : s.isOptional defs with
  | true => rfl
  | false =>
    have hanswered : (convert defs (followTo defs (followBound defs v)) .decode s v).Answered := by
      rw [haccepted]
      exact Verdict.answered_accepted w
    exact absurd (nullish_of_accepted _ s v w hv haccepted)
      (not_nullish_of_not_optional hgrounded hoptional hv hanswered)

/-- A grounded schema reads null and undefined without a fault, and one of them if it is optional. -/
theorem decode_nothing {s : Schema} (hgrounded : Grounded defs s) (hready : Ready defs s)
    (hconditions : ConditionsOnPresent defs s) :
    (∀ v, v.isNothing = true → (s.decode defs v).Answered) ∧
      (s.isOptional defs = true → ∃ v w, v.isNothing = true ∧ s.decode defs v = .accepted w) := by
  obtain ⟨hanswered, haccepted⟩ := readsNothing hgrounded hready hconditions (followBound defs .null) s (.refl s)
    hready.prepared (hgrounded.bounded (length_le_followBound .null))
  refine ⟨fun v hv => ?_, fun hoptional => ?_⟩
  · rw [decode_nothing_of_prepared hready.prepared hv]
    exact hanswered v hv
  · obtain ⟨v, w, hv, hw⟩ := haccepted ((admitsNothing_eq_ok _ s true (isOptional_eq_true_iff.mp hoptional)).mp rfl)
    exact ⟨v, w, hv, (decode_nothing_of_prepared hready.prepared hv).trans hw⟩

end Reading

end Schema

namespace Binding

variable {defs : Definitions} (procedure : String) {payload : Payload} {p : Parameter}

theorem bindParameter_absent (h : Entries.get? payload.values p.wireName = none) :
    bindParameter defs procedure payload p = bindAbsent defs procedure p := by
  rw [bindParameter, h]

theorem bindAbsent_of_not_optional (h : p.isOptional defs = false) :
    bindAbsent defs procedure p = .error (.refused (.requiredArgumentMissing procedure p.wireName)) := by
  rw [bindAbsent, h]
  rfl

/-- An optional parameter that is absent is bound, if reading nothing never stops and succeeds once. -/
theorem bindAbsent_of_optional (h : p.isOptional defs = true)
    (hanswered : ∀ v, v.isNothing = true → (p.schema.decode defs v).Answered) {v w : Value} (hv : v.isNothing = true)
    (hw : p.schema.decode defs v = .accepted w) : ∃ x, bindAbsent defs procedure p = .ok x := by
  have hnothing : ∀ u, u ∈ Source.absent.offers defs p ↔ u.isNothing = true := by
    intro u
    rw [Source.offers, if_pos h]
    cases u <;> simp [Value.isNothing]
  have hall : ∀ r ∈ (Source.absent.offers defs p).map (p.schema.decode defs), r.Answered := by
    intro r hr
    obtain ⟨u, hu, rfl⟩ := List.mem_map.mp hr
    exact hanswered u ((hnothing u).mp hu)
  obtain ⟨x, hx⟩ := Verdict.firstOf_accepts hall (List.mem_map.mpr ⟨v, (hnothing v).mpr hv, hw⟩)
  exact ⟨x, by rw [bindAbsent_eq, hx, settle]⟩

end Binding

namespace Schema

/-- What reads null or undefined is optional.  Conversely, if reading can be set up and no condition is laid on an
optional schema, an optional schema reads one of them, so that of the absent parameters just those fail that are not
optional, and they are reported as missing. -/
theorem optional_iff_reads_nothing {defs : Definitions} {s : Schema} (hgrounded : Grounded defs s) :
    (∀ v w, v.isNothing = true → s.decode defs v = .accepted w → s.isOptional defs = true) ∧
      (Ready defs s → ConditionsOnPresent defs s →
        (s.isOptional defs = true → ∃ v w, v.isNothing = true ∧ s.decode defs v = .accepted w) ∧
          ∀ (procedure : String) (payload : Payload) (p : Parameter), p.schema = s →
            Entries.get? payload.values p.wireName = none →
              ((∃ fault, Binding.bindParameter defs procedure payload p = .error fault) ↔
                p.isOptional defs = false) ∧
              (p.isOptional defs = false → Binding.bindParameter defs procedure payload p =
                .error (.refused (.requiredArgumentMissing procedure p.wireName)))) := by
  refine ⟨fun v w hv h => isOptional_of_decode hgrounded hv h, fun hready hconditions => ?_⟩
  obtain ⟨hanswered, haccepted⟩ := decode_nothing hgrounded hready hconditions
  refine ⟨haccepted, ?_⟩
  rintro procedure payload p rfl habsent
  rw [Binding.bindParameter_absent procedure habsent]
  refine ⟨⟨?_, fun hrequired => ⟨_, Binding.bindAbsent_of_not_optional procedure hrequired⟩⟩,
    Binding.bindAbsent_of_not_optional procedure⟩
  rintro ⟨fault, hfault⟩
  cases hoptional : p.isOptional defs with
  | false => rfl
  | true =>
    obtain ⟨v, w, hv, hw⟩ := haccepted hoptional
    obtain ⟨x, hx⟩ := Binding.bindAbsent_of_optional procedure hoptional hanswered hv hw
    rw [hx] at hfault
    cases hfault

/-- A chain of links, which ends with null. -/
def chain : Schema :=
  .union [.struct none [required "kind" (.literal (.string "link")), required "next" (.suspend "Chain")], null]

/-- The definition that makes chains recursive. -/
def chainDefinitions : Definitions := [("Chain", chain)]

/-- A name or a chain. -/
def nameOrChain : Schema := .union [nonEmptyString, .suspend "Chain"]

theorem eq_or_guard_of_chain {t : Schema} (h : AtOnce chainDefinitions chain t) : t = chain ∨ t.isGuard = true := by
  cases h with
  | refl => exact .inl rfl
  | union hs h =>
    simp only [List.mem_cons, List.not_mem_nil, or_false] at hs
    rcases hs with rfl | rfl <;> cases h <;> exact .inr rfl

/-- Apart from guards, a name or a chain leads at once to itself, to its condition and to the chain. -/
theorem cases_of_nameOrChain {t : Schema} (h : AtOnce chainDefinitions nameOrChain t) :
    t = nameOrChain ∨ t = nonEmptyString ∨ t = .suspend "Chain" ∨ t = chain ∨ t.isGuard = true := by
  cases h with
  | refl => exact .inl rfl
  | union hs h =>
    simp only [List.mem_cons, List.not_mem_nil, or_false] at hs
    rcases hs with rfl | rfl
    · cases h with
      | refl => exact .inr (.inl rfl)
      | filtered h =>
        cases h
        exact .inr (.inr (.inr (.inr rfl)))
    · cases h with
      | refl => exact .inr (.inr (.inl rfl))
      | suspend htarget h =>
        obtain rfl : chain = _ := Except.ok.inj htarget
        exact .inr (.inr (.inr (eq_or_guard_of_chain h)))

theorem suspend_of_nameOrChain {name : String} (h : AtOnce chainDefinitions nameOrChain (.suspend name)) :
    name = "Chain" := by
  rcases cases_of_nameOrChain h with heq | heq | heq | heq | hguard
  · cases heq
  · cases heq
  · exact suspend.inj heq
  · cases heq
  · cases hguard

/-- A name or a chain reads nothing, and a parameter of this kind is bound where it is absent. -/
theorem optional_iff_reads_nothing_chain :
    Grounded chainDefinitions nameOrChain ∧ Ready chainDefinitions nameOrChain ∧
      ConditionsOnPresent chainDefinitions nameOrChain ∧
      (∃ v w, v.isNothing = true ∧ nameOrChain.decode chainDefinitions v = .accepted w) ∧
      ¬∃ fault, Binding.bindParameter chainDefinitions "find" ⟨[], []⟩ ⟨"at", "at", nameOrChain⟩ = .error fault := by
  have hgrounded : Grounded chainDefinitions nameOrChain := by
    intro name t hsuspend htarget hback
    obtain rfl := suspend_of_nameOrChain hsuspend
    obtain rfl : chain = t := Except.ok.inj htarget
    rcases eq_or_guard_of_chain hback with heq | hguard
    · cases heq
    · cases hguard
  have hready : Ready chainDefinitions nameOrChain := by
    refine ⟨by decide +kernel, fun name hsuspend => ?_⟩
    obtain rfl := suspend_of_nameOrChain hsuspend
    exact ⟨chain, rfl, by decide +kernel⟩
  have hconditions : ConditionsOnPresent chainDefinitions nameOrChain := by
    intro of f hfiltered
    rcases cases_of_nameOrChain hfiltered with heq | heq | heq | heq | hguard
    · cases heq
    · obtain ⟨rfl, -⟩ := filtered.inj heq
      rfl
    · cases heq
    · cases heq
    · cases hguard
  obtain ⟨hreads, hbinds⟩ := (optional_iff_reads_nothing hgrounded).2 hready hconditions
  refine ⟨hgrounded, hready, hconditions, hreads (by decide +kernel), ?_⟩
  rw [(hbinds "find" ⟨[], []⟩ ⟨"at", "at", nameOrChain⟩ rfl rfl).1]
  decide +kernel

/-- An object whose mark is a field that every object inherits, or null. -/
def inheritedMark : Schema := .union [.struct none [required "toString" (.literal (.string "a"))], null]

/-- A union with a member that cannot be filed is optional, and yet neither null nor undefined can be read. -/
theorem unfilable_optional_unread :
    Grounded [] inheritedMark ∧ ConditionsOnPresent [] inheritedMark ∧ inheritedMark.isOptional [] = true ∧
      inheritedMark.decode [] .null = .broken .unfilable ∧ inheritedMark.decode [] .undefined = .broken .unfilable ∧
      Binding.bindParameter [] "find" ⟨[], []⟩ ⟨"x", "x", inheritedMark⟩ = .error (.broken .unfilable) := by
  refine ⟨?_, ?_, rfl, rfl, rfl, rfl⟩
  · intro name t _ htarget
    cases htarget
  · intro of f h
    cases h with
    | union hs h =>
      simp only [List.mem_cons, List.not_mem_nil, or_false] at hs
      rcases hs with rfl | rfl <;> cases h

end Schema

end Gateway

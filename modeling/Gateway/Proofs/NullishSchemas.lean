import Gateway.Proofs.GroundedSchemas

/-!
# Schemas that read null or undefined

A schema is nullish if it leads at once to one that takes null or undefined.  Two walks are measured by this: the one
over the wire side, which is made before any value is there, and the reading of null or undefined.  The first answers
whether the schema is nullish (`admitsNothing_eq_ok`); the second succeeds on nullish schemas only
(`nullish_of_accepted`), and where no fault stops it the first has an answer (`exists_admitsNothing`).
-/

namespace Gateway

namespace Verdict

variable {α β : Type}

/-- A verdict that no fault has stopped. -/
def Answered (v : Verdict α) : Prop :=
  ∀ fault, v ≠ .broken fault

@[simp] theorem answered_accepted (a : α) : (accepted a).Answered := by
  intro fault h
  cases h

@[simp] theorem answered_refused : (refused : Verdict α).Answered := by
  intro fault h
  cases h

@[simp] theorem not_answered_broken (fault : Fault) : ¬(broken fault : Verdict α).Answered :=
  fun h => h fault rfl

theorem Answered.of_bind {v : Verdict α} {f : α → Verdict β} (h : (v.bind f).Answered) : v.Answered := by
  cases v with
  | accepted a => exact answered_accepted a
  | refused => exact answered_refused
  | broken fault => exact absurd h (not_answered_broken fault)

theorem Answered.of_after {a : Attempt β} {f : β → Verdict α} (h : (after a f).Answered) :
    ∃ b, a = .ok b ∧ (f b).Answered := by
  cases a with
  | ok b => exact ⟨b, rfl, h⟩
  | error fault => exact absurd h (not_answered_broken fault)

theorem answered_orElse_iff (v : Verdict α) (next : Unit → Verdict α) :
    (v.orElse next).Answered ↔ v.Answered ∧ (v = .refused → (next ()).Answered) := by
  cases v <;> simp [orElse]

theorem answered_firstOf {verdicts : List (Verdict α)} (h : ∀ v ∈ verdicts, v.Answered) :
    (firstOf verdicts).Answered := by
  induction verdicts with
  | nil => exact answered_refused
  | cons v rest ih =>
    obtain ⟨hv, hrest⟩ := List.forall_mem_cons.mp h
    rw [firstOf_cons, answered_orElse_iff]
    exact ⟨hv, fun _ => ih hrest⟩

/-- If none of some verdicts is a fault and one is an acceptance, so is the first that is not a refusal. -/
theorem firstOf_accepts {verdicts : List (Verdict α)} (h : ∀ v ∈ verdicts, v.Answered) {a : α}
    (ha : accepted a ∈ verdicts) : ∃ b, firstOf verdicts = .accepted b := by
  induction verdicts with
  | nil => cases ha
  | cons v rest ih =>
    obtain ⟨hv, hrest⟩ := List.forall_mem_cons.mp h
    cases v with
    | accepted b => exact ⟨b, rfl⟩
    | broken fault => exact absurd hv (not_answered_broken fault)
    | refused =>
      rcases List.mem_cons.mp ha with heq | ha
      · cases heq
      · exact ih hrest ha

end Verdict

namespace Schema

/-! ## Schemas that take nothing -/

/-- Whether a schema itself takes null or undefined. -/
def takesNothing : Schema → Bool
  | .literal .null | .void | .undefined | .unknown | .any => true
  | _ => false

/-- A schema that leads at once to one that takes null or undefined. -/
def Nullish (defs : Definitions) (s : Schema) : Prop :=
  ∃ t, AtOnce defs s t ∧ t.takesNothing = true

section Nullish

variable {defs : Definitions}

theorem nullish_guard_iff {s : Schema} (hguard : s.isGuard = true) : Nullish defs s ↔ s.takesNothing = true := by
  constructor
  · rintro ⟨t, hleads, htakes⟩
    cases hleads with
    | refl => exact htakes
    | filtered | union | suspend => cases hguard
  · exact fun htakes => ⟨s, .refl s, htakes⟩

theorem nullish_filtered_iff {of : Schema} {f : Filter} : Nullish defs (.filtered of f) ↔ Nullish defs of := by
  constructor
  · rintro ⟨t, hleads, htakes⟩
    cases hleads with
    | refl => cases htakes
    | filtered hleads => exact ⟨t, hleads, htakes⟩
  · rintro ⟨t, hleads, htakes⟩
    exact ⟨t, .filtered hleads, htakes⟩

theorem nullish_union_iff {members : List Schema} :
    Nullish defs (.union members) ↔ ∃ s ∈ members, Nullish defs s := by
  constructor
  · rintro ⟨t, hleads, htakes⟩
    cases hleads with
    | refl => cases htakes
    | union hs hleads => exact ⟨_, hs, t, hleads, htakes⟩
  · rintro ⟨s, hs, t, hleads, htakes⟩
    exact ⟨t, .union hs hleads, htakes⟩

theorem nullish_suspend_iff {name : String} :
    Nullish defs (.suspend name) ↔ ∃ s, target defs name = .ok s ∧ Nullish defs s := by
  constructor
  · rintro ⟨t, hleads, htakes⟩
    cases hleads with
    | refl => cases htakes
    | suspend htarget hleads => exact ⟨_, htarget, t, hleads, htakes⟩
  · rintro ⟨s, htarget, t, hleads, htakes⟩
    exact ⟨t, .suspend htarget hleads, htakes⟩

end Nullish

/-! ## The walk over the wire side -/

theorem admitsNothing_guard (follow : String → Attempt Bool) {s : Schema} (hguard : s.isGuard = true) :
    admitsNothing follow s = .ok s.takesNothing := by
  cases s with
  | filtered | union | suspend => cases hguard
  | literal l => cases l <;> rfl
  | _ => rfl

theorem anyAdmitsNothing_eq_ok {defs : Definitions} {follow : String → Attempt Bool} {members : List Schema}
    (hmembers : ∀ s ∈ members, ∀ b, admitsNothing follow s = .ok b → (b = true ↔ Nullish defs s)) {b : Bool}
    (h : anyAdmitsNothing follow members = .ok b) : b = true ↔ ∃ s ∈ members, Nullish defs s := by
  induction members with
  | nil =>
    obtain rfl : false = b := Except.ok.inj h
    simp
  | cons s rest ih =>
    obtain ⟨hs, hrest⟩ := List.forall_mem_cons.mp hmembers
    simp only [List.mem_cons, exists_eq_or_imp]
    unfold anyAdmitsNothing at h
    cases hanswer : admitsNothing follow s with
    | error fault => simp [hanswer] at h
    | ok first =>
      rw [hanswer] at h
      rw [← hs first hanswer]
      cases first with
      | true =>
        obtain rfl : true = b := Except.ok.inj h
        simp
      | false => simpa using ih hrest h

/-- The answer of the walk, if there is one, is whether the schema is nullish. -/
theorem admitsNothing_eq_ok {defs : Definitions} (n : Nat) (s : Schema) :
    ∀ b, admitsNothing (followWith defs admitsNothing n) s = .ok b → (b = true ↔ Nullish defs s) := by
  induction n, s using walk_induction with
  | guard n s hguard =>
    intro b h
    rw [admitsNothing_guard _ hguard] at h
    rw [nullish_guard_iff hguard, Except.ok.inj h]
  | filtered n of f ih =>
    intro b h
    rw [nullish_filtered_iff]
    exact ih b h
  | union n members ih =>
    intro b h
    rw [nullish_union_iff]
    exact anyAdmitsNothing_eq_ok ih h
  | last name =>
    intro b h
    cases h
  | suspend n name ih =>
    intro b h
    rw [nullish_suspend_iff]
    simp only [admitsNothing, followWith] at h
    cases htarget : target defs name with
    | error fault => simp [htarget] at h
    | ok t =>
      rw [htarget] at h
      simpa using ih t b h

/-- A member of a union that is filed under a literal does not admit null or undefined. -/
theorem admitsNothing_of_tagged {defs : Definitions} {side : Side} {k m : Nat} {s : Schema}
    {tags : List (String × String)} (htags : tagsWithin defs side k s = .ok tags) (hne : tags ≠ [])
    (hbounded : Bounded defs m s) : admitsNothing (followWith defs admitsNothing m) s = .ok false := by
  induction k generalizing m s with
  | zero => cases htags
  | succ k ih =>
    cases s with
    | struct | tuple | errorClass => rfl
    | filtered of f =>
      simp only [tagsWithin] at htags
      simp only [admitsNothing]
      exact ih htags hbounded.of_filtered
    | suspend name =>
      simp only [tagsWithin] at htags
      cases htarget : target defs name with
      | error fault => simp [htarget] at htags
      | ok t =>
        rw [htarget] at htags
        obtain ⟨m, rfl, hbelow⟩ := hbounded.of_suspend htarget
        simpa only [admitsNothing, followWith, htarget] using ih htags hbelow
    | _ => exact absurd (Except.ok.inj htags).symm hne

/-! ## Reading nothing -/

theorem convert_nothing_of_guard {defs : Definitions} {follow : Follow} {s : Schema} (hguard : s.isGuard = true)
    (htakes : s.takesNothing = false) {v : Value} (hv : v.isNothing = true) :
    convert defs follow .decode s v = .refused := by
  cases v with
  | null | undefined =>
    cases s with
    | filtered | union | suspend => cases hguard
    | undefined | void | unknown | any => cases htakes
    | literal l =>
      cases l with
      | null => cases htakes
      | _ => rfl
    | struct _ fields | errorClass _ _ fields => cases fields <;> rfl
    | _ => rfl
  | _ => cases hv

theorem answered_nothing_of_guard {defs : Definitions} {follow : Follow} {s : Schema} (hguard : s.isGuard = true)
    {v : Value} (hv : v.isNothing = true) : (convert defs follow .decode s v).Answered := by
  cases htakes : s.takesNothing with
  | false =>
    rw [convert_nothing_of_guard hguard htakes hv]
    exact Verdict.answered_refused
  | true =>
    cases v with
    | null | undefined =>
      cases s with
      | undefined | void | unknown | any =>
        intro fault h
        cases h
      | literal l =>
        cases l with
        | null =>
          intro fault h
          cases h
        | _ => cases htakes
      | _ => cases htakes
    | _ => cases hv

/-- A schema that takes null or undefined reads one of them. -/
theorem exists_nothing_of_takesNothing {defs : Definitions} {follow : Follow} {s : Schema}
    (htakes : s.takesNothing = true) :
    ∃ v w, v.isNothing = true ∧ convert defs follow .decode s v = .accepted w := by
  cases s with
  | undefined => exact ⟨.undefined, .undefined, rfl, rfl⟩
  | void | unknown | any => exact ⟨.null, .null, rfl, rfl⟩
  | literal l =>
    cases l with
    | null => exact ⟨.null, .null, rfl, rfl⟩
    | _ => cases htakes
  | _ => cases htakes

/-- The members of a union that no literal marks. -/
def untagged (defs : Definitions) (members : List Schema) : List Schema :=
  members.filter fun s => (tags defs .wire s).toOption == some []

theorem untagged_cons_of_nil {defs : Definitions} {s : Schema} (htags : tags defs .wire s = .ok [])
    (rest : List Schema) : untagged defs (s :: rest) = s :: untagged defs rest := by
  simp [untagged, htags, Except.toOption]

theorem untagged_cons_of_cons {defs : Definitions} {s : Schema} {tag : String × String}
    {others : List (String × String)} (htags : tags defs .wire s = .ok (tag :: others)) (rest : List Schema) :
    untagged defs (s :: rest) = untagged defs rest := by
  simp [untagged, htags, Except.toOption]

/-- Filing the rest of the members adds the positions of the unmarked ones, in order. -/
theorem firstSuccess_fileAll {defs : Definitions} (read : Schema → Conversion) (v : Value)
    (before rest : List Schema) {filing filed : Filing}
    (h : filing.fileAll defs .wire before.length rest = .ok filed) :
    ∃ positions, filed.untagged = filing.untagged ++ positions ∧
      firstSuccess ((before ++ rest).map read) v positions =
        .firstOf ((untagged defs rest).map fun s => read s v) := by
  -- By induction on the members that are left; `before` are those that have been filed.
  induction rest generalizing before filing with
  | nil =>
    obtain rfl : filing = filed := Except.ok.inj h
    exact ⟨[], by simp, rfl⟩
  | cons s rest ih =>
    obtain ⟨ts, next, htags, hfile, hrest⟩ := Filing.fileAll_cons h
    have hafter : next.fileAll defs .wire (before ++ [s]).length rest = .ok filed := by simpa using hrest
    obtain ⟨positions, hpositions, hfirst⟩ := ih (before ++ [s]) hafter
    rw [List.append_assoc, List.singleton_append] at hfirst
    cases ts with
    | nil =>
      obtain rfl : { filing with untagged := filing.untagged ++ [before.length] } = next := Except.ok.inj hfile
      refine ⟨before.length :: positions, by simpa using hpositions, ?_⟩
      rw [untagged_cons_of_nil htags, List.map_cons, Verdict.firstOf_cons, ← hfirst, firstSuccess]
      simp
    | cons tag others =>
      refine ⟨positions, by rw [hpositions, Filing.untagged_fileTagged hfile], ?_⟩
      rw [untagged_cons_of_cons htags, hfirst]

/-- A union reads nothing with the first of its unmarked members that does not refuse. -/
theorem convert_union_nothing {defs : Definitions} {follow : Follow} {members : List Schema} {filing : Filing}
    (hfiling : Filing.ofMembers defs .wire members = .ok filing) {v : Value} (hv : v.isNothing = true) :
    convert defs follow .decode (.union members) v =
      .firstOf ((untagged defs members).map fun s => convert defs follow .decode s v) := by
  have hcomposite : v.isComposite = false := by
    cases v with
    | null | undefined => rfl
    | _ => cases hv
  obtain ⟨positions, hpositions, hfirst⟩ := firstSuccess_fileAll (convert defs follow .decode) v [] members hfiling
  rw [convert, convertMembers_eq_map, ← hfirst]
  simp [candidates, Direction.side, Direction.inner, hfiling, Except.bind, Filing.candidates, hcomposite, hpositions,
    Verdict.after]

section Reading

variable {defs : Definitions}

/-- A schema that reads nothing is nullish. -/
theorem nullish_of_accepted (n : Nat) (s : Schema) : ∀ v w, v.isNothing = true →
    convert defs (followTo defs n) .decode s v = .accepted w → Nullish defs s := by
  induction n, s using walk_induction with
  | guard n s hguard =>
    intro v w hv h
    rw [nullish_guard_iff hguard]
    cases htakes : s.takesNothing with
    | true => rfl
    | false =>
      rw [convert_nothing_of_guard hguard htakes hv] at h
      cases h
  | filtered n of f ih =>
    intro v w hv h
    exact nullish_filtered_iff.mpr (ih v w hv (filtered_accepted (.inl rfl) h).1)
  | union n members ih =>
    intro v w hv h
    obtain ⟨_, -, i, -, s, hs, haccepted⟩ := union_accepted h
    have hmem := List.mem_of_getElem? hs
    exact nullish_union_iff.mpr ⟨s, hmem, ih s hmem v w hv haccepted⟩
  | last name =>
    intro v w hv h
    cases h
  | suspend n name ih =>
    intro v w hv h
    rw [convert] at h
    obtain ⟨_, t, hn, htarget, -, haccepted⟩ := followTo_accepted h
    obtain rfl := Nat.succ.inj hn
    exact nullish_suspend_iff.mpr ⟨t, htarget, ih t v w hv haccepted⟩

/-- The members of a union have an answer together, if the marked ones admit nothing and the unmarked ones are read
without a fault until one accepts. -/
theorem exists_anyAdmitsNothing {members : List Schema} {follow : String → Attempt Bool}
    {read : Schema → Verdict Value}
    (htags : ∀ s ∈ members, ∃ ts, tags defs .wire s = .ok ts ∧ (ts ≠ [] → admitsNothing follow s = .ok false))
    (hmembers : ∀ s ∈ members, (read s).Answered →
      ∃ b, admitsNothing follow s = .ok b ∧ (b = false → read s = .refused))
    (hread : (Verdict.firstOf ((untagged defs members).map read)).Answered) :
    ∃ b, anyAdmitsNothing follow members = .ok b := by
  induction members with
  | nil => exact ⟨false, rfl⟩
  | cons s rest ih =>
    obtain ⟨⟨ts, hts, htagged⟩, htags⟩ := List.forall_mem_cons.mp htags
    obtain ⟨hs, hmembers⟩ := List.forall_mem_cons.mp hmembers
    unfold anyAdmitsNothing
    cases ts with
    | cons tag others =>
      rw [untagged_cons_of_cons hts] at hread
      simpa [htagged (List.cons_ne_nil tag others)] using ih htags hmembers hread
    | nil =>
      rw [untagged_cons_of_nil hts, List.map_cons, Verdict.firstOf_cons, Verdict.answered_orElse_iff] at hread
      -- The walk goes on to the next member only where reading does, after a refusal.
      obtain ⟨b, hb, hrefused⟩ := hs hread.1
      cases b with
      | true => exact ⟨true, by simp [hb]⟩
      | false => simpa [hb] using ih htags hmembers (hread.2 (hrefused rfl))

/-- A schema that is not nullish refuses nothing, if no fault stops it. -/
theorem refused_of_not_nullish {n : Nat} {s : Schema} {v : Value} (hv : v.isNothing = true)
    (hanswered : (convert defs (followTo defs n) .decode s v).Answered) (hnot : ¬Nullish defs s) :
    convert defs (followTo defs n) .decode s v = .refused := by
  cases h : convert defs (followTo defs n) .decode s v with
  | accepted w => exact absurd (nullish_of_accepted n s v w hv h) hnot
  | refused => rfl
  | broken fault => exact absurd h (hanswered fault)

theorem suspend_answered {n : Nat} {name : String} {v : Value}
    (h : (convert defs (followTo defs n) .decode (.suspend name) v).Answered) :
    ∃ m t, n = m + 1 ∧ target defs name = .ok t ∧ (convert defs (followTo defs m) .decode t v).Answered := by
  cases n with
  | zero => exact absurd h (Verdict.not_answered_broken _)
  | succ m =>
    obtain ⟨t, htarget, hwalk⟩ := Verdict.Answered.of_after h
    obtain ⟨_, -, hconvert⟩ := hwalk.of_after
    exact ⟨m, t, rfl, htarget, hconvert⟩

/-- Where no fault stops the reading of nothing, the walk over the wire side has an answer. -/
theorem exists_admitsNothing (m : Nat) (s : Schema) : ∀ n v, v.isNothing = true → Bounded defs m s →
    (convert defs (followTo defs n) .decode s v).Answered →
    ∃ b, admitsNothing (followWith defs admitsNothing m) s = .ok b := by
  induction m, s using walk_induction with
  | guard m s hguard =>
    intro n v hv _ _
    exact ⟨s.takesNothing, admitsNothing_guard _ hguard⟩
  | filtered m of f ih =>
    intro n v hv hbounded hread
    rw [convert, convertFiltered_eq (.inl rfl)] at hread
    simp only [admitsNothing]
    exact ih n v hv hbounded.of_filtered hread.of_bind
  | union m members ih =>
    intro n v hv hbounded hread
    have hbelow := hbounded.of_union
    obtain ⟨filing, hfiling⟩ : ∃ filing, Filing.ofMembers defs .wire members = .ok filing := by
      rw [convert] at hread
      obtain ⟨positions, hpositions, -⟩ := hread.of_after
      obtain ⟨filing, hfiling, -⟩ := candidates_eq_ok hpositions
      exact ⟨filing, hfiling⟩
    rw [convert_union_nothing hfiling hv] at hread
    refine exists_anyAdmitsNothing ?_ ?_ hread
    · intro s hs
      obtain ⟨ts, hts⟩ := Filing.tags_of_fileAll hfiling hs
      exact ⟨ts, hts, fun hne => admitsNothing_of_tagged hts hne (hbelow s hs)⟩
    · intro s hs hanswered
      obtain ⟨b, hb⟩ := ih s hs n v hv (hbelow s hs) hanswered
      refine ⟨b, hb, ?_⟩
      rintro rfl
      refine refused_of_not_nullish hv hanswered ?_
      rw [← admitsNothing_eq_ok m s false hb]
      exact Bool.false_ne_true
  | last name =>
    intro n v hv hbounded hread
    obtain ⟨_, t, -, htarget, -⟩ := suspend_answered hread
    obtain ⟨_, hm, -⟩ := hbounded.of_suspend htarget
    cases hm
  | suspend m name ih =>
    intro n v hv hbounded hread
    obtain ⟨n, t, rfl, htarget, hconvert⟩ := suspend_answered hread
    obtain ⟨_, hm, hbelow⟩ := hbounded.of_suspend htarget
    obtain rfl := Nat.succ.inj hm
    simpa [admitsNothing, followWith, htarget] using ih t n v hv hbelow hconvert

end Reading

end Schema

end Gateway

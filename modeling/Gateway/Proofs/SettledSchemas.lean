import Gateway.Proofs.DecodedValues

/-!
# When the check of a value comes to an end

A suspended schema is followed at one part of a value only until it leads to something that goes into the value or
answers at once.  If all definitions do that within as many steps as there are definitions, and all unions can be
filed, no fault stops the check of a value whose parts can be displayed.  Together with `DecodedValues`: what
was read is then accepted.
-/

namespace Gateway

/-! ## Values that can be displayed -/

namespace Value

mutual

/-- Whether each part that a value holds has a text for display, and no part only answers like a date or is an
error without a declared class. -/
def showable : Value → Bool
  | .array items => showableItems items
  | .object es | .raised _ es => showableEntries es
  | .heir parent es => !Schema.isDateHeir (.heir parent es) && showableEntries es
  | .error _ _ => false
  | _ => true

/-- Whether all items of a list can be displayed. -/
def showableItems : List Value → Bool
  | [] => true
  | v :: rest => v.display.isOk && showable v && showableItems rest

/-- Whether all values of an object can be displayed. -/
def showableEntries : List (String × Value) → Bool
  | [] => true
  | (_, v) :: rest => v.display.isOk && showable v && showableEntries rest

end

theorem showable_of_mem_items {items : List Value} (h : showableItems items = true) {v : Value} (hv : v ∈ items) :
    v.display.isOk = true ∧ v.showable = true := by
  induction items with
  | nil => cases hv
  | cons u rest ih =>
    simp only [showableItems, Bool.and_eq_true] at h
    rcases List.mem_cons.mp hv with rfl | hv
    · exact h.1
    · exact ih h.2 hv

theorem showable_of_mem_entries {es : List (String × Value)} (h : showableEntries es = true)
    {e : String × Value} (he : e ∈ es) : e.2.display.isOk = true ∧ e.2.showable = true := by
  induction es with
  | nil => cases he
  | cons u rest ih =>
    obtain ⟨key, v⟩ := u
    simp only [showableEntries, Bool.and_eq_true] at h
    rcases List.mem_cons.mp he with rfl | he
    · exact h.1
    · exact ih h.2 he

theorem isComposite_of_isObject {v : Value} (h : v.isObject = true) : v.isComposite = true := by
  cases v with
  | array => cases h
  | _ => exact h

theorem height_lt_of_mem_items {items : List Value} {v : Value} (h : v ∈ items) : v.height < (array items).height := by
  have hle : v.height ≤ itemsHeight items := by
    induction items with
    | nil => cases h
    | cons u rest ih =>
      unfold itemsHeight
      rcases List.mem_cons.mp h with rfl | h
      · omega
      · have := ih h
        omega
  conv_rhs => unfold height
  omega

theorem height_le_of_mem_entries {es : List (String × Value)} {e : String × Value} (h : e ∈ es) :
    e.2.height ≤ entriesHeight es := by
  induction es with
  | nil => cases h
  | cons u rest ih =>
    obtain ⟨key, v⟩ := u
    unfold entriesHeight
    rcases List.mem_cons.mp h with rfl | h
    · dsimp only
      omega
    · have := ih h
      omega

/-- The entries that an object holds, listed or not. -/
def heldEntries : Value → Entries Value
  | .raised mark fields => fields ++ [tagEntry mark]
  | v => v.entries

/-- What an object holds can be displayed and is nested less deep. -/
theorem showable_of_mem_held {v : Value} (h : v.showable = true) {e : String × Value} (he : e ∈ v.heldEntries) :
    e.2.display.isOk = true ∧ e.2.showable = true ∧ e.2.height < v.height := by
  cases v with
  | object es =>
    obtain ⟨hdisplay, hshow⟩ := showable_of_mem_entries h he
    exact ⟨hdisplay, hshow, Nat.lt_succ_of_le (height_le_of_mem_entries he)⟩
  | heir parent es =>
    obtain ⟨hdisplay, hshow⟩ := showable_of_mem_entries (Bool.and_eq_true_iff.mp h).2 he
    have hle := height_le_of_mem_entries (show e ∈ es from he)
    refine ⟨hdisplay, hshow, ?_⟩
    conv_rhs => unfold height
    omega
  | raised mark fields =>
    rcases List.mem_append.mp he with hfield | htag
    · obtain ⟨hdisplay, hshow⟩ := showable_of_mem_entries h hfield
      exact ⟨hdisplay, hshow, Nat.lt_succ_of_le (height_le_of_mem_entries hfield)⟩
    · obtain rfl := List.mem_singleton.mp htag
      exact ⟨rfl, rfl, Nat.succ_pos _⟩
  | _ => cases he

theorem entries_subset_held (v : Value) : v.entries ⊆ v.heldEntries := by
  cases v with
  | raised mark fields =>
    intro e he
    rcases List.mem_append.mp he with hlisted | htag
    · exact List.mem_append_left _ (List.mem_of_mem_filter hlisted)
    · exact List.mem_append_right _ htag
  | _ => exact List.Subset.refl _

/-- What a list or an object holds can be displayed and is nested less deep. -/
theorem showable_own {v x : Value} {key : String} (h : v.showable = true) (hcomposite : v.isComposite = true)
    (hx : v.own? key = some x) : x.display.isOk = true ∧ x.showable = true ∧ x.height < v.height := by
  cases v with
  | array items =>
    simp only [own?] at hx
    split at hx
    · have hmem := List.mem_of_getElem? hx
      obtain ⟨hdisplay, hshow⟩ := showable_of_mem_items h hmem
      exact ⟨hdisplay, hshow, height_lt_of_mem_items hmem⟩
    · split at hx
      · obtain rfl := Option.some.inj hx
        exact ⟨rfl, rfl, by simp [height]⟩
      · cases hx
  | object | raised | heir | date => exact showable_of_mem_held h (Entries.mem_of_get? hx)
  | error => cases h
  | _ => cases hcomposite

end Value

namespace Schema

/-! ## Definitions that settle -/

/-- Whether a schema goes into a value or answers at once. -/
def isGuard : Schema → Bool
  | .filtered _ _ | .union _ | .suspend _ => false
  | _ => true

/-- A schema that leads to guards only, by following at most so many definitions in one branch. -/
inductive Settles (defs : Definitions) : Nat → Schema → Prop where
  | guard {n : Nat} {s : Schema} (hguard : s.isGuard = true) : Settles defs n s
  | filtered {n : Nat} {of : Schema} {f : Filter} (hof : Settles defs n of) : Settles defs n (.filtered of f)
  | union {n : Nat} {members : List Schema} (hmembers : ∀ s ∈ members, Settles defs n s) :
      Settles defs n (.union members)
  | suspend {n : Nat} {name : String} {s : Schema} (htarget : target defs name = .ok s)
      (hs : Settles defs n s) : Settles defs (n + 1) (.suspend name)

/-- A schema all of whose parts settle. -/
abbrev Settled (defs : Definitions) (s : Schema) : Prop :=
  Everywhere (Settles defs defs.length) s

/-- Definitions that are proper and settle, and whose unions can be filed. -/
structure Regular (defs : Definitions) : Prop where
  proper : AllProper defs
  settled : ∀ name s, target defs name = .ok s → Settled defs s
  prepared : ∀ name s, target defs name = .ok s → prepare defs .decode s = .ok ()

/-! ## Preparing the parts -/

section Prepare

variable {defs : Definitions} {d : Direction}

theorem prepareElements_eq_ok_iff (elements : List (Element Schema)) :
    prepareElements defs d elements = .ok () ↔ ∀ e ∈ elements, prepare defs d e.type = .ok () := by
  induction elements with
  | nil => simp [prepareElements]
  | cons e rest ih =>
    rw [List.forall_mem_cons, ← ih, prepareElements]
    cases prepare defs d e.type <;> simp

theorem prepareRest_eq_ok_iff (rest : Option Schema) :
    prepareRest defs d rest = .ok () ↔ ∀ t ∈ rest, prepare defs d t = .ok () := by
  cases rest <;> simp [prepareRest]

theorem prepareFields_eq_ok_iff (fields : List (Field Schema)) :
    prepareFields defs d fields = .ok () ↔ ∀ f ∈ fields, prepare defs d f.type = .ok () := by
  induction fields with
  | nil => simp [prepareFields]
  | cons f rest ih =>
    rw [List.forall_mem_cons, ← ih, prepareFields]
    cases prepare defs d f.type <;> simp

theorem prepareMembers_eq_ok_iff (members : List Schema) :
    prepareMembers defs d members = .ok () ↔ ∀ s ∈ members, prepare defs d s = .ok () := by
  induction members with
  | nil => simp [prepareMembers]
  | cons s rest ih =>
    rw [List.forall_mem_cons, ← ih, prepareMembers]
    cases prepare defs d s <;> simp

/-- The union itself, if a schema is one, can be filed. -/
def Filable (defs : Definitions) (s : Schema) : Prop :=
  ∀ members, s = .union members → ∃ filing, Filing.ofMembers defs .wire members = .ok filing

/-- A schema is prepared when its parts are and the members of its union can be filed; the check leaves out the
fields of an error class. -/
theorem prepare_eq_ok_iff (hd : d.readsFirst) {s : Schema}
    (hs : ∀ className tag fields, s = .errorClass className tag fields → d.entersClass = true) :
    prepare defs d s = .ok () ↔ (∀ t ∈ s.parts, prepare defs d t = .ok ()) ∧ Filable defs s := by
  have hinner := inner_of_readsFirst hd
  have hother : (∀ members, s ≠ .union members) → Filable defs s := fun hne members heq => absurd heq (hne members)
  cases s with
  | filtered of f =>
    have hchecks : (d.checksFirst && !d.isChecked) = false := by
      rcases hd with rfl | ⟨exact, rfl⟩ <;> rfl
    rw [prepare, hchecks]
    simp [parts, hother]
  | tuple elements rest =>
    have hsplit : (∀ t ∈ (tuple elements rest).parts, prepare defs d t = .ok ()) ↔
        (∀ e ∈ elements, prepare defs d e.type = .ok ()) ∧ ∀ t ∈ rest, prepare defs d t = .ok () := by
      simp [parts, or_imp, forall_and]
    rw [hsplit, prepare, hinner, ← prepareElements_eq_ok_iff, ← prepareRest_eq_ok_iff]
    cases prepareElements defs d elements <;> simp [hother]
  | struct name fields =>
    rw [prepare, hinner, prepareFields_eq_ok_iff]
    simp [parts, hother]
  | record values =>
    rw [prepare, hinner]
    simp [parts, hother]
  | union members =>
    have hside : d.side = .wire := by
      rcases hd with rfl | ⟨exact, rfl⟩ <;> rfl
    rw [prepare, hinner, hside, show (union members).parts = members from rfl, ← prepareMembers_eq_ok_iff]
    cases hfiling : Filing.ofMembers defs .wire members with
    | error fault =>
      simp only [reduceCtorEq, false_iff, not_and]
      intro _ hfilable
      obtain ⟨filing, hok⟩ := hfilable members rfl
      rw [hfiling] at hok
      cases hok
    | ok filing =>
      simp only [iff_self_and]
      rintro _ _ ⟨⟩
      exact ⟨filing, hfiling⟩
  | errorClass className tag fields =>
    rw [prepare, if_pos (hs className tag fields rfl), hinner, prepareFields_eq_ok_iff]
    simp [parts, hother]
  | _ => simp [prepare, parts, hother]

end Prepare

theorem prepare_decode {defs : Definitions} {s : Schema} (h : prepare defs .decode s = .ok ()) :
    (∀ t ∈ s.parts, prepare defs .decode t = .ok ()) ∧ Filable defs s :=
  (prepare_eq_ok_iff (.inl rfl) fun _ _ _ _ => rfl).mp h

/-- Being prepared for reading is being prepared for the check. -/
theorem prepare_validate {defs : Definitions} {exact : Bool} (s : Schema)
    (h : prepare defs .decode s = .ok ()) : prepare defs (.validate exact) s = .ok () := by
  induction s using parts_induction with
  | step s ih =>
    obtain ⟨hparts, hfilable⟩ := prepare_decode h
    by_cases hclass : ∃ className tag fields, s = .errorClass className tag fields
    · obtain ⟨className, tag, fields, rfl⟩ := hclass
      rfl
    · refine (prepare_eq_ok_iff (.inr ⟨exact, rfl⟩) fun className tag fields heq => ?_).mpr
        ⟨fun t ht => ih t ht (hparts t ht), hfilable⟩
      exact absurd ⟨className, tag, fields, heq⟩ hclass

/-! ## No fault stops the check -/

/-- A condition about a kind of scalars can be asked of each of them. -/
theorem holds_of_admits {f : Filter} {kind : Kind} (hkind : f.kind? = some kind) {w : Value}
    (h : kind.admits w = true) : ∃ b, holds f w = .ok b := by
  cases f with
  | safeInteger | nonEmpty => cases hkind
  | minLength bound | maxLength bound =>
    obtain rfl := Option.some.inj hkind
    cases w with
    | string => exact ⟨_, rfl⟩
    | _ => cases h
  | between low high =>
    obtain rfl := Option.some.inj hkind
    obtain ⟨⟨atLeast, hlow⟩, atMost, hhigh⟩ : (∃ b, w.atLeast low = .ok b) ∧ ∃ b, w.atMost high = .ok b := by
      cases w with
      | number | bigint => exact ⟨⟨_, rfl⟩, _, rfl⟩
      | _ => cases h
    cases atLeast with
    | true => exact ⟨atMost, by simp only [holds, hlow, hhigh]⟩
    | false => exact ⟨false, by simp only [holds, hlow]⟩

theorem holds_of_kindless {f : Filter} (hkind : f.kind? = none) (w : Value) : ∃ b, holds f w = .ok b := by
  cases f with
  | safeInteger =>
    cases w with
    | _ => exact ⟨_, rfl⟩
  | nonEmpty =>
    cases w with
    | _ => exact ⟨_, rfl⟩
  | minLength | maxLength | between => cases hkind

/-- A branch that may follow `m` more definitions gets through a value at a schema that settles after `j`. -/
def Lasts (defs : Definitions) (m j : Nat) (w : Value) : Prop :=
  j + w.height * defs.length ≤ m

/-- Below a part of a value there is room for all definitions once more. -/
theorem Lasts.part {defs : Definitions} {m j : Nat} {w x : Value} (h : Lasts defs m j w)
    (hx : x.height < w.height) : Lasts defs m defs.length x := by
  unfold Lasts at h ⊢
  calc defs.length + x.height * defs.length
      = (x.height + 1) * defs.length := by rw [Nat.add_one_mul]; omega
    _ ≤ w.height * defs.length := Nat.mul_le_mul_right _ hx
    _ ≤ m := by omega

/-- A schema whose check of a value no fault stops, if the value can be displayed and the branch lasts. -/
def Unbroken (defs : Definitions) (m : Nat) (s : Schema) : Prop :=
  ∀ j w, Settles defs j s → w.showable = true → Lasts defs m j w →
    ∀ fault, convert defs (followTo defs m) (.validate true) s w ≠ .broken fault

section Unbroken

variable {defs : Definitions} {m : Nat}

theorem unbroken_filtered {of : Schema} {f : Filter} (hproper : Proper defs (.filtered of f))
    (hof : Unbroken defs m of) : Unbroken defs m (.filtered of f) := by
  intro j w hsettles hw hlasts fault hbroken
  have hbelow : Settles defs j of := by
    cases hsettles with
    | guard hguard => cases hguard
    | filtered hbelow => exact hbelow
  rw [convert, convertFiltered_eq (.inr ⟨true, rfl⟩), ← Verdict.stop?_eq_broken_iff] at hbroken
  rcases Verdict.stop?_bind hbroken with hstop | ⟨w', hw', hkeep⟩
  · exact hof j w hbelow hw hlasts fault ((Verdict.stop?_eq_broken_iff _ _).mp hstop)
  · -- A length is asked of texts only, a bound of numbers only, and the others answer for every value.
    obtain ⟨b, hb⟩ : ∃ b, holds f w' = .ok b := by
      cases hkind : f.kind? with
      | some kind => exact holds_of_admits hkind ((hproper kind hkind).admits (.inr ⟨true, rfl⟩) hw')
      | none => exact holds_of_kindless hkind w'
    rw [keepIf, hb] at hkeep
    cases b <;> cases hkeep

theorem unbroken_tuple {elements : List (Element Schema)} {rest : Option Schema}
    (helements : ∀ e ∈ elements, Unbroken defs m e.type ∧ Settles defs defs.length e.type)
    (hrest : ∀ t ∈ rest, Unbroken defs m t ∧ Settles defs defs.length t) :
    Unbroken defs m (.tuple elements rest) := by
  intro j w _ hw hlasts fault hbroken
  rw [convert, convertElements_eq_map, convertRest_eq_map] at hbroken
  cases w with
  | array items =>
    have hitem : ∀ u ∈ items, u.showable = true ∧ Lasts defs m defs.length u := by
      intro u hu
      exact ⟨(Value.showable_of_mem_items hw hu).2, hlasts.part (Value.height_lt_of_mem_items hu)⟩
    simp only [convertTuple] at hbroken
    split at hbroken
    · cases hbroken
    · split at hbroken
      · cases hbroken
      · rw [← Verdict.stop?_eq_broken_iff] at hbroken
        rcases Verdict.stop?_bind hbroken with hplaces | ⟨_, -, hfurther⟩
        · obtain ⟨i, e', u, he', hu, hstop⟩ := convertPlaces_stop hplaces
          rw [List.getElem?_map] at he'
          obtain ⟨e, he, rfl⟩ := Option.map_eq_some_iff.mp he'
          obtain ⟨hunbroken, hsettles⟩ := helements e (List.mem_of_getElem? he)
          obtain ⟨hshow, hlast⟩ := hitem u (List.mem_of_getElem? hu)
          exact hunbroken _ u hsettles hshow hlast fault ((Verdict.stop?_eq_broken_iff _ _).mp hstop)
        · rw [Verdict.stop?_map] at hfurther
          cases rest with
          | none => cases hfurther
          | some t =>
            obtain ⟨u, hu, hstop⟩ := convertItems_stop hfurther
            obtain ⟨hunbroken, hsettles⟩ := hrest t rfl
            obtain ⟨hshow, hlast⟩ := hitem u (List.mem_of_mem_drop hu)
            exact hunbroken _ u hsettles hshow hlast fault ((Verdict.stop?_eq_broken_iff _ _).mp hstop)
  | _ => cases hbroken

theorem unbroken_struct {name : Option String} {fields : List (Field Schema)}
    (hfields : ∀ f ∈ fields, Unbroken defs m f.type ∧ Settles defs defs.length f.type) :
    Unbroken defs m (.struct name fields) := by
  intro j w _ hw hlasts fault hbroken
  rw [convert, convertFieldTypes_eq_map] at hbroken
  unfold convertStruct at hbroken
  split at hbroken
  · rw [← Verdict.stop?_eq_broken_iff, Verdict.stop?_guarded] at hbroken
    split at hbroken <;> cases hbroken
  · split at hbroken
    · rename_i hobject
      rw [← Verdict.stop?_eq_broken_iff, Verdict.stop?_map] at hbroken
      obtain ⟨f', hf', hstop⟩ := convertFields_stop hbroken
      obtain ⟨f, hf, rfl⟩ := List.mem_map.mp hf'
      rcases hstop with ⟨hnone, -⟩ | ⟨u, hown, -, hstop⟩
      · cases hnone
      · obtain ⟨-, hshow, hheight⟩ := Value.showable_own hw (Value.isComposite_of_isObject hobject) (hown rfl)
        obtain ⟨hunbroken, hsettles⟩ := hfields f hf
        exact hunbroken _ u hsettles hshow (hlasts.part hheight) fault
          ((Verdict.stop?_eq_broken_iff _ _).mp hstop)
    · cases hbroken

theorem unbroken_record {values : Schema} (hvalues : Unbroken defs m values)
    (hsettles : Settles defs defs.length values) : Unbroken defs m (.record values) := by
  intro j w _ hw hlasts fault hbroken
  rw [convert] at hbroken
  unfold convertRecord at hbroken
  split at hbroken
  · rw [← Verdict.stop?_eq_broken_iff, Verdict.stop?_map] at hbroken
    obtain ⟨e, he, hstop⟩ := convertEntries_stop hbroken
    obtain ⟨-, hshow, hheight⟩ := Value.showable_of_mem_held hw (w.entries_subset_held he)
    exact hvalues _ e.2 hsettles hshow (hlasts.part hheight) fault ((Verdict.stop?_eq_broken_iff _ _).mp hstop)
  · cases hbroken

theorem unbroken_literal (l : Literal) : Unbroken defs m (.literal l) := by
  intro j w _ _ _ fault hbroken
  rw [convert, ← Verdict.stop?_eq_broken_iff, Verdict.stop?_guarded] at hbroken
  split at hbroken <;> cases hbroken

/-- Only the fields of an instance of another class stop the check. -/
theorem ClassWalk.validate_broken {c : ClassWalk} {checked : List (Field Conversion)}
    (hchecked : c.validated = .ok checked) {w : Value} {fault : Fault} (h : c.validate w = .broken fault) :
    convertStruct true (checked ++ [c.tagField]) w = .broken fault := by
  unfold validate at h
  split at h
  · cases h
  · split at h
    · split at h
      · rw [hchecked, ← Verdict.stop?_eq_broken_iff] at h
        rw [← Verdict.stop?_eq_broken_iff, ← Verdict.stop?_map]
        exact h
      · cases h
    · cases h

/-- An instance of another class with the same tag is checked as a struct is, with the tag as one of the fields. -/
theorem unbroken_errorClass {className tag : String} {fields : List (Field Schema)}
    (hprepared : ∀ f ∈ fields, prepare defs (.validate true) f.type = .ok ())
    (hfields : ∀ f ∈ fields, Unbroken defs m f.type ∧ Settles defs defs.length f.type) :
    Unbroken defs m (.errorClass className tag fields) := by
  have hall : ∀ f ∈ classFields tag fields, Unbroken defs m f.type ∧ Settles defs defs.length f.type :=
    List.forall_mem_append.mpr ⟨hfields, List.forall_mem_singleton.mpr ⟨unbroken_literal _, .guard rfl⟩⟩
  have hvalidated : (prepareFields defs (.validate true) fields).map
      (fun _ => convertFieldTypes defs (followTo defs m) (.validate true) fields) =
        .ok (convertFieldTypes defs (followTo defs m) (.validate true) fields) := by
    rw [(prepareFields_eq_ok_iff fields).mpr hprepared]
    rfl
  intro j w _ hw hlasts fault hbroken
  rw [convert] at hbroken
  have hstruct := ClassWalk.validate_broken hvalidated hbroken
  rw [← convertFieldTypes_classFields] at hstruct
  refine unbroken_struct hall j w (.guard rfl) hw hlasts fault (?_ : convert _ _ _ (.struct none _) w = _)
  rw [convert]
  exact hstruct

theorem unbroken_union {members : List Schema} (hfilable : Filable defs (.union members))
    (hmembers : ∀ s ∈ members, Unbroken defs m s) : Unbroken defs m (.union members) := by
  intro j w hsettles hw hlasts fault hbroken
  have hbelow : ∀ s ∈ members, Settles defs j s := by
    cases hsettles with
    | guard hguard => cases hguard
    | union hbelow => exact hbelow
  obtain ⟨filing, hfiling⟩ := hfilable members rfl
  rw [convert] at hbroken
  cases hcandidates : candidates defs .wire members w with
  | error fault' =>
    -- Only a held value without a text for display stops the choice.
    obtain ⟨hcomposite, field, x, hx, hdisplay⟩ := candidates_error hcandidates hfiling
    have hok := (Value.showable_own hw hcomposite hx).1
    rw [hdisplay] at hok
    cases hok
  | ok positions =>
    have hfirst : firstSuccess (convertMembers defs (followTo defs m) (.validate true) members) w positions =
        .broken fault := by
      simpa [Direction.side, Direction.inner, hcandidates, Verdict.after] using hbroken
    obtain ⟨member, hmember, hv⟩ := firstSuccess_broken hfirst
    rw [convertMembers_eq_map] at hmember
    obtain ⟨s, hs, rfl⟩ := List.mem_map.mp hmember
    exact hmembers s hs j w (hbelow s hs) hw hlasts fault hv

/-- No fault stops the check at a schema that is proper, settled and prepared, if none stops it at the suspended
schemas. -/
theorem unbroken (hfollow : ∀ name, Unbroken defs m (.suspend name)) (s : Schema) :
    Everywhere (Proper defs) s → Settled defs s → prepare defs .decode s = .ok () → Unbroken defs m s := by
  induction s using parts_induction with
  | step s ih =>
    intro hproper hsettled hprepared
    obtain ⟨hparts, hfilable⟩ := prepare_decode hprepared
    have hpart : ∀ t ∈ s.parts, Unbroken defs m t ∧ Settles defs defs.length t := fun t ht =>
      ⟨ih t ht (hproper.of_mem ht) (hsettled.of_mem ht) (hparts t ht), (hsettled.of_mem ht).here⟩
    cases s with
    | string | number | boolean | bigint | undefined =>
      intro j w _ _ _ fault h
      simp only [convert] at h
      split at h <;> cases h
    | void | unknown | any | never =>
      intro j w _ _ _ fault h
      cases h
    | literal l => exact unbroken_literal l
    | numberFromString | bigintFromString | trim =>
      intro j w _ _ _ fault h
      rw [convert, ← Verdict.stop?_eq_broken_iff, Verdict.stop?_ofOption] at h
      split at h <;> cases h
    | date =>
      intro j w _ hw _ fault h
      have hplain : isDateHeir w = false := by
        cases w with
        | heir parent es => simpa using (Bool.and_eq_true_iff.mp hw).1
        | _ => rfl
      rw [convert, walkDate, hplain, Bool.false_and, if_neg (by decide), ← Verdict.stop?_eq_broken_iff,
        Verdict.stop?_ofOption] at h
      split at h <;> cases h
    | filtered of f => exact unbroken_filtered hproper.here (hpart of (by simp [parts])).1
    | tuple elements rest =>
      refine unbroken_tuple (fun e he => hpart e.type ?_) (fun t ht => hpart t ?_)
      · exact List.mem_append_left _ (List.mem_map_of_mem he)
      · exact List.mem_append_right _ (Option.mem_toList.mpr ht)
    | struct name fields => exact unbroken_struct fun f hf => hpart f.type (List.mem_map_of_mem hf)
    | record values => exact unbroken_record (hpart values (by simp [parts])).1 (hpart values (by simp [parts])).2
    | union members => exact unbroken_union hfilable fun t ht => (hpart t ht).1
    | suspend name => exact hfollow name
    | errorClass className tag fields =>
      exact unbroken_errorClass (fun f hf => prepare_validate f.type (hparts f.type (List.mem_map_of_mem hf)))
        fun f hf => hpart f.type (List.mem_map_of_mem hf)

end Unbroken

/-- No fault stops the check at a suspended schema of regular definitions. -/
theorem unbroken_suspend {defs : Definitions} (hregular : Regular defs) (m : Nat) (name : String) :
    Unbroken defs m (.suspend name) := by
  induction m generalizing name with
  | zero =>
    intro j w hsettles _ hlasts
    cases hsettles with
    | guard hguard => cases hguard
    | suspend => simp [Lasts] at hlasts
  | succ m ih =>
    intro j w hsettles hw hlasts fault hbroken
    cases hsettles with
    | guard hguard => cases hguard
    | suspend htarget hs =>
      rename_i j s
      have hprepared := hregular.prepared name s htarget
      have hproper := hregular.proper name s htarget
      -- The step costs one definition, and the schema behind it settles one step earlier.
      have hlast : Lasts defs m j w := by
        unfold Lasts at hlasts ⊢
        omega
      have hconvert : convert defs (followTo defs m) (.validate true) s w = .broken fault := by
        simpa [convert, Direction.inner, followTo, htarget, walk, Verdict.after, prepare_validate s hprepared]
          using hbroken
      exact unbroken ih s hproper (hregular.settled name s htarget) hprepared j w hs hw hlast fault hconvert

/-- What was read with a proper and settled schema is accepted, if it can be displayed. -/
theorem accepts_of_decode {defs : Definitions} (hregular : Regular defs) {s : Schema}
    (hproper : Everywhere (Proper defs) s) (hsettled : Settled defs s) {v w : Value}
    (h : s.decode defs v = .accepted w) (hw : w.showable = true) : s.accepts defs w = .ok true := by
  have hnotFalse := accepts_ne_false_of_decode hregular.proper hproper h
  obtain ⟨_, hprepared, -⟩ := Verdict.after_eq_accepted h
  have hlasts : Lasts defs (followBound defs w) defs.length w := by
    unfold Lasts followBound
    calc defs.length + w.height * defs.length
        = defs.length * (w.height + 1) := by rw [Nat.mul_add_one, Nat.mul_comm]; omega
      _ ≤ (defs.length + 1) * (w.height + 3) := Nat.mul_le_mul (by omega) (by omega)
  have hunbroken := unbroken (unbroken_suspend hregular _) s hproper hsettled hprepared defs.length w
    hsettled.here hw hlasts
  unfold accepts at hnotFalse ⊢
  cases hrun : run defs (.validate true) s w with
  | accepted x => rfl
  | refused =>
    rw [hrun] at hnotFalse
    exact absurd rfl hnotFalse
  | broken fault =>
    refine absurd ?_ (hunbroken fault)
    simpa [run, walk, prepare_validate s hprepared, Verdict.after] using hrun

end Schema

end Gateway

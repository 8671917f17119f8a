import Gateway.Schema.Convert
import Gateway.Proofs.EntryKeys
import Mathlib.Data.List.Forall2

/-!
# How the conversion of a whole follows from its parts

For each way in which a schema combines conversions: what an accepted whole is made of, and which part is to
blame if the whole is refused or a fault stops it.
-/

namespace Gateway

namespace Verdict

variable {α β : Type}

/-- What keeps a verdict from being an acceptance: a refusal, which is `none`, or a fault. -/
def stop? : Verdict α → Option (Option Fault)
  | .accepted _ => none
  | .refused => some none
  | .broken fault => some (some fault)

@[simp] theorem stop?_accepted (a : α) : (accepted a).stop? = none := rfl

@[simp] theorem stop?_refused : (refused : Verdict α).stop? = some none := rfl

@[simp] theorem stop?_broken (fault : Fault) : (broken fault : Verdict α).stop? = some (some fault) := rfl

theorem stop?_eq_refused_iff (v : Verdict α) : v.stop? = some none ↔ v = .refused := by
  cases v <;> simp [stop?]

theorem stop?_eq_broken_iff (v : Verdict α) (fault : Fault) :
    v.stop? = some (some fault) ↔ v = .broken fault := by
  cases v <;> simp [stop?]

@[simp] theorem stop?_map (v : Verdict α) (f : α → β) : (v.map f).stop? = v.stop? := by
  cases v <;> rfl

@[simp] theorem stop?_guarded (c : Bool) (a : α) : (guarded c a).stop? = if c then none else some none := by
  cases c <;> rfl

@[simp] theorem stop?_ofOption (o : Option α) :
    (ofOption o).stop? = if o.isSome then none else some none := by
  cases o <;> rfl

theorem stop?_bind {v : Verdict α} {f : α → Verdict β} {st : Option Fault} (h : (v.bind f).stop? = some st) :
    v.stop? = some st ∨ ∃ a, v = .accepted a ∧ (f a).stop? = some st := by
  cases v with
  | accepted a => exact .inr ⟨a, rfl, h⟩
  | refused => exact .inl h
  | broken fault => exact .inl h

theorem bind_eq_accepted {v : Verdict α} {f : α → Verdict β} {b : β} (h : v.bind f = .accepted b) :
    ∃ a, v = .accepted a ∧ f a = .accepted b := by
  cases v with
  | accepted a => exact ⟨a, rfl, h⟩
  | refused => cases h
  | broken fault => cases h

theorem map_eq_accepted {v : Verdict α} {f : α → β} {b : β} (h : v.map f = .accepted b) :
    ∃ a, v = .accepted a ∧ f a = b := by
  obtain ⟨a, ha, hb⟩ := bind_eq_accepted h
  exact ⟨a, ha, accepted.inj hb⟩

theorem after_eq_accepted {a : Attempt β} {f : β → Verdict α} {w : α} (h : after a f = .accepted w) :
    ∃ b, a = .ok b ∧ f b = .accepted w := by
  cases a with
  | ok b => exact ⟨b, rfl, h⟩
  | error fault => cases h

theorem after_eq_refused {a : Attempt β} {f : β → Verdict α} (h : after a f = .refused) :
    ∃ b, a = .ok b ∧ f b = .refused := by
  cases a with
  | ok b => exact ⟨b, rfl, h⟩
  | error fault => cases h

theorem guarded_eq_accepted_iff (c : Bool) (a b : α) : guarded c a = .accepted b ↔ c = true ∧ a = b := by
  cases c <;> simp [guarded]

theorem ofOption_eq_accepted_iff (o : Option α) (a : α) : ofOption o = .accepted a ↔ o = some a := by
  cases o <;> simp [ofOption]

/-- The first of some verdicts that is not a refusal. -/
def firstOf (verdicts : List (Verdict α)) : Verdict α :=
  verdicts.foldr (fun v next => v.orElse fun _ => next) .refused

@[simp] theorem firstOf_cons (v : Verdict α) (rest : List (Verdict α)) :
    firstOf (v :: rest) = v.orElse fun _ => firstOf rest := rfl

theorem firstOf_single (v : Verdict α) : firstOf [v] = v := by
  cases v <;> rfl

theorem firstOf_pair (v w : Verdict α) : firstOf [v, w] = v.orElse fun _ => w := by
  rw [firstOf_cons, firstOf_single]

end Verdict

/-- What stands on the right of two lists that belong together has its like on the left. -/
theorem exists_of_forall₂_mem {α β : Type} {R : α → β → Prop} {xs : List α} {ys : List β}
    (h : List.Forall₂ R xs ys) {y : β} (hy : y ∈ ys) : ∃ x ∈ xs, R x y := by
  induction h with
  | nil => cases hy
  | cons hr _ ih =>
    rcases List.mem_cons.mp hy with rfl | hy
    · exact ⟨_, List.mem_cons_self, hr⟩
    · obtain ⟨x, hx, hxy⟩ := ih hy
      exact ⟨x, List.mem_cons_of_mem _ hx, hxy⟩

namespace Schema

/-! ## Items -/

theorem convertItems_accepted {item : Conversion} {vs ws : List Value}
    (h : convertItems item vs = .accepted ws) : List.Forall₂ (fun v w => item v = .accepted w) vs ws := by
  induction vs generalizing ws with
  | nil =>
    obtain rfl : [] = ws := Verdict.accepted.inj h
    exact .nil
  | cons v rest ih =>
    unfold convertItems at h
    cases hv : item v with
    | refused => simp [hv] at h
    | broken fault => simp [hv] at h
    | accepted w =>
      rw [hv] at h
      obtain ⟨others, hothers, rfl⟩ := Verdict.map_eq_accepted h
      exact .cons hv (ih hothers)

theorem convertItems_stop {item : Conversion} {vs : List Value} {st : Option Fault}
    (h : (convertItems item vs).stop? = some st) : ∃ v ∈ vs, (item v).stop? = some st := by
  induction vs with
  | nil => cases h
  | cons v rest ih =>
    unfold convertItems at h
    cases hv : item v with
    | refused => exact ⟨v, List.mem_cons_self, by rw [hv]; simpa [hv] using h⟩
    | broken fault => exact ⟨v, List.mem_cons_self, by rw [hv]; simpa [hv] using h⟩
    | accepted w =>
      simp only [hv, Verdict.stop?_map] at h
      obtain ⟨u, hu, hstop⟩ := ih h
      exact ⟨u, List.mem_cons_of_mem v hu, hstop⟩

/-! ## Places -/

theorem convertPlaces_cons_accepted {e : Element Conversion} {places : List (Element Conversion)} {v : Value}
    {vs ws : List Value} (h : convertPlaces (e :: places) (v :: vs) = .accepted ws) :
    ∃ w others, e.type v = .accepted w ∧ convertPlaces places vs = .accepted others ∧ ws = w :: others := by
  unfold convertPlaces at h
  cases hv : e.type v with
  | refused => simp [hv] at h
  | broken fault => simp [hv] at h
  | accepted w =>
    rw [hv] at h
    obtain ⟨others, hothers, rfl⟩ := Verdict.map_eq_accepted h
    exact ⟨w, others, rfl, hothers, rfl⟩

theorem convertPlaces_length {places : List (Element Conversion)} {vs ws : List Value}
    (h : convertPlaces places vs = .accepted ws) : ws.length = min places.length vs.length := by
  induction places generalizing vs ws with
  | nil =>
    obtain rfl : [] = ws := by simpa [convertPlaces] using h
    simp
  | cons e rest ih =>
    cases vs with
    | nil =>
      obtain rfl : [] = ws := by simpa [convertPlaces] using h
      simp
    | cons v vs =>
      obtain ⟨w, others, -, hothers, rfl⟩ := convertPlaces_cons_accepted h
      simp only [List.length_cons, ih hothers]
      omega

theorem convertPlaces_accepted {places : List (Element Conversion)} {vs ws : List Value}
    (h : convertPlaces places vs = .accepted ws) {i : Nat} {e : Element Conversion} {v : Value}
    (he : places[i]? = some e) (hv : vs[i]? = some v) : ∃ w, ws[i]? = some w ∧ e.type v = .accepted w := by
  induction places generalizing vs ws i with
  | nil => simp at he
  | cons first rest ih =>
    cases vs with
    | nil => simp at hv
    | cons u us =>
      obtain ⟨w, others, hu, hothers, rfl⟩ := convertPlaces_cons_accepted h
      cases i with
      | zero =>
        obtain rfl : first = e := by simpa using he
        obtain rfl : u = v := by simpa using hv
        exact ⟨w, rfl, hu⟩
      | succ i =>
        rw [List.getElem?_cons_succ] at he hv ⊢
        exact ih hothers he hv

theorem convertPlaces_mem {places : List (Element Conversion)} {vs ws : List Value}
    (h : convertPlaces places vs = .accepted ws) {w : Value} (hw : w ∈ ws) :
    ∃ e ∈ places, ∃ v, e.type v = .accepted w := by
  induction places generalizing vs ws with
  | nil =>
    obtain rfl : [] = ws := by simpa [convertPlaces] using h
    cases hw
  | cons e rest ih =>
    cases vs with
    | nil =>
      obtain rfl : [] = ws := by simpa [convertPlaces] using h
      cases hw
    | cons v vs =>
      obtain ⟨x, others, hx, hothers, rfl⟩ := convertPlaces_cons_accepted h
      rcases List.mem_cons.mp hw with rfl | hw
      · exact ⟨e, List.mem_cons_self, v, hx⟩
      · obtain ⟨e', he', hu⟩ := ih hothers hw
        exact ⟨e', List.mem_cons_of_mem e he', hu⟩

theorem convertPlaces_stop {places : List (Element Conversion)} {vs : List Value} {st : Option Fault}
    (h : (convertPlaces places vs).stop? = some st) :
    ∃ (i : Nat) (e : Element Conversion) (v : Value),
      places[i]? = some e ∧ vs[i]? = some v ∧ (e.type v).stop? = some st := by
  induction places generalizing vs with
  | nil => simp [convertPlaces] at h
  | cons first rest ih =>
    cases vs with
    | nil => simp [convertPlaces] at h
    | cons u us =>
      unfold convertPlaces at h
      cases hu : first.type u with
      | refused => exact ⟨0, first, u, rfl, rfl, by rw [hu]; simpa [hu] using h⟩
      | broken fault => exact ⟨0, first, u, rfl, rfl, by rw [hu]; simpa [hu] using h⟩
      | accepted w =>
        simp only [hu, Verdict.stop?_map] at h
        obtain ⟨i, e, v, he, hv, hstop⟩ := ih h
        exact ⟨i + 1, e, v, he, hv, hstop⟩

/-! ## Entries -/

theorem convertEntries_accepted {value : Conversion} {es ws : Entries Value}
    (h : convertEntries value es = .accepted ws) :
    List.Forall₂ (fun e w => w.1 = e.1 ∧ value e.2 = .accepted w.2) es ws := by
  induction es generalizing ws with
  | nil =>
    obtain rfl : [] = ws := Verdict.accepted.inj h
    exact .nil
  | cons e rest ih =>
    obtain ⟨key, v⟩ := e
    unfold convertEntries at h
    cases hv : value v with
    | refused => simp [hv] at h
    | broken fault => simp [hv] at h
    | accepted w =>
      rw [hv] at h
      obtain ⟨others, hothers, rfl⟩ := Verdict.map_eq_accepted h
      exact .cons ⟨rfl, hv⟩ (ih hothers)

theorem convertEntries_stop {value : Conversion} {es : Entries Value} {st : Option Fault}
    (h : (convertEntries value es).stop? = some st) : ∃ e ∈ es, (value e.2).stop? = some st := by
  induction es with
  | nil => cases h
  | cons e rest ih =>
    obtain ⟨key, v⟩ := e
    unfold convertEntries at h
    cases hv : value v with
    | refused => exact ⟨(key, v), List.mem_cons_self, by rw [hv]; simpa [hv] using h⟩
    | broken fault => exact ⟨(key, v), List.mem_cons_self, by rw [hv]; simpa [hv] using h⟩
    | accepted w =>
      simp only [hv, Verdict.stop?_map] at h
      obtain ⟨u, hu, hstop⟩ := ih h
      exact ⟨u, List.mem_cons_of_mem _ hu, hstop⟩

/-! ## Fields -/

section Fields

variable {exact : Bool} {fields : List (Field Conversion)} {v : Value}

/-- The first field is absent from what is accepted if it has no source, else it is converted from that. -/
theorem convertFields_cons_accepted {f : Field Conversion} {es : Entries Value}
    (h : convertFields exact (f :: fields) v = .accepted es) :
    (fieldSource v f.name f.optional = none ∧ convertFields exact fields v = .accepted es) ∨
      ∃ w x others, fieldSource v f.name f.optional = some w ∧ f.type w = .accepted x ∧
        convertFields exact fields v = .accepted others ∧ es = (f.name, x) :: others := by
  unfold convertFields at h
  split at h
  · cases h
  · cases hsource : fieldSource v f.name f.optional with
    | none =>
      rw [hsource] at h
      exact .inl ⟨rfl, h⟩
    | some w =>
      rw [hsource] at h
      cases hw : f.type w with
      | refused => simp [hw] at h
      | broken fault => simp [hw] at h
      | accepted x =>
        simp only [hw] at h
        obtain ⟨others, hothers, rfl⟩ := Verdict.map_eq_accepted h
        exact .inr ⟨w, x, others, rfl, hw, hothers, rfl⟩

theorem convertFields_keys {es : Entries Value} (h : convertFields exact fields v = .accepted es) :
    (Entries.keys es).Sublist (fields.map (·.name)) := by
  induction fields generalizing es with
  | nil =>
    obtain rfl : [] = es := Verdict.accepted.inj h
    exact .slnil
  | cons f rest ih =>
    rcases convertFields_cons_accepted h with ⟨-, hrest⟩ | ⟨w, x, others, -, -, hothers, rfl⟩
    · exact (ih hrest).cons f.name
    · exact (ih hothers).cons_cons f.name

theorem convertFields_mem {es : Entries Value} (h : convertFields exact fields v = .accepted es)
    {e : String × Value} (he : e ∈ es) : ∃ f ∈ fields, ∃ u, f.type u = .accepted e.2 := by
  induction fields generalizing es with
  | nil =>
    obtain rfl : [] = es := Verdict.accepted.inj h
    cases he
  | cons f rest ih =>
    have hlater : ∀ {others}, convertFields exact rest v = .accepted others → e ∈ others → _ := fun hothers hmem =>
      (ih hothers hmem).imp fun g hg => And.imp_left (List.mem_cons_of_mem f) hg
    rcases convertFields_cons_accepted h with ⟨-, hrest⟩ | ⟨w, x, others, -, hx, hothers, rfl⟩
    · exact hlater hrest he
    · rcases List.mem_cons.mp he with rfl | he
      · exact ⟨f, List.mem_cons_self, w, hx⟩
      · exact hlater hothers he

/-- Each field is converted from its source, and is absent where it has none. -/
theorem convertFields_accepted {es : Entries Value} (h : convertFields exact fields v = .accepted es)
    (hnodup : (fields.map (·.name)).Nodup) {f : Field Conversion} (hf : f ∈ fields) :
    (fieldSource v f.name f.optional = none ∧ Entries.get? es f.name = none) ∨
      ∃ w x, fieldSource v f.name f.optional = some w ∧ f.type w = .accepted x ∧
        Entries.get? es f.name = some x := by
  induction fields generalizing es with
  | nil => cases hf
  | cons first rest ih =>
    obtain ⟨hfresh, hrest⟩ := List.nodup_cons.mp hnodup
    have hother : ∀ f ∈ rest, f.name ≠ first.name := fun f hf hsame =>
      hfresh (List.mem_map.mpr ⟨f, hf, hsame⟩)
    rcases convertFields_cons_accepted h with ⟨hnone, hconvert⟩ | ⟨w, x, others, hsource, hw, hothers, rfl⟩
    · rcases List.mem_cons.mp hf with rfl | hf
      · refine .inl ⟨hnone, (Entries.get?_eq_none_iff _ _).mpr ?_⟩
        exact fun hmem => hfresh ((convertFields_keys hconvert).subset hmem)
      · exact ih hconvert hrest hf
    · rcases List.mem_cons.mp hf with rfl | hf
      · exact .inr ⟨w, x, hsource, hw, by simp [Entries.get?_cons]⟩
      · rw [Entries.get?_cons, if_neg (hother f hf)]
        exact ih hothers hrest hf

/-- Fields stop because a required one is not present where it has to be, or because of the value of one. -/
theorem convertFields_stop {st : Option Fault} (h : (convertFields exact fields v).stop? = some st) :
    ∃ f ∈ fields,
      (st = none ∧ exact = true ∧ f.optional = false ∧ v.own? f.name = none) ∨
      ∃ w, (exact = true → v.own? f.name = some w) ∧ fieldSource v f.name f.optional = some w ∧
        (f.type w).stop? = some st := by
  induction fields with
  | nil => cases h
  | cons f rest ih =>
    have hlater : (convertFields exact rest v).stop? = some st → _ := fun hrest =>
      (ih hrest).imp fun g hg => And.imp_left (List.mem_cons_of_mem f) hg
    unfold convertFields at h
    split at h
    · rename_i habsent
      simp only [Bool.and_eq_true, Bool.not_eq_true', Option.isNone_iff_eq_none] at habsent
      refine ⟨f, List.mem_cons_self, .inl ⟨?_, habsent.1.1, habsent.1.2, habsent.2⟩⟩
      simpa [eq_comm] using h
    · rename_i hpresent
      cases hsource : fieldSource v f.name f.optional with
      | none =>
        rw [hsource] at h
        exact hlater h
      | some w =>
        -- An exact walk has refused the absent required field above, so what is converted is held.
        have hown : exact = true → v.own? f.name = some w := by
          intro hexact
          unfold fieldSource at hsource
          cases hheld : v.own? f.name with
          | some u => simpa [hheld] using hsource
          | none =>
            cases hoptional : f.optional with
            | true => simp [hheld, hoptional] at hsource
            | false => exact absurd (by simp [hexact, hoptional, hheld]) hpresent
        rw [hsource] at h
        cases hw : f.type w with
        | refused => exact ⟨f, List.mem_cons_self, .inr ⟨w, hown, hsource, by rw [hw]; simpa [hw] using h⟩⟩
        | broken fault =>
          exact ⟨f, List.mem_cons_self, .inr ⟨w, hown, hsource, by rw [hw]; simpa [hw] using h⟩⟩
        | accepted x =>
          simp only [hw, Verdict.stop?_map] at h
          exact hlater h

end Fields

/-! ## Members -/

section Members

variable {members : List Conversion} {v : Value}

/-- The first candidate decides unless it is missing or refuses. -/
theorem firstSuccess_cons {i : Nat} {rest : List Nat} {r : Verdict Value}
    (h : firstSuccess members v (i :: rest) = r) :
    (∃ member, members[i]? = some member ∧ member v = r ∧ r ≠ .refused) ∨
      (∀ member, members[i]? = some member → member v = .refused) ∧ firstSuccess members v rest = r := by
  unfold firstSuccess at h
  cases hmember : members[i]? with
  | none =>
    rw [hmember] at h
    exact .inr ⟨nofun, h⟩
  | some member =>
    rw [hmember] at h
    cases hv : member v with
    | accepted w =>
      simp only [hv, Verdict.orElse] at h
      exact .inl ⟨member, rfl, hv.trans h, h ▸ nofun⟩
    | broken fault =>
      simp only [hv, Verdict.orElse] at h
      exact .inl ⟨member, rfl, hv.trans h, h ▸ nofun⟩
    | refused =>
      simp only [hv, Verdict.orElse] at h
      refine .inr ⟨?_, h⟩
      rintro _ ⟨⟩
      exact hv

theorem firstSuccess_accepted {positions : List Nat} {w : Value}
    (h : firstSuccess members v positions = .accepted w) :
    ∃ i ∈ positions, ∃ member, members[i]? = some member ∧ member v = .accepted w := by
  induction positions with
  | nil => cases h
  | cons i rest ih =>
    rcases firstSuccess_cons h with ⟨member, hmember, hv, -⟩ | ⟨-, hrest⟩
    · exact ⟨i, List.mem_cons_self, member, hmember, hv⟩
    · obtain ⟨j, hj, hmember⟩ := ih hrest
      exact ⟨j, List.mem_cons_of_mem i hj, hmember⟩

/-- A union refuses a value only if every candidate does. -/
theorem firstSuccess_refused {positions : List Nat} (h : firstSuccess members v positions = .refused) {i : Nat}
    (hi : i ∈ positions) {member : Conversion} (hmember : members[i]? = some member) :
    member v = .refused := by
  induction positions with
  | nil => cases hi
  | cons j rest ih =>
    rcases firstSuccess_cons h with ⟨_, -, -, hne⟩ | ⟨hfirst, hrest⟩
    · exact absurd rfl hne
    · rcases List.mem_cons.mp hi with rfl | hi
      · exact hfirst member hmember
      · exact ih hrest hi

theorem firstSuccess_broken {positions : List Nat} {fault : Fault}
    (h : firstSuccess members v positions = .broken fault) :
    ∃ member ∈ members, member v = .broken fault := by
  induction positions with
  | nil => cases h
  | cons i rest ih =>
    rcases firstSuccess_cons h with ⟨member, hmember, hv, -⟩ | ⟨-, hrest⟩
    · exact ⟨member, List.mem_of_getElem? hmember, hv⟩
    · exact ih hrest

end Members

end Schema

end Gateway

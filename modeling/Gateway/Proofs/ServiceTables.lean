import Gateway.Route.Table
import Gateway.Service.Handlers
import Gateway.Proofs.EntryKeys

/-!
# What the tables of a service guarantee

`Service.build` accepts exactly the tables whose procedures have distinct public names and parameters that can be
told apart.  Handlers that were bound and rules that were put into the route table all belong to a procedure of
the service, and a rule provides every required parameter of its procedure.
-/

namespace Gateway

/-! ## Accepted services -/

namespace Service

/-- Parameters that can be told apart: no wire name is reserved, and no wire name and no name occurs twice. -/
structure Distinguishable (parameters : List Parameter) : Prop where
  unreserved : ∀ p ∈ parameters, isReserved p.wireName = false
  wireNames : (parameters.map (·.wireName)).Nodup
  names : (parameters.map (·.name)).Nodup

/-- A service whose procedures have distinct public names and parameters that can be told apart. -/
structure WellFormed (s : Service) : Prop where
  wireNames : (s.procedures.map (·.wireName)).Nodup
  parameters : ∀ p ∈ s.procedures, Distinguishable p.parameters

theorem Distinguishable.ne_reservedKey {parameters : List Parameter} (h : Distinguishable parameters) {p : Parameter}
    (hp : p ∈ parameters) : p.wireName ≠ Entries.reservedKey := by
  intro hname
  have hunreserved := h.unreserved p hp
  rw [hname] at hunreserved
  exact absurd hunreserved (by decide)

theorem distinguishable_nil : Distinguishable [] :=
  ⟨by simp, by simp, by simp⟩

theorem distinguishable_cons (p : Parameter) (rest : List Parameter) :
    Distinguishable (p :: rest) ↔
      isReserved p.wireName = false ∧ p.wireName ∉ rest.map (·.wireName) ∧ p.name ∉ rest.map (·.name) ∧
        Distinguishable rest := by
  constructor
  · rintro ⟨hunreserved, hwireNames, hnames⟩
    obtain ⟨hwire, hwireNames⟩ := List.nodup_cons.mp hwireNames
    obtain ⟨hname, hnames⟩ := List.nodup_cons.mp hnames
    exact ⟨hunreserved p List.mem_cons_self, hwire, hname,
      fun q hq => hunreserved q (List.mem_cons_of_mem p hq), hwireNames, hnames⟩
  · rintro ⟨hp, hwire, hname, hrest⟩
    refine ⟨?_, List.nodup_cons.mpr ⟨hwire, hrest.wireNames⟩, List.nodup_cons.mpr ⟨hname, hrest.names⟩⟩
    intro q hq
    rcases List.mem_cons.mp hq with rfl | hq
    · exact hp
    · exact hrest.unreserved q hq

/-- Parameters have no fault exactly when they can be told apart, from each other and from those before. -/
theorem parameterFault?_eq_none_iff (procedure : String) (wireNames names : List String)
    (parameters : List Parameter) :
    parameterFault? procedure wireNames names parameters = none ↔
      Distinguishable parameters ∧ ∀ p ∈ parameters, p.wireName ∉ wireNames ∧ p.name ∉ names := by
  -- `wireNames` and `names` are those of the parameters before.
  induction parameters generalizing wireNames names with
  | nil => simp [parameterFault?, distinguishable_nil]
  | cons p rest ih =>
    unfold parameterFault?
    by_cases hreserved : isReserved p.wireName = true
    · simp [hreserved, distinguishable_cons]
    · by_cases hwire : p.wireName ∈ wireNames
      · simp [hreserved, hwire]
      · by_cases hname : p.name ∈ names
        · simp [hreserved, hwire, hname]
        · rw [if_neg hreserved, if_neg (by simpa using hwire), if_neg (by simpa using hname), ih,
            distinguishable_cons]
          constructor
          · rintro ⟨hrest, happart⟩
            refine ⟨⟨by simpa using hreserved, ?_, ?_, hrest⟩, ?_⟩
            · intro hmem
              obtain ⟨q, hq, hsame⟩ := List.mem_map.mp hmem
              exact (happart q hq).1 (hsame ▸ List.mem_cons_self)
            · intro hmem
              obtain ⟨q, hq, hsame⟩ := List.mem_map.mp hmem
              exact (happart q hq).2 (hsame ▸ List.mem_cons_self)
            · intro q hq
              rcases List.mem_cons.mp hq with rfl | hq
              · exact ⟨hwire, hname⟩
              · exact ⟨fun h => (happart q hq).1 (List.mem_cons_of_mem _ h),
                  fun h => (happart q hq).2 (List.mem_cons_of_mem _ h)⟩
          · rintro ⟨⟨-, hfreshWire, hfreshName, hrest⟩, happart⟩
            refine ⟨hrest, fun q hq => ⟨?_, ?_⟩⟩
            · intro hmem
              rcases List.mem_cons.mp hmem with hsame | hmem
              · exact hfreshWire (hsame ▸ List.mem_map_of_mem hq)
              · exact (happart q (List.mem_cons_of_mem p hq)).1 hmem
            · intro hmem
              rcases List.mem_cons.mp hmem with hsame | hmem
              · exact hfreshName (hsame ▸ List.mem_map_of_mem hq)
              · exact (happart q (List.mem_cons_of_mem p hq)).2 hmem

end Service

namespace ServiceTables

variable {t t' : ServiceTables}

/-- Tables that agree are determined by their procedures. -/
theorem Agree.eq_of_procedures_eq (h : t.Agree) (h' : t'.Agree) (hprocedures : t.procedures = t'.procedures) :
    t = t' := by
  apply ServiceTables.ext hprocedures
  · rw [h.wireToInternal_eq, h'.wireToInternal_eq, hprocedures]
  · rw [h.internalToWire_eq, h'.internalToWire_eq, hprocedures]
  · rw [h.byWireName_eq, h'.byWireName_eq, hprocedures]

/-- A procedure can be added exactly if its public name is new and its parameters can be told apart. -/
theorem fault?_eq_none_iff (h : t.Agree) (p : Procedure) :
    t.fault? p = none ↔ p.wireName ∉ t.procedures.map (·.wireName) ∧ Service.Distinguishable p.parameters := by
  have hlisted : Entries.get? t.wireToInternal p.wireName = none ↔ p.wireName ∉ t.procedures.map (·.wireName) := by
    rw [Entries.get?_eq_none_iff, h.wireToInternal_eq, Entries.keys, List.map_map]
    rfl
  have hparameters : Service.parameterFault? p.wireName [] [] p.parameters = none ↔
      Service.Distinguishable p.parameters := by
    rw [Service.parameterFault?_eq_none_iff]
    simp
  rw [fault?, ← hlisted, ← hparameters]
  cases Entries.get? t.wireToInternal p.wireName with
  | some existing => simp
  | none => simp

theorem procedures_fill {procedures : List Procedure} (hfill : t.fill procedures = .ok t') :
    t'.procedures = t.procedures ++ procedures := by
  induction procedures generalizing t with
  | nil =>
    obtain rfl : t = t' := Except.ok.inj hfill
    exact (List.append_nil _).symm
  | cons p rest ih =>
    rw [fill] at hfill
    cases hfault : t.fault? p with
    | some fault => simp [hfault] at hfill
    | none =>
      rw [hfault] at hfill
      rw [ih hfill, add, List.append_assoc, List.singleton_append]

/-- Procedures can be added exactly when their public names are distinct, from each other and from those before, and
the parameters of each can be told apart. -/
theorem exists_fill_iff (h : t.Agree) (procedures : List Procedure) :
    (∃ filled, t.fill procedures = .ok filled) ↔
      (procedures.map (·.wireName)).Nodup ∧
        ∀ p ∈ procedures, p.wireName ∉ t.procedures.map (·.wireName) ∧ Service.Distinguishable p.parameters := by
  induction procedures generalizing t with
  | nil => simp [fill]
  | cons p rest ih =>
    rw [fill, List.map_cons, List.nodup_cons, List.forall_mem_cons, ← fault?_eq_none_iff h]
    cases hfault : t.fault? p with
    | some fault => simp
    | none =>
      have hnames : (t.add p).procedures.map (·.wireName) = t.procedures.map (·.wireName) ++ [p.wireName] :=
        List.map_append
      simp only [ih (h.add hfault), hnames, List.mem_append, List.mem_singleton, not_or, true_and]
      constructor
      · rintro ⟨hnodup, hrest⟩
        refine ⟨⟨?_, hnodup⟩, fun q hq => ⟨(hrest q hq).1.1, (hrest q hq).2⟩⟩
        intro hmem
        obtain ⟨q, hq, hsame⟩ := List.mem_map.mp hmem
        exact (hrest q hq).1.2 hsame
      · rintro ⟨⟨hnew, hnodup⟩, hrest⟩
        refine ⟨hnodup, fun q hq => ⟨⟨(hrest q hq).1, ?_⟩, (hrest q hq).2⟩⟩
        intro hsame
        exact hnew (hsame ▸ List.mem_map_of_mem hq)

end ServiceTables

namespace Service

/-- A table is built by filling empty tables. -/
theorem build_eq_ok_iff_fill (name : String) (definitions : Definitions) (table : Entries Definition) (s : Service) :
    build name definitions table = .ok s ↔
      s.name = name ∧ s.definitions = definitions ∧
        ServiceTables.empty.fill (table.map fun (key, d) => Procedure.ofDefinition key d) = .ok s.toServiceTables := by
  unfold build
  split
  · rename_i fault hfill
    rw [hfill]
    simp
  · rename_i tables hfill
    constructor
    · intro hok
      obtain rfl := Except.ok.inj hok
      exact ⟨rfl, rfl, hfill⟩
    · obtain ⟨filled, sname, sdefinitions, hagree⟩ := s
      rintro ⟨rfl, rfl, hfilled⟩
      obtain rfl : tables = filled := Except.ok.inj (hfill.symm.trans hfilled)
      rfl

/-- A table is accepted exactly when its service is well formed. -/
theorem build_eq_ok_iff (name : String) (definitions : Definitions) (table : Entries Definition)
    (s : Service) :
    build name definitions table = .ok s ↔
      s.name = name ∧ s.definitions = definitions ∧
        s.procedures = (table.map fun (key, d) => Procedure.ofDefinition key d) ∧ s.WellFormed := by
  have hexists := ServiceTables.exists_fill_iff ServiceTables.agree_empty
    (table.map fun (key, d) => Procedure.ofDefinition key d)
  rw [build_eq_ok_iff_fill]
  refine and_congr_right fun _ => and_congr_right fun _ => ?_
  constructor
  · intro hfill
    obtain ⟨hnodup, hall⟩ := hexists.mp ⟨_, hfill⟩
    have hprocedures : s.procedures = table.map fun (key, d) => Procedure.ofDefinition key d :=
      ServiceTables.procedures_fill hfill
    exact ⟨hprocedures, hprocedures ▸ hnodup, hprocedures ▸ fun p hp => (hall p hp).2⟩
  · rintro ⟨hprocedures, hwireNames, hparameters⟩
    rw [hprocedures] at hwireNames hparameters
    obtain ⟨filled, hfill⟩ := hexists.mpr
      ⟨hwireNames, fun p hp => ⟨by simp [ServiceTables.empty], hparameters p hp⟩⟩
    have hfilled : filled.procedures = s.procedures := (ServiceTables.procedures_fill hfill).trans hprocedures.symm
    rw [hfill, (ServiceTables.agree_empty.fill hfill).eq_of_procedures_eq s.agrees hfilled]

theorem wellFormed_of_build {name : String} {definitions : Definitions} {table : Entries Definition} {s : Service}
    (h : build name definitions table = .ok s) : s.WellFormed :=
  ((build_eq_ok_iff name definitions table s).mp h).2.2.2

/-- The look-up of a public name finds its procedure. -/
theorem lookup_of_mem {s : Service} (h : s.WellFormed) {p : Procedure} (hp : p ∈ s.procedures) :
    s.lookup p.wireName = some p := by
  have hkeys : Entries.keys s.byWireName = s.procedures.map (·.wireName) := by
    rw [Entries.keys, s.agrees.byWireName_eq, List.map_map]
    rfl
  refine Entries.get?_of_mem (hkeys ▸ h.wireNames) ?_
  rw [s.agrees.byWireName_eq]
  exact List.mem_map_of_mem hp

theorem mem_of_lookup {s : Service} {wireName : String} {p : Procedure} (h : s.lookup wireName = some p) :
    p ∈ s.procedures ∧ p.wireName = wireName := by
  have hmem := Entries.mem_of_get? h
  rw [s.agrees.byWireName_eq, List.mem_map] at hmem
  obtain ⟨q, hq, hentry⟩ := hmem
  obtain ⟨rfl, rfl⟩ := Prod.mk.inj hentry
  exact ⟨hq, rfl⟩

/-- The names in the service are the keys of the public names. -/
theorem has_internalToWire (s : Service) (name : String) :
    Entries.has s.internalToWire name = true ↔ name ∈ s.procedures.map (·.name) := by
  have hkeys : ∀ (procedures : List Procedure) (es : Entries String),
      name ∈ Entries.keys (procedures.foldl (fun es p => Entries.set es p.name p.wireName) es) ↔
        name ∈ Entries.keys es ∨ name ∈ procedures.map (·.name) := by
    intro procedures
    induction procedures with
    | nil => simp
    | cons p rest ih =>
      intro es
      rw [List.foldl_cons, ih, Entries.mem_keys_set, List.map_cons, List.mem_cons, or_assoc, or_left_comm]
  rw [Entries.has_iff_mem_keys, s.agrees.internalToWire_eq, hkeys]
  simp [Entries.keys]

end Service

/-! ## Bound handlers -/

namespace Implementation

/-- One handler is collected for each procedure, under its name. -/
theorem names_of_collect (table : Entries HandlerEntry) (procedures : List Procedure)
    {handlers : List (String × Handler)} (h : collect table procedures = .ok handlers) :
    Entries.keys handlers = procedures.map (·.name) := by
  induction procedures generalizing handlers with
  | nil =>
    obtain rfl : [] = handlers := Except.ok.inj h
    rfl
  | cons p rest ih =>
    unfold collect at h
    cases hfind : find table p.name with
    | undefined => simp [hfind] at h
    | other => simp [hfind] at h
    | function handler =>
      cases hrest : collect table rest with
      | error fault => simp [hfind, hrest] at h
      | ok others =>
        simp only [hfind, hrest, Except.ok.injEq] at h
        rw [← h, Entries.keys_cons, ih hrest, List.map_cons]

/-- Binding keeps the service and finds a handler for each of its procedures. -/
theorem bind_spec {service : Service} {table : Entries HandlerEntry} {i : Implementation}
    (h : bind service table = .ok i) :
    i.service = service ∧ Entries.keys i.handlers = service.procedures.map (·.name) := by
  unfold bind at h
  cases hcollect : collect table service.procedures with
  | error fault => simp [hcollect] at h
  | ok handlers =>
    rw [hcollect] at h
    cases hlisted : table.find? fun entry => !Entries.has service.internalToWire entry.1 with
    | some entry => simp [hlisted] at h
    | none =>
      simp only [hlisted, Except.ok.injEq] at h
      subst h
      exact ⟨rfl, names_of_collect table service.procedures hcollect⟩

/-- A public name of a bound service resolves to its procedure and a handler. -/
theorem resolve_of_mem {service : Service} {table : Entries HandlerEntry} {i : Implementation}
    (hbind : bind service table = .ok i) (hservice : service.WellFormed) {p : Procedure}
    (hp : p ∈ service.procedures) :
    ∃ handler, i.resolve p.wireName = some ⟨p, handler⟩ := by
  obtain ⟨hkept, hhandlers⟩ := bind_spec hbind
  have hnamed : p.name ∈ Entries.keys i.handlers := hhandlers ▸ List.mem_map_of_mem hp
  obtain ⟨handler, hhandler⟩ := Option.isSome_iff_exists.mp ((Entries.get?_isSome_iff _ _).mpr hnamed)
  refine ⟨handler, ?_⟩
  unfold resolve
  rw [hkept, Service.lookup_of_mem hservice hp, Option.bind_some,
    show i.handlers.lookup p.name = some handler from hhandler, Option.map_some]

end Implementation

/-! ## Rules of the route table -/

namespace RouteTable

/-- A rule that leads to one of some procedures and provides all of its required parameters. -/
def Provides (defs : Definitions) (procedures : List Procedure) (rule : Rule) : Prop :=
  ∃ p ∈ procedures, rule.procedure = p.wireName ∧
    ∀ q ∈ p.parameters, q.isOptional defs = false → normalizeName q.wireName ∈ rule.template.names

theorem unsatisfied_eq_nil_iff (defs : Definitions) (parameters : List Parameter) (t : Template) :
    unsatisfied defs parameters t = [] ↔
      ∀ q ∈ parameters, q.isOptional defs = false → normalizeName q.wireName ∈ t.names := by
  simp only [unsatisfied, List.filter_eq_nil_iff, List.forall_mem_map, List.mem_filter, Bool.not_eq_true',
    List.contains_eq_mem, decide_eq_false_iff_not, not_not, and_imp]

/-- A rule is made of the template of a resource, and that template provides the required parameters. -/
theorem ruleOf_spec {defs : Definitions} {p : Procedure} {r : Resource} {rule : Rule}
    (h : ruleOf defs p r = .ok rule) :
    Template.compile r.path = .ok rule.template ∧ rule.procedure = p.wireName ∧
      unsatisfied defs p.parameters rule.template = [] := by
  unfold ruleOf at h
  split at h
  · cases h
  · cases hcompile : Template.compile r.path with
    | error e => simp [hcompile] at h
    | ok template =>
      rw [hcompile] at h
      cases hunsatisfied : unsatisfied defs p.parameters template with
      | cons name names => simp [hunsatisfied] at h
      | nil =>
        simp only [hunsatisfied, Except.ok.injEq] at h
        subst h
        exact ⟨rfl, rfl, hunsatisfied⟩

/-- Every rule is that of a procedure with a resource. -/
theorem mem_rulesOf {defs : Definitions} {procedures : List Procedure} {rules : List Rule}
    (h : rulesOf defs procedures = .ok rules) {rule : Rule} (hrule : rule ∈ rules) :
    ∃ p ∈ procedures, ∃ r, p.resource = some r ∧ ruleOf defs p r = .ok rule := by
  induction procedures generalizing rules with
  | nil =>
    obtain rfl : [] = rules := Except.ok.inj h
    cases hrule
  | cons p rest ih =>
    unfold rulesOf at h
    cases hresource : p.resource with
    | none =>
      rw [hresource] at h
      obtain ⟨q, hq, hof⟩ := ih h hrule
      exact ⟨q, List.mem_cons_of_mem p hq, hof⟩
    | some r =>
      cases hfirst : ruleOf defs p r with
      | error e => simp [hresource, hfirst] at h
      | ok first =>
        cases hrest : rulesOf defs rest with
        | error e => simp [hresource, hfirst, hrest] at h
        | ok others =>
          simp only [hresource, hfirst, hrest, Except.ok.injEq] at h
          subst h
          rcases List.mem_cons.mp hrule with rfl | hrule
          · exact ⟨p, List.mem_cons_self, r, hresource, hfirst⟩
          · obtain ⟨q, hq, hof⟩ := ih hrest hrule
            exact ⟨q, List.mem_cons_of_mem p hq, hof⟩

theorem mem_ofService {s : Service} {table : RouteTable} (h : ofService s = .ok table) {rule : Rule}
    (hrule : rule ∈ table.rules) :
    ∃ p ∈ s.procedures, ∃ r, p.resource = some r ∧ ruleOf s.definitions p r = .ok rule := by
  unfold ofService at h
  cases hrules : rulesOf s.definitions s.procedures with
  | error e => simp [hrules] at h
  | ok rules =>
    simp only [hrules, Except.ok.injEq] at h
    subst h
    exact mem_rulesOf hrules ((List.mergeSort_perm rules Rule.precedes).mem_iff.mp hrule)

/-- Every rule of a service's table provides the required parameters of one of the procedures. -/
theorem ofService_provides {s : Service} {table : RouteTable} (h : ofService s = .ok table) :
    ∀ rule ∈ table.rules, Provides s.definitions s.procedures rule := by
  intro rule hrule
  obtain ⟨p, hp, r, -, hof⟩ := mem_ofService h hrule
  obtain ⟨-, hname, hunsatisfied⟩ := ruleOf_spec hof
  exact ⟨p, hp, hname, (unsatisfied_eq_nil_iff _ _ _).mp hunsatisfied⟩

end RouteTable

end Gateway

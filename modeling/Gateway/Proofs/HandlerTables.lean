import Gateway.Proofs.ConsistentTables
import Gateway.Proofs.Conversions

/-!
# Which tables of handlers are bound

A procedure finds its handler in two places: in the table, if the table lists its name, and else among the members that
every object answers to (`find_eq_function_iff`).  So a table is bound exactly if it lists declared names only and each
procedure finds a function in one of the two, and it is complete exactly if it is bound and lists all the names
(`bind_complete_iff`).  A service with a procedure named like a member is bound to a table without a handler for it
(`unlisted_handler_bound`).
-/

namespace Gateway.Implementation

/-! ## Where handlers come from -/

/-- The table lists the handler under the name. -/
def Supplies (table : Entries HandlerEntry) (name : String) (handler : Handler) : Prop :=
  Entries.get? table name = some (.function handler)

/-- The table lists exactly the names that the service declares, and a function under each of them. -/
structure Complete (service : Service) (table : Entries HandlerEntry) : Prop where
  keys : ∀ key, key ∈ Entries.keys table ↔ key ∈ service.procedures.map (·.name)
  functions : ∀ key ∈ Entries.keys table, ∃ handler, Supplies table key handler

/-- The table does not list the name, but every object answers to it with a function, which makes the handler. -/
def Inherits (table : Entries HandlerEntry) (name : String) (handler : Handler) : Prop :=
  name ∉ Entries.keys table ∧
    ∃ function routine, Member.find name = .function function routine ∧ handler = memberHandler function

theorem find_eq_function_iff (table : Entries HandlerEntry) (name : String) (handler : Handler) :
    find table name = .function handler ↔ Supplies table name handler ∨ Inherits table name handler := by
  rw [Inherits, ← Entries.get?_eq_none_iff]
  unfold find Supplies
  cases hget : Entries.get? table name with
  | some entry => simp
  | none => cases hmember : Member.find name <;> simp [eq_comm]

/-- One handler is collected for each procedure: the function that its name finds. -/
theorem collect_eq_ok_iff (table : Entries HandlerEntry) (procedures : List Procedure)
    (handlers : List (String × Handler)) :
    collect table procedures = .ok handlers ↔
      List.Forall₂ (fun p entry => entry.1 = p.name ∧ find table p.name = .function entry.2) procedures handlers := by
  induction procedures generalizing handlers with
  | nil => simp [collect, eq_comm]
  | cons p rest ih =>
    rw [collect, List.forall₂_cons_left_iff]
    cases hfind : find table p.name with
    | undefined => simp
    | other => simp
    | function handler =>
      simp only [HandlerEntry.function.injEq, ← ih]
      cases collect table rest with
      | error fault => simp
      | ok others =>
        constructor
        · intro h
          obtain rfl := Except.ok.inj h
          exact ⟨_, others, ⟨rfl, rfl⟩, rfl, rfl⟩
        · rintro ⟨⟨name, found⟩, found', ⟨rfl, rfl⟩, hothers, rfl⟩
          rw [Except.ok.inj hothers]

theorem exists_collect_iff (table : Entries HandlerEntry) (procedures : List Procedure) :
    (∃ handlers, collect table procedures = .ok handlers) ↔
      ∀ p ∈ procedures, ∃ handler, find table p.name = .function handler := by
  simp only [collect_eq_ok_iff]
  induction procedures with
  | nil => simp
  | cons p rest ih =>
    rw [List.forall_mem_cons, ← ih]
    simp only [List.forall₂_cons_left_iff]
    constructor
    · rintro ⟨_, entry, handlers, ⟨-, hfind⟩, hrest, rfl⟩
      exact ⟨⟨entry.2, hfind⟩, handlers, hrest⟩
    · rintro ⟨⟨handler, hfind⟩, handlers, hrest⟩
      exact ⟨_, (p.name, handler), handlers, ⟨rfl, hfind⟩, hrest, rfl⟩

/-- The collected handler of a name is the function that the name finds. -/
theorem find_of_collected {table : Entries HandlerEntry} {procedures : List Procedure}
    {handlers : List (String × Handler)} (h : collect table procedures = .ok handlers) {name : String}
    {handler : Handler} (hget : Entries.get? handlers name = some handler) : find table name = .function handler := by
  obtain ⟨p, -, rfl, hfind⟩ :=
    exists_of_forall₂_mem ((collect_eq_ok_iff table procedures handlers).mp h) (Entries.mem_of_get? hget)
  exact hfind

/-! ## Bound tables -/

theorem bind_eq_ok_iff (service : Service) (table : Entries HandlerEntry) (i : Implementation) :
    bind service table = .ok i ↔
      i.service = service ∧ collect table service.procedures = .ok i.handlers ∧
        ∀ key ∈ Entries.keys table, key ∈ service.procedures.map (·.name) := by
  have hdeclared : (table.find? fun entry => !Entries.has service.internalToWire entry.1) = none ↔
      ∀ key ∈ Entries.keys table, key ∈ service.procedures.map (·.name) := by
    simp only [List.find?_eq_none, Bool.not_eq_true', Bool.not_eq_false, Service.has_internalToWire, Entries.keys,
      List.forall_mem_map]
  rw [← hdeclared]
  unfold bind
  cases collect table service.procedures with
  | error fault => simp
  | ok handlers =>
    cases table.find? fun entry => !Entries.has service.internalToWire entry.1 with
    | some entry => simp
    | none =>
      constructor
      · intro h
        obtain rfl := Except.ok.inj h
        exact ⟨rfl, rfl, rfl⟩
      · rintro ⟨rfl, hhandlers, -⟩
        rw [Except.ok.inj hhandlers]

theorem exists_bind_iff (service : Service) (table : Entries HandlerEntry) :
    (∃ i, bind service table = .ok i) ↔
      (∀ key ∈ Entries.keys table, key ∈ service.procedures.map (·.name)) ∧
        ∀ p ∈ service.procedures, ∃ handler, Supplies table p.name handler ∨ Inherits table p.name handler := by
  simp only [← find_eq_function_iff, ← exists_collect_iff, bind_eq_ok_iff]
  constructor
  · rintro ⟨i, -, hcollect, hdeclared⟩
    exact ⟨hdeclared, i.handlers, hcollect⟩
  · rintro ⟨hdeclared, handlers, hcollect⟩
    exact ⟨⟨service, handlers⟩, rfl, hcollect, hdeclared⟩

/-- A table is complete if it is bound and lists every name, so that no handler is inherited. -/
theorem complete_iff (service : Service) (table : Entries HandlerEntry) :
    Complete service table ↔
      (∃ i, bind service table = .ok i) ∧ ∀ p ∈ service.procedures, p.name ∈ Entries.keys table := by
  rw [exists_bind_iff]
  constructor
  · rintro ⟨hkeys, hfunctions⟩
    have hlisted : ∀ p ∈ service.procedures, p.name ∈ Entries.keys table := fun p hp =>
      (hkeys p.name).mpr (List.mem_map_of_mem hp)
    refine ⟨⟨fun key => (hkeys key).mp, ?_⟩, hlisted⟩
    intro p hp
    obtain ⟨handler, hsupplies⟩ := hfunctions p.name (hlisted p hp)
    exact ⟨handler, .inl hsupplies⟩
  · rintro ⟨⟨hdeclared, hfound⟩, hlisted⟩
    refine ⟨fun key => ⟨hdeclared key, ?_⟩, ?_⟩
    · intro hkey
      obtain ⟨p, hp, rfl⟩ := List.mem_map.mp hkey
      exact hlisted p hp
    · intro key hkey
      obtain ⟨p, hp, rfl⟩ := List.mem_map.mp (hdeclared key hkey)
      obtain ⟨handler, hsupplies | hinherits⟩ := hfound p hp
      · exact ⟨handler, hsupplies⟩
      · exact absurd hkey hinherits.1

/-- A public name resolves to the procedure that has it, with the function that the procedure's name finds. -/
theorem resolve_eq_some_iff {service : Service} {table : Entries HandlerEntry} {i : Implementation}
    (hbind : bind service table = .ok i) (hservice : service.WellFormed) (wireName : String) (r : Resolved) :
    i.resolve wireName = some r ↔
      r.procedure ∈ service.procedures ∧ r.procedure.wireName = wireName ∧
        find table r.procedure.name = .function r.handler := by
  obtain ⟨rfl, hcollect, -⟩ := (bind_eq_ok_iff service table i).mp hbind
  constructor
  · intro h
    obtain ⟨p, hp, hhandler⟩ := Option.bind_eq_some_iff.mp h
    obtain ⟨handler, hget, rfl⟩ := Option.map_eq_some_iff.mp hhandler
    obtain ⟨hmem, hname⟩ := Service.mem_of_lookup hp
    exact ⟨hmem, hname, find_of_collected hcollect hget⟩
  · rintro ⟨hmem, rfl, hfind⟩
    obtain ⟨handler, hresolve⟩ := resolve_of_mem hbind hservice hmem
    obtain ⟨p, hp, hhandler⟩ := Option.bind_eq_some_iff.mp hresolve
    obtain ⟨handler', hget, hsame⟩ := Option.map_eq_some_iff.mp hhandler
    obtain ⟨rfl, rfl⟩ := Resolved.mk.inj hsame
    rw [find_of_collected hcollect hget] at hfind
    rw [hresolve, HandlerEntry.function.inj hfind]

theorem resolve_eq_none_iff {service : Service} {table : Entries HandlerEntry} {i : Implementation}
    (hbind : bind service table = .ok i) (hservice : service.WellFormed) (wireName : String) :
    i.resolve wireName = none ↔ ¬∃ p ∈ service.procedures, p.wireName = wireName := by
  constructor
  · rintro hnone ⟨p, hp, rfl⟩
    obtain ⟨handler, hresolve⟩ := resolve_of_mem hbind hservice hp
    rw [hnone] at hresolve
    cases hresolve
  · intro habsent
    obtain ⟨rfl, -, -⟩ := (bind_eq_ok_iff service table i).mp hbind
    rw [resolve, (Service.lookup_eq_none_iff i.service wireName).mpr habsent, Option.bind_none]

/-- A table is bound exactly if it lists declared names only and each procedure finds a function, which the table lists
or which every object has under a name that the table does not list.  The bound tables that list every name are
the complete ones.  A public name of a bound service resolves to the procedure that has it with the function found for
it, and any other text resolves to nothing. -/
theorem bind_complete_iff {name : String} {definitions : Definitions} {record : Entries Definition} {service : Service}
    (hbuild : Service.build name definitions record = .ok service) (table : Entries HandlerEntry) :
    ((∃ i, bind service table = .ok i) ↔
      (∀ key ∈ Entries.keys table, key ∈ service.procedures.map (·.name)) ∧
        ∀ p ∈ service.procedures, ∃ handler, Supplies table p.name handler ∨ Inherits table p.name handler) ∧
    (Complete service table ↔
      (∃ i, bind service table = .ok i) ∧ ∀ p ∈ service.procedures, p.name ∈ Entries.keys table) ∧
    ∀ i, bind service table = .ok i → ∀ wireName,
      (∀ r, i.resolve wireName = some r ↔
        r.procedure ∈ service.procedures ∧ r.procedure.wireName = wireName ∧
          (Supplies table r.procedure.name r.handler ∨ Inherits table r.procedure.name r.handler)) ∧
      (i.resolve wireName = none ↔ ¬∃ p ∈ service.procedures, p.wireName = wireName) := by
  have hservice : service.WellFormed := Service.wellFormed_of_build hbuild
  refine ⟨exists_bind_iff service table, complete_iff service table, ?_⟩
  intro i hbind wireName
  refine ⟨?_, resolve_eq_none_iff hbind hservice wireName⟩
  intro r
  rw [resolve_eq_some_iff hbind hservice, find_eq_function_iff]

/-- A record with a procedure that is named like a member and public under another name. -/
def memberRecord : Entries Definition :=
  [("valueOf", Definition.empty.named "worth"), ("item", Definition.empty)]

/-- A table with a handler for each procedure of `memberRecord`, in another order. -/
def memberTable : Entries HandlerEntry :=
  [("item", .function fun args => .ok args), ("valueOf", .function fun _ => .ok .null)]

theorem bind_complete_iff_member :
    ∃ service i, Service.build "s" [] memberRecord = .ok service ∧ bind service memberTable = .ok i ∧
      Complete service memberTable ∧
      i.resolve "worth" =
        some ⟨Procedure.ofDefinition "valueOf" (Definition.empty.named "worth"), fun _ => .ok .null⟩ ∧
      i.resolve "valueOf" = none := by
  obtain ⟨service, hbuild, hprocedures⟩ : ∃ service, Service.build "s" [] memberRecord = .ok service ∧
      service.procedures =
        [Procedure.ofDefinition "valueOf" (Definition.empty.named "worth"),
          Procedure.ofDefinition "item" Definition.empty] :=
    ⟨_, rfl, rfl⟩
  obtain ⟨haccepts, hcomplete, hresolve⟩ := bind_complete_iff hbuild memberTable
  have hsupplied : ∀ p ∈ service.procedures, ∃ handler,
      Supplies memberTable p.name handler ∨ Inherits memberTable p.name handler := by
    simp only [hprocedures, List.forall_mem_cons]
    exact ⟨⟨_, .inl rfl⟩, ⟨_, .inl rfl⟩, List.forall_mem_nil _⟩
  have hnames : service.procedures.map (·.name) = ["valueOf", "item"] := by
    rw [hprocedures]
    rfl
  obtain ⟨i, hbind⟩ := haccepts.mpr ⟨by rw [hnames]; decide, hsupplied⟩
  refine ⟨service, i, hbuild, hbind, hcomplete.mpr ⟨⟨i, hbind⟩, ?_⟩, ?_, ?_⟩
  · simp only [hprocedures, List.forall_mem_cons]
    exact ⟨by decide, by decide, List.forall_mem_nil _⟩
  · refine ((hresolve i hbind "worth").1 _).mpr ⟨?_, rfl, .inl rfl⟩
    rw [hprocedures]
    exact List.mem_cons_self
  · refine (hresolve i hbind "valueOf").2.mpr ?_
    simp only [hprocedures, List.mem_cons, List.not_mem_nil, or_false, exists_eq_or_imp, exists_eq_left]
    decide

/-- A service with a procedure named `toString` is bound to a table without any handler, and the public name resolves to
a function that the table does not hold. -/
theorem unlisted_handler_bound :
    ∃ service i p, Service.build "s" [] [("toString", Definition.empty)] = .ok service ∧
      bind service [] = .ok i ∧ ¬Complete service [] ∧ i.resolve "toString" = some ⟨p, memberHandler "toString"⟩ ∧
      ∀ handler, ¬Supplies [] "toString" handler := by
  refine ⟨_, _, _, rfl, rfl, ?_, rfl, ?_⟩
  · intro hcomplete
    have hlisted := (hcomplete.keys "toString").mpr List.mem_cons_self
    cases hlisted
  · intro handler hsupplies
    cases hsupplies

end Gateway.Implementation

import Gateway.Proofs.ServiceTables

/-!
# Services are consistent tables

A record of definitions makes a service exactly if its public names are distinct and the parameters of each definition
can be told apart.  The service then lists the definitions in the order of the record, its two tables of names are
inverse to each other, and looking a public name up finds the procedure that has it (`build_consistent`).
-/

namespace Gateway.Service

/-- The public name of an entry of a record: the one that the definition gives, or else the key. -/
def publicName (entry : String × Definition) : String :=
  entry.2.wireName.getD entry.1

/-- A record whose public names are distinct, and in which the parameters of each definition can be told apart. -/
structure Consistent (table : Entries Definition) : Prop where
  publicNames : (table.map publicName).Nodup
  parameters : ∀ entry ∈ table, Distinguishable entry.2.parameters

/-- A procedure that an entry of a record defines. -/
structure Defines (entry : String × Definition) (p : Procedure) : Prop where
  name_eq : p.name = entry.1
  wireName_eq : p.wireName = publicName entry
  description_eq : p.description = entry.2.description
  parameters_eq : p.parameters = entry.2.parameters
  returns_eq : p.returns = entry.2.returns
  errors_eq : p.errors = entry.2.errors
  resource_eq : p.resource = entry.2.resource

theorem defines_ofDefinition (entry : String × Definition) :
    Defines entry (Procedure.ofDefinition entry.1 entry.2) :=
  ⟨rfl, rfl, rfl, rfl, rfl, rfl, rfl⟩

/-- One table lists some names and the other some keys, each once, and they take a name to a key exactly if they take
the key back to the name. -/
structure Inverse (names keys : List String) (toKey toName : Entries String) : Prop where
  names_eq : Entries.keys toKey = names
  keys_eq : Entries.keys toName = keys
  names_nodup : names.Nodup
  keys_nodup : keys.Nodup
  inverse : ∀ name key, Entries.get? toKey name = some key ↔ Entries.get? toName key = some name

theorem wireNames_ofDefinition (table : Entries Definition) :
    (table.map fun (key, d) => Procedure.ofDefinition key d).map (·.wireName) = table.map publicName := by
  rw [List.map_map]
  rfl

theorem names_ofDefinition (table : Entries Definition) :
    (table.map fun (key, d) => Procedure.ofDefinition key d).map (·.name) = Entries.keys table := by
  rw [List.map_map]
  rfl

theorem wellFormed_iff_consistent {s : Service} {table : Entries Definition}
    (hprocedures : s.procedures = table.map fun (key, d) => Procedure.ofDefinition key d) :
    s.WellFormed ↔ Consistent table := by
  constructor
  · rintro ⟨hwireNames, hparameters⟩
    rw [hprocedures] at hwireNames hparameters
    refine ⟨wireNames_ofDefinition table ▸ hwireNames, ?_⟩
    intro entry hentry
    exact hparameters _ (List.mem_map_of_mem hentry)
  · rintro ⟨hpublic, hparameters⟩
    refine ⟨hprocedures ▸ (wireNames_ofDefinition table).symm ▸ hpublic, ?_⟩
    rw [hprocedures]
    intro p hp
    obtain ⟨entry, hentry, rfl⟩ := List.mem_map.mp hp
    exact hparameters entry hentry

/-- Writing new names one after the other adds them in their order. -/
theorem foldl_set_name {procedures : List Procedure} {es : Entries String}
    (hnames : (Entries.keys es ++ procedures.map (·.name)).Nodup) :
    procedures.foldl (fun es p => Entries.set es p.name p.wireName) es =
      es ++ procedures.map fun p => (p.name, p.wireName) := by
  induction procedures generalizing es with
  | nil => exact (List.append_nil _).symm
  | cons p rest ih =>
    have habsent : Entries.has es p.name = false := by
      rw [← Bool.not_eq_true, Entries.has_iff_mem_keys]
      intro hmem
      rw [List.nodup_append] at hnames
      exact hnames.2.2 _ hmem _ List.mem_cons_self rfl
    have hset : Entries.set es p.name p.wireName = es ++ [(p.name, p.wireName)] := by
      rw [Entries.set, habsent]
      rfl
    rw [List.foldl_cons, hset, ih, List.map_cons, List.append_assoc, List.singleton_append]
    simpa [Entries.keys] using hnames

/-- The tables of names of a service are inverse to each other if neither has a name twice. -/
theorem inverse_of_nodup {s : Service} (hwireNames : (s.procedures.map (·.wireName)).Nodup)
    (hnames : (s.procedures.map (·.name)).Nodup) :
    Inverse (s.procedures.map (·.wireName)) (s.procedures.map (·.name)) s.wireToInternal s.internalToWire := by
  have hwire := s.agrees.wireToInternal_eq
  have hinternal : s.internalToWire = s.procedures.map fun p => (p.name, p.wireName) :=
    s.agrees.internalToWire_eq.trans (foldl_set_name hnames)
  have hforth : Entries.keys s.wireToInternal = s.procedures.map (·.wireName) := by
    simp [Entries.keys, hwire]
  have hback : Entries.keys s.internalToWire = s.procedures.map (·.name) := by
    simp [Entries.keys, hinternal]
  refine ⟨hforth, hback, hwireNames, hnames, ?_⟩
  intro name key
  rw [Entries.get?_eq_some_iff (hforth ▸ hwireNames), Entries.get?_eq_some_iff (hback ▸ hnames), hwire, hinternal,
    List.mem_map, List.mem_map]
  simp only [Prod.mk.injEq, and_comm]

theorem lookup_eq_some_iff {s : Service} (h : s.WellFormed) (wireName : String) (p : Procedure) :
    s.lookup wireName = some p ↔ p ∈ s.procedures ∧ p.wireName = wireName := by
  constructor
  · exact mem_of_lookup
  · rintro ⟨hp, rfl⟩
    exact lookup_of_mem h hp

theorem lookup_eq_none_iff (s : Service) (wireName : String) :
    s.lookup wireName = none ↔ ¬∃ p ∈ s.procedures, p.wireName = wireName := by
  rw [lookup, Entries.get?_eq_none_iff, Entries.keys, s.agrees.byWireName_eq, List.map_map, List.mem_map]
  rfl

theorem exists_build {name : String} {definitions : Definitions} {table : Entries Definition}
    (h : Consistent table) : ∃ s, build name definitions table = .ok s := by
  have hparameters : ∀ p ∈ table.map fun (key, d) => Procedure.ofDefinition key d,
      p.wireName ∉ ServiceTables.empty.procedures.map (·.wireName) ∧ Distinguishable p.parameters := by
    intro p hp
    obtain ⟨entry, hentry, rfl⟩ := List.mem_map.mp hp
    exact ⟨List.not_mem_nil, h.parameters entry hentry⟩
  obtain ⟨tables, hfill⟩ := (ServiceTables.exists_fill_iff ServiceTables.agree_empty _).mpr
    ⟨(wireNames_ofDefinition table).symm ▸ h.publicNames, hparameters⟩
  exact ⟨⟨tables, name, definitions, ServiceTables.agree_empty.fill hfill⟩,
    (build_eq_ok_iff_fill _ _ _ _).mpr ⟨rfl, rfl, hfill⟩⟩

/-- A record is accepted exactly if it is consistent.  The service of an accepted record lists its definitions in order,
its tables of names are inverse to each other between the public names and the keys, and a public name is looked up to
the procedure that has it, or to nothing if there is none. -/
theorem build_consistent (name : String) (definitions : Definitions) {table : Entries Definition}
    (hrecord : (Entries.keys table).Nodup) :
    ((∃ s, build name definitions table = .ok s) ↔ Consistent table) ∧
    ∀ s, build name definitions table = .ok s →
      List.Forall₂ Defines table s.procedures ∧
      Inverse (table.map publicName) (Entries.keys table) s.wireToInternal s.internalToWire ∧
      ∀ wireName,
        (∀ p, s.lookup wireName = some p ↔ p ∈ s.procedures ∧ p.wireName = wireName) ∧
        (s.lookup wireName = none ↔ ¬∃ p ∈ s.procedures, p.wireName = wireName) := by
  constructor
  · constructor
    · rintro ⟨s, hbuild⟩
      obtain ⟨-, -, hprocedures, hwellFormed⟩ := (build_eq_ok_iff name definitions table s).mp hbuild
      exact (wellFormed_iff_consistent hprocedures).mp hwellFormed
    · exact exists_build
  · intro s hbuild
    obtain ⟨-, -, hprocedures, hwellFormed⟩ := (build_eq_ok_iff name definitions table s).mp hbuild
    refine ⟨?_, ?_, fun wireName => ⟨lookup_eq_some_iff hwellFormed wireName, lookup_eq_none_iff _ wireName⟩⟩
    · rw [hprocedures, List.forall₂_map_right_iff, List.forall₂_same]
      exact fun entry _ => defines_ofDefinition entry
    · have hinverse := inverse_of_nodup hwellFormed.wireNames (hprocedures ▸ (names_ofDefinition table).symm ▸ hrecord)
      rwa [hprocedures, wireNames_ofDefinition, names_ofDefinition] at hinverse

/-- A record of two definitions, each of which is public under the key of the other. -/
def swappedTable : Entries Definition :=
  [("list", { Definition.empty with
    wireName := some "items", parameters := [⟨"max", "max-items", .number⟩, ⟨"least", "max_items", .number⟩] }),
    ("items", Definition.empty.named "list")]

theorem build_consistent_swapped :
    (Entries.keys swappedTable).Nodup ∧
      ∃ s, build "s" [] swappedTable = .ok s ∧
        Inverse ["items", "list"] ["list", "items"] s.wireToInternal s.internalToWire ∧
        ∀ p, s.lookup "items" = some p ↔ p ∈ s.procedures ∧ p.wireName = "items" := by
  have hrecord : (Entries.keys swappedTable).Nodup := by decide
  have hconsistent : Consistent swappedTable := by
    refine ⟨by decide, ?_⟩
    simp only [swappedTable, Definition.named, Definition.empty, List.forall_mem_cons, List.not_mem_nil,
      IsEmpty.forall_iff, implies_true, and_true]
    exact ⟨⟨by decide, by decide, by decide⟩, distinguishable_nil⟩
  obtain ⟨haccepts, hservice⟩ := build_consistent "s" [] hrecord
  obtain ⟨s, hbuild⟩ := haccepts.mpr hconsistent
  obtain ⟨-, hinverse, hlookup⟩ := hservice s hbuild
  exact ⟨hrecord, s, hbuild, hinverse, (hlookup "items").1⟩

end Gateway.Service

import Gateway.Construction
import Gateway.Service.Procedure

/-!
# Services

A service is a table of procedures with pairwise distinct public names, and tables of the names.  `Service.build`
fills them procedure by procedure.  It refuses a table in which two procedures share a public name, or a procedure has
parameters with a reserved wire name or with one name twice; it reports the first fault in the order of the table.
All tables of a service tell of the same procedures (`ServiceTables.Agree`), because adding a procedure keeps that.
-/

namespace Gateway

/-- What is wrong with a service or its handlers. -/
inductive ServiceFault where
  | sharedName (first second wireName : String)
  | reservedWireName (parameter procedure : String)
  | duplicateWireName (parameter procedure : String)
  | duplicateName (parameter procedure : String)
  | missingHandler (procedure : String)
  | handlerNotFunction (procedure : String)
  | undeclaredHandler (key : String)
  deriving DecidableEq, Repr

/-- Why a service or its handlers were refused. -/
def ServiceFault.reason : ServiceFault → String
  | .sharedName first second wireName =>
    "procedures \"" ++ first ++ "\" and \"" ++ second ++ "\" share the name \"" ++ wireName ++ "\""
  | .reservedWireName parameter procedure =>
    "parameter \"" ++ parameter ++ "\" of " ++ procedure ++
      ": wire names starting with \"_\" are reserved"
  | .duplicateWireName parameter procedure =>
    "duplicate parameter wire name \"" ++ parameter ++ "\" in " ++ procedure
  | .duplicateName parameter procedure =>
    "duplicate parameter name \"" ++ parameter ++ "\" in " ++ procedure
  | .missingHandler procedure => "no handler for procedure \"" ++ procedure ++ "\""
  | .handlerNotFunction procedure => "handler for procedure \"" ++ procedure ++ "\" is not a function"
  | .undeclaredHandler key => "handler given for undeclared procedure \"" ++ key ++ "\""

/-- A service that was refused. -/
structure ServiceError where
  service : String
  fault : ServiceFault
  deriving DecidableEq, Repr

/-- The message of a refused service. -/
def ServiceError.message (e : ServiceError) : String :=
  ConstructionKind.serviceMessage e.service e.fault.reason

namespace Service

/-- Whether a wire name is reserved. -/
def isReserved (wireName : String) : Bool :=
  wireName.toList.head? == some '_'

/-- The first fault of a procedure's parameters, given the names before them. -/
def parameterFault? (procedure : String) (wireNames names : List String) :
    List Parameter → Option ServiceFault
  | [] => none
  | p :: rest =>
    if isReserved p.wireName then some (.reservedWireName p.wireName procedure)
    else if wireNames.contains p.wireName then some (.duplicateWireName p.wireName procedure)
    else if names.contains p.name then some (.duplicateName p.name procedure)
    else parameterFault? procedure (p.wireName :: wireNames) (p.name :: names) rest

end Service

/-- The tables of a service. -/
@[ext]
structure ServiceTables where
  /-- The procedures in the order in which they were added. -/
  procedures : List Procedure
  /-- The names in the service by public name. -/
  wireToInternal : Entries String
  /-- The public names by name in the service. -/
  internalToWire : Entries String
  /-- The procedures by public name. -/
  byWireName : Entries Procedure
  deriving Repr

namespace ServiceTables

/-- Tables without a procedure. -/
def empty : ServiceTables := ⟨[], [], [], []⟩

/-- Adds a procedure to all tables. -/
def add (t : ServiceTables) (p : Procedure) : ServiceTables :=
  { procedures := t.procedures ++ [p]
    wireToInternal := Entries.set t.wireToInternal p.wireName p.name
    internalToWire := Entries.set t.internalToWire p.name p.wireName
    byWireName := Entries.set t.byWireName p.wireName p }

/-- Why a procedure cannot be added, if it cannot. -/
def fault? (t : ServiceTables) (p : Procedure) : Option ServiceFault :=
  match Entries.get? t.wireToInternal p.wireName with
  | some existing => some (.sharedName existing p.name p.wireName)
  | none => Service.parameterFault? p.wireName [] [] p.parameters

/-- Adds procedures one after the other, up to the first fault. -/
def fill (t : ServiceTables) : List Procedure → Except ServiceFault ServiceTables
  | [] => .ok t
  | p :: rest =>
    match t.fault? p with
    | some fault => .error fault
    | none => (t.add p).fill rest

/-- All tables tell of the same procedures. -/
structure Agree (t : ServiceTables) : Prop where
  wireToInternal_eq : t.wireToInternal = t.procedures.map fun p => (p.wireName, p.name)
  internalToWire_eq :
    t.internalToWire = t.procedures.foldl (fun es p => Entries.set es p.name p.wireName) []
  byWireName_eq : t.byWireName = t.procedures.map fun p => (p.wireName, p)

theorem agree_empty : empty.Agree :=
  ⟨rfl, rfl, rfl⟩

/-- A table by public name has a procedure with a new name at its end. -/
theorem set_wireName {α : Type} {procedures : List Procedure} {p : Procedure}
    (habsent : ∀ q ∈ procedures, q.wireName ≠ p.wireName) (f : Procedure → α) :
    Entries.set (procedures.map fun q => (q.wireName, f q)) p.wireName (f p) =
      (procedures ++ [p]).map fun q => (q.wireName, f q) := by
  have hhas : Entries.has (procedures.map fun q => (q.wireName, f q)) p.wireName = false := by
    rw [Entries.has, List.any_eq_false]
    simpa using habsent
  rw [Entries.set, hhas, List.map_append]
  rfl

theorem Agree.add {t : ServiceTables} (h : t.Agree) {p : Procedure} (hfault : t.fault? p = none) :
    (t.add p).Agree := by
  -- A procedure that can be added has a public name that no other one has.
  have habsent : ∀ q ∈ t.procedures, q.wireName ≠ p.wireName := by
    intro q hq hsame
    cases hget : Entries.get? t.wireToInternal p.wireName with
    | some existing => simp [fault?, hget] at hfault
    | none =>
      rw [Entries.get?, List.lookup_eq_none_iff, h.wireToInternal_eq] at hget
      exact absurd (hget _ (List.mem_map_of_mem hq)) (by simp [hsame])
  constructor
  · rw [ServiceTables.add, h.wireToInternal_eq]
    exact set_wireName habsent fun q => q.name
  · rw [ServiceTables.add, List.foldl_append, ← h.internalToWire_eq]
    rfl
  · rw [ServiceTables.add, h.byWireName_eq]
    exact set_wireName habsent id

theorem Agree.fill {t t' : ServiceTables} (h : t.Agree) {procedures : List Procedure}
    (hfill : t.fill procedures = .ok t') : t'.Agree := by
  induction procedures generalizing t with
  | nil =>
    obtain rfl : t = t' := Except.ok.inj hfill
    exact h
  | cons p rest ih =>
    rw [ServiceTables.fill] at hfill
    cases hfault : t.fault? p with
    | some fault => simp [hfault] at hfill
    | none =>
      rw [hfault] at hfill
      exact ih (h.add hfault) hfill

end ServiceTables

/-- A service. -/
structure Service extends ServiceTables where
  name : String
  /-- The schemas that suspended ones refer to. -/
  definitions : Definitions
  agrees : toServiceTables.Agree
  deriving Repr

namespace Service

/-- The service of a table of definitions. -/
def build (name : String) (definitions : Definitions) (table : Entries Definition) :
    Except ServiceError Service :=
  match hfill : ServiceTables.empty.fill (table.map fun (key, d) => Procedure.ofDefinition key d) with
  | .error fault => .error ⟨name, fault⟩
  | .ok tables => .ok { tables with name, definitions, agrees := ServiceTables.agree_empty.fill hfill }

/-- The procedure with a public name. -/
def lookup (s : Service) (wireName : String) : Option Procedure :=
  Entries.get? s.byWireName wireName

end Service

end Gateway

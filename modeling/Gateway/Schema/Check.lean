import Gateway.Fault
import Gateway.Json.Writer
import Gateway.Schema.Basic
import Gateway.Value.Members

/-!
# Well-formed schemas

A schema can be put together unless a required place of a tuple follows an optional one, or a field of an error
class has a name that every object answers to.  A suspended schema is looked at when it is followed.
-/

namespace Gateway

namespace Fault

/-- The fault of a required place after an optional one. -/
def requiredPlace : Fault :=
  ⟨.error, "Invalid element\ndetails: A required element cannot follow an optional element. ts(1257)"⟩

/-- The fault of a field that an error class has already. -/
def duplicateField (name : String) : Fault :=
  ⟨.error, "Duplicate property signature\ndetails: Duplicate key " ++ Json.quoteText name⟩

/-- The fault of a name without a definition. -/
def undefinedSchema : Fault := noMembers "undefined" "ast"

end Fault

namespace Schema

/-- Whether a required place follows an optional one. -/
def hasMisplaced : List (Element Schema) → Bool
  | [] => false
  | e :: rest => (e.optional && rest.any fun other => !other.optional) || hasMisplaced rest

/-- Whether an error class has a field of this name already. -/
def isTaken (name : String) : Bool :=
  name == "_tag" || Member.find name != .absent

mutual

/-- Checks that a schema can be put together. -/
def check : Schema → Attempt Unit
  | .filtered of _ => check of
  | .tuple elements rest =>
    match checkElements elements, checkRest rest with
    | .error f, _ | .ok _, .error f => .error f
    | .ok _, .ok _ => if hasMisplaced elements then .error .requiredPlace else .ok ()
  | .struct _ fields => checkFields fields
  | .record values => check values
  | .union members => checkMembers members
  | .errorClass _ _ fields =>
    match checkFields fields with
    | .error f => .error f
    | .ok _ =>
      match fields.find? fun f => isTaken f.name with
      | some f => .error (.duplicateField f.name)
      | none => .ok ()
  | _ => .ok ()

/-- Checks the places of a tuple. -/
def checkElements : List (Element Schema) → Attempt Unit
  | [] => .ok ()
  | ⟨_, type⟩ :: rest =>
    match check type with
    | .error f => .error f
    | .ok _ => checkElements rest

/-- Checks the further items of a tuple. -/
def checkRest : Option Schema → Attempt Unit
  | none => .ok ()
  | some s => check s

/-- Checks the fields of a struct. -/
def checkFields : List (Field Schema) → Attempt Unit
  | [] => .ok ()
  | ⟨_, _, type⟩ :: rest =>
    match check type with
    | .error f => .error f
    | .ok _ => checkFields rest

/-- Checks the members of a union. -/
def checkMembers : List Schema → Attempt Unit
  | [] => .ok ()
  | s :: rest =>
    match check s with
    | .error f => .error f
    | .ok _ => checkMembers rest

end

/-- The schema that a suspended one refers to. -/
def target (defs : Definitions) (name : String) : Attempt Schema :=
  match Entries.get? defs name with
  | none => .error .undefinedSchema
  | some s => (check s).map fun _ => s

end Schema

end Gateway

import Gateway.Schema.Convert
import Mathlib.Data.List.Basic

/-!
# The parts of a schema

A schema is made of finitely many schemas, and a statement about all schemas is proved from their parts
(`parts_induction`).  A condition holds `Everywhere` in a schema if it holds of the schema and of all its parts.
What a suspended schema refers to is not a part of it.
-/

namespace Gateway.Schema

/-- The schemas that a schema is directly made of. -/
def parts : Schema → List Schema
  | .filtered of _ => [of]
  | .tuple elements rest => elements.map (·.type) ++ rest.toList
  | .struct _ fields | .errorClass _ _ fields => fields.map (·.type)
  | .record values => [values]
  | .union members => members
  | _ => []

theorem sizeOf_type_lt_of_mem_elements {elements : List (Element Schema)} {e : Element Schema}
    (h : e ∈ elements) : sizeOf e.type < sizeOf elements := by
  have hmem := List.sizeOf_lt_of_mem h
  obtain ⟨optional, type⟩ := e
  simp only [Element.mk.sizeOf_spec] at hmem ⊢
  omega

theorem sizeOf_type_lt_of_mem_fields {fields : List (Field Schema)} {f : Field Schema} (h : f ∈ fields) :
    sizeOf f.type < sizeOf fields := by
  have hmem := List.sizeOf_lt_of_mem h
  obtain ⟨name, optional, type⟩ := f
  simp only [Field.mk.sizeOf_spec] at hmem ⊢
  omega

/-- A part is smaller than the whole. -/
theorem sizeOf_lt_of_mem_parts {s t : Schema} (h : t ∈ s.parts) : sizeOf t < sizeOf s := by
  cases s with
  | filtered of f =>
    obtain rfl : t = of := by simpa [parts] using h
    simp only [filtered.sizeOf_spec]
    omega
  | tuple elements rest =>
    simp only [tuple.sizeOf_spec]
    rcases List.mem_append.mp h with helement | hrest
    · obtain ⟨e, he, rfl⟩ := List.mem_map.mp helement
      have hlt := sizeOf_type_lt_of_mem_elements he
      omega
    · obtain rfl : rest = some t := Option.mem_toList.mp hrest
      simp only [Option.some.sizeOf_spec]
      omega
  | struct name fields =>
    obtain ⟨f, hf, rfl⟩ := List.mem_map.mp h
    have hlt := sizeOf_type_lt_of_mem_fields hf
    simp only [struct.sizeOf_spec]
    omega
  | errorClass className tag fields =>
    obtain ⟨f, hf, rfl⟩ := List.mem_map.mp h
    have hlt := sizeOf_type_lt_of_mem_fields hf
    simp only [errorClass.sizeOf_spec]
    omega
  | record values =>
    obtain rfl : t = values := by simpa [parts] using h
    simp only [record.sizeOf_spec]
    omega
  | union members =>
    have hlt := List.sizeOf_lt_of_mem (show t ∈ members from h)
    simp only [union.sizeOf_spec]
    omega
  | _ => cases h

/-- A statement that holds of a schema whenever it holds of its parts holds of all schemas. -/
theorem parts_induction {P : Schema → Prop} (step : ∀ s, (∀ t ∈ s.parts, P t) → P s) (s : Schema) : P s :=
  step s fun t ht =>
    have : sizeOf t < sizeOf s := sizeOf_lt_of_mem_parts ht
    parts_induction step t
termination_by sizeOf s

/-- A condition that holds of a schema and, in turn, of all its parts. -/
inductive Everywhere (p : Schema → Prop) : Schema → Prop where
  | intro {s : Schema} (here : p s) (parts : ∀ t ∈ s.parts, Everywhere p t) : Everywhere p s

namespace Everywhere

variable {p : Schema → Prop} {s : Schema}

theorem here (h : Everywhere p s) : p s := by
  cases h with
  | intro here _ => exact here

theorem of_mem (h : Everywhere p s) {t : Schema} (ht : t ∈ s.parts) : Everywhere p t := by
  cases h with
  | intro _ hparts => exact hparts t ht

end Everywhere

/-! ## The walks over the parts -/

theorem convertElements_eq_map (defs : Definitions) (follow : Follow) (d : Direction)
    (elements : List (Element Schema)) :
    convertElements defs follow d elements =
      elements.map fun e => ⟨e.optional, convert defs follow d e.type⟩ := by
  induction elements with
  | nil => rfl
  | cons e rest ih => rw [convertElements, ih, List.map_cons]

theorem convertRest_eq_map (defs : Definitions) (follow : Follow) (d : Direction) (rest : Option Schema) :
    convertRest defs follow d rest = rest.map (convert defs follow d) := by
  cases rest <;> rfl

theorem convertFieldTypes_eq_map (defs : Definitions) (follow : Follow) (d : Direction)
    (fields : List (Field Schema)) :
    convertFieldTypes defs follow d fields =
      fields.map fun f => ⟨f.name, f.optional, convert defs follow d f.type⟩ := by
  induction fields with
  | nil => rfl
  | cons f rest ih => rw [convertFieldTypes, ih, List.map_cons]

theorem convertMembers_eq_map (defs : Definitions) (follow : Follow) (d : Direction) (members : List Schema) :
    convertMembers defs follow d members = members.map (convert defs follow d) := by
  induction members with
  | nil => rfl
  | cons s rest ih => rw [convertMembers, ih, List.map_cons]

end Gateway.Schema

import Gateway.Schema.Choice

/-!
# Directions of conversion

A schema is walked in one of four directions.  `prepare` is what happens before any value is looked at: the
members of every union that the walk may reach without following a suspended schema are filed.
-/

namespace Gateway.Schema

/-- A direction of the walk. -/
inductive Direction where
  /-- From the wire side to the value side. -/
  | decode
  /-- On the value side; if `exact`, every required field has to be present. -/
  | validate (exact : Bool)
  /-- From the value side to the wire side; `checked` below a condition that has held. -/
  | encode (checked : Bool)
  /-- On the value side, where instances of error classes are built anew; `checked` as above. -/
  | rebuild (checked : Bool)
  deriving DecidableEq, Repr

namespace Direction

/-- The direction for the parts of a value. -/
def inner : Direction → Direction
  | .encode _ => .encode false
  | .rebuild _ => .rebuild false
  | d => d

/-- The direction below a condition that has held. -/
def checked : Direction → Direction
  | .encode _ => .encode true
  | .rebuild _ => .rebuild true
  | d => d

/-- Whether a condition has held above. -/
def isChecked : Direction → Bool
  | .encode checked | .rebuild checked => checked
  | _ => false

/-- Whether conditions are checked on the value before it is converted. -/
def checksFirst : Direction → Bool
  | .encode _ | .rebuild _ => true
  | _ => false

/-- The side on which literals choose the members of a union. -/
def side : Direction → Side
  | .encode _ | .rebuild _ => .value
  | _ => .wire

/-- Whether an absent required field is refused without looking at its schema. -/
def isExact : Direction → Bool
  | .validate exact => exact
  | _ => false

/-- Whether the fields of an error class are walked at once. -/
def entersClass : Direction → Bool
  | .decode | .encode _ => true
  | _ => false

end Direction

mutual

/-- Files the members of all unions that a walk may reach at once. -/
def prepare (defs : Definitions) (d : Direction) : Schema → Attempt Unit
  | .filtered of _ =>
    if d.checksFirst && !d.isChecked then
      match prepare defs (.validate false) of with
      | .error f => .error f
      | .ok _ => prepare defs d.checked of
    else prepare defs d of
  | .tuple elements rest =>
    match prepareElements defs d.inner elements with
    | .error f => .error f
    | .ok _ => prepareRest defs d.inner rest
  | .struct _ fields => prepareFields defs d.inner fields
  | .record values => prepare defs d.inner values
  | .union members =>
    match Filing.ofMembers defs d.side members with
    | .error f => .error f
    | .ok _ => prepareMembers defs d.inner members
  | .errorClass _ _ fields => if d.entersClass then prepareFields defs d.inner fields else .ok ()
  | _ => .ok ()

/-- Prepares the places of a tuple. -/
def prepareElements (defs : Definitions) (d : Direction) : List (Element Schema) → Attempt Unit
  | [] => .ok ()
  | ⟨_, type⟩ :: rest =>
    match prepare defs d type with
    | .error f => .error f
    | .ok _ => prepareElements defs d rest

/-- Prepares the further items of a tuple. -/
def prepareRest (defs : Definitions) (d : Direction) : Option Schema → Attempt Unit
  | none => .ok ()
  | some s => prepare defs d s

/-- Prepares the fields of a struct. -/
def prepareFields (defs : Definitions) (d : Direction) : List (Field Schema) → Attempt Unit
  | [] => .ok ()
  | ⟨_, _, type⟩ :: rest =>
    match prepare defs d type with
    | .error f => .error f
    | .ok _ => prepareFields defs d rest

/-- Prepares the members of a union. -/
def prepareMembers (defs : Definitions) (d : Direction) : List Schema → Attempt Unit
  | [] => .ok ()
  | s :: rest =>
    match prepare defs d s with
    | .error f => .error f
    | .ok _ => prepareMembers defs d rest

end

end Gateway.Schema

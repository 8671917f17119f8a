import Gateway.Value.Basic

/-!
# Schemas

The types of parameters, results and declared errors.  Every schema has two sides: the wire side, which
JSON values have, and the value side, which procedures see; they differ at the converting schemas
(`numberFromString`, `bigintFromString`, `date`, `trim`) and at error classes.  A suspended schema names
one of the `Definitions`, so that schemas may be recursive.
-/

namespace Gateway

/-- A scalar that a schema may ask for exactly. -/
inductive Literal where
  | null
  | bool (b : Bool)
  | number (n : Number)
  | string (s : String)
  deriving DecidableEq, Repr

/-- A condition on a value that its base schema has accepted. -/
inductive Filter where
  /-- An integer of magnitude below 2^53. -/
  | safeInteger
  /-- A text that is not empty. -/
  | nonEmpty
  /-- A text of at least so many UTF-16 units. -/
  | minLength (n : Number)
  /-- A text of at most so many UTF-16 units. -/
  | maxLength (n : Number)
  /-- A number between two bounds, both included. -/
  | between (low high : Number)
  deriving DecidableEq, Repr

/-- A named part of a struct; an optional one may be absent. -/
structure Field (σ : Type) where
  name : String
  optional : Bool
  type : σ
  deriving Inhabited, Repr

/-- A place of a tuple; an optional one may be missing at the end. -/
structure Element (σ : Type) where
  optional : Bool
  type : σ
  deriving Inhabited, Repr

/-- A schema. -/
inductive Schema where
  | string
  | number
  | boolean
  | bigint
  | undefined
  | void
  | unknown
  | any
  | never
  | literal (l : Literal)
  /-- A number written as text. -/
  | numberFromString
  /-- An integer of any size written as text. -/
  | bigintFromString
  /-- A valid date written as text. -/
  | date
  /-- A text without blanks at its ends; reading trims. -/
  | trim
  | filtered (of : Schema) (filter : Filter)
  /-- Places in order, and what every further item has to be, if further items are allowed. -/
  | tuple (elements : List (Element Schema)) (rest : Option Schema)
  | struct (name : Option String) (fields : List (Field Schema))
  | record (values : Schema)
  | union (members : List Schema)
  | suspend (name : String)
  /-- The instances of a declared error class. -/
  | errorClass (className tag : String) (fields : List (Field Schema))
  deriving Inhabited, Repr

/-- The named schemas that suspended ones refer to. -/
abbrev Definitions := Entries Schema

namespace Schema

/-- A text of at least one unit. -/
def nonEmptyString : Schema := .filtered .string .nonEmpty

/-- A safe integer. -/
def int : Schema := .filtered .number .safeInteger

/-- The null literal. -/
def null : Schema := .literal .null

/-- A list of any length. -/
def array (items : Schema) : Schema := .tuple [] (some items)

/-- A list of at least one item. -/
def nonEmptyArray (items : Schema) : Schema := .tuple [⟨false, items⟩] (some items)

/-- One of several schemas: none is `never`, a single one is itself. -/
def anyOf : List Schema → Schema
  | [] => .never
  | [s] => s
  | members => .union members

/-- One of several literals. -/
def literals (ls : List Literal) : Schema :=
  anyOf (ls.map .literal)

/-- A schema or null. -/
def nullOr (s : Schema) : Schema := .union [s, null]

/-- A schema or undefined. -/
def undefinedOr (s : Schema) : Schema := .union [s, .undefined]

/-- A schema, null or undefined. -/
def nullishOr (s : Schema) : Schema := .union [s, null, .undefined]

/-- A field that has to be present. -/
def required (name : String) (type : Schema) : Field Schema := ⟨name, false, type⟩

/-- A field that may be absent but not undefined. -/
def exact (name : String) (type : Schema) : Field Schema := ⟨name, true, type⟩

/-- A field that may be absent or undefined. -/
def optional (name : String) (type : Schema) : Field Schema :=
  match type with
  | .undefined | .never => ⟨name, true, .undefined⟩
  | s => ⟨name, true, undefinedOr s⟩

/-- Fields in the order of an object with these keys; of two with one name the later type is kept. -/
def arrangeFields (fields : List (Field Schema)) : List (Field Schema) :=
  (Entries.ofPairs (fields.map fun f => (f.name, f))).map (·.2)

/-- How many conditions and suspended schemas are followed from a member of a union before it is given up. -/
def followLimit : Nat := 10000

end Schema

end Gateway

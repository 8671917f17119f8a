import Gateway.Schema.Check
import Gateway.Text.Contains

/-!
# The text of a schema

Error messages name a schema by its text: keywords and named schemas by name, structures by their shape.
A suspended schema prints as the name of its target, so a recursive schema has a finite text.
-/

namespace Gateway

/-- A literal as JSON. -/
def Literal.text : Literal → String
  | .null => "null"
  | .bool b => if b then "true" else "false"
  | .number n => n.text
  | .string s => Json.quoteText s

/-- The name of a filter. -/
def Filter.text : Filter → String
  | .safeInteger => "Int"
  | .nonEmpty => "NonEmptyString"
  | .minLength n => "minLength(" ++ n.text ++ ")"
  | .maxLength n => "maxLength(" ++ n.text ++ ")"
  | .between low high => "between(" ++ low.text ++ ", " ++ high.text ++ ")"

namespace Schema

/-- The name that a schema goes by, if it has one. -/
def name? : Schema → Option String
  | .string => some "string"
  | .number => some "number"
  | .boolean => some "boolean"
  | .bigint => some "bigint"
  | .undefined => some "undefined"
  | .void => some "void"
  | .unknown => some "unknown"
  | .any => some "any"
  | .never => some "never"
  | .numberFromString => some "NumberFromString"
  | .bigintFromString => some "BigInt"
  | .date => some "Date"
  | .trim => some "Trim"
  | .filtered _ f => some f.text
  | .struct name _ => name
  | _ => none

/-- The schemas that have a name of their own. -/
def basics : List Schema :=
  [.string, .number, .boolean, .undefined, .void, .unknown, .any, .never, .bigint, .numberFromString, .int,
    .nonEmptyString, .date, .bigintFromString, .trim]

/-- The schema that goes by a name. -/
def named? (name : String) : Option Schema :=
  if name = "null" then some .null else basics.find? fun s => s.name? == some name

/-- Whether a schema is itself a condition on another one. -/
def isFilter : Schema → Bool
  | .filtered _ _ | .date => true
  | _ => false

/-- The last place of a tuple, for any number of items. -/
def restText (item : String) : String :=
  if Text.contains " | " item then "...(" ++ item ++ ")[]" else "..." ++ item ++ "[]"

mutual

/-- The text of a schema. -/
def describe (defs : Definitions) : Schema → String
  | .literal l => l.text
  | .filtered of f =>
    if f = .safeInteger ∨ f = .nonEmpty then f.text
    else if of.isFilter then describe defs of ++ " & " ++ f.text
    else f.text
  | .tuple [] (some items) => "ReadonlyArray<" ++ describe defs items ++ ">"
  | .tuple elements none => "readonly [" ++ ", ".intercalate (describeElements defs elements) ++ "]"
  | .tuple elements (some items) =>
    "readonly [" ++
      ", ".intercalate (describeElements defs elements ++ [restText (describe defs items)]) ++ "]"
  | .struct (some name) _ => name
  | .struct none [] => "\x7b\x7d"
  | .struct none fields => "\x7b " ++ "; ".intercalate (describeFields defs fields) ++ " \x7d"
  | .record values => "\x7b readonly [x: string]: " ++ describe defs values ++ " \x7d"
  | .union members => " | ".intercalate (describeMembers defs members)
  | .suspend name => ((target defs name).toOption.bind name?).getD "<suspended schema>"
  | .errorClass _ tag _ => "(" ++ tag ++ " (Encoded side) <-> " ++ tag ++ ")"
  | s => s.name?.getD ""

/-- The texts of the places of a tuple. -/
def describeElements (defs : Definitions) : List (Element Schema) → List String
  | [] => []
  | ⟨optional, type⟩ :: rest =>
    (describe defs type ++ if optional then "?" else "") :: describeElements defs rest

/-- The texts of the fields of a struct. -/
def describeFields (defs : Definitions) : List (Field Schema) → List String
  | [] => []
  | ⟨name, optional, type⟩ :: rest =>
    ("readonly " ++ name ++ (if optional then "?: " else ": ") ++ describe defs type) ::
      describeFields defs rest

/-- The texts of the members of a union. -/
def describeMembers (defs : Definitions) : List Schema → List String
  | [] => []
  | s :: rest => describe defs s :: describeMembers defs rest

end

end Schema

end Gateway

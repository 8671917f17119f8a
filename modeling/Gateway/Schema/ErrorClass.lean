import Gateway.Schema.Basic
import Gateway.Value.Inspect

/-!
# Declared error classes

A declared error class has a tag and fields.  The message of an instance shows every declared field, unless a
field is itself named `message`.
-/

namespace Gateway

/-- A declared error class. -/
structure ErrorClass where
  className : String
  tag : String
  fields : List (Field Schema)
  deriving Repr

namespace ErrorClass

/-- The schema of the instances. -/
def schema (c : ErrorClass) : Schema :=
  .errorClass c.className c.tag c.fields

/-- The field that holds the tag. -/
def tagField (tag : String) : Field Schema :=
  Schema.required "_tag" (.literal (.string tag))

/-- The message that shows the declared fields of an instance. -/
def shownMessage (names : List String) (v : Value) : String :=
  let shown := names.map fun name => Json.quoteText name ++ ": " ++ (v.member name).inspect
  "\x7b " ++ ", ".intercalate shown ++ " \x7d"

/-- The instance of a class with these declared names and these fields.  A message that is given has to have a
text. -/
def build (className tag : String) (names : List String) (fields : Entries Value) : Attempt Value :=
  let message :=
    if names.contains "message" then ""
    else shownMessage names (.raised ⟨className, tag, ""⟩ fields)
  match Entries.get? fields "message" with
  | none | some .undefined => .ok (.raised ⟨className, tag, message⟩ fields)
  | some given => given.text.map fun _ => .raised ⟨className, tag, message⟩ fields

end ErrorClass

end Gateway

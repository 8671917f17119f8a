import Gateway.Json.Writer
import Gateway.Value.Text

/-!
# The shape of a value

A text that shows the shape of lists and objects, for the messages of raised errors.  An object with a text of
its own shows that.
-/

namespace Gateway.Value

/-- What the member `toString` of an object gives back, as a text. -/
def calledText (routine : Routine) (v : Value) : String :=
  match (perform text routine v).bind display with
  | .ok s => s
  | .error _ => "[toString threw]"

/-- The text of its own that an object has. -/
def ownText? (v : Value) : Option String :=
  match v.member "toString" with
  | .function _ .kindText | .function _ .listText => none
  | .function _ routine => some (calledText routine v)
  | _ => none

/-- The name of an object's constructor, unless it is the one that all objects share. -/
def constructorName? (v : Value) : Option String :=
  match v.member "constructor" with
  | .undefined | .null | .function "Object" .other => none
  | c =>
    let name := c.member "name"
    if name.isFalsy then none else name.display.toOption

/-- The text of an object from the texts of its entries. -/
def shapeText (v : Value) (entries : List (String × String)) : String :=
  let body :=
    "\x7b" ++ ",".intercalate (entries.map fun e => Json.quoteText e.1 ++ ":" ++ e.2) ++ "\x7d"
  match constructorName? v with
  | some name => name ++ "(" ++ body ++ ")"
  | none => body

/-- The cause at the end of the text of an error. -/
def causeText (fields : Entries Value) (texts : List (String × String)) : String :=
  match Entries.get? fields "cause", texts.lookup "cause" with
  | some cause, some s => if cause.isFalsy then "" else " (cause: " ++ s ++ ")"
  | _, _ => ""

mutual

/-- A text that shows the shape of a value. -/
def inspect : Value → String
  | .array items => "[" ++ ",".intercalate (inspectItems items) ++ "]"
  | .string s => Json.quoteText s
  | .bigint n => String.ofList (Number.intChars n) ++ "n"
  | .date (some moment) => Calendar.write moment
  | .date none => "Invalid Date"
  | .object es =>
    ((Value.object es).ownText?).getD (shapeText (.object es) (inspectEntries es))
  | .heir parent es =>
    ((Value.heir parent es).ownText?).getD (shapeText (.heir parent es) (inspectEntries es))
  | .raised mark fields =>
    ((Value.raised mark fields).ownText?).getD "" ++ causeText fields (inspectEntries fields)
  | .function name routine => ((Value.function name routine).ownText?).getD ""
  | v => (v.display.toOption).getD ""

/-- The texts of the items of a list. -/
def inspectItems : List Value → List String
  | [] => []
  | v :: rest => inspect v :: inspectItems rest

/-- The texts of the values of an object, by key. -/
def inspectEntries : List (String × Value) → List (String × String)
  | [] => []
  | (key, v) :: rest => (key, inspect v) :: inspectEntries rest

end

end Gateway.Value

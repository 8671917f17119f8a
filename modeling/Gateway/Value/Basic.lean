import Gateway.Entries
import Gateway.Number.Basic

/-!
# Values

What travels through the gateway: JSON values and the values a procedure may hold beside them.  The
entries of an object are kept in the object's own order (`Entries`).
-/

namespace Gateway

/-- What a raised error of a declared class carries beside its fields. -/
structure ErrorMark where
  /-- The class that the error is an instance of. -/
  className : String
  /-- The tag that its written form ends with. -/
  tag : String
  /-- Its message, where no field is named so. -/
  message : String
  deriving DecidableEq, Repr

/-- What a function does when a conversion calls it. -/
inductive Routine where
  /-- Gives back nothing; all functions that are given as values do. -/
  | nothing
  /-- Names the kind of an object. -/
  | kindText
  /-- Gives back the object itself. -/
  | identity
  /-- Writes the items of a list. -/
  | listText
  /-- Writes a date. -/
  | dateText
  /-- Gives the moment of a date. -/
  | dateMoment
  /-- Writes a date for JSON. -/
  | dateJson
  /-- Writes an error. -/
  | errorText
  /-- Lists the fields of a raised error for JSON. -/
  | fieldsJson
  /-- Writes a function. -/
  | functionText
  /-- Something that no conversion asks for. -/
  | other
  deriving DecidableEq, Repr

/-- A value. -/
inductive Value where
  | undefined
  | null
  | bool (b : Bool)
  | number (n : Number)
  | bigint (n : Int)
  | string (s : String)
  | symbol (description : String)
  | function (name : String) (routine : Routine)
  /-- A moment in milliseconds since 1970, or an invalid date. -/
  | date (moment : Option Int)
  /-- An error without a declared class. -/
  | error (name message : String)
  /-- An instance of a declared error class. -/
  | raised (mark : ErrorMark) (fields : List (String × Value))
  | array (items : List Value)
  | object (entries : List (String × Value))
  /-- An object that answers with another value's members where it has no entry; null for none at all. -/
  | heir (parent : Value) (entries : List (String × Value))
  deriving Inhabited, Repr

namespace Value

/-- The name of a value's type; errors and dates are objects. -/
def typeName : Value → String
  | .undefined => "undefined"
  | .null => "null"
  | .bool _ => "boolean"
  | .number _ => "number"
  | .bigint _ => "bigint"
  | .string _ => "string"
  | .symbol _ => "symbol"
  | .function _ _ => "function"
  | .array _ => "array"
  | .date _ | .error _ _ | .raised _ _ | .object _ | .heir _ _ => "object"

/-- Whether a value is an object and no list. -/
def isObject : Value → Bool
  | .date _ | .error _ _ | .raised _ _ | .object _ | .heir _ _ => true
  | _ => false

/-- Whether a value is an object or a list. -/
def isComposite : Value → Bool
  | .array _ => true
  | v => v.isObject

/-- Whether a value is null or undefined. -/
def isNothing : Value → Bool
  | .undefined | .null => true
  | _ => false

/-- Whether a value counts as false where a truth is asked for. -/
def isFalsy : Value → Bool
  | .undefined | .null | .bool false => true
  | .number n => n == .nan || n == .int 0 || n == .negZero
  | .bigint n => n == 0
  | .string s => s == ""
  | _ => false

/-- Whether a field of a raised error is held without being listed: its stack, a message and a cause. -/
def isUnlisted (key : String) (v : Value) : Bool :=
  match key with
  | "stack" => true
  | "message" => match v with | .undefined => false | _ => true
  | "cause" => !v.isFalsy
  | _ => false

/-- The entry that the tag of a raised error makes. -/
def tagEntry (mark : ErrorMark) : String × Value :=
  ("_tag", .string mark.tag)

/-- The entries that a value lists: those of an object, and of a raised error its listed fields and then its
tag. -/
def entries : Value → Entries Value
  | .object es | .heir _ es => es
  | .raised mark fields => fields.filter (fun f => !isUnlisted f.1 f.2) ++ [tagEntry mark]
  | _ => []

/-- The value that an object or a list itself holds under a key, listed or not. -/
def own? (v : Value) (key : String) : Option Value :=
  match v with
  | .array items =>
    match Entries.indexOf? key with
    | some i => items[i]?
    | none => if key = "length" then some (.number (.ofInt items.length)) else none
  | .error _ message => if key = "message" then some (.string message) else none
  | .raised mark fields => Entries.get? (fields ++ [tagEntry mark]) key
  | .function name _ =>
    if key = "name" then some (.string name)
    else if key = "length" then some (.number (.int 0))
    else none
  | _ => Entries.get? v.entries key

/-- What an object answers with in the end: the value itself, unless it is an heir. -/
def base : Value → Value
  | .heir parent _ => base parent
  | v => v

/-- Whether an object may answer with this value's members. -/
def mayBeParent (v : Value) : Bool :=
  match v with
  | .null | .function _ _ => true
  | v => v.isComposite

/-- The object that writing pairs with different keys leaves: the reserved key sets what the object answers with
beside its entries, if the value can be that. -/
def ofEntries (es : Entries Value) : Value :=
  let own := es.filter fun e => e.1 != Entries.reservedKey
  match Entries.get? es Entries.reservedKey with
  | some parent => if parent.mayBeParent then .heir parent own else .object own
  | none => .object own

/-- The object that writing pairs one after the other leaves. -/
def ofPairs (pairs : List (String × Value)) : Value :=
  match pairs.reverse.find? fun p => p.1 == Entries.reservedKey && p.2.mayBeParent with
  | some (_, parent) => .heir parent (Entries.assign [] pairs)
  | none => .object (Entries.assign [] pairs)

/-- Equality of two values that no later change could tell apart: scalars by value, the two zeros
apart, and values with an identity never. -/
def identical : Value → Value → Bool
  | .undefined, .undefined | .null, .null => true
  | .bool a, .bool b => a == b
  | .number a, .number b => a == b
  | .bigint a, .bigint b => a == b
  | .string a, .string b => a == b
  | _, _ => false

end Value

end Gateway

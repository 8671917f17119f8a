import Gateway.Calendar
import Gateway.Fault
import Gateway.Number.Reader
import Gateway.Number.Shortest
import Gateway.Value.Members

/-!
# Texts and numbers of values

Where a text is asked for, a scalar has one, and an object is asked for a scalar by its members `toString` and
`valueOf`, in this order; where a number is asked for, in the other order.  A list writes its items with commas.
An object whose members give no scalar, and a symbol, have neither a text nor a number; that is a fault.
-/

namespace Gateway.Value

/-! ## Scalars -/

/-- Whether a value is no object, list or function. -/
def isScalar : Value → Bool
  | .function _ _ => false
  | v => !v.isComposite

/-- The text of a scalar. -/
def scalarText : Value → Attempt String
  | .undefined => .ok "undefined"
  | .null => .ok "null"
  | .bool b => .ok (if b then "true" else "false")
  | .number n => .ok n.text
  | .bigint n => .ok (String.ofList (Number.intChars n))
  | .string s => .ok s
  | .symbol _ => .error .symbolText
  | _ => .error .noPrimitive

/-! ## Members that are called -/

/-- The name of an object's kind. -/
def kind : Value → String
  | .array _ => "Array"
  | .date _ => "Date"
  | .error _ _ | .raised _ _ => "Error"
  | .function _ _ => "Function"
  | _ => "Object"

/-- The text that names an object's kind. -/
def kindText (v : Value) : String :=
  "[object " ++ v.kind ++ "]"

/-- The text of an error: its name and its message, or the one that is not empty. -/
def errorLine (name message : String) : String :=
  if name = "" then message else if message = "" then name else name ++ ": " ++ message

/-- The text of a member, or another text where it is undefined. -/
def memberText (text : Value → Attempt String) (v : Value) (key default : String) : Attempt String :=
  match v.member key with
  | .undefined => .ok default
  | w => text w

/-- The text of an error, from the texts of its members. -/
def errorText (text : Value → Attempt String) (v : Value) : Attempt String :=
  match memberText text v "name" "Error" with
  | .error f => .error f
  | .ok name => (memberText text v "message" "").map (errorLine name)

/-- The texts of the items of a list; null and undefined are empty. -/
def itemTexts (text : Value → Attempt String) : List Value → Attempt (List String)
  | [] => .ok []
  | v :: rest =>
    match if v.isNothing then .ok "" else text v with
    | .error f => .error f
    | .ok s => (itemTexts text rest).map (s :: ·)

/-- The items that an object answers to the numbers below its length, if it answers to a list's members. -/
def answeredItems? (v : Value) : Option (List Value) :=
  match v.base with
  | .array _ =>
    match v.member "length" with
    | .number n =>
      some ((List.range (n.truncate?.getD 0).toNat).map fun i => v.member (String.ofList (Nat.toDigits 10 i)))
    | _ => some []
  | _ => none

/-- The text of a date. -/
def dateText : Option Int → String
  | none => "Invalid Date"
  | some moment => Calendar.writeLong moment

/-- What a routine gives back for an object, from the texts of its parts. -/
def perform (text : Value → Attempt String) (routine : Routine) (v : Value) : Attempt Value :=
  match routine, v with
  | .identity, v => .ok v
  | .kindText, v => .ok (.string v.kindText)
  | .listText, .array items => (itemTexts text items).map fun ts => .string (",".intercalate ts)
  | .listText, v =>
    match answeredItems? v with
    | some items => (itemTexts text items).map fun ts => .string (",".intercalate ts)
    | none => .ok (.string v.kindText)
  | .dateText, .date moment => .ok (.string (dateText moment))
  | .dateMoment, .date none => .ok (.number .nan)
  | .dateMoment, .date (some moment) => .ok (.number (.ofInt moment))
  | .dateText, _ | .dateMoment, _ => .error .noDate
  | .errorText, v => (errorText text v).map .string
  | .functionText, .function name _ => .ok (.string (Member.sourceText name))
  | .functionText, _ => .error .noPrimitive
  | _, _ => .ok .undefined

/-- The first scalar that some members of an object give. -/
def scalarFrom (text : Value → Attempt String) (v : Value) : List String → Attempt Value
  | [] => .error .noPrimitive
  | name :: rest =>
    match v.member name with
    | .function _ routine =>
      match perform text routine v with
      | .error f => .error f
      | .ok w => if w.isScalar then .ok w else scalarFrom text v rest
    | _ => scalarFrom text v rest

/-! ## Texts -/

mutual

/-- How deep a value is nested. -/
def height : Value → Nat
  | .raised _ fields => entriesHeight fields + 1
  | .array items => itemsHeight items + 1
  | .object es => entriesHeight es + 1
  | .heir parent es => max (height parent) (entriesHeight es) + 1
  | _ => 0

/-- How deep the items of a list are nested. -/
def itemsHeight : List Value → Nat
  | [] => 0
  | v :: rest => max (height v) (itemsHeight rest)

/-- How deep the values of an object are nested. -/
def entriesHeight : List (String × Value) → Nat
  | [] => 0
  | (_, v) :: rest => max (height v) (entriesHeight rest)

end

/-- The text of a value that is nested less deep than the first argument. -/
def textWithin : Nat → Value → Attempt String
  | 0, _ => .error .endless
  | n + 1, v =>
    if v.isScalar then scalarText v
    else
      match scalarFrom (textWithin n) v ["toString", "valueOf"] with
      | .error f => .error f
      | .ok w => scalarText w

/-- The text of a value. -/
def text (v : Value) : Attempt String :=
  textWithin (v.height + 2) v

/-- The text of a value for display, which symbols have as well. -/
def display : Value → Attempt String
  | .symbol d => .ok ("Symbol(" ++ d ++ ")")
  | v => v.text

/-! ## Numbers -/

/-- The order of a value, taken as a number, and a number; `none` if there is none. -/
def order? (v : Value) (n : Number) : Attempt (Option Ordering) :=
  match if v.isScalar then .ok v else scalarFrom text v ["valueOf", "toString"] with
  | .error f => .error f
  | .ok (.symbol _) => .error .symbolNumber
  | .ok (.number m) => .ok (m.compare? n)
  | .ok (.bigint m) => .ok (Number.compareInt? m n)
  | .ok (.string s) => .ok ((Number.ofText s).compare? n)
  | .ok (.bool b) => .ok ((if b then 1 else 0 : Number).compare? n)
  | .ok .null => .ok ((0 : Number).compare? n)
  | .ok _ => .ok none

/-- Whether a value, taken as a number, is at most a number. -/
def atMost (v : Value) (n : Number) : Attempt Bool :=
  (v.order? n).map fun o => o == some .lt || o == some .eq

/-- Whether a value, taken as a number, is at least a number. -/
def atLeast (v : Value) (n : Number) : Attempt Bool :=
  (v.order? n).map fun o => o == some .gt || o == some .eq

end Gateway.Value

import Gateway.Calendar
import Gateway.Fault
import Gateway.Number.Shortest
import Gateway.Text.Percent
import Gateway.Value.Members

/-!
# Writing JSON

The JSON text of a value, without blanks.  Undefined, functions and symbols have no text: alone they
write nothing, in a list they write `null`, and in an object their key is left out.  A number that is not
finite writes `null`, a date its ISO text, an error without a declared class an empty object.  An object that
answers to `toJSON` with a function is written as what that function gives back.  An integer of unbounded size
cannot be written; that is a fault.
-/

namespace Gateway.Json

/-- The lower-case hexadecimal digit of a value below 16. -/
def hexDigit (n : Nat) : Char :=
  if n < 10 then Char.ofNat (0x30 + n) else Char.ofNat (0x61 + (n - 10))

/-- One character of a string: quotes, backslashes and controls are escaped. -/
def escapeChar (c : Char) : List Char :=
  if c = '"' then ['\\', '"']
  else if c = '\\' then ['\\', '\\']
  else if c = '\n' then ['\\', 'n']
  else if c = '\r' then ['\\', 'r']
  else if c = '\t' then ['\\', 't']
  else if c.toNat = 8 then ['\\', 'b']
  else if c.toNat = 12 then ['\\', 'f']
  else if c.toNat < 0x20 then
    ['\\', 'u', '0', '0', hexDigit (c.toNat / 16), hexDigit (c.toNat % 16)]
  else [c]

/-- A string between quotes. -/
def quote (cs : List Char) : List Char :=
  '"' :: (cs.flatMap escapeChar ++ ['"'])

/-- A string between quotes. -/
def quoteText (s : String) : String :=
  String.ofList (quote s.toList)

/-- A number; `null` if it is not finite. -/
def writeNumber : Number → List Char
  | .nan | .infinity _ => "null".toList
  | n => n.chars

/-- Parts with commas between them. -/
def commas : List (List Char) → List Char
  | [] => []
  | [part] => part
  | part :: rest => part ++ ',' :: commas rest

/-- An object from the texts of its members. -/
def braces (parts : List (List Char)) : List Char :=
  '{' :: (commas parts ++ ['}'])

/-- A list from the texts of its items. -/
def brackets (parts : List (List Char)) : List Char :=
  '[' :: (commas parts ++ [']'])

/-- A member of an object. -/
def memberText (key : String) (value : List Char) : List Char :=
  quote key.toList ++ ':' :: value

/-- How an object is to be written, by what it answers to `toJSON`. -/
inductive Form where
  /-- Entry by entry. -/
  | entries
  /-- Not at all. -/
  | nothing
  | fault (f : Fault)

/-- The form of an object that is no date. -/
def formOf (answer : Value) : Form :=
  match answer with
  | .function _ .dateJson => .fault (.noFunction "toISOString")
  | .function _ .fieldsJson => .entries
  | .function _ _ => .nothing
  | _ => .entries

/-- The form of a raised error: all its fields, unless a field is named `toJSON`. -/
def raisedForm (fields : Entries Value) : Form :=
  match Entries.get? fields "toJSON" with
  | some answer => formOf answer
  | none => .entries

/-- Whether a field of a raised error is written. -/
def writesField (fields : Entries Value) (key : String) (v : Value) : Bool :=
  !Entries.has fields "toJSON" || !Value.isUnlisted key v

mutual

/-- The JSON text of a value, if it has one. -/
def write : Value → Attempt (Option (List Char))
  | .undefined | .function _ _ | .symbol _ => .ok none
  | .null => .ok (some "null".toList)
  | .bool b => .ok (some (if b then "true" else "false").toList)
  | .number n => .ok (some (writeNumber n))
  | .bigint _ => .error .bigintText
  | .string s => .ok (some (quote s.toList))
  | .date none => .ok (some "null".toList)
  | .date (some moment) => .ok (some (quote (Calendar.write moment).toList))
  | .error _ _ => .ok (some (braces []))
  | .raised mark fields =>
    match raisedForm fields with
    | .nothing => .ok none
    | .fault f => .error f
    | .entries =>
      (writeMembers (writesField fields) fields).map fun parts =>
        some (braces (parts ++ [memberText "_tag" (quote mark.tag.toList)]))
  | .array items => (writeItems items).map fun parts => some (brackets parts)
  | .object entries =>
    match formOf ((Value.object entries).member "toJSON") with
    | .nothing => .ok none
    | .fault f => .error f
    | .entries => (writeMembers (fun _ _ => true) entries).map fun parts => some (braces parts)
  | .heir parent entries =>
    match formOf ((Value.heir parent entries).member "toJSON") with
    | .nothing => .ok none
    | .fault f => .error f
    | .entries => (writeMembers (fun _ _ => true) entries).map fun parts => some (braces parts)

/-- The texts of the items of a list. -/
def writeItems : List Value → Attempt (List (List Char))
  | [] => .ok []
  | v :: rest =>
    match write v with
    | .error f => .error f
    | .ok text => (writeItems rest).map (text.getD "null".toList :: ·)

/-- The texts of the members of an object that are shown. -/
def writeMembers (shown : String → Value → Bool) : List (String × Value) → Attempt (List (List Char))
  | [] => .ok []
  | (key, v) :: rest =>
    if shown key v then
      match write v with
      | .error f => .error f
      | .ok none => writeMembers shown rest
      | .ok (some cs) => (writeMembers shown rest).map (memberText key cs :: ·)
    else writeMembers shown rest

end

/-- The JSON text of a value that has one. -/
def text? (v : Value) : Option String :=
  match write v with
  | .ok (some cs) => some (String.ofList cs)
  | _ => none

end Gateway.Json

import Gateway.Schema.Direction
import Gateway.Schema.ErrorClass
import Gateway.Schema.Verdict
import Gateway.Text.Units

/-!
# Converting between the sides of a schema

One walk over a schema and a value serves all directions: reading a wire value (`decode`), checking a
value of the value side (`validate`, `accepts`) and writing such a value for the wire (`encode`).  The walk
is by recursion on the schema; suspended schemas are answered by a function that is tied up afterwards, so
that each statement about the walk is proved for any such function.
-/

namespace Gateway.Schema

/-! ## Scalars -/

/-- Whether a value is a literal; both zeros are one number. -/
def isLiteral : Literal → Value → Bool
  | .null, .null => true
  | .bool a, .bool b => a == b
  | .number a, .number b => a.same b
  | .string a, .string b => a == b
  | _, _ => false

/-- What a value answers to `length`. -/
def lengthOf : Value → Attempt Value
  | .undefined => .error (.noMembers "undefined" "length")
  | .null => .error (.noMembers "null" "length")
  | .string s => .ok (.number (.ofInt (Text.unitLength s)))
  | v => .ok (if v.isScalar then .undefined else v.member "length")

/-- Whether a condition holds.  Lengths and numbers are taken as numbers, whatever the value is. -/
def holds : Filter → Value → Attempt Bool
  | .safeInteger, .number n => .ok n.isSafeInteger
  | .safeInteger, _ => .ok false
  | .nonEmpty, .string s => .ok (1 ≤ Text.unitLength s)
  | .nonEmpty, _ => .ok false
  | .minLength n, v => (lengthOf v).bind (·.atLeast n)
  | .maxLength n, v => (lengthOf v).bind (·.atMost n)
  | .between low high, v =>
    match v.atLeast low with
    | .ok true => v.atMost high
    | answer => answer

/-- The number that a text spells; blank texts spell none. -/
def numberOfText? (s : String) : Option Number :=
  if s = "NaN" then some .nan
  else if Text.trim s = "" then none
  else
    match Number.ofText s with
    | .nan => none
    | n => some n

/-- The integer that a text spells; blank texts spell none. -/
def integerOfText? (s : String) : Option Int :=
  if Text.trim s = "" then none else Number.readInteger? s

/-- The walk at a number written as text. -/
def convertNumberText : Direction → Value → Option Value
  | .decode, .string s => (numberOfText? s).map .number
  | .encode _, .number n => some (.string n.text)
  | .validate _, .number n | .rebuild _, .number n => some (.number n)
  | _, _ => none

/-- The walk at an integer written as text. -/
def convertIntegerText : Direction → Value → Option Value
  | .decode, .string s => (integerOfText? s).map .bigint
  | .encode _, .bigint n => some (.string (String.ofList (Number.intChars n)))
  | .validate _, .bigint n | .rebuild _, .bigint n => some (.bigint n)
  | _, _ => none

/-- The walk at a date written as text. -/
def convertDate : Direction → Value → Option Value
  | .decode, .string s => (Calendar.read? s).map fun m => .date (some m)
  | .encode _, .date (some m) => some (.string (Calendar.write m))
  | .validate _, .date (some m) | .rebuild _, .date (some m) => some (.date (some m))
  | _, _ => none

/-- Whether an object answers with a date's members without being one. -/
def isDateHeir (v : Value) : Bool :=
  match v, v.base with
  | .heir _ _, .date _ => true
  | _, _ => false

/-- The walk at a date, where what only answers like one has no moment. -/
def walkDate (d : Direction) (v : Value) : Verdict Value :=
  if isDateHeir v && d != .decode then .broken .noDate else .ofOption (convertDate d v)

/-- The walk at a trimmed text. -/
def convertTrimmed : Direction → Value → Option Value
  | .decode, .string s => some (.string (Text.trim s))
  | _, .string s => if Text.trim s = s then some (.string s) else none
  | _, _ => none

/-! ## Parts -/

/-- A conversion of values, which may refuse. -/
abbrev Conversion := Value → Verdict Value

/-- The conversion of a list item by item. -/
def convertItems (item : Conversion) : List Value → Verdict (List Value)
  | [] => .accepted []
  | v :: rest =>
    match item v with
    | .accepted w => (convertItems item rest).map (w :: ·)
    | .refused => .refused
    | .broken f => .broken f

/-- The conversion of the values of an object, key by key. -/
def convertEntries (value : Conversion) : Entries Value → Verdict (Entries Value)
  | [] => .accepted []
  | (key, v) :: rest =>
    match value v with
    | .accepted w => (convertEntries value rest).map ((key, w) :: ·)
    | .refused => .refused
    | .broken f => .broken f

/-- A value on which a condition holds. -/
def keepIf (f : Filter) (v : Value) : Verdict Value :=
  Verdict.after (holds f v) fun b => .guarded b v

/-- The conversion of a filtered value.  Writing checks the value first, once for all nested conditions. -/
def convertFiltered (d : Direction) (f : Filter) (check write read : Conversion) : Conversion :=
  fun v =>
    if d.checksFirst then
      if d.isChecked then write v else ((check v).bind (keepIf f)).bind write
    else (read v).bind (keepIf f)

/-- The conversion of the places of a tuple, as far as there are items. -/
def convertPlaces : List (Element Conversion) → List Value → Verdict (List Value)
  | [], _ | _ :: _, [] => .accepted []
  | e :: rest, v :: vs =>
    match e.type v with
    | .accepted w => (convertPlaces rest vs).map (w :: ·)
    | .refused => .refused
    | .broken f => .broken f

/-- The number of places of a tuple that have to be filled. -/
def requiredCount {σ : Type} (elements : List (Element σ)) : Nat :=
  (elements.filter fun e => !e.optional).length

/-- The conversion of the items of a tuple beyond its places. -/
def convertFurther (rest : Option Conversion) (items : List Value) : Verdict (List Value) :=
  match rest with
  | some item => convertItems item items
  | none => .accepted []

/-- The conversion of a tuple: no required place is missing, and there are further items only where a rest
is declared. -/
def convertTuple (elements : List (Element Conversion)) (rest : Option Conversion) : Conversion
  | .array items =>
    if items.length < requiredCount elements then .refused
    else if rest.isNone && elements.length < items.length then .refused
    else
      (convertPlaces elements items).bind fun head =>
        (convertFurther rest (items.drop elements.length)).map fun tail => .array (head ++ tail)
  | _ => .refused

/-- What a field of an object is converted from: its own value, or what the object answers to an absent
required name, usually undefined; `none` for an optional field that stays absent. -/
def fieldSource (v : Value) (name : String) (optional : Bool) : Option Value :=
  match v.own? name with
  | some w => some w
  | none => if optional then none else some (v.inherited name)

/-- The conversion of the fields of an object; if `exact`, a required field has to be present. -/
def convertFields (exact : Bool) : List (Field Conversion) → Value → Verdict (Entries Value)
  | [], _ => .accepted []
  | f :: rest, v =>
    if exact && !f.optional && (v.own? f.name).isNone then .refused
    else
      match fieldSource v f.name f.optional with
      | none => convertFields exact rest v
      | some w =>
        match f.type w with
        | .accepted x => (convertFields exact rest v).map ((f.name, x) :: ·)
        | .refused => .refused
        | .broken fault => .broken fault

/-- The conversion of a struct.  One without fields takes all but null and undefined as it stands. -/
def convertStruct (exact : Bool) (fields : List (Field Conversion)) : Conversion :=
  fun v =>
    if fields.isEmpty then .guarded (!v.isNothing) v
    else if v.isObject then (convertFields exact fields v).map Value.ofEntries
    else .refused

/-- The conversion of an object with any keys. -/
def convertRecord (value : Conversion) : Conversion :=
  fun v => if v.isObject then (convertEntries value v.entries).map Value.ofEntries else .refused

/-- The first success among some members of a union, by position. -/
def firstSuccess (members : List Conversion) (v : Value) : List Nat → Verdict Value
  | [] => .refused
  | i :: rest =>
    match members[i]? with
    | none => firstSuccess members v rest
    | some member => (member v).orElse fun _ => firstSuccess members v rest

/-! ## Error classes -/

/-- What the walk needs to know of an error class. -/
structure ClassWalk where
  className : String
  tag : String
  names : List String
  /-- The fields in the direction of the walk. -/
  fields : List (Field Conversion)
  /-- The fields as they are checked. -/
  validated : Attempt (List (Field Conversion))
  /-- The fields as they are taken over into a new instance. -/
  rebuilt : Attempt (List (Field Conversion))

namespace ClassWalk

/-- The field of the tag, which is the same on both sides. -/
def tagField (c : ClassWalk) : Field Conversion :=
  ⟨"_tag", false, fun v => .guarded (isLiteral (.string c.tag) v) v⟩

/-- The instance with converted entries, the tag among them. -/
def build (c : ClassWalk) (v : Value) : Verdict Value :=
  Verdict.after (ErrorClass.build c.className c.tag c.names (v.entries.filter (·.1 != "_tag"))) .accepted

/-- The instance that is built anew from a value with these fields. -/
def make (c : ClassWalk) (fields : List (Field Conversion)) (v : Value) : Verdict Value :=
  (convertStruct false (fields ++ [c.tagField]) v).bind c.build

/-- Whether a value is an instance of the class itself. -/
def hasInstance (c : ClassWalk) (v : Value) : Bool :=
  match v.base with
  | .raised mark _ => mark.className = c.className
  | _ => false

/-- An instance of the class, or of another one with the same tag whose fields fit. -/
def validate (c : ClassWalk) (v : Value) : Verdict Value :=
  if c.hasInstance v then .accepted v
  else
    match v.base with
    | .raised mark _ =>
      if mark.tag = c.tag then
        Verdict.after c.validated fun fields =>
          (convertStruct true (fields ++ [c.tagField]) v).map fun _ => v
      else .refused
    | _ => .refused

/-- A value as an instance of the class. -/
def rebuild (c : ClassWalk) (v : Value) : Verdict Value :=
  if c.hasInstance v then .accepted v
  else Verdict.after c.rebuilt fun fields => c.make fields v

/-- The conversion of an error class: its instances are values, and their fields with the tag at the end go on
the wire. -/
def convert (c : ClassWalk) (d : Direction) : Conversion :=
  match d with
  | .decode => c.make c.fields
  | .validate _ => c.validate
  | .rebuild _ => c.rebuild
  | .encode _ => fun v => (c.rebuild v).bind (convertStruct false (c.fields ++ [c.tagField]))

end ClassWalk

/-! ## The walk -/

/-- How suspended schemas are answered. -/
abbrev Follow := Direction → String → Conversion

mutual

/-- The walk over a schema. -/
def convert (defs : Definitions) (follow : Follow) (d : Direction) : Schema → Conversion
  | .string => fun v => match v with | .string _ => .accepted v | _ => .refused
  | .number => fun v => match v with | .number _ => .accepted v | _ => .refused
  | .boolean => fun v => match v with | .bool _ => .accepted v | _ => .refused
  | .bigint => fun v => match v with | .bigint _ => .accepted v | _ => .refused
  | .undefined => fun v => match v with | .undefined => .accepted v | _ => .refused
  | .void | .unknown | .any => .accepted
  | .never => fun _ => .refused
  | .literal l => fun v => .guarded (isLiteral l v) v
  | .numberFromString => fun v => .ofOption (convertNumberText d v)
  | .bigintFromString => fun v => .ofOption (convertIntegerText d v)
  | .date => walkDate d
  | .trim => fun v => .ofOption (convertTrimmed d v)
  | .filtered of f =>
    convertFiltered d f (convert defs follow (.validate false) of) (convert defs follow d.checked of)
      (convert defs follow d of)
  | .tuple elements rest =>
    convertTuple (convertElements defs follow d.inner elements) (convertRest defs follow d.inner rest)
  | .struct _ fields => convertStruct d.isExact (convertFieldTypes defs follow d.inner fields)
  | .record values => convertRecord (convert defs follow d.inner values)
  | .union members => fun v =>
    Verdict.after (candidates defs d.side members v) fun positions =>
      firstSuccess (convertMembers defs follow d.inner members) v positions
  | .suspend name => follow d.inner name
  | .errorClass className tag fields =>
    ClassWalk.convert
      { className
        tag
        names := fields.map (·.name)
        fields := convertFieldTypes defs follow d.inner fields
        validated :=
          (prepareFields defs (.validate true) fields).map fun _ =>
            convertFieldTypes defs follow (.validate true) fields
        rebuilt :=
          (prepareFields defs (.rebuild false) fields).map fun _ =>
            convertFieldTypes defs follow (.rebuild false) fields }
      d

/-- The walks over the places of a tuple. -/
def convertElements (defs : Definitions) (follow : Follow) (d : Direction) :
    List (Element Schema) → List (Element Conversion)
  | [] => []
  | ⟨optional, type⟩ :: rest =>
    ⟨optional, convert defs follow d type⟩ :: convertElements defs follow d rest

/-- The walk over the further items of a tuple. -/
def convertRest (defs : Definitions) (follow : Follow) (d : Direction) :
    Option Schema → Option Conversion
  | none => none
  | some s => some (convert defs follow d s)

/-- The walks over the fields of a struct. -/
def convertFieldTypes (defs : Definitions) (follow : Follow) (d : Direction) :
    List (Field Schema) → List (Field Conversion)
  | [] => []
  | ⟨name, optional, type⟩ :: rest =>
    ⟨name, optional, convert defs follow d type⟩ :: convertFieldTypes defs follow d rest

/-- The walks over the members of a union. -/
def convertMembers (defs : Definitions) (follow : Follow) (d : Direction) :
    List Schema → List Conversion
  | [] => []
  | s :: rest => convert defs follow d s :: convertMembers defs follow d rest

end

/-- The walk over a schema, once it is prepared. -/
def walk (defs : Definitions) (follow : Follow) (d : Direction) (s : Schema) : Conversion :=
  fun v => Verdict.after (prepare defs d s) fun _ => convert defs follow d s v

/-- The answer for suspended schemas that follows at most so many definitions in one branch. -/
def followTo (defs : Definitions) : Nat → Follow
  | 0 => fun _ _ _ => .broken .endless
  | n + 1 => fun d name v => Verdict.after (target defs name) fun s => walk defs (followTo defs n) d s v

/-- How many definitions are followed in one branch.  A branch that follows more than there are without going into
a part of the value comes back to one of them, and never ends. -/
def followBound (defs : Definitions) (v : Value) : Nat :=
  (defs.length + 1) * (v.height + 3)

/-- The walk over a schema with its definitions. -/
def run (defs : Definitions) (d : Direction) (s : Schema) (v : Value) : Verdict Value :=
  walk defs (followTo defs (followBound defs v)) d s v

/-- Reads a wire value. -/
def decode (defs : Definitions) (s : Schema) (v : Value) : Verdict Value :=
  run defs .decode s v

/-- Writes a value for the wire. -/
def encode (defs : Definitions) (s : Schema) (v : Value) : Verdict Value :=
  run defs (.encode false) s v

/-- Checks a value on the value side and drops what the schema does not name. -/
def validate (defs : Definitions) (s : Schema) (v : Value) : Verdict Value :=
  run defs (.validate false) s v

/-- Whether a value is one of the schema's value side. -/
def accepts (defs : Definitions) (s : Schema) (v : Value) : Attempt Bool :=
  match run defs (.validate true) s v with
  | .accepted _ => .ok true
  | .refused => .ok false
  | .broken f => .error f

end Gateway.Schema

import Gateway.Schema.Check
import Gateway.Value.Text

/-!
# Choosing the members of a union

A member of a union is *tagged* when it is a struct with required fields of one literal each, a tuple with such
places, or an error class.  A tagged member is filed under one of its literals: the first whose field and text
have no member filed yet, else the last.  A value is tried only against the members filed under a literal that
it shows, field by field, and then against all members without a tag.  A field that every object answers to
cannot be filed under, and the text `__proto__` is never found again.
-/

namespace Gateway

/-- Which of a schema's two sides a literal is looked up on. -/
inductive Side where
  | wire
  | value
  deriving DecidableEq, Repr

namespace Fault

/-- The fault of a field that members of a union cannot be filed under. -/
def unfilable : Fault := ⟨.type, "Cannot convert undefined or null to object"⟩

end Fault

namespace Schema

/-- The text under which a literal is filed. -/
def tagText : Literal → String
  | .null => "null"
  | .bool b => if b then "true" else "false"
  | .number n => n.text
  | .string s => s

/-- The one literal that a schema admits on a side.  On the value side a condition hides it. -/
def soleLiteral? (side : Side) : Schema → Option Literal
  | .literal l => some l
  | .filtered of _ => if side = .wire then soleLiteral? side of else none
  | _ => none

/-- The literals of the required fields of a struct. -/
def fieldTags (side : Side) (fields : List (Field Schema)) : List (String × String) :=
  fields.filterMap fun f =>
    if f.optional then none else (soleLiteral? side f.type).map fun l => (f.name, tagText l)

/-- The literals of the required places of a tuple, under their positions. -/
def elementTags (side : Side) (elements : List (Element Schema)) : List (String × String) :=
  ((List.range elements.length).zip elements).filterMap fun (i, e) =>
    if e.optional then none
    else (soleLiteral? side e.type).map fun l => (String.ofList (Nat.toDigits 10 i), tagText l)

/-- The literals that mark a member, following at most so many conditions and definitions. -/
def tagsWithin (defs : Definitions) (side : Side) : Nat → Schema → Attempt (List (String × String))
  | 0, _ => .error .endless
  | n + 1, s =>
    match s with
    | .struct _ fields => .ok (fieldTags side fields)
    | .tuple elements _ => .ok (elementTags side elements)
    | .errorClass _ tag fields => .ok (fieldTags side fields ++ [("_tag", tag)])
    | .filtered of _ => tagsWithin defs side n of
    | .suspend name =>
      match target defs name with
      | .ok s => tagsWithin defs side n s
      | .error f => .error f
    | _ => .ok []

/-- The literals that mark a member of a union. -/
def tags (defs : Definitions) (side : Side) (s : Schema) : Attempt (List (String × String)) :=
  tagsWithin defs side followLimit s

/-- Where the members of a union are filed: by field, then by the text of the literal. -/
structure Filing where
  tagged : Entries (Entries (List Nat)) := []
  untagged : List Nat := []
  deriving Repr

namespace Filing

/-- The texts and members filed under a field. -/
def buckets (filing : Filing) (field : String) : Entries (List Nat) :=
  (Entries.get? filing.tagged field).getD []

/-- The members filed under a literal of a field. -/
def under (filing : Filing) (field text : String) : List Nat :=
  (Entries.get? (filing.buckets field) text).getD []

/-- Adds a member under a literal of a field; under the reserved text it is lost. -/
def add (filing : Filing) (field text : String) (member : Nat) : Filing :=
  { filing with
    tagged := Entries.set filing.tagged field
      (if text = Entries.reservedKey then filing.buckets field
        else Entries.set (filing.buckets field) text (filing.under field text ++ [member])) }

/-- Files a member under the first of its literals that is free, else under the last. -/
def fileTagged (filing : Filing) (member : Nat) : List (String × String) → Attempt Filing
  | [] => .ok filing
  | (field, text) :: rest =>
    if Member.find field != .absent then .error .unfilable
    else if rest.isEmpty || (filing.under field text).isEmpty then .ok (filing.add field text member)
    else fileTagged filing member rest

/-- Files a member of a union. -/
def file (filing : Filing) (member : Nat) (tags : List (String × String)) : Attempt Filing :=
  if tags.isEmpty then .ok { filing with untagged := filing.untagged ++ [member] }
  else filing.fileTagged member tags

/-- Files the members of a union from a position on. -/
def fileAll (defs : Definitions) (side : Side) (filing : Filing) (position : Nat) :
    List Schema → Attempt Filing
  | [] => .ok filing
  | s :: rest =>
    match tags defs side s with
    | .error f => .error f
    | .ok ts =>
      match filing.file position ts with
      | .error f => .error f
      | .ok next => fileAll defs side next (position + 1) rest

/-- The filing of all members of a union. -/
def ofMembers (defs : Definitions) (side : Side) (members : List Schema) : Attempt Filing :=
  fileAll defs side {} 0 members

/-- The members filed under the literals that a value shows, field by field. -/
def shown (v : Value) : Entries (Entries (List Nat)) → Attempt (List Nat)
  | [] => .ok []
  | (field, buckets) :: rest =>
    match v.own? field with
    | none => shown v rest
    | some w =>
      match w.display with
      | .error f => .error f
      | .ok text => (shown v rest).map ((Entries.get? buckets text).getD [] ++ ·)

/-- The members to try for a value, in order. -/
def candidates (filing : Filing) (v : Value) : Attempt (List Nat) :=
  if v.isComposite then
    (shown v (Entries.arrange filing.tagged)).map (· ++ filing.untagged)
  else .ok filing.untagged

end Filing

/-- The positions of the members of a union to try for a value, in order. -/
def candidates (defs : Definitions) (side : Side) (members : List Schema) (v : Value) :
    Attempt (List Nat) :=
  (Filing.ofMembers defs side members).bind fun filing => filing.candidates v

end Schema

end Gateway

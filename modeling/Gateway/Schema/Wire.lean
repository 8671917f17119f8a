import Gateway.Schema.Check

/-!
# What the wire side admits

`isOptional`: a value may be left out, because the wire side admits null or undefined.  `isList`: the wire
side is a list.  Both look through unions, suspended schemas and conditions only.  A schema that leads back to
itself through these alone has no answer; `isOptional?` and `isList?` say so.
-/

namespace Gateway.Schema

/-- A suspended schema's answer to a question, following at most so many definitions. -/
def followWith (defs : Definitions) (ask : (String → Attempt Bool) → Schema → Attempt Bool) :
    Nat → String → Attempt Bool
  | 0, _ => .error .endless
  | n + 1, name =>
    match target defs name with
    | .error f => .error f
    | .ok s => ask (followWith defs ask n) s

mutual

/-- Whether the wire side admits null or undefined, given the answer for suspended schemas. -/
def admitsNothing (follow : String → Attempt Bool) : Schema → Attempt Bool
  | .literal .null | .void | .undefined | .unknown | .any => .ok true
  | .filtered of _ => admitsNothing follow of
  | .union members => anyAdmitsNothing follow members
  | .suspend name => follow name
  | _ => .ok false

/-- Whether some member of a union admits null or undefined. -/
def anyAdmitsNothing (follow : String → Attempt Bool) : List Schema → Attempt Bool
  | [] => .ok false
  | s :: rest =>
    match admitsNothing follow s with
    | .ok false => anyAdmitsNothing follow rest
    | answer => answer

end

mutual

/-- Whether the wire side is a list, given the answer for suspended schemas. -/
def admitsList (follow : String → Attempt Bool) : Schema → Attempt Bool
  | .tuple _ _ => .ok true
  | .filtered of _ => admitsList follow of
  | .union members => anyAdmitsList follow members
  | .suspend name => follow name
  | _ => .ok false

/-- Whether some member of a union is a list. -/
def anyAdmitsList (follow : String → Attempt Bool) : List Schema → Attempt Bool
  | [] => .ok false
  | s :: rest =>
    match admitsList follow s with
    | .ok false => anyAdmitsList follow rest
    | answer => answer

end

/-- Whether a value of this schema may be left out.  A branch that follows more definitions than there are comes
back to one of them, and never ends. -/
def isOptional? (defs : Definitions) (s : Schema) : Attempt Bool :=
  admitsNothing (followWith defs admitsNothing (defs.length + 1)) s

/-- Whether a value of this schema is a list on the wire. -/
def isList? (defs : Definitions) (s : Schema) : Attempt Bool :=
  admitsList (followWith defs admitsList (defs.length + 1)) s

/-- Whether a value of this schema may be left out; not if there is no answer. -/
def isOptional (defs : Definitions) (s : Schema) : Bool :=
  (isOptional? defs s).toOption.getD false

/-- Whether a value of this schema is a list on the wire; not if there is no answer. -/
def isList (defs : Definitions) (s : Schema) : Bool :=
  (isList? defs s).toOption.getD false

end Gateway.Schema

import Gateway.Construction
import Gateway.Text.Split

/-!
# URI templates

A template is a path with placeholders in braces, and optionally a query clause of pairs of a key and a
placeholder.  Names of placeholders are compared with `-` read as `_`; `compile` refuses a template in which a
name occurs twice or a piece of the query clause is no such pair.
-/

namespace Gateway

/-- A placeholder name as it is compared: hyphens are underscores. -/
def normalizeName (name : String) : String :=
  String.ofList (name.toList.map fun c => if c = '-' then '_' else c)

/-- What is wrong with a template. -/
inductive TemplateFault where
  | duplicateVariable (name : String)
  | malformedClause (clause : String)
  /-- The template names the root resource, which is reserved. -/
  | rootResource
  /-- Required parameters of the procedure that no placeholder provides. -/
  | unsatisfied (procedure : String) (names : List String)
  deriving DecidableEq, Repr

/-- A template that was refused. -/
structure TemplateError where
  template : String
  fault : TemplateFault
  deriving DecidableEq, Repr

/-- Why a template was refused. -/
def TemplateFault.reason : TemplateFault → String
  | .duplicateVariable name => "every variable must not be duplicated: " ++ name
  | .malformedClause clause =>
    "malformed query clause \"" ++ clause ++ "\"; expected key=\x7bvariable\x7d"
  | .rootResource => "the root resource is reserved"
  | .unsatisfied procedure names =>
    procedure ++ " has parameters not satisfied by the template: " ++ ", ".intercalate names

/-- A path with placeholders: the literal before the first, and each placeholder with the literal after
it. -/
structure PathPattern where
  lead : String
  gaps : List (String × String)
  deriving DecidableEq, Repr

/-- A pair of a query clause: the key and the placeholder it fills. -/
structure QueryPair where
  key : String
  name : String
  deriving DecidableEq, Repr

/-- A compiled template. -/
structure Template where
  text : String
  path : PathPattern
  query : List QueryPair
  deriving DecidableEq, Repr

namespace Template

/-- A character of a placeholder name or a query key. -/
def isNameChar (c : Char) : Bool :=
  ('a' ≤ c && c ≤ 'z') || ('A' ≤ c && c ≤ 'Z') || ('0' ≤ c && c ≤ '9') || c == '_' || c == '-'

/-- The name and the rest of a placeholder after its opening brace. -/
def placeholder? (cs : List Char) : Option (List Char × List Char) :=
  match cs.takeWhile isNameChar, cs.dropWhile isNameChar with
  | c :: name, '}' :: rest => some (c :: name, rest)
  | _, _ => none

/-- The lead literal of a path and its placeholders with their literals.  A name holds no brace, so
placeholders never overlap and can be read from the right. -/
def scanPath : List Char → List Char × List (List Char × List Char)
  | [] => ([], [])
  | c :: rest =>
    let (lead, gaps) := scanPath rest
    match if c = '{' then placeholder? lead else none with
    | some (name, after) => ([], (name, after) :: gaps)
    | none => (c :: lead, gaps)

/-- The path pattern of a path text. -/
def PathPattern.ofChars (cs : List Char) : PathPattern :=
  let (lead, gaps) := scanPath cs
  ⟨String.ofList lead, gaps.map fun (name, after) => (String.ofList name, String.ofList after)⟩

/-- The pair that a piece of the query clause spells. -/
def queryPair? (piece : List Char) : Option QueryPair :=
  match piece.takeWhile isNameChar, piece.dropWhile isNameChar with
  | k :: key, '=' :: '{' :: rest =>
    match placeholder? rest with
    | some (name, []) => some ⟨String.ofList (k :: key), String.ofList name⟩
    | _ => none
  | _, _ => none

/-- The text before the first question mark, and what follows it. -/
def splitQuery (text : String) : List Char × Option (List Char) :=
  Text.splitFirst (· == '?') text.toList

/-- The non-empty pieces of a query clause. -/
def clausePieces (clause : Option (List Char)) : List (List Char) :=
  match clause with
  | none => []
  | some cs => (Text.splitWhere (· == '&') cs).filter fun piece => !piece.isEmpty

/-- Adds the names of a path to those seen, unless one occurs twice. -/
def addNames (seen : List String) : List String → Except TemplateFault (List String)
  | [] => .ok seen
  | raw :: rest =>
    if seen.contains (normalizeName raw) then .error (.duplicateVariable (normalizeName raw))
    else addNames (seen ++ [normalizeName raw]) rest

/-- The pairs of a query clause, unless a piece is malformed or a name was seen. -/
def addPairs (seen : List String) : List (List Char) → Except TemplateFault (List QueryPair)
  | [] => .ok []
  | piece :: rest =>
    match queryPair? piece with
    | none => .error (.malformedClause (String.ofList piece))
    | some pair =>
      if seen.contains (normalizeName pair.name) then
        .error (.duplicateVariable (normalizeName pair.name))
      else
        match addPairs (seen ++ [normalizeName pair.name]) rest with
        | .ok pairs => .ok (pair :: pairs)
        | .error fault => .error fault

/-- The names of the path, as written. -/
def PathPattern.variables (p : PathPattern) : List String :=
  p.gaps.map (·.1)

/-- Compiles a template.  The path's names are checked before the query clause. -/
def compile (text : String) : Except TemplateError Template :=
  let (pathChars, clause) := splitQuery text
  let path := PathPattern.ofChars pathChars
  match addNames [] (PathPattern.variables path) with
  | .error fault => .error ⟨text, fault⟩
  | .ok seen =>
    match addPairs seen (clausePieces clause) with
    | .error fault => .error ⟨text, fault⟩
    | .ok query => .ok ⟨text, path, query⟩

/-- The names of all placeholders as they are compared, path first. -/
def names (t : Template) : List String :=
  (t.path.gaps.map fun g => normalizeName g.1) ++ t.query.map fun p => normalizeName p.name

end Template

/-- The message of a refused template. -/
def TemplateError.message (e : TemplateError) : String :=
  ConstructionKind.templateMessage e.template e.fault.reason

end Gateway

import Gateway.Service.Basic
import Gateway.Template.Match
import Gateway.Text.Units

/-!
# The route table

Rules are kept in one order: more placeholders first, and of as many the greater template text first, unit by
unit.  A look-up collects the verbs of all rules whose template matches, and selects the first of them with the
request's method; `OPTIONS` takes the first matching rule of any verb.  The root path is never routed.
-/

namespace Gateway

/-- A procedure's URI template and verb. -/
structure Rule where
  template : Template
  verb : String
  /-- The public name of the procedure. -/
  procedure : String
  deriving DecidableEq, Repr

namespace Rule

/-- The order of rules. -/
def compare (a b : Rule) : Ordering :=
  match Ord.compare b.template.names.length a.template.names.length with
  | .eq =>
    if a.template.text = b.template.text then .eq
    else if Text.unitsBefore b.template.text a.template.text then .lt
    else .gt
  | order => order

/-- Whether the first rule may stand before the second. -/
def precedes (a b : Rule) : Bool :=
  compare a b != .gt

end Rule

/-- The rule selected for a request, with what its placeholders captured. -/
structure RouteMatch where
  rule : Rule
  captures : Captures
  deriving DecidableEq, Repr

/-- What a look-up finds: the selected rule, and the verbs of all matching rules without repeats. -/
structure RouteLookup where
  selected : Option RouteMatch
  allowedVerbs : List String
  deriving DecidableEq, Repr

/-- Rules in table order. -/
structure RouteTable where
  rules : List Rule
  deriving DecidableEq, Repr

namespace RouteTable

/-- The table of a list of rules. -/
def ofRules (rules : List Rule) : RouteTable :=
  ⟨rules.mergeSort Rule.precedes⟩

/-- Whether a path names the root resource. -/
def isRoot (path : String) : Bool :=
  path == "" || path == "/"

/-- Takes one more rule into account. -/
def consider (method path query : String) (found : RouteLookup) (rule : Rule) : RouteLookup :=
  match rule.template.match? path query with
  | none => found
  | some captures =>
    { selected :=
        match found.selected with
        | some m => some m
        | none => if method = rule.verb ∨ method = "OPTIONS" then some ⟨rule, captures⟩ else none
      allowedVerbs :=
        if found.allowedVerbs.contains rule.verb then found.allowedVerbs
        else found.allowedVerbs ++ [rule.verb] }

/-- Looks a request up. -/
def lookup (table : RouteTable) (method path query : String) : RouteLookup :=
  if isRoot path then ⟨none, []⟩
  else table.rules.foldl (consider method path query) ⟨none, []⟩

/-- The normalized wire names of the required parameters that a template does not provide. -/
def unsatisfied (defs : Definitions) (parameters : List Parameter) (t : Template) : List String :=
  ((parameters.filter fun p => !p.isOptional defs).map fun p => normalizeName p.wireName).filter
    fun name => !t.names.contains name

/-- The rule of a procedure that has a resource. -/
def ruleOf (defs : Definitions) (p : Procedure) (r : Resource) : Except TemplateError Rule :=
  if isRoot (String.ofList (Template.splitQuery r.path).1) then .error ⟨r.path, .rootResource⟩
  else
    match Template.compile r.path with
    | .error e => .error e
    | .ok template =>
      match unsatisfied defs p.parameters template with
      | [] => .ok ⟨template, r.verb, p.wireName⟩
      | names => .error ⟨r.path, .unsatisfied p.wireName names⟩

/-- The rules of a list of procedures, or the first fault. -/
def rulesOf (defs : Definitions) : List Procedure → Except TemplateError (List Rule)
  | [] => .ok []
  | p :: rest =>
    match p.resource with
    | none => rulesOf defs rest
    | some r =>
      match ruleOf defs p r with
      | .error e => .error e
      | .ok rule =>
        match rulesOf defs rest with
        | .ok rules => .ok (rule :: rules)
        | .error e => .error e

/-- The table of a service. -/
def ofService (s : Service) : Except TemplateError RouteTable :=
  match rulesOf s.definitions s.procedures with
  | .ok rules => .ok (ofRules rules)
  | .error e => .error e

end RouteTable

end Gateway

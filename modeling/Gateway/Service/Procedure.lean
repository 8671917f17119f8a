import Gateway.Schema.Describe
import Gateway.Schema.Wire
import Gateway.Text.Case

/-!
# Procedures

A `Definition` is built up step by step from `Definition.empty`; each step gives a new definition and leaves
the one before as it was.  A `Procedure` is a definition under its name in a service.
-/

namespace Gateway

/-- A parameter of a procedure. -/
structure Parameter where
  /-- The name of the argument that the handler sees. -/
  name : String
  /-- The name in bodies and templates. -/
  wireName : String
  schema : Schema
  deriving Repr

namespace Parameter

/-- Whether the parameter may be left out. -/
def isOptional (defs : Definitions) (p : Parameter) : Bool :=
  p.schema.isOptional defs

/-- Whether the parameter is a list on the wire. -/
def isList (defs : Definitions) (p : Parameter) : Bool :=
  p.schema.isList defs

end Parameter

/-- The verb and the URI template under which a procedure is reached. -/
structure Resource where
  verb : String
  path : String
  deriving DecidableEq, Repr

/-- A procedure before it has a name in a service. -/
structure Definition where
  wireName : Option String
  description : Option String
  parameters : List Parameter
  returns : Schema
  errors : List Schema
  resource : Option Resource
  deriving Repr

namespace Definition

/-- The definition that all others are built from: no parameters, and nothing to return. -/
def empty : Definition := ⟨none, none, [], .void, [], none⟩

/-- Adds a parameter; its wire name is its name unless another is given.  A schema that does not say whether it
is optional or a list is a fault. -/
def param (defs : Definitions) (d : Definition) (name : String) (schema : Schema) (wireName : Option String) :
    Attempt Definition :=
  match schema.isOptional? defs, schema.isList? defs with
  | .error f, _ | .ok _, .error f => .error f
  | .ok _, .ok _ => .ok { d with parameters := d.parameters ++ [⟨name, wireName.getD name, schema⟩] }

/-- Sets what the procedure returns. -/
def returning (d : Definition) (schema : Schema) : Definition :=
  { d with returns := schema }

/-- Adds declared errors. -/
def failing (d : Definition) (errors : List Schema) : Definition :=
  { d with errors := d.errors ++ errors }

/-- Sets the resource; the verb is kept in upper case. -/
def routed (d : Definition) (verb path : String) : Definition :=
  { d with resource := some ⟨Text.upper verb, path⟩ }

/-- Sets the public name. -/
def named (d : Definition) (wireName : String) : Definition :=
  { d with wireName := some wireName }

/-- Sets the description. -/
def described (d : Definition) (description : String) : Definition :=
  { d with description := some description }

end Definition

/-- A procedure of a service. -/
structure Procedure where
  /-- The name in the service. -/
  name : String
  /-- The public name. -/
  wireName : String
  description : Option String
  parameters : List Parameter
  returns : Schema
  errors : List Schema
  resource : Option Resource
  deriving Repr

/-- The procedure of a definition under a name; the name is also the public one unless another is given. -/
def Procedure.ofDefinition (name : String) (d : Definition) : Procedure :=
  ⟨name, d.wireName.getD name, d.description, d.parameters, d.returns, d.errors, d.resource⟩

end Gateway

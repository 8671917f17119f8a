/-!
# Faults

A fault is what stops a computation that has no answer of its own for it: a value that cannot be converted, a
schema that does not end, fields that do not fit.  It has a kind and a message.
-/

namespace Gateway

/-- The kinds of faults. -/
inductive FaultKind where
  | error
  | type
  | range
  | parse
  deriving DecidableEq, Repr

/-- The name that a kind goes by. -/
def FaultKind.name : FaultKind → String
  | .error => "Error"
  | .type => "TypeError"
  | .range => "RangeError"
  | .parse => "ParseError"

/-- What stopped a computation. -/
structure Fault where
  kind : FaultKind
  message : String
  deriving DecidableEq, Repr

/-- The name that a fault goes by. -/
def Fault.name (f : Fault) : String :=
  f.kind.name

namespace Fault

/-- The fault of a symbol where a text is asked for. -/
def symbolText : Fault := ⟨.type, "Cannot convert a Symbol value to a string"⟩

/-- The fault of a symbol where a number is asked for. -/
def symbolNumber : Fault := ⟨.type, "Cannot convert a Symbol value to a number"⟩

/-- The fault of an object without a text or a number of its own. -/
def noPrimitive : Fault := ⟨.type, "Cannot convert object to primitive value"⟩

/-- The fault of a date function on what is no date. -/
def noDate : Fault := ⟨.type, "this is not a Date object."⟩

/-- The fault of a member that is asked of null or undefined. -/
def noMembers (v key : String) : Fault :=
  ⟨.type, "Cannot read properties of " ++ v ++ " (reading '" ++ key ++ "')"⟩

/-- The fault of an integer of unbounded size that is to be written as JSON. -/
def bigintText : Fault := ⟨.type, "Do not know how to serialize a BigInt"⟩

/-- The fault of a function that an object lacks. -/
def noFunction (name : String) : Fault := ⟨.type, name ++ " is not a function"⟩

/-- The fault of bytes that are written beyond the end of a buffer. -/
def outOfBounds : Fault := ⟨.range, "offset is out of bounds"⟩

/-- The fault of a recursion that does not end. -/
def endless : Fault := ⟨.range, "Maximum call stack size exceeded"⟩

end Fault

/-- The outcome of a computation that a fault may stop. -/
abbrev Attempt := Except Fault

end Gateway

import Gateway.Text.Case

/-!
# Header lists

A header list keeps its names and values in order.  Names are compared without regard to case.  Merging adds
the value of a listed name to its first entry, after a comma, and appends the others.
-/

namespace Gateway

/-- Header names and values, in order. -/
abbrev Headers := List (String × String)

namespace Headers

/-- Whether two names are one header. -/
def sameName (a b : String) : Bool :=
  Text.lower a == Text.lower b

/-- The value of a header. -/
def get? (headers : Headers) (name : String) : Option String :=
  (headers.find? fun h => sameName h.1 name).map (·.2)

/-- Adds a header: to the first entry of its name, or at the end. -/
def add (name value : String) : Headers → Headers
  | [] => [(name, value)]
  | h :: rest =>
    if sameName h.1 name then (h.1, h.2 ++ ", " ++ value) :: rest else h :: add name value rest

/-- Adds headers one after the other. -/
def merge (base extra : Headers) : Headers :=
  extra.foldl (fun merged h => add h.1 h.2 merged) base

end Headers

end Gateway

import Gateway.Schema.Convert

/-!
# Raising declared errors

`raise` checks the fields given to it and builds the instance; fields that are not declared are dropped.
-/

namespace Gateway

namespace Fault

/-- The fault of fields that do not fit an error class. -/
def unfitFields (tag : String) : Fault := ⟨.parse, tag ++ " (Constructor)"⟩

end Fault

namespace ErrorClass

/-- The instance with the given fields, if they fit the declared ones. -/
def raise (defs : Definitions) (c : ErrorClass) (given : Entries Value) : Attempt Value :=
  let fields := given.filter (·.1 != "_tag") ++ [("_tag", .string c.tag)]
  match c.schema.check with
  | .error f => .error f
  | .ok _ =>
    match Schema.validate defs (.struct none (c.fields ++ [tagField c.tag])) (.object fields) with
    | .broken f => .error f
    | .refused => .error (.unfitFields c.tag)
    | .accepted v =>
      build c.className c.tag (c.fields.map (·.name)) (v.entries.filter (·.1 != "_tag"))

end ErrorClass

end Gateway

import Gateway.Number.Basic
import Gateway.Text.Units

/-!
# Values in the log

What a record shows is data: of all values only undefined, the values of JSON, and lists and objects of these.  A text
is kept in UTF-16 units, because a cut may go through a surrogate pair.
-/

namespace Gateway

/-- A value that a record shows. -/
inductive LogValue where
  | undefined
  | null
  | bool (b : Bool)
  | number (n : Number)
  | text (units : List UInt16)
  | array (items : List LogValue)
  | object (entries : List (String × LogValue))
  deriving Inhabited, Repr

/-- A text as it is shown. -/
def LogValue.ofText (s : String) : LogValue :=
  .text (Text.units s)

end Gateway

import Gateway.Text.Percent
import Gateway.Text.Split

/-!
# Form-encoded queries

A query as a list of pairs: pieces between `&`, each cut at its first `=`, with `+` for a space, broken escapes
kept and bytes that are no UTF-8 replaced.  One leading question mark is skipped.
-/

namespace Gateway.Form

/-- The text of one side of a pair. -/
def decodeText (cs : List Char) : String :=
  Text.Percent.decodeLenient (String.ofList (cs.map fun c => if c = '+' then ' ' else c))

/-- The pair that a piece spells. -/
def pairOf (piece : List Char) : String × String :=
  let (name, value) := Text.splitFirst (· == '=') piece
  (decodeText name, decodeText (value.getD []))

/-- A query without one leading question mark. -/
def skipMark : List Char → List Char
  | '?' :: rest => rest
  | cs => cs

/-- The pairs of a query, in order. -/
def pairs (query : String) : List (String × String) :=
  ((Text.splitWhere (· == '&') (skipMark query.toList)).filter fun piece => !piece.isEmpty).map pairOf

/-- The value of the first pair of a name. -/
def first? (query name : String) : Option String :=
  (pairs query).lookup name

end Gateway.Form

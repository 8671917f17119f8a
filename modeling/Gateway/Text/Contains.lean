/-!
# Texts inside texts
-/

namespace Gateway.Text

/-- Whether a list of characters holds another one as a consecutive part. -/
def containsChars (needle : List Char) : List Char → Bool
  | [] => needle.isEmpty
  | c :: cs => needle.isPrefixOf (c :: cs) || containsChars needle cs

/-- Whether a text holds another one. -/
def contains (needle s : String) : Bool :=
  containsChars needle.toList s.toList

end Gateway.Text

/-!
# Splitting text

`splitWhere` cuts a list at every symbol of a class; joining the pieces with the symbols gives the list
back.  `splitFirst` cuts at the first one only.
-/

namespace Gateway.Text

variable {α : Type}

/-- The pieces between the separators, `piece` being what stands before the input, last symbol first. -/
def splitWhereFrom (isSeparator : α → Bool) (piece : List α) : List α → List (List α)
  | [] => [piece.reverse]
  | c :: rest =>
    if isSeparator c then piece.reverse :: splitWhereFrom isSeparator [] rest
    else splitWhereFrom isSeparator (c :: piece) rest

/-- The pieces between the separators; one more than there are separators. -/
def splitWhere (isSeparator : α → Bool) (input : List α) : List (List α) :=
  splitWhereFrom isSeparator [] input

/-- The pieces of a text between the occurrences of a character. -/
def splitText (separator : Char) (s : String) : List String :=
  (splitWhere (· == separator) s.toList).map String.ofList

/-- What stands before and after the first separator; nothing stands after if there is none. -/
def splitFirst (isSeparator : α → Bool) (input : List α) : List α × Option (List α) :=
  let before := input.takeWhile fun c => !isSeparator c
  match input.dropWhile fun c => !isSeparator c with
  | [] => (before, none)
  | _ :: after => (before, some after)

end Gateway.Text

import Gateway.Log.LogValue
import Gateway.Number.Arithmetic
import Gateway.Number.Shortest
import Gateway.Text.Case
import Gateway.Text.Contains
import Gateway.Value.Basic

/-!
# Redaction

What the log may show of a value.  A value at the depth limit is replaced as a whole, the value of a sensitive
key is replaced whatever it is, long texts and long lists are cut, and what is no JSON is shown as a text.
Errors and dates are shown as objects without entries.
-/

namespace Gateway

/-- What redaction replaces and cuts. -/
structure Redaction where
  /-- A key is sensitive if it holds one of these texts, without regard to case. -/
  fields : List String
  maxDepth : Number
  /-- The greatest length of a text in UTF-16 units; a negative one counts from the end. -/
  maxStringLength : Number
  deriving DecidableEq, Repr

namespace Redaction

/-- What stands for a value at the depth limit. -/
def tooDeep : LogValue := .ofText "[MAX_DEPTH]"

/-- What stands for the value of a sensitive key. -/
def hidden : LogValue := .ofText "[REDACTED]"

/-- The length above which a list is cut. -/
def longestList : Nat := 100

/-- The number of items that are left of a list that is cut. -/
def shownItems : Nat := 10

/-- Whether a key is sensitive. -/
def isSensitive (r : Redaction) (key : String) : Bool :=
  r.fields.any fun field => Text.contains (Text.lower field) (Text.lower key)

/-- The number of units that a text of a length is cut to, the fraction of the limit being dropped. -/
def keptLength (limit : Number) (length : Nat) : Nat :=
  match limit.truncate? with
  | some n => if 0 ≤ n then n.toNat else (length + n).toNat
  | none => 0

/-- The units of a text, cut if there are too many. -/
def cutText (r : Redaction) (s : String) : List UInt16 :=
  let units := Text.units s
  if r.maxStringLength.less (.ofInt units.length) then
    units.take (keptLength r.maxStringLength units.length) ++
      Text.units ("... [truncated " ++ ((Number.ofInt units.length).sub r.maxStringLength).text ++ " chars]")
  else units

/-- The note at the end of a list that is cut. -/
def moreItems (length : Nat) : LogValue :=
  .ofText ("... [" ++ String.ofList (Number.intChars (length - shownItems : Nat)) ++ " more items]")

/-- The items that are shown of a redacted list. -/
def cutItems (items : List LogValue) : List LogValue :=
  if longestList < items.length then items.take shownItems ++ [moreItems items.length] else items

/-- Whether a depth is at the limit. -/
def isTooDeep (r : Redaction) (depth : Number) : Bool :=
  r.maxDepth.atMost depth

/-- What is shown of the tag of a raised error. -/
def shownTag (r : Redaction) (depth : Number) (tag : String) : String × LogValue :=
  ("_tag",
    if r.isSensitive "_tag" then hidden
    else if r.isTooDeep depth then tooDeep
    else .text (cutText r tag))

mutual

/-- What is shown of a value at a depth. -/
def apply (r : Redaction) (depth : Number) (v : Value) : LogValue :=
  if r.isTooDeep depth then tooDeep
  else
    match v with
    | .undefined => .undefined
    | .null => .null
    | .bool b => .bool b
    | .number n => .number n
    | .string s => .text (cutText r s)
    | .bigint n => .ofText (String.ofList (Number.intChars n) ++ "n")
    | .symbol d => .ofText ("Symbol(" ++ d ++ ")")
    | .function name _ => .ofText ("[Function: " ++ (if name = "" then "anonymous" else name) ++ "]")
    | .date _ | .error _ _ => .object []
    | .raised mark fields =>
      .object (applyEntries r (depth.add 1) (fun key v => !Value.isUnlisted key v) fields ++
        [shownTag r (depth.add 1) mark.tag])
    | .array items => .array (cutItems (applyItems r (depth.add 1) items))
    | .object entries => .object (applyEntries r (depth.add 1) (fun _ _ => true) entries)
    | .heir _ entries => .object (applyEntries r (depth.add 1) (fun _ _ => true) entries)

/-- What is shown of the items of a list. -/
def applyItems (r : Redaction) (depth : Number) : List Value → List LogValue
  | [] => []
  | v :: rest => apply r depth v :: applyItems r depth rest

/-- What is shown of the entries of an object that are listed; the reserved key is left out. -/
def applyEntries (r : Redaction) (depth : Number) (listed : String → Value → Bool) :
    List (String × Value) → List (String × LogValue)
  | [] => []
  | (key, v) :: rest =>
    if key == Entries.reservedKey || !listed key v then applyEntries r depth listed rest
    else
      (key, if r.isSensitive key then hidden else apply r depth v) :: applyEntries r depth listed rest

end

/-- What the log shows of a value. -/
def redact (r : Redaction) (v : Value) : LogValue :=
  apply r 0 v

end Redaction

end Gateway

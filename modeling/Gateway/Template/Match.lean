import Gateway.Regex.Match
import Gateway.Template.Basic
import Gateway.Text.Gaps
import Gateway.Text.Percent

/-!
# Matching a request against a template

A path is matched as a whole, by an expression in which each placeholder takes as little as it can but something,
and no line end.  A query is scanned for every pair `key=value` with a value that stands at its start or after `&`
or `;`; each declared key has to occur.  Both are matched in UTF-16 units, so a placeholder may take one half of a
surrogate pair.  Captured units are percent-decoded, or kept as they stand if they are no valid percent-encoding.
-/

namespace Gateway

/-- What a placeholder captured: one text, or all texts of a repeated query key. -/
inductive Captured where
  | one (text : String)
  | many (texts : List String)
  deriving DecidableEq, Repr

/-- Captured texts by placeholder. -/
abbrev Captures := List (String × Captured)

namespace Template

/-- The source of the expression of a path: each placeholder takes as little as it can. -/
def pathSource (p : PathPattern) : List UInt16 :=
  Text.units "^" ++ Regex.escape (Text.units p.lead) ++
    (p.gaps.flatMap fun g => Text.units "(.+?)" ++ Regex.escape (Text.units g.2)) ++ Text.units "$"

/-- Matches a path by its expression: each placeholder with the text that its group took, decoded. -/
def searchPath (t : Template) (path : List UInt16) : Option (List (String × List UInt16)) :=
  ((Regex.read? (pathSource t.path)).bind fun e => e.exec path).map fun found =>
    (t.path.gaps.zipIdx 1).filterMap fun g =>
      (found.group? g.2).map fun raw => (normalizeName g.1.1, Text.Percent.decodeOrKeep raw)

/-- Matches a path without going back: no placeholder has to take more than it can take at first, so the result
is that of `searchPath`. -/
def capturePath (t : Template) (path : List UInt16) : Option (List (String × List UInt16)) :=
  (Gaps.match? UnitSet.dot.has (Text.units t.path.lead) (t.path.gaps.map fun g => Text.units g.2) path).map
    fun runs => (t.path.gaps.map fun g => normalizeName g.1).zip (runs.map Text.Percent.decodeOrKeep)

/-- The source of the expression that finds a key in a query. -/
def keySource (key : String) : List UInt16 :=
  Text.units "(?:^|[&;])" ++ Regex.escape (Text.units key) ++ Text.units "=([^&;]+)"

/-- All values of a key in a query, in order. -/
def queryValues (key : String) (query : List UInt16) : List (List UInt16) :=
  match Regex.read? (keySource key) with
  | none => []
  | some e => (e.allMatches query).filterMap fun found => found.group? 1

/-- The text of a query value: `+` is a space. -/
def decodeQueryValue (raw : List UInt16) : List UInt16 :=
  Text.Percent.decodeOrKeep (raw.map fun u => if u = 0x2B then 0x20 else u)

/-- Matches the pairs of a query clause one after the other. -/
def capturePairs (query : List UInt16) : List QueryPair → Option (List (String × List UInt16))
  | [] => some []
  | pair :: rest =>
    match queryValues pair.key query with
    | [] => none
    | values =>
      (capturePairs query rest).map fun captures =>
        (values.map fun v => (normalizeName pair.name, decodeQueryValue v)) ++ captures

/-- Matches a query: every text of every declared key. -/
def captureQuery (t : Template) (query : List UInt16) : Option (List (String × List UInt16)) :=
  capturePairs query t.query

/-- Captured units as texts. -/
def captureTexts (captures : List (String × List UInt16)) : List (String × String) :=
  captures.map fun c => (c.1, Text.ofUnits c.2)

/-- What the placeholders capture of a path. -/
def matchPath (t : Template) (path : String) : Option (List (String × String)) :=
  (t.capturePath (Text.units path)).map captureTexts

/-- What the placeholders capture of a query. -/
def matchQuery (t : Template) (query : String) : Option (List (String × String)) :=
  (t.captureQuery (Text.units query)).map captureTexts

/-- Adds a text to the group of its name. -/
def addCapture (groups : List (String × List String)) (name text : String) :
    List (String × List String) :=
  if groups.any (·.1 == name) then
    groups.map fun g => if g.1 == name then (g.1, g.2 ++ [text]) else g
  else groups ++ [(name, [text])]

/-- The texts of each name, names in order of first occurrence; a single text stands alone. -/
def groupCaptures (captures : List (String × String)) : Captures :=
  (captures.foldl (fun groups c => addCapture groups c.1 c.2) []).map fun (name, texts) =>
    match texts with
    | [text] => (name, .one text)
    | texts => (name, .many texts)

/-- Matches a path and a query together. -/
def match? (t : Template) (path query : String) : Option Captures :=
  (matchPath t path).bind fun inPath =>
    (matchQuery t query).map fun inQuery => groupCaptures (inPath ++ inQuery)

end Template

end Gateway

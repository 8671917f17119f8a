import Gateway.Text.CaseTables

/-!
# Letter case

Texts in upper and in lower case.  The other case of a character may take several: `ß` becomes `SS`, and the dotted
capital I becomes a small one with a dot above.  The capital sigma has two lower cases; after a cased character and not
before another one it ends a word and becomes the final one.
-/

namespace Gateway.Text

/-- The number of the other case of a character, by a table in ascending order. -/
def CaseRun.imageIn (n : Nat) : List CaseRun → Nat
  | [] => n
  | r :: rest =>
    if n < r.first then n
    else if n ≤ r.last ∧ (n - r.first) % r.step = 0 then r.image + (n - r.first)
    else imageIn n rest

/-- Whether a number lies in one of the ranges, which are in ascending order. -/
def inRanges (n : Nat) : List (Nat × Nat) → Bool
  | [] => false
  | (low, high) :: rest => if n < low then false else n ≤ high || inRanges n rest

/-- Whether a character has a case. -/
def isCased (c : Char) : Bool :=
  inRanges c.toNat casedRanges

/-- Whether a character is skipped when one looks for a cased character nearby. -/
def isIgnorable (c : Char) : Bool :=
  inRanges c.toNat ignorableRanges

/-- The capital sigma. -/
def capitalSigma : Char := Char.ofNat 0x3A3

/-- The small sigma. -/
def smallSigma : Char := Char.ofNat 0x3C3

/-- The small sigma at the end of a word. -/
def finalSigma : Char := Char.ofNat 0x3C2

/-- The lower case of a character that stands alone. -/
def lowerChar (c : Char) : List Char :=
  if c.toNat = 0x130 then ['i', Char.ofNat 0x307] else [Char.ofNat (CaseRun.imageIn c.toNat lowerRuns)]

/-- The upper case of a character. -/
def upperChar (c : Char) : List Char :=
  match longUpperCases.lookup c.toNat with
  | some numbers => numbers.map Char.ofNat
  | none => [Char.ofNat (CaseRun.imageIn c.toNat upperRuns)]

/-- Whether the first character that is not skipped is cased. -/
def startsCased : List Char → Bool
  | [] => false
  | c :: rest => if isIgnorable c then startsCased rest else isCased c

/-- Characters in lower case; `afterCased` says whether the last character before them that is not skipped is cased. -/
def lowerFrom (afterCased : Bool) : List Char → List Char
  | [] => []
  | c :: rest =>
    (if c = capitalSigma then [if afterCased && !startsCased rest then finalSigma else smallSigma] else lowerChar c) ++
      lowerFrom (if isIgnorable c then afterCased else isCased c) rest

/-- A text in lower case. -/
def lower (s : String) : String :=
  String.ofList (lowerFrom false s.toList)

/-- A text in upper case. -/
def upper (s : String) : String :=
  String.ofList (s.toList.flatMap upperChar)

end Gateway.Text

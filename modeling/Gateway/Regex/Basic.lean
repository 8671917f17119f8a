import Gateway.Text.Units

/-!
# Regular expressions

The part of the language of regular expressions that templates and origin patterns use, over UTF-16 units: units
that stand for themselves, the dot, lists of units in brackets, one or more of these (`+`, or `+?` for as few as
possible), groups, alternatives and the two anchors.  `read?` reads a source from left to right, one unit at a
time, and refuses what lies outside this part.  `escape` writes a text so that it stands for itself.
-/

namespace Gateway

/-- A set of units: those listed, or all others. -/
structure UnitSet where
  negated : Bool
  members : List UInt16
  deriving DecidableEq, Repr

namespace UnitSet

/-- Whether a unit is in the set. -/
def has (s : UnitSet) (u : UInt16) : Bool :=
  s.members.contains u != s.negated

/-- The set of one unit. -/
def single (u : UInt16) : UnitSet :=
  ⟨false, [u]⟩

/-- The units that the dot stands for: all but line ends. -/
def dot : UnitSet :=
  ⟨true, [0x0A, 0x0D, 0x2028, 0x2029]⟩

end UnitSet

/-- A regular expression. -/
inductive Regex where
  | empty
  /-- The start of the input. -/
  | start
  /-- The end of the input. -/
  | finish
  | one (set : UnitSet)
  /-- One or more units of a set, as many as possible or as few as possible. -/
  | many (set : UnitSet) (greedy : Bool)
  | seq (first next : Regex)
  | either (first other : Regex)
  /-- A group that captures what its body takes. -/
  | group (number : Nat) (body : Regex)
  deriving DecidableEq, Repr

namespace Regex

/-- Expressions one after the other. -/
def sequence (items : List Regex) : Regex :=
  items.foldr seq empty

/-- A unit as a sign of a source. -/
def sign (u : UInt16) : Char :=
  Char.ofNat u.toNat

/-- Whether a unit has a meaning of its own in a source. -/
def isSyntax (u : UInt16) : Bool :=
  ".*+?^$\x7b\x7d()|[]\\".toList.contains (sign u)

/-- The source that stands for a text: every unit with a meaning of its own is escaped. -/
def escape (text : List UInt16) : List UInt16 :=
  text.flatMap fun u => if isSyntax u then Text.units "\\" ++ [u] else [u]

/-- A group that is being read. -/
structure Frame where
  /-- The number of a group that captures. -/
  number : Option Nat
  /-- The alternatives before the last bar. -/
  before : Option Regex
  /-- What the current alternative has so far, last one first. -/
  items : List Regex
  deriving DecidableEq, Repr

namespace Frame

/-- A group of which nothing was read. -/
def fresh (number : Option Nat) : Frame :=
  ⟨number, none, []⟩

/-- Adds an expression to the current alternative. -/
def push (f : Frame) (item : Regex) : Frame :=
  { f with items := item :: f.items }

/-- All alternatives read so far. -/
def alternatives (f : Frame) : Regex :=
  match f.before with
  | none => sequence f.items.reverse
  | some before => either before (sequence f.items.reverse)

/-- The expression of a group that is read to its end. -/
def closed (f : Frame) : Regex :=
  match f.number with
  | none => f.alternatives
  | some number => group number f.alternatives

end Frame

/-- What the unit before leaves open. -/
inductive Mode where
  | text
  | escaped
  /-- After the parenthesis that opens a group. -/
  | opened
  /-- After a parenthesis and a question mark. -/
  | marked
  /-- After the bracket that opens a list. -/
  | bracket
  | listing (set : UnitSet)
  deriving DecidableEq, Repr

/-- How far a source is read. -/
structure Reading where
  mode : Mode
  /-- How many groups that capture were opened. -/
  groups : Nat
  frame : Frame
  /-- The groups around the current one, the innermost first. -/
  outer : List Frame
  deriving DecidableEq, Repr

namespace Reading

/-- Before the first unit. -/
def initial : Reading :=
  ⟨.text, 0, .fresh none, []⟩

/-- Adds an expression to the current group. -/
def add (r : Reading) (item : Regex) : Reading :=
  { r with mode := .text, frame := r.frame.push item }

/-- Opens a group that captures. -/
def openCapture (r : Reading) : Reading :=
  ⟨.text, r.groups + 1, .fresh (some (r.groups + 1)), r.frame :: r.outer⟩

/-- Opens a group that does not capture. -/
def openPlain (r : Reading) : Reading :=
  ⟨.text, r.groups, .fresh none, r.frame :: r.outer⟩

/-- Closes the current group. -/
def close? (r : Reading) : Option Reading :=
  match r.outer with
  | [] => none
  | f :: outer => some { r with frame := f.push r.frame.closed, outer := outer }

/-- Repeats the expression before. -/
def repeat? (r : Reading) : Option Reading :=
  match r.frame.items with
  | .one set :: items => some { r with frame := { r.frame with items := .many set true :: items } }
  | _ => none

/-- Makes the repetition before take as little as possible. -/
def shorten? (r : Reading) : Option Reading :=
  match r.frame.items with
  | .many set true :: items => some { r with frame := { r.frame with items := .many set false :: items } }
  | _ => none

/-- Starts the next alternative. -/
def alternate (r : Reading) : Reading :=
  { r with frame := ⟨r.frame.number, some r.frame.alternatives, []⟩ }

/-- A unit outside escapes and lists. -/
def stepText (r : Reading) (u : UInt16) : Option Reading :=
  match sign u with
  | '\\' => some { r with mode := .escaped }
  | '.' => some (r.add (.one .dot))
  | '^' => some (r.add .start)
  | '$' => some (r.add .finish)
  | '(' => some { r with mode := .opened }
  | ')' => r.close?
  | '[' => some { r with mode := .bracket }
  | '|' => some r.alternate
  | '+' => r.repeat?
  | '?' => r.shorten?
  | '*' | '{' | '}' | ']' => none
  | _ => some (r.add (.one (.single u)))

/-- A unit inside a list. -/
def stepListing (r : Reading) (set : UnitSet) (u : UInt16) : Option Reading :=
  match sign u with
  | ']' => some (r.add (.one set))
  | '\\' | '-' => none
  | _ => some { r with mode := .listing { set with members := set.members ++ [u] } }

/-- One unit of a source, unless it lies outside the language. -/
def step (r : Reading) (u : UInt16) : Option Reading :=
  match r.mode with
  | .text => r.stepText u
  | .escaped => if isSyntax u then some (r.add (.one (.single u))) else none
  | .opened => if sign u = '?' then some { r with mode := .marked } else r.openCapture.stepText u
  | .marked => if sign u = ':' then some r.openPlain else none
  | .bracket =>
    if sign u = '^' then some { r with mode := .listing ⟨true, []⟩ } else r.stepListing ⟨false, []⟩ u
  | .listing set => r.stepListing set u

/-- The expression of a source that is read to its end. -/
def finish? (r : Reading) : Option Regex :=
  if r.mode = .text ∧ r.outer.isEmpty then some r.frame.alternatives else none

end Reading

/-- The expression that a source spells. -/
def read? (source : List UInt16) : Option Regex :=
  (source.foldlM Reading.step Reading.initial).bind Reading.finish?

end Regex

end Gateway

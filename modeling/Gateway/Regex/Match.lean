import Gateway.Regex.Basic

/-!
# Matching by backtracking

An expression is matched at a place of the input by trying its choices in order, with the rest of the expression
as a continuation: a choice stands as soon as the rest succeeds after it, and the next one is tried if it does
not.  `exec` looks for the first place where the expression matches.  `allMatches` goes on behind each match, so
that no unit is in two of them.
-/

namespace Gateway

namespace Regex

/-- What a group took: where it starts in the input, and how many units it has. -/
structure Span where
  input : List UInt16
  length : Nat
  deriving DecidableEq, Repr

/-- The units of a span. -/
def Span.units (s : Span) : List UInt16 :=
  s.input.take s.length

/-- A place in the input, with what the groups captured on the way to it, the latest first. -/
structure Cursor where
  index : Nat
  rest : List UInt16
  captured : List (Nat × Span)
  deriving DecidableEq, Repr

namespace Cursor

/-- The place behind the next unit. -/
def advance (c : Cursor) (rest : List UInt16) : Cursor :=
  { c with index := c.index + 1, rest := rest }

/-- The place with what a group took that was entered at another one. -/
def capture (c : Cursor) (number : Nat) (entered : Cursor) : Cursor :=
  { c with captured := (number, ⟨entered.rest, c.index - entered.index⟩) :: c.captured }

end Cursor

/-- The places behind one or more units of a set, the farthest first; `done` holds those before. -/
def reached (set : UnitSet) (done : List Cursor) (c : Cursor) : List UInt16 → List Cursor
  | [] => done
  | u :: rest => if set.has u then reached set (c.advance rest :: done) (c.advance rest) rest else done

/-- Where an expression, and what comes after it, leads from a place. -/
def run : Regex → (Cursor → Option Cursor) → Cursor → Option Cursor
  | empty, next, c => next c
  | start, next, c => if c.index = 0 then next c else none
  | finish, next, c => if c.rest.isEmpty then next c else none
  | one set, next, c =>
    match c.rest with
    | [] => none
    | u :: rest => if set.has u then next (c.advance rest) else none
  | many set greedy, next, c =>
    -- The places are tried in the order in which the repetition prefers them.
    if greedy then (reached set [] c c.rest).findSome? next
    else (reached set [] c c.rest).reverse.findSome? next
  | seq first second, next, c => first.run (second.run next) c
  | either first other, next, c =>
    match first.run next c with
    | some found => some found
    | none => other.run next c
  | group number body, next, c => body.run (fun after => next (after.capture number c)) c

/-- What an expression matched at a place: how many units, and what the groups captured. -/
structure Match where
  length : Nat
  captured : List (Nat × Span)
  deriving DecidableEq, Repr

/-- What a group captured last. -/
def Match.group? (m : Match) (number : Nat) : Option (List UInt16) :=
  (m.captured.lookup number).map Span.units

/-- Matches an expression at a place. -/
def matchAt (e : Regex) (index : Nat) (rest : List UInt16) : Option Match :=
  (e.run some ⟨index, rest, []⟩).map fun found => ⟨found.index - index, found.captured⟩

/-- The match at the first place, from one on, that has one. -/
def execFrom (e : Regex) (index : Nat) : List UInt16 → Option Match
  | [] => e.matchAt index []
  | u :: rest =>
    match e.matchAt index (u :: rest) with
    | some found => some found
    | none => execFrom e (index + 1) rest

/-- The match at the first place of an input that has one. -/
def exec (e : Regex) (input : List UInt16) : Option Match :=
  e.execFrom 0 input

/-- Whether an expression matches anywhere in an input. -/
def test (e : Regex) (input : List UInt16) : Bool :=
  (e.exec input).isSome

/-- The matches from a place on, after the units that belong to the match before.  A match of nothing is followed
by the search at the next unit. -/
def matchesFrom (e : Regex) (skipped index : Nat) : List UInt16 → List Match
  | [] => if skipped = 0 then (e.matchAt index []).toList else []
  | u :: rest =>
    match skipped with
    | skipped + 1 => matchesFrom e skipped (index + 1) rest
    | 0 =>
      match e.matchAt index (u :: rest) with
      | some found => found :: matchesFrom e (found.length - 1) (index + 1) rest
      | none => matchesFrom e 0 (index + 1) rest

/-- All matches in an input, none of which shares a unit with another. -/
def allMatches (e : Regex) (input : List UInt16) : List Match :=
  e.matchesFrom 0 0 input

end Regex

end Gateway

/-!
# Texts with gaps

A text with gaps is a literal lead followed by gaps, each with the literal after it.  Matching covers the
whole input: every gap takes at least one admitted symbol, and as few as it can, the first gap first.
-/

namespace Gateway.Gaps

variable {α β : Type} [BEq α]

/-- What follows a literal at the start of an input. -/
def strip? : List α → List α → Option (List α)
  | [], input => some input
  | _ :: _, [] => none
  | l :: lit, c :: input => if l == c then strip? lit input else none

/-- The shortest non-empty run of admitted symbols after which `next` succeeds, with its result. -/
def shortestRun? (admits : α → Bool) (next : List α → Option β) : List α → Option (List α × β)
  | [] => none
  | c :: input =>
    if admits c then
      match next input with
      | some r => some ([c], r)
      | none => (shortestRun? admits next input).map fun (run, r) => (c :: run, r)
    else none

/-- What the gaps take of an input, given the literal after each gap.  The literal of the last gap ends the
input.  Every other gap ends at the first place where its literal follows: whatever a longer run would take can
be left to the next gap. -/
def fill? (admits : α → Bool) : List (List α) → List α → Option (List (List α))
  | [], input => if input.isEmpty then some [] else none
  | [lit], input =>
    (shortestRun? admits (fun rest => if rest == lit then some () else none) input).map fun (run, _) => [run]
  | lit :: lits, input =>
    match shortestRun? admits (strip? lit) input with
    | none => none
    | some (run, rest) => (fill? admits lits rest).map (run :: ·)

/-- What the gaps take of an input that starts with the lead. -/
def match? (admits : α → Bool) (lead : List α) (tails : List (List α)) (input : List α) :
    Option (List (List α)) :=
  (strip? lead input).bind (fill? admits tails)

end Gateway.Gaps

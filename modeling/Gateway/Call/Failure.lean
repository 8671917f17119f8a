import Gateway.Value.Inspect

/-!
# How a procedure fails

A failure is a tree: a failure with an error value, a defect with any value, an interruption, nothing at all,
or two failures together.  `firstError?` is what a declared error is looked for in; `summary` is the line that
the log shows.
-/

namespace Gateway

/-- Why a procedure did not succeed. -/
inductive Failure where
  | none
  | error (value : Value)
  | defect (value : Value)
  | interruption
  | both (first second : Failure)
  deriving Inhabited, Repr

namespace Failure

/-- The first error value, from the left. -/
def firstError? : Failure → Option Value
  | .error v => some v
  | .both a b => (firstError? a).or (firstError? b)
  | _ => Option.none

/-- All error and defect values, from the left. -/
def values : Failure → List Value
  | .error v | .defect v => [v]
  | .both a b => values a ++ values b
  | _ => []

/-- What the member `toString` of a value gives back, if it is not the one that all objects or all lists have. -/
def calledText? (v : Value) : Option Value :=
  if v.isScalar then Option.none
  else
    match v.member "toString" with
    | .function _ .kindText | .function _ .listText => Option.none
    | .function _ routine => (Value.perform Value.text routine v).toOption
    | _ => Option.none

/-- The text of a message, which is empty where there is none. -/
def textOrEmpty : Value → Attempt String
  | .undefined => .ok ""
  | v => v.text

/-- The message of a failed value: a text itself, the message of an error, the text of its own of an object, or
else its JSON text. -/
def messageOf (v : Value) : Attempt String :=
  match v, v.base with
  | .string s, _ => .ok s
  | _, .error _ _ | _, .raised _ _ => textOrEmpty (v.member "message")
  | _, _ =>
    match calledText? v with
    | some w => textOrEmpty w
    | Option.none => (Json.write v).map fun text => String.ofList (text.getD [])

/-- The name that a failed value goes by. -/
def nameOf (v : Value) : Attempt String :=
  match v.base with
  | .error _ _ | .raised _ _ => (v.member "name").text
  | _ => .ok "Error"

/-- Checks that the stack of a raised error is a text, if it has one of its own. -/
def checkStack (v : Value) : Attempt Unit :=
  match v.base with
  | .raised _ _ =>
    match v.member "stack" with
    | .string _ => .ok ()
    | stack => if stack.isFalsy then .ok () else .error (.noFunction "stack.startsWith")
  | _ => .ok ()

/-- The line of a failed value; an empty message reads as a fixed one.  The cause of an object has to have a line
as well; causes nested less deep than the first argument are looked at. -/
def lineWithin : Nat → Value → Attempt String
  | 0, _ => .error .endless
  | n + 1, v => do
    let message ← messageOf v
    if v.isComposite then
      match v.member "cause" with
      | .undefined => pure ()
      | cause => discard (lineWithin n cause)
    let name ← nameOf v
    checkStack v
    return name ++ ": " ++ (if message = "" then "An error has occurred" else message)

/-- The line of a failed value. -/
def lineOf (v : Value) : Attempt String :=
  lineWithin (v.height + 1) v

/-- The lines of several values. -/
def linesOf : List Value → Attempt (List String)
  | [] => .ok []
  | v :: rest =>
    match lineOf v with
    | .error f => .error f
    | .ok line => (linesOf rest).map (line :: ·)

/-- The first line of a text. -/
def firstLine (s : String) : String :=
  String.ofList (s.toList.takeWhile (· != '\n'))

/-- What the log shows of a failure; a value of it without a line is a fault. -/
def summary (f : Failure) : Attempt String :=
  (linesOf f.values).map fun lines =>
    match lines with
    | [] => "All fibers interrupted without errors."
    | line :: _ => firstLine line

end Failure

/-- What a procedure does with its arguments. -/
abbrev Handler := Value → Except Failure Value

end Gateway

import Gateway.Fault

/-!
# Verdicts

What a schema says of a value: it accepts the value, usually in another form, it refuses the value, or a fault
stops it on the way.
-/

namespace Gateway

/-- The answer of a schema to a value. -/
inductive Verdict (α : Type) where
  | accepted (a : α)
  | refused
  | broken (fault : Fault)
  deriving DecidableEq, Repr

namespace Verdict

variable {α β : Type}

/-- Goes on with what was accepted. -/
def bind (v : Verdict α) (f : α → Verdict β) : Verdict β :=
  match v with
  | .accepted a => f a
  | .refused => .refused
  | .broken fault => .broken fault

/-- Changes what was accepted. -/
def map (f : α → β) (v : Verdict α) : Verdict β :=
  v.bind fun a => .accepted (f a)

/-- Goes on if an attempt did not stop. -/
def after (a : Attempt β) (f : β → Verdict α) : Verdict α :=
  match a with
  | .ok b => f b
  | .error fault => .broken fault

/-- Asks again if the first answer is a refusal. -/
def orElse (v : Verdict α) (next : Unit → Verdict α) : Verdict α :=
  match v with
  | .refused => next ()
  | v => v

/-- Acceptance of what there is, refusal otherwise. -/
def ofOption : Option α → Verdict α
  | some a => .accepted a
  | none => .refused

/-- Acceptance of a value on a condition. -/
def guarded (condition : Bool) (a : α) : Verdict α :=
  if condition then .accepted a else .refused

@[simp] theorem bind_accepted (a : α) (f : α → Verdict β) : (accepted a).bind f = f a := rfl

@[simp] theorem bind_refused (f : α → Verdict β) : (refused : Verdict α).bind f = .refused := rfl

@[simp] theorem bind_broken (fault : Fault) (f : α → Verdict β) :
    (broken fault : Verdict α).bind f = .broken fault := rfl

end Verdict

end Gateway

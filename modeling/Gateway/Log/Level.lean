/-!
# Log levels
-/

namespace Gateway

/-- How grave a log record is; `all` and `none` are bounds for settings only. -/
inductive LogLevel where
  | all
  | trace
  | debug
  | info
  | warning
  | error
  | fatal
  | none
  deriving DecidableEq, Repr

namespace LogLevel

/-- The place of a level in the order of gravity. -/
def rank : LogLevel → Nat
  | .all => 0
  | .trace => 1
  | .debug => 2
  | .info => 3
  | .warning => 4
  | .error => 5
  | .fatal => 6
  | .none => 7

/-- Whether a record of this level passes a least level. -/
def passes (level least : LogLevel) : Bool :=
  least.rank ≤ level.rank

/-- The name of a level. -/
def name : LogLevel → String
  | .all => "All"
  | .trace => "Trace"
  | .debug => "Debug"
  | .info => "Info"
  | .warning => "Warning"
  | .error => "Error"
  | .fatal => "Fatal"
  | .none => "None"

/-- All levels, by ascending gravity. -/
def levels : List LogLevel :=
  [.all, .trace, .debug, .info, .warning, .error, .fatal, .none]

/-- The level of a name. -/
def ofName? (s : String) : Option LogLevel :=
  levels.find? (·.name == s)

end LogLevel

end Gateway

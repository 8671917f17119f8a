import Gateway.Construction
import Gateway.Log.Logger

/-!
# Listening

A server listens for as long as its scope lasts.  While it starts, it is watched for errors; the first one is
why it does not listen.  A server that never listened is not closed.
-/

namespace Gateway

/-- Where a server listens. -/
structure Address where
  host : String
  port : Number
  deriving DecidableEq, Repr

/-- The port as a text. -/
def Address.portText (a : Address) : String :=
  a.port.text

/-- The address as a text. -/
def Address.text (a : Address) : String :=
  a.host ++ ":" ++ a.portText

/-- A server that could not listen, and why. -/
structure ListenError where
  address : Address
  cause : String
  deriving DecidableEq, Repr

/-- The message of a server that could not listen. -/
def ListenError.message (e : ListenError) : String :=
  ConstructionKind.listenMessage e.address.host e.address.portText e.cause

/-- What is done with a server. -/
inductive ServerStep where
  | watchErrors
  | listen (address : Address)
  | unwatchErrors
  | serve
  | close
  deriving DecidableEq, Repr

namespace Server

/-- Whether a server that reports these failures at its start listens. -/
def start (address : Address) : List String → Except ListenError Unit
  | [] => .ok ()
  | cause :: _ => .error ⟨address, cause⟩

/-- What is done with a server that reports these failures at its start. -/
def steps (address : Address) (failures : List String) : List ServerStep :=
  [.watchErrors, .listen address] ++
    (match start address failures with
      | .ok _ => [.unwatchErrors, .serve, .close]
      | .error _ => [])

/-- How many error watchers a list of steps leaves. -/
def watchers (steps : List ServerStep) : Nat :=
  steps.count .watchErrors - steps.count .unwatchErrors

/-- The record of a server that listens. -/
def listening (address : Address) : LogRecord :=
  ⟨.info, "Bridge listening on http://" ++ address.text, []⟩

end Server

end Gateway

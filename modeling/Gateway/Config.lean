import Gateway.Endpoint
import Gateway.Number.Reader
import Gateway.Text.Split
import Gateway.Transport.Server

/-!
# Configuration

The settings of an endpoint and of its server, from named texts.  Lists are separated by commas.  Of a name
given twice the last text counts; a name that is missing has a default.
-/

namespace Gateway

/-- The settings of an endpoint and of its server. -/
structure Config where
  allowedOrigins : List String
  allowedHeaders : List String
  maxBodySize : Int
  host : String
  port : Int
  deriving DecidableEq, Repr

/-- What is wrong with a setting. -/
inductive ConfigFault where
  | notInteger (name text : String)
  | notPositive
  | notPort
  deriving DecidableEq, Repr

namespace ConfigFault

/-- The setting that a fault names, and what it says. -/
def parts : ConfigFault → String × String
  | .notInteger name text => (name, "Expected an integer value but received " ++ Json.quoteText text)
  | .notPositive => ("", "must be a positive number of bytes")
  | .notPort => ("", "must be a TCP port between 1 and 65535")

/-- The text of a fault. -/
def text (f : ConfigFault) : String :=
  "(Invalid data at " ++ f.parts.1 ++ ": \"" ++ f.parts.2 ++ "\")"

/-- The message of several faults. -/
def message (faults : List ConfigFault) : String :=
  " and ".intercalate (faults.map text)

end ConfigFault

namespace Config

/-- The name of the setting with this ending. -/
def settingName (ending : String) : String :=
  "RPC_BRIDGE_" ++ ending

/-- The text of a setting. -/
def setting? (texts : List (String × String)) (name : String) : Option String :=
  texts.reverse.lookup name

/-- The items of a list: what stands between commas, trimmed, without empty ones. -/
def splitList (s : String) : List String :=
  ((Text.splitText ',' s).map Text.trim).filter (· != "")

/-- The integer that a text is, if it is one. -/
def integer? (s : String) : Option Int :=
  let n := Number.ofText s
  if n.isInteger then n.truncate? else none

/-- An integer setting as it is given, or else a default. -/
def given (texts : List (String × String)) (name : String) (default : Int) : Except ConfigFault Int :=
  match setting? texts name with
  | none => .ok default
  | some s =>
    match integer? s with
    | some n => .ok n
    | none => .error (.notInteger name s)

/-- An integer setting that has to fulfil a condition. -/
def integer (texts : List (String × String)) (name : String) (default : Int) (isValid : Int → Bool)
    (fault : ConfigFault) : Except ConfigFault Int :=
  match given texts name default with
  | .error f => .error f
  | .ok n => if isValid n then .ok n else .error fault

/-- A list setting. -/
def list (texts : List (String × String)) (name : String) : List String :=
  splitList ((setting? texts name).getD "")

/-- The greatest body in bytes. -/
def bodySize (texts : List (String × String)) : Except ConfigFault Int :=
  integer texts (settingName "MAX_BODY_SIZE") defaultMaxBodySize (0 < ·) .notPositive

/-- The port. -/
def portNumber (texts : List (String × String)) : Except ConfigFault Int :=
  integer texts (settingName "PORT") 9322 (fun n => 1 ≤ n && n ≤ 65535) .notPort

/-- Reads the settings; all faults are reported. -/
def load (texts : List (String × String)) : Except (List ConfigFault) Config :=
  match bodySize texts, portNumber texts with
  | .ok maxBodySize, .ok port =>
    .ok
      { allowedOrigins := list texts (settingName "ALLOWED_ORIGINS")
        allowedHeaders := list texts (settingName "ALLOWED_HEADERS")
        maxBodySize
        host := (setting? texts (settingName "HOST")).getD "0.0.0.0"
        port }
  | .error f, .ok _ => .error [f]
  | .ok _, .error g => .error [g]
  | .error f, .error g => .error [f, g]

/-- The settings of the endpoint. -/
def options (c : Config) : EndpointOptions :=
  ⟨c.allowedOrigins, c.allowedHeaders, .ofInt c.maxBodySize⟩

/-- Where the server listens. -/
def address (c : Config) : Address :=
  ⟨c.host, .ofInt c.port⟩

end Config

end Gateway

import Gateway.Http.Headers
import Gateway.Http.Url
import Gateway.Regex.Match
import Gateway.Text.Blank
import Gateway.Text.Split
import Gateway.Text.Units

/-!
# Cross-origin policy

Which origins may call the gateway from a browser, and what it tells them.  Allowed origins are host names, or
patterns in which every `*` stands for some text without a dot.  Every answer gets the same headers; the origin
is granted only if the policy allows it.
-/

namespace Gateway

/-- Allowed hosts and host patterns. -/
structure OriginPolicy where
  /-- Host names, each once. -/
  hosts : List String
  /-- Patterns, as written. -/
  patterns : List String
  deriving DecidableEq, Repr

/-- Settings as they are configured: trimmed, in lower case, and without empty ones. -/
def normalizeSettings (values : List String) : List String :=
  (values.map fun v => Text.lower (Text.trim v)).filter (· != "")

namespace OriginPolicy

/-- Whether an entry is a pattern. -/
def isPattern (entry : String) : Bool :=
  entry.toList.contains '*'

/-- The policy of a list of entries. -/
def make (entries : List String) : OriginPolicy :=
  let entries := normalizeSettings entries
  { hosts := (entries.filter fun e => !isPattern e).eraseDups
    patterns := entries.filter isPattern }

/-- The source of the expression of a pattern: every star stands for one or more units other than a dot. -/
def wildcardSource (pattern : String) : List UInt16 :=
  Text.units "^" ++
    (Text.units "[^.]+").intercalate
      ((Text.splitWhere (· == 0x2A) (Text.units pattern)).map Regex.escape) ++
    Text.units "$"

/-- Whether a host fits a pattern. -/
def fits (pattern host : String) : Bool :=
  match Regex.read? (wildcardSource pattern) with
  | none => false
  | some e => e.test (Text.units host)

/-- Whether the policy allows a host. -/
def allowsHost (p : OriginPolicy) (host : String) : Bool :=
  p.hosts.contains host || p.patterns.any (fits · host)

/-- The host name of an origin, if it is one of the web, as a reader of URLs has it. -/
def hostname? (parse : String → Option Url) (origin : String) : Option String :=
  (parse origin).bind fun u => if u.scheme = "http" ∨ u.scheme = "https" then u.host else none

/-- Whether the policy allows an origin that is read by some reader of URLs. -/
def allowsBy (parse : String → Option Url) (p : OriginPolicy) (origin : String) : Bool :=
  match hostname? parse origin with
  | some host => p.allowsHost host
  | none => false

/-- Whether the policy allows an origin. -/
def allows (p : OriginPolicy) (origin : String) : Bool :=
  allowsBy Url.parse? p origin

end OriginPolicy

/-- A cross-origin policy. -/
structure CorsPolicy where
  origins : OriginPolicy
  /-- Request headers that a browser may send: in lower case, sorted, each once. -/
  allowedHeaders : List String
  deriving DecidableEq, Repr

/-- The cross-origin headers of an answer, and the origin that was sent and refused. -/
structure CorsHeaders where
  headers : Headers
  rejectedOrigin : Option String
  deriving DecidableEq, Repr

namespace CorsPolicy

/-- Whether a name may stand before another in the list of allowed headers. -/
def namePrecedes (a b : String) : Bool :=
  !Text.unitsBefore b a

/-- The policy of allowed origins and headers. -/
def make (allowedOrigins allowedHeaders : List String) : CorsPolicy :=
  { origins := OriginPolicy.make allowedOrigins
    allowedHeaders := (normalizeSettings allowedHeaders).eraseDups.mergeSort namePrecedes }

/-- The headers that every answer gets. -/
def commonHeaders (p : CorsPolicy) (allowMethods : String) : Headers :=
  [("Vary", "Origin"), ("Access-Control-Allow-Methods", allowMethods)] ++
    (if p.allowedHeaders.isEmpty then []
    else [("Access-Control-Allow-Headers", ", ".intercalate p.allowedHeaders)])

/-- The headers of an answer to a request from an origin. -/
def headersFor (p : CorsPolicy) (allowMethods : String) (origin : Option String) : CorsHeaders :=
  match origin with
  | none => ⟨p.commonHeaders allowMethods, none⟩
  | some o =>
    if p.origins.allows o then
      ⟨p.commonHeaders allowMethods ++ [("Access-Control-Allow-Origin", o)], none⟩
    else ⟨p.commonHeaders allowMethods, some o⟩

end CorsPolicy

end Gateway

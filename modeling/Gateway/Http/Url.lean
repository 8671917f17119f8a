import Gateway.Http.Host

/-!
# URLs

Absolute URLs.  Reading drops blanks and controls at the ends and line ends and tabs anywhere, resolves dot
segments, and escapes what a path, a query or a fragment may not hold; escapes that are there already are left
alone.  The schemes of the web name a host and take `\` for `/`; a file has a path, and a host at most; any other
scheme may also have a text in the place of a path, which is kept as it stands.
-/

namespace Gateway

/-- An absolute URL. -/
structure Url where
  scheme : String
  /-- Whether a user name or a password is given. -/
  hasCredentials : Bool
  /-- The host, if there is a place for one. -/
  host : Option String
  /-- The port, unless it is the scheme's own. -/
  port : Option Nat
  path : String
  query : Option String
  fragment : Option String
  deriving DecidableEq, Repr

namespace Url

/-- The ports that schemes have of their own. -/
def defaultPorts : List (String × Nat) :=
  [("http", 80), ("https", 443), ("ws", 80), ("wss", 443), ("ftp", 21)]

/-- A character that reading drops at the ends: a control or a space. -/
def isEdge (c : Char) : Bool :=
  c.toNat ≤ 0x20

/-- A text without controls and spaces at its ends and without tabs and line ends anywhere. -/
def clean (cs : List Char) : List Char :=
  (((cs.dropWhile isEdge).reverse.dropWhile isEdge).reverse).filter fun c =>
    !(c == '\t' || c == '\n' || c == '\r')

/-- A character of a scheme after its first letter. -/
def isSchemeChar (c : Char) : Bool :=
  c.isAlphanum || c == '+' || c == '-' || c == '.'

/-- The scheme in lower case, and what follows its colon. -/
def scheme? (cs : List Char) : Option (String × List Char) :=
  match cs.takeWhile isSchemeChar, cs.dropWhile isSchemeChar with
  | c :: name, ':' :: rest =>
    if c.isAlpha then some (Text.lower (String.ofList (c :: name)), rest) else none
  | _, _ => none

/-- A slash of either kind. -/
def isSlash (c : Char) : Bool :=
  c == '/' || c == '\\'

/-- What stands before and after the last `@`. -/
def splitUser (authority : List Char) : Option (List Char) × List Char :=
  let after := (authority.reverse.takeWhile (· != '@')).reverse
  if after.length = authority.length then (none, authority)
  else (some (authority.take (authority.length - after.length - 1)), after)

/-- The host text and what follows the colon after it; colons in brackets do not count. -/
def splitPort (inBrackets : Bool) : List Char → List Char × Option (List Char)
  | [] => ([], none)
  | c :: rest =>
    if c == ':' && !inBrackets then ([], some rest)
    else
      let (host, port) :=
        splitPort (if c == '[' then true else if c == ']' then false else inBrackets) rest
      (c :: host, port)

/-- A port number; an empty one is the scheme's own. -/
def port? (scheme : String) (cs : List Char) : Option (Option Nat) :=
  if !cs.all Char.isDigit then none
  else
    let n := cs.foldl (fun n c => n * 10 + (c.toNat - 0x30)) 0
    if n > 65535 then none
    else if cs.isEmpty || defaultPorts.lookup scheme = some n then some none
    else some (some n)

/-- A character that a path, a query or a fragment holds as it stands. -/
def keeps (escaped : String) (c : Char) : Bool :=
  0x20 < c.toNat && c.toNat < 0x7F && !escaped.toList.contains c

/-- The characters that a path escapes beside controls, spaces and non-ASCII. -/
def pathEscapes : String := "\"#<>?`\x7b\x7d"

/-- The characters that a query escapes. -/
def queryEscapes : String := "\"#<>"

/-- The characters that the query of a URL of the web escapes. -/
def webQueryEscapes : String := queryEscapes ++ "'"

/-- The characters that a fragment escapes. -/
def fragmentEscapes : String := "\"<>`"

/-- A text with its characters escaped for a part of a URL. -/
def escape (escaped : String) (cs : List Char) : List Char :=
  Text.Percent.encodeWhere (keeps escaped) cs

/-- Whether a segment stands for the current directory. -/
def isDot (segment : List Char) : Bool :=
  segment == ['.'] || segment.map Char.toLower == "%2e".toList

/-- Whether a segment stands for the directory above. -/
def isDoubleDot (segment : List Char) : Bool :=
  ["..", ".%2e", "%2e.", "%2e%2e"].any fun s => segment.map Char.toLower == s.toList

/-- Whether a segment names a drive. -/
def isDrive : List Char → Bool
  | [c, mark] => c.isAlpha && (mark == ':' || mark == '|')
  | _ => false

/-- A drive in its common form. -/
def driveText (segment : List Char) : List Char :=
  segment.take 1 ++ [':']

/-- The segments above, of those read so far, last one first; the drive of a file stays. -/
def above (isFile : Bool) (done : List (List Char)) : List (List Char) :=
  match done with
  | [segment] => if isFile && isDrive segment then done else []
  | _ => done.drop 1

/-- A segment after those read so far; the first one of a file may be a drive. -/
def settled (isFile : Bool) (done : List (List Char)) (segment : List Char) : List Char :=
  if isFile && done.isEmpty && isDrive segment then driveText segment else segment

/-- The segments that are left when dot segments are resolved; `done` holds those before, last one first.  A dot
segment at the end leaves an empty one. -/
def resolveDots (isFile : Bool) (done : List (List Char)) : List (List Char) → List (List Char)
  | [] => done.reverse
  | [segment] =>
    if isDoubleDot segment then ([] :: above isFile done).reverse
    else if isDot segment then ([] :: done).reverse
    else (settled isFile done segment :: done).reverse
  | segment :: rest =>
    if isDoubleDot segment then resolveDots isFile (above isFile done) rest
    else if isDot segment then resolveDots isFile done rest
    else resolveDots isFile (settled isFile done segment :: done) rest

/-- The path of the segments that a text has between slashes. -/
def pathOf (isFile : Bool) (slash : Char → Bool) (cs : List Char) : List Char :=
  (resolveDots isFile [] (Text.splitWhere slash cs)).flatMap fun segment =>
    '/' :: escape pathEscapes segment

/-- A text without one slash at its start. -/
def dropSlash (slash : Char → Bool) : List Char → List Char
  | c :: rest => if slash c then rest else c :: rest
  | [] => []

/-- What a URL has between its scheme and its query. -/
structure Front where
  hasCredentials : Bool := false
  host : Option (List Char) := none
  port : Option Nat := none
  path : List Char

/-- The host and the port that an authority names, and whether it has credentials. -/
def authority? (scheme : String) (readHost? : List Char → Option (List Char)) (mayBeEmpty : Bool)
    (authority : List Char) : Option (Bool × List Char × Option Nat) := do
  let (user, hostPort) := splitUser authority
  let (hostText, portText) := splitPort false hostPort
  if hostText.isEmpty && (!mayBeEmpty || user.isSome || portText.isSome) then none
  let host ← readHost? hostText
  let port ←
    match portText with
    | some cs => port? scheme cs
    | none => some none
  let (name, password) := Text.splitFirst (· == ':') (user.getD [])
  some (!name.isEmpty || !(password.getD []).isEmpty, host, port)

/-- The front of a URL of the web. -/
def webFront? (scheme : String) (cs : List Char) : Option Front := do
  let cs := cs.dropWhile isSlash
  let (hasCredentials, host, port) ←
    authority? scheme Host.normalize? false (cs.takeWhile fun c => !isSlash c)
  let path := dropSlash isSlash (cs.dropWhile fun c => !isSlash c)
  some { hasCredentials, host := some host, port, path := pathOf false isSlash path }

/-- The front of a file after two slashes: a host, unless it is a drive. -/
def fileHost? (cs : List Char) : Option Front :=
  let name := cs.takeWhile fun c => !isSlash c
  let rest := dropSlash isSlash (cs.dropWhile fun c => !isSlash c)
  if isDrive name then some { host := some [], path := pathOf true isSlash cs }
  else if name.isEmpty then some { host := some [], path := pathOf true isSlash rest }
  else
    (Host.normalize? name).map fun host =>
      { host := some (if host == "localhost".toList then [] else host), path := pathOf true isSlash rest }

/-- The front of a file. -/
def fileFront? (cs : List Char) : Option Front :=
  match cs with
  | a :: b :: rest =>
    if isSlash a && isSlash b then fileHost? rest
    else some { host := some [], path := pathOf true isSlash (dropSlash isSlash cs) }
  | _ => some { host := some [], path := pathOf true isSlash (dropSlash isSlash cs) }

/-- The path of another scheme after its authority; it may be missing. -/
def otherPath (cs : List Char) : List Char :=
  if cs.isEmpty then [] else pathOf false (· == '/') (dropSlash (· == '/') cs)

/-- The front of a URL of another scheme. -/
def otherFront? (scheme : String) (cs : List Char) : Option Front :=
  match cs with
  | '/' :: '/' :: rest => do
    let (hasCredentials, host, port) ← authority? scheme Host.keep? true (rest.takeWhile (· != '/'))
    some { hasCredentials, host := some host, port, path := otherPath (rest.dropWhile (· != '/')) }
  | '/' :: rest => some { path := pathOf false (· == '/') rest }
  | _ => some { path := Text.Percent.encodeWhere (fun c => 0x20 ≤ c.toNat && c.toNat ≤ 0x7E) cs }

/-- Whether a scheme is one of the web or names files. -/
def isKnown (scheme : String) : Bool :=
  scheme == "file" || (defaultPorts.lookup scheme).isSome

/-- The front of a URL of a scheme. -/
def front? (scheme : String) (cs : List Char) : Option Front :=
  if scheme = "file" then fileFront? cs
  else if (defaultPorts.lookup scheme).isSome then webFront? scheme cs
  else otherFront? scheme cs

/-- Reads an absolute URL. -/
def parse? (s : String) : Option Url := do
  let (scheme, rest) ← scheme? (clean s.toList)
  let (beforeFragment, fragment) := Text.splitFirst (· == '#') rest
  let (frontText, query) := Text.splitFirst (· == '?') beforeFragment
  let front ← front? scheme frontText
  let escapes := if isKnown scheme then webQueryEscapes else queryEscapes
  some
    { scheme
      hasCredentials := front.hasCredentials
      host := front.host.map String.ofList
      port := front.port
      path := String.ofList front.path
      query := query.map fun cs => String.ofList (escape escapes cs)
      fragment := fragment.map fun cs => String.ofList (escape fragmentEscapes cs) }

/-- The authority in the text of a URL.  A path that could be taken for one is marked. -/
def authorityText (u : Url) : String :=
  match u.host with
  | some host =>
    "//" ++ host ++ (match u.port with | some n => ":" ++ String.ofList (Nat.toDigits 10 n) | none => "")
  | none => if "//".toList.isPrefixOf u.path.toList then "/." else ""

/-- The text of a URL. -/
def text (u : Url) : String :=
  let query := (u.query.map ("?" ++ ·)).getD ""
  let fragment := (u.fragment.map ("#" ++ ·)).getD ""
  u.scheme ++ ":" ++ u.authorityText ++ u.path ++ query ++ fragment

end Url

end Gateway

import Gateway.Schema.Convert

/-!
# Errors of the gateway

Why a request is not answered as asked.  Every error has a status and a message.  `ErrorKind` names the kinds
and the fields of each, so that an error can also be built from named fields.
-/

namespace Gateway

/-- Why a request is not answered as asked. -/
inductive GatewayError where
  | requiredArgumentMissing (procedure argument : String)
  | invalidArgumentValue (procedure argument received expected : String) (description : Option String)
  | invalidJsonBody (payload : String)
  | payloadTooLarge (maxSize receivedSize : Number)
  | missingMethodName
  | methodNotFound (method : String) (routed : Bool)
  | methodNotAllowed (method path : String) (allowedVerbs : List String)
  | serverFault (procedure returnType : String) (returnedNothing : Bool)
  | handlerDefect (procedure : String)
  deriving DecidableEq, Repr

namespace GatewayError

/-- A procedure name as messages show it: underscores are hyphens. -/
def hyphenate (name : String) : String :=
  String.ofList (name.toList.map fun c => if c = '_' then '-' else c)

/-- The status of the answer. -/
def status : GatewayError → Number
  | .requiredArgumentMissing .. | .invalidArgumentValue .. | .invalidJsonBody .. => 400
  | .payloadTooLarge .. => 413
  | .missingMethodName => 400
  | .methodNotFound _ routed => if routed then 404 else 400
  | .methodNotAllowed .. => 405
  | .serverFault .. | .handlerDefect .. => 500

/-- The message of an error. -/
def message : GatewayError → String
  | .requiredArgumentMissing _ argument =>
    "An argument named '" ++ argument ++ "' is missing, it is required."
  | .invalidArgumentValue _ argument received expected description =>
    description.getD
      ("Incorrect type '" ++ received ++ "' for '" ++ argument ++ "'. expected '" ++ expected ++ "'.")
  | .invalidJsonBody payload => "Invalid JSON payload: '" ++ payload ++ "'."
  | .payloadTooLarge maxSize receivedSize =>
    "Request body too large: received " ++ receivedSize.text ++ " bytes, max " ++ maxSize.text ++
      " bytes"
  | .missingMethodName => "`method` is missing."
  | .methodNotFound method _ => "No service method `" ++ method ++ "` found."
  | .methodNotAllowed method path _ =>
    "The requested URL " ++ path ++ " was not allowed HTTP method " ++ method ++ "."
  | .serverFault procedure returnType returnedNothing =>
    if returnedNothing then
      "The return type of " ++ hyphenate procedure ++
        "() method is not optional, but its server-side implementation has tried to return nothing " ++
        "(i.e., null or undefined). It is an internal server error and should be fixed by server-side."
    else
      "The return type of the " ++ hyphenate procedure ++ "() method is " ++ returnType ++
        ", but its server-side implementation has tried to return a value of an invalid type. " ++
        "It is an internal server error and should be fixed by server-side."
  | .handlerDefect _ => "Internal Server Error"

/-- The named fields of an error. -/
def fields : GatewayError → Entries Value
  | .requiredArgumentMissing procedure argument =>
    [("procedure", .string procedure), ("argument", .string argument)]
  | .invalidArgumentValue procedure argument received expected description =>
    [("procedure", .string procedure), ("argument", .string argument), ("received", .string received),
      ("expected", .string expected)] ++
      (match description with
        | some d => [("description", .string d)]
        | none => [])
  | .invalidJsonBody payload => [("payload", .string payload)]
  | .payloadTooLarge maxSize receivedSize =>
    [("maxSize", .number maxSize), ("receivedSize", .number receivedSize)]
  | .missingMethodName => []
  | .methodNotFound method routed => [("method", .string method), ("routed", .bool routed)]
  | .methodNotAllowed method path verbs =>
    [("method", .string method), ("path", .string path), ("allowedVerbs", .array (verbs.map .string))]
  | .serverFault procedure returnType returnedNothing =>
    [("procedure", .string procedure), ("returnType", .string returnType),
      ("returnedNothing", .bool returnedNothing)]
  | .handlerDefect procedure => [("procedure", .string procedure)]

end GatewayError

/-- The kinds of errors. -/
inductive ErrorKind where
  | requiredArgumentMissing
  | invalidArgumentValue
  | invalidJsonBody
  | payloadTooLarge
  | missingMethodName
  | methodNotFound
  | methodNotAllowed
  | serverFault
  | handlerDefect
  deriving DecidableEq, Repr

/-- The kind of an error. -/
def GatewayError.kind : GatewayError → ErrorKind
  | .requiredArgumentMissing .. => .requiredArgumentMissing
  | .invalidArgumentValue .. => .invalidArgumentValue
  | .invalidJsonBody .. => .invalidJsonBody
  | .payloadTooLarge .. => .payloadTooLarge
  | .missingMethodName => .missingMethodName
  | .methodNotFound .. => .methodNotFound
  | .methodNotAllowed .. => .methodNotAllowed
  | .serverFault .. => .serverFault
  | .handlerDefect .. => .handlerDefect

namespace ErrorKind

/-- All kinds. -/
def all : List ErrorKind :=
  [.requiredArgumentMissing, .invalidArgumentValue, .invalidJsonBody, .payloadTooLarge, .missingMethodName,
    .methodNotFound, .methodNotAllowed, .serverFault, .handlerDefect]

/-- The name that a kind goes by. -/
def name : ErrorKind → String
  | .requiredArgumentMissing => "RequiredArgumentMissingError"
  | .invalidArgumentValue => "InvalidArgumentValueError"
  | .invalidJsonBody => "InvalidJsonBodyError"
  | .payloadTooLarge => "PayloadTooLargeError"
  | .missingMethodName => "MissingMethodNameError"
  | .methodNotFound => "MethodNotFoundError"
  | .methodNotAllowed => "MethodNotAllowedError"
  | .serverFault => "ServerFaultError"
  | .handlerDefect => "HandlerDefectError"

/-- The kind of a name. -/
def ofName? (s : String) : Option ErrorKind :=
  all.find? (·.name == s)

open Schema in
/-- The fields that an error of a kind is built from. -/
def fields : ErrorKind → List (Field Schema)
  | .requiredArgumentMissing => [required "procedure" .string, required "argument" .string]
  | .invalidArgumentValue =>
    [required "procedure" .string, required "argument" .string, required "received" .string,
      required "expected" .string, Schema.optional "description" .string]
  | .invalidJsonBody => [required "payload" .string]
  | .payloadTooLarge => [required "maxSize" .number, required "receivedSize" .number]
  | .missingMethodName => []
  | .methodNotFound => [required "method" .string, required "routed" .boolean]
  | .methodNotAllowed =>
    [required "method" .string, required "path" .string, required "allowedVerbs" (.array .string)]
  | .serverFault =>
    [required "procedure" .string, required "returnType" .string, required "returnedNothing" .boolean]
  | .handlerDefect => [required "procedure" .string, Schema.optional "cause" .unknown]

/-- The given fields that belong to a kind, if they fit. -/
def checkFields (kind : ErrorKind) (given : Entries Value) : Verdict (Entries Value) :=
  if kind.fields.isEmpty then .accepted []
  else (Schema.validate [] (.struct none kind.fields) (.object given)).map Value.entries

/-- A text field. -/
def textField (fields : Entries Value) (name : String) : String :=
  match Entries.get? fields name with
  | some (.string s) => s
  | _ => ""

/-- A field of several texts. -/
def textsField (fields : Entries Value) (name : String) : List String :=
  match Entries.get? fields name with
  | some (.array vs) => vs.filterMap fun v => match v with | .string s => some s | _ => none
  | _ => []

/-- A number field. -/
def numberField (fields : Entries Value) (name : String) : Number :=
  match Entries.get? fields name with
  | some (.number n) => n
  | _ => .nan

/-- A truth field. -/
def boolField (fields : Entries Value) (name : String) : Bool :=
  match Entries.get? fields name with
  | some (.bool b) => b
  | _ => false

/-- The error of a kind from fields that fit it. -/
def build (kind : ErrorKind) (fs : Entries Value) : GatewayError :=
  match kind with
  | .requiredArgumentMissing => .requiredArgumentMissing (textField fs "procedure") (textField fs "argument")
  | .invalidArgumentValue =>
    .invalidArgumentValue (textField fs "procedure") (textField fs "argument") (textField fs "received")
      (textField fs "expected")
      (match Entries.get? fs "description" with
        | some (.string s) => some s
        | _ => none)
  | .invalidJsonBody => .invalidJsonBody (textField fs "payload")
  | .payloadTooLarge => .payloadTooLarge (numberField fs "maxSize") (numberField fs "receivedSize")
  | .missingMethodName => .missingMethodName
  | .methodNotFound => .methodNotFound (textField fs "method") (boolField fs "routed")
  | .methodNotAllowed =>
    .methodNotAllowed (textField fs "method") (textField fs "path") (textsField fs "allowedVerbs")
  | .serverFault =>
    .serverFault (textField fs "procedure") (textField fs "returnType") (boolField fs "returnedNothing")
  | .handlerDefect => .handlerDefect (textField fs "procedure")

end ErrorKind

/-- Why a call has no outcome of its own. -/
inductive CallFault where
  | refused (e : GatewayError)
  /-- A fault stopped the call. -/
  | broken (f : Fault)
  deriving DecidableEq, Repr

end Gateway

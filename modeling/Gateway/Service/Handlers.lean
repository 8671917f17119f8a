import Gateway.Call.Failure
import Gateway.Service.Basic

/-!
# Handlers of a service

A table of handlers is bound to a service when every procedure finds a function under its name and no other key
is listed.  A name is looked up as in any object, so a procedure named like a member that every object answers
to finds that member where the table does not list it.
-/

namespace Gateway

/-- What a table of handlers holds under a key. -/
inductive HandlerEntry where
  | function (handler : Handler)
  | undefined
  | other

/-- A service with a handler for every procedure, by name in the service. -/
structure Implementation where
  service : Service
  handlers : List (String × Handler)

/-- A procedure with its handler. -/
structure Resolved where
  procedure : Procedure
  handler : Handler

namespace Implementation

/-- The failure of a handler that gives back nothing that could be run. -/
def notRunnable (shown : String) : Failure :=
  .defect (.error "RuntimeException" ("Not a valid effect: " ++ shown))

/-- The failure of a handler that a fault stops. -/
def stopped (f : Fault) : Failure :=
  .defect (.error f.name f.message)

/-- The fault of a member function that is called on no object. -/
def noObject : Fault := ⟨.type, "Cannot convert undefined or null to object"⟩

/-- The start of the indented JSON text of an object, or its plain text where it has none. -/
def shownObject (args : Value) : Attempt String :=
  match Json.write args with
  | .ok none => .ok "undefined"
  | .ok (some cs) => .ok (if cs.length ≤ 2 then String.ofList cs else "\x7b\n")
  | .error _ => args.text

/-- How a member function that every object answers to fails as a handler. -/
def memberFailure (name : String) (args : Value) : Failure :=
  match name with
  | "toString" => notRunnable "[object Undefined]"
  | "Object" =>
    match shownObject args with
    | .ok s => notRunnable s
    | .error f => stopped f
  | "__lookupGetter__" | "__lookupSetter__" =>
    match args.text with
    | .ok _ => notRunnable "undefined"
    | .error f => stopped f
  | "hasOwnProperty" | "propertyIsEnumerable" =>
    match args.text with
    | .ok _ => stopped noObject
    | .error f => stopped f
  | "toLocaleString" =>
    stopped ⟨.type, "Object.prototype.toLocaleString called on null or undefined"⟩
  | "__defineGetter__" | "__defineSetter__" =>
    stopped ⟨.type, "Object.prototype." ++ name ++ ": Expecting function"⟩
  | _ => stopped noObject

/-- The handler that a member function makes: it gives back no answer that could be run. -/
def memberHandler (name : String) : Handler :=
  fun args => .error (memberFailure name args)

/-- The handler that a function makes which gives back nothing. -/
def emptyHandler : Handler :=
  fun _ => .error (notRunnable "undefined")

/-- What a table answers to a name. -/
def find (table : Entries HandlerEntry) (name : String) : HandlerEntry :=
  match Entries.get? table name with
  | some entry => entry
  | none =>
    match Member.find name with
    | .absent => .undefined
    | .function f _ => .function (memberHandler f)
    | .shared => .other

/-- The handlers of a list of procedures, or the first fault. -/
def collect (table : Entries HandlerEntry) : List Procedure → Except ServiceFault (List (String × Handler))
  | [] => .ok []
  | p :: rest =>
    match find table p.name with
    | .undefined => .error (.missingHandler p.name)
    | .other => .error (.handlerNotFunction p.name)
    | .function h =>
      match collect table rest with
      | .ok handlers => .ok ((p.name, h) :: handlers)
      | .error fault => .error fault

/-- Binds a table of handlers to a service. -/
def bind (service : Service) (table : Entries HandlerEntry) : Except ServiceError Implementation :=
  match collect table service.procedures with
  | .error fault => .error ⟨service.name, fault⟩
  | .ok handlers =>
    match table.find? fun entry => !Entries.has service.internalToWire entry.1 with
    | some (key, _) => .error ⟨service.name, .undeclaredHandler key⟩
    | none => .ok ⟨service, handlers⟩

/-- The procedure with a public name and its handler. -/
def resolve (i : Implementation) (wireName : String) : Option Resolved :=
  (i.service.lookup wireName).bind fun p =>
    (i.handlers.lookup p.name).map fun h => ⟨p, h⟩

end Implementation

end Gateway

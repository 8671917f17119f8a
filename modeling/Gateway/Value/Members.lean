import Gateway.Value.Basic

/-!
# Members that every object answers to

Reading a key of an object that has no entry of that name may still find something: every object answers
to a fixed list of member functions and to `__proto__`; errors, dates and lists answer to more.
-/

namespace Gateway

/-- What a name finds in an object without an entry of that name. -/
inductive Member where
  | absent
  /-- A function, with the name it goes by. -/
  | function (name : String) (routine : Routine)
  /-- The object that all objects share. -/
  | shared
  deriving DecidableEq, Repr

namespace Member

/-- The member functions that no conversion asks for. -/
def functionNames : List String :=
  ["toLocaleString", "hasOwnProperty", "isPrototypeOf", "propertyIsEnumerable", "__defineGetter__",
    "__defineSetter__", "__lookupGetter__", "__lookupSetter__"]

/-- What a name finds in a plain object that has no entry of that name. -/
def find (name : String) : Member :=
  if name = Entries.reservedKey then .shared
  else if name = "constructor" then .function "Object" .other
  else if name = "toString" then .function name .kindText
  else if name = "valueOf" then .function name .identity
  else if functionNames.contains name then .function name .other
  else .absent

/-- The member functions of dates that no conversion asks for. -/
def dateFunctionNames : List String :=
  ["toDateString", "toTimeString", "toISOString", "toUTCString", "toLocaleString", "toLocaleDateString",
    "toLocaleTimeString", "getDate", "setDate", "getDay", "getFullYear", "setFullYear", "getHours", "setHours",
    "getMilliseconds", "setMilliseconds", "getMinutes", "setMinutes", "getMonth", "setMonth", "getSeconds",
    "setSeconds", "getTime", "setTime", "getTimezoneOffset", "getYear", "setYear", "getUTCDate", "setUTCDate",
    "getUTCDay", "getUTCFullYear", "setUTCFullYear", "getUTCHours", "setUTCHours", "getUTCMilliseconds",
    "setUTCMilliseconds", "getUTCMinutes", "setUTCMinutes", "getUTCMonth", "setUTCMonth", "getUTCSeconds",
    "setUTCSeconds"]

/-- What a name finds in a date. -/
def findInDate (name : String) : Member :=
  if name = "constructor" then .function "Date" .other
  else if name = "toString" then .function name .dateText
  else if name = "valueOf" then .function name .dateMoment
  else if name = "toJSON" then .function name .dateJson
  else if name = "toGMTString" then .function "toUTCString" .other
  else if dateFunctionNames.contains name then .function name .other
  else find name

/-- What a name finds in an error. -/
def findInError (className name : String) : Member :=
  if name = "constructor" then .function className .other
  else if name = "toString" then .function name .errorText
  else find name

/-- What a name finds in an instance of a declared error class. -/
def findInRaised (className name : String) : Member :=
  if name = "toJSON" then .function name .fieldsJson
  else if name = "pipe" ∨ name = "commit" then .function name .other
  else findInError className name

/-- The member functions of lists that no conversion asks for. -/
def listFunctionNames : List String :=
  ["at", "concat", "copyWithin", "entries", "every", "fill", "filter", "find", "findIndex", "findLast",
    "findLastIndex", "flat", "flatMap", "forEach", "includes", "indexOf", "join", "keys", "lastIndexOf", "map", "pop",
    "push", "reduce", "reduceRight", "reverse", "shift", "slice", "some", "sort", "splice", "toReversed", "toSorted",
    "toSpliced", "unshift", "values", "with"]

/-- What a name finds in a list. -/
def findInList (name : String) : Member :=
  if name = "constructor" then .function "Array" .other
  else if name = "toString" then .function name .listText
  else if listFunctionNames.contains name then .function name .other
  else find name

/-- What a name finds in a function. -/
def findInFunction (name : String) : Member :=
  if name = "constructor" then .function "Function" .other
  else if name = "toString" then .function name .functionText
  else find name

/-- The value of a member. -/
def value : Member → Value
  | .absent => .undefined
  | .function name routine => .function name routine
  | .shared => .object []

/-- The text that a member function prints as. -/
def sourceText (name : String) : String :=
  "function " ++ name ++ "() \x7b [native code] \x7d"

end Member

namespace Value

/-- Whether an object answers to the members that every object answers to. -/
def hasShared : Value → Bool
  | .heir .null _ => false
  | .heir parent _ => hasShared parent
  | _ => true

/-- What an object answers to a key that it does not hold itself. -/
def inherited : Value → String → Value
  | .error name _, key =>
    if key = "name" then .string name else (Member.findInError name key).value
  | .raised mark _, key =>
    if key = "name" then .string mark.tag
    else if key = "message" then .string mark.message
    else if key = "_op" then .string "Commit"
    else (Member.findInRaised mark.className key).value
  | .date _, key => (Member.findInDate key).value
  | .array _, key => (Member.findInList key).value
  | .function _ _, key => (Member.findInFunction key).value
  | .heir .null _, _ => .undefined
  | .heir parent es, key =>
    if key = Entries.reservedKey then (if (Value.heir parent es).hasShared then parent else .undefined)
    else (parent.own? key).getD (inherited parent key)
  | _, key => (Member.find key).value

/-- What an object answers to a key. -/
def member (v : Value) (key : String) : Value :=
  (v.own? key).getD (v.inherited key)

end Value

end Gateway

/-!
# Keyed values in the order of an object

An object lists its index-like keys first, in ascending order, and then its other keys in the order in
which they were first written.  A key written twice keeps its first place and takes its last value.
The key `__proto__` is ordinary in an object that was given as a whole, but writing one key at a time
(`assign`) does not add it.
-/

namespace Gateway

/-- Keys with their values, in the order in which an object lists them. -/
abbrev Entries (α : Type) := List (String × α)

namespace Entries

variable {α : Type}

-- Powers are the built-in ones, whatever other instances are in scope.
attribute [local instance (high)] instPowNat

/-- The value of a list of decimal digits without a leading zero, below `2 ^ 32 - 1`. -/
def indexOfChars? : List Char → Option Nat
  | ['0'] => some 0
  | [] => none
  | c :: cs =>
    if c = '0' || !(c :: cs).all Char.isDigit || 10 < (c :: cs).length then none
    else
      let n := (c :: cs).foldl (fun n d => n * 10 + (d.toNat - 0x30)) 0
      if n < 2 ^ (32 : Nat) - 1 then some n else none

/-- The index that a key spells, if it is index-like. -/
def indexOf? (key : String) : Option Nat :=
  indexOfChars? key.toList

/-- The key that writing one key at a time does not add. -/
def reservedKey : String := "__proto__"

/-- The value of a key. -/
def get? (es : Entries α) (key : String) : Option α :=
  es.lookup key

/-- Whether a key is listed. -/
def has (es : Entries α) (key : String) : Bool :=
  es.any (·.1 == key)

/-- The keys, in order. -/
def keys (es : Entries α) : List String :=
  es.map (·.1)

/-- Writes a key: in its place if it is listed, else at the end. -/
def set (es : Entries α) (key : String) (value : α) : Entries α :=
  if has es key then es.map fun e => if e.1 == key then (key, value) else e
  else es ++ [(key, value)]

/-- Puts an entry with an index-like key into a list sorted by index. -/
def insertIndexed (index : Nat) (entry : String × α) : List (Nat × (String × α)) →
    List (Nat × (String × α))
  | [] => [(index, entry)]
  | (i, e) :: rest =>
    if index < i then (index, entry) :: (i, e) :: rest else (i, e) :: insertIndexed index entry rest

/-- The entries with index-like keys, by ascending index. -/
def indexed (es : Entries α) : List (Nat × (String × α)) :=
  es.foldl
    (fun sorted e =>
      match indexOf? e.1 with
      | some i => insertIndexed i e sorted
      | none => sorted)
    []

/-- Index-like keys first, by ascending index, then the others as they stand. -/
def arrange (es : Entries α) : Entries α :=
  (indexed es).map (·.2) ++ es.filter fun e => (indexOf? e.1).isNone

/-- The entries that writing all pairs one after the other leaves. -/
def ofPairs (pairs : List (String × α)) : Entries α :=
  arrange (pairs.foldl (fun es p => set es p.1 p.2) [])

/-- Writes one key of an object that exists already: the reserved key only where it is listed. -/
def store (es : Entries α) (key : String) (value : α) : Entries α :=
  if key == reservedKey && !has es key then es else set es key value

/-- Writes one key after the other to an object that exists already. -/
def assign (es : Entries α) (pairs : List (String × α)) : Entries α :=
  arrange (pairs.foldl (fun es p => store es p.1 p.2) es)

end Entries

end Gateway

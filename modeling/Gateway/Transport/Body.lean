import Gateway.Error
import Gateway.Http.Message
import Gateway.Value.Text

/-!
# Bodies that arrive in chunks

A body is read chunk by chunk and refused as soon as it is longer than the limit.  A stream may also fail on
the way; a body that is already too long is refused before that.  Each reading makes an accumulator and changes it
with every chunk; at the end the chunks are copied into a buffer that is as long as the accumulator says.
-/

namespace Gateway

/-- What a stream delivers next. -/
inductive Chunk where
  | data (bytes : Bytes)
  /-- The stream fails, or delivers something without a text. -/
  | failure (fault : Fault)
  deriving DecidableEq, Repr

/-- The chunk of a value: its text. -/
def Chunk.ofValue (v : Value) : Chunk :=
  match v.display with
  | .ok s => .data (Text.Utf8.encode s)
  | .error f => .failure f

/-- Why a body was not read. -/
inductive ReadFault where
  | refused (e : GatewayError)
  | failed (fault : Fault)
  deriving DecidableEq, Repr

/-- What a reading has taken in of a body. -/
structure BodyAccumulator where
  /-- The chunks in the order in which they came. -/
  chunks : List Bytes
  /-- How many bytes came. -/
  size : Nat
  deriving DecidableEq, Repr

namespace BodyAccumulator

/-- Nothing is taken in yet. -/
def empty : BodyAccumulator := ⟨[], 0⟩

/-- More bytes came. -/
def grow (a : BodyAccumulator) (n : Nat) : BodyAccumulator :=
  { a with size := a.size + n }

/-- One more chunk is kept. -/
def push (a : BodyAccumulator) (bytes : Bytes) : BodyAccumulator :=
  { a with chunks := a.chunks ++ [bytes] }

/-- Copies chunks into a buffer one after the other, from an offset on. -/
def copyInto (buffer : Bytes) (offset : Nat) : List Bytes → Attempt Bytes
  | [] => .ok buffer
  | chunk :: rest =>
    if offset + chunk.length ≤ buffer.length then
      copyInto (buffer.take offset ++ chunk ++ buffer.drop (offset + chunk.length)) (offset + chunk.length) rest
    else .error .outOfBounds

/-- The body: the chunks in a buffer of the size. -/
def concat (a : BodyAccumulator) : Attempt Bytes :=
  copyInto (List.replicate a.size 0) 0 a.chunks

/-- The outcome of a reading that has come to its end. -/
def finish (a : BodyAccumulator) : Except ReadFault Bytes :=
  match a.concat with
  | .ok body => .ok body
  | .error fault => .error (.failed fault)

end BodyAccumulator

/-- The accumulators of all readings, each at its place. -/
abbrev BodyStore := List BodyAccumulator

/-- Reads the rest of a body into the accumulator at a place. -/
def readChunks (limit : Number) (place : Nat) (store : BodyStore) : List Chunk → Except ReadFault Bytes × BodyStore
  | [] => ((store.getD place .empty).finish, store)
  | .failure fault :: _ => (.error (.failed fault), store)
  | .data bytes :: rest =>
    let grown := store.modify place (·.grow bytes.length)
    let size := (grown.getD place .empty).size
    if limit.less (.ofInt size) then (.error (.refused (.payloadTooLarge limit (.ofInt size))), grown)
    else readChunks limit place (grown.modify place (·.push bytes)) rest

/-- Reads a body of at most `limit` bytes into a new accumulator. -/
def readInto (limit : Number) (store : BodyStore) (chunks : List Chunk) : Except ReadFault Bytes × BodyStore :=
  readChunks limit store.length (store ++ [.empty]) chunks

/-- The outcomes of readings one after the other. -/
def readRuns (limit : Number) (store : BodyStore) : List (List Chunk) → List (Except ReadFault Bytes)
  | [] => []
  | chunks :: rest =>
    (readInto limit store chunks).1 :: readRuns limit (readInto limit store chunks).2 rest

/-- Reads a body of at most `limit` bytes. -/
def readBody (limit : Number) (chunks : List Chunk) : Except ReadFault Bytes :=
  (readInto limit [] chunks).1

end Gateway

import Gateway.Number.Radix

/-!
# Request ids

An id is the time in milliseconds and a counter, both in base 36.  The counter starts at 0 and starts again
before it reaches `limit`, so `limit` ids in a row are pairwise distinct whatever the clock says.
-/

namespace Gateway.RequestId

/-- The number of values of the counter. -/
def limit : Nat := 0x7fffffff

/-- The digits of a natural number in base 36, before the digits `rest`. -/
def digitsBefore (n : Nat) (rest : List Char) : List Char :=
  if n < 36 then Number.radixDigit n :: rest
  else digitsBefore (n / 36) (Number.radixDigit (n % 36) :: rest)

/-- A counter value in base 36, with at least four digits. -/
def counterText (counter : Nat) : List Char :=
  let digits := digitsBefore counter []
  List.replicate (4 - digits.length) '0' ++ digits

/-- The id of a time and a counter value. -/
def make (time : Number) (counter : Nat) : String :=
  String.ofList (time.radixChars 36 ++ '-' :: counterText counter)

/-- The counter value after one id. -/
def next (counter : Nat) : Nat :=
  if limit ≤ counter + 1 then 0 else counter + 1

/-- The ids of requests at these times, from a counter value on. -/
def sequence (counter : Nat) : List Number → List String
  | [] => []
  | time :: rest => make time counter :: sequence (next counter) rest

end Gateway.RequestId

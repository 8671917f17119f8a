/-!
# Moments of the calendar

A moment is a count of milliseconds since the start of 1970, UTC, in the proleptic Gregorian calendar.
`write` gives its ISO 8601 text, `writeLong` the long one, and `read?` reads the ISO forms: a year, a month, a
day, or a date with a time of day and an offset.  A day up to 31 is accepted in every month and runs over into the next.
-/

namespace Gateway.Calendar

/-- The milliseconds of a day. -/
def dayLength : Int := 86400000

/-- The greatest distance of a moment from 1970: a hundred million days. -/
def bound : Int := 100000000 * dayLength

/-- Days from 1970-01-01 to the first day of a civil month, by counting years from March. -/
def daysOfCivil (year : Int) (month day : Nat) : Int :=
  let y := if month ≤ 2 then year - 1 else year
  let era := Int.fdiv y 400
  let yearOfEra := y - era * 400
  let shifted : Int := ((month : Int) + 9) % 12
  let dayOfYear := (153 * shifted + 2) / 5 + (day : Int) - 1
  let dayOfEra := yearOfEra * 365 + yearOfEra / 4 - yearOfEra / 100 + dayOfYear
  era * 146097 + dayOfEra - 719468

/-- The civil year, month and day of a count of days from 1970-01-01. -/
def civilOfDays (days : Int) : Int × Nat × Nat :=
  let z := days + 719468
  let era := Int.fdiv z 146097
  let dayOfEra := z - era * 146097
  let yearOfEra := (dayOfEra - dayOfEra / 1460 + dayOfEra / 36524 - dayOfEra / 146096) / 365
  let dayOfYear := dayOfEra - (365 * yearOfEra + yearOfEra / 4 - yearOfEra / 100)
  let shifted := (5 * dayOfYear + 2) / 153
  let day := (dayOfYear - (153 * shifted + 2) / 5 + 1).toNat
  let month := (if shifted < 10 then shifted + 3 else shifted - 9).toNat
  let year := yearOfEra + era * 400
  (if month ≤ 2 then year + 1 else year, month, day)

/-- Decimal digits padded with zeros on the left. -/
def padded (width n : Nat) : List Char :=
  let ds := Nat.toDigits 10 n
  List.replicate (width - ds.length) '0' ++ ds

/-- A year: four digits, or a sign and six. -/
def yearChars (year : Int) : List Char :=
  if 0 ≤ year ∧ year ≤ 9999 then padded 4 year.toNat
  else (if year < 0 then '-' else '+') :: padded 6 year.natAbs

/-- The ISO text of a moment, down to milliseconds. -/
def write (moment : Int) : String :=
  let days := Int.fdiv moment dayLength
  let ms := (moment - days * dayLength).toNat
  let (year, month, day) := civilOfDays days
  String.ofList
    (yearChars year ++ '-' :: padded 2 month ++ '-' :: padded 2 day ++ 'T' ::
      padded 2 (ms / 3600000) ++ ':' :: padded 2 (ms / 60000 % 60) ++ ':' ::
      padded 2 (ms / 1000 % 60) ++ '.' :: padded 3 (ms % 1000) ++ ['Z'])

/-- The short names of the days of the week, from Thursday, the first day of 1970. -/
def dayNames : List String :=
  ["Thu", "Fri", "Sat", "Sun", "Mon", "Tue", "Wed"]

/-- The short names of the months. -/
def monthNames : List String :=
  ["Jan", "Feb", "Mar", "Apr", "May", "Jun", "Jul", "Aug", "Sep", "Oct", "Nov", "Dec"]

/-- A moment with its day of the week and its time zone, down to seconds. -/
def writeLong (moment : Int) : String :=
  let days := Int.fdiv moment dayLength
  let seconds := ((moment - days * dayLength) / 1000).toNat
  let (year, month, day) := civilOfDays days
  dayNames.getD (days % 7).toNat "" ++ " " ++ monthNames.getD (month - 1) "" ++ " " ++
    String.ofList
      (padded 2 day ++ ' ' :: ((if year < 0 then ['-'] else []) ++ padded 4 year.natAbs) ++ ' ' ::
        padded 2 (seconds / 3600) ++ ':' :: padded 2 (seconds / 60 % 60) ++ ':' :: padded 2 (seconds % 60)) ++
    " GMT+0000 (Coordinated Universal Time)"

/-- Exactly `count` digits at the start of a text, and the rest. -/
def digits? (count : Nat) (cs : List Char) : Option (Nat × List Char) :=
  let ds := cs.take count
  if ds.length = count ∧ ds.all Char.isDigit then
    some (ds.foldl (fun n c => n * 10 + (c.toNat - 0x30)) 0, cs.drop count)
  else none

/-- A year at the start of a text; the year zero with a minus sign is refused. -/
def year? : List Char → Option (Int × List Char)
  | '+' :: cs => (digits? 6 cs).map fun (n, rest) => ((n : Int), rest)
  | '-' :: cs => (digits? 6 cs).bind fun (n, rest) => if n = 0 then none else some (-(n : Int), rest)
  | cs => (digits? 4 cs).map fun (n, rest) => ((n : Int), rest)

/-- A number of two digits between bounds after a mark, or the default when the mark is absent. -/
def marked? (mark : Char) (low high default : Nat) : List Char → Option (Nat × List Char)
  | c :: cs =>
    if c = mark then
      (digits? 2 cs).bind fun (n, rest) => if low ≤ n ∧ n ≤ high then some (n, rest) else none
    else some (default, c :: cs)
  | [] => some (default, [])

/-- A fraction of a second in milliseconds; digits beyond the third are dropped. -/
def fraction? : List Char → Option (Nat × List Char)
  | '.' :: cs =>
    let ds := cs.takeWhile Char.isDigit
    if ds.isEmpty then none
    else
      let three := (ds ++ ['0', '0']).take 3
      some (three.foldl (fun n c => n * 10 + (c.toNat - 0x30)) 0, cs.dropWhile Char.isDigit)
  | cs => some (0, cs)

/-- The minutes of an offset, with or without a colon before them. -/
def offsetMinutes? : List Char → Option (Nat × List Char)
  | ':' :: cs => digits? 2 cs
  | cs => digits? 2 cs

/-- The offset at the end of a text, in milliseconds. -/
def offset? : List Char → Option Int
  | [] | ['Z'] | ['z'] => some 0
  | sign :: cs =>
    if sign = '+' ∨ sign = '-' then do
      let (hours, rest) ← digits? 2 cs
      let (minutes, rest) ← offsetMinutes? rest
      if hours > 23 ∨ minutes > 59 ∨ !rest.isEmpty then none
      let size : Int := ((hours * 60 + minutes) * 60000 : Nat)
      some (if sign = '-' then -size else size)
    else none

/-- The seconds after the minutes, if any, with their fraction in milliseconds. -/
def seconds? (cs : List Char) : Option (Nat × Nat × List Char) :=
  if cs.head? = some ':' then do
    let (seconds, rest) ← marked? ':' 0 59 0 cs
    let (ms, rest) ← fraction? rest
    some (seconds, ms, rest)
  else some (0, 0, cs)

/-- A time of day with its offset, in milliseconds; midnight may be written `24:00`. -/
def clock? (cs : List Char) : Option Int := do
  let (hours, rest) ← digits? 2 cs
  let (minutes, rest) ← marked? ':' 0 59 60 rest
  let (seconds, ms, rest) ← seconds? rest
  let offset ← offset? rest
  if minutes = 60 ∨ hours > 24 ∨ (hours = 24 ∧ (minutes, seconds, ms) ≠ (0, 0, 0)) then none
  some ((((hours * 60 + minutes) * 60 + seconds) * 1000 + ms : Nat) - offset)

/-- The moment that an ISO text names. -/
def read? (s : String) : Option Int := do
  let (year, rest) ← year? s.toList
  let (month, rest) ← marked? '-' 1 12 1 rest
  let (day, rest) ← marked? '-' 1 31 1 rest
  let time ←
    match rest with
    | [] => some 0
    | 'T' :: cs | 't' :: cs => clock? cs
    | _ => none
  let moment := daysOfCivil year month day * dayLength + time
  if moment.natAbs ≤ bound.natAbs then some moment else none

end Gateway.Calendar

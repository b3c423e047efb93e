import MetricLayer.Time.Date

/-!
# Timestamps

An instant of universal time, to the nanosecond. It is written with a date, `T`,
a time of day, the fewest of 0, 3, 6 or 9 digits of a fraction that are exact,
and `Z`. What is read may have any offset, which is taken off, and blanks
between its fields.
-/

namespace MetricLayer

/-- Seconds since the beginning of 1970, and nanoseconds beyond them. A leap
second has a thousand million nanoseconds more. -/
structure Timestamp where
  seconds : Int
  nanos : Nat
  deriving DecidableEq, Repr

namespace Timestamp

/-- Days since the beginning of 1970. Years are counted from March in eras of
400. -/
def daysOf (year : Int) (month day : Nat) : Int :=
  let y := if month ≤ 2 then year - 1 else year
  let era := y / 400
  let yearOfEra := y % 400
  let monthFromMarch : Int := (month + 9) % 12
  let dayOfYear := (153 * monthFromMarch + 2) / 5 + day - 1
  era * 146097 + yearOfEra * 365 + yearOfEra / 4 - yearOfEra / 100 + dayOfYear - 719468

/-- The year, month and day of a number of days since the beginning of 1970. -/
def fieldsOf (days : Int) : Int × Nat × Nat :=
  let z := days + 719468
  let era := z / 146097
  let dayOfEra := z % 146097
  let yearOfEra := (dayOfEra - dayOfEra / 1460 + dayOfEra / 36524 - dayOfEra / 146096) / 365
  let dayOfYear := dayOfEra - (365 * yearOfEra + yearOfEra / 4 - yearOfEra / 100)
  let monthFromMarch := (5 * dayOfYear + 2) / 153
  let day := dayOfYear - (153 * monthFromMarch + 2) / 5 + 1
  let month := if monthFromMarch < 10 then monthFromMarch + 3 else monthFromMarch - 9
  let year := yearOfEra + era * 400 + (if month ≤ 2 then 1 else 0)
  (year, month.toNat, day.toNat)

def fractionText (nanos : Nat) : String :=
  if nanos == 0 then ""
  else if nanos % 1000000 == 0 then "." ++ Date.padded 3 (nanos / 1000000)
  else if nanos % 1000 == 0 then "." ++ Date.padded 6 (nanos / 1000)
  else "." ++ Date.padded 9 nanos

def text (t : Timestamp) : String :=
  let (year, month, day) := fieldsOf (t.seconds / 86400)
  let ofDay := (t.seconds % 86400).toNat
  let leap := t.nanos / 1000000000
  Date.yearText year ++ "-" ++ Date.padded 2 month ++ "-" ++ Date.padded 2 day ++ "T" ++
    Date.padded 2 (ofDay / 3600) ++ ":" ++ Date.padded 2 (ofDay / 60 % 60) ++ ":" ++
    Date.padded 2 (ofDay % 60 + leap) ++ fractionText (t.nanos % 1000000000) ++ "Z"

/-- The fraction of a second in nanoseconds, after digits beyond the ninth are
left out, and the rest. -/
def fraction (cs : List Char) : Except Date.Fault (Nat × List Char) :=
  match cs with
  | '.' :: rest => do
    let digits := rest.takeWhile Char.isDigit
    let (n, _) ← Date.number 9 rest
    .ok (n * Nat.pow 10 (9 - min 9 digits.length), rest.drop digits.length)
  | cs => .ok (0, cs)

/-- The seconds that local time is ahead, and the rest. -/
def offset (cs : List Char) : Except Date.Fault (Int × List Char) :=
  match cs with
  | [] => .error .tooShort
  | c :: rest =>
    if c == 'Z' || c == 'z' then .ok (0, rest)
    else if (cs.take 3).map Char.toUpper == ['U', 'T', 'C'] then .ok (0, cs.drop 3)
    else if c != '+' && c != '-' && c != '−' then .error .invalid
    else do
      let pair (high : Nat) (cs : List Char) : Except Date.Fault (Nat × List Char) :=
        if cs.length < 2 then .error .tooShort
        else if (cs.take 2).all Char.isDigit then Date.numberIn 0 high 2 cs
        else .error .invalid
      let (hours, rest) ← pair 99 rest
      let (minutes, rest) ← pair 59 (rest.dropWhile fun d => d == ':' || Text.isBlank d)
      let ahead : Int := hours * 3600 + minutes * 60
      if ahead ≥ 86400 then .error .outOfRange
      else .ok (if c == '+' then ahead else -ahead, rest)

def read (s : String) : Except Date.Fault Timestamp := do
  let blankThen (c : Char) (cs : List Char) := Date.literal c (Text.trimStart cs)
  let (year, cs) ← Date.yearIn s.toList
  let cs ← blankThen '-' cs
  let (month, cs) ← Date.numberIn 1 12 2 cs
  let cs ← blankThen '-' cs
  let (day, cs) ← Date.numberIn 1 31 2 cs
  let cs ← match cs with
    | [] => .error .tooShort
    | c :: rest => if c == 'T' || c == 't' || c == ' ' then .ok rest else .error .invalid
  let (hour, cs) ← Date.numberIn 0 23 2 cs
  let cs ← blankThen ':' cs
  let (minute, cs) ← Date.numberIn 0 59 2 cs
  let cs ← blankThen ':' cs
  let (second, cs) ← Date.numberIn 0 60 2 cs
  let (nanos, cs) ← fraction cs
  let (ahead, cs) ← offset (Text.trimStart cs)
  if !(Text.trimStart cs).isEmpty then .error .trailing
  else if !isDate year month day then .error .outOfRange
  else
    let leap := if second == 60 then 1 else 0
    let ofDay : Int := hour * 3600 + minute * 60 + (second - leap : Nat)
    .ok ⟨daysOf year month day * 86400 + ofDay - ahead, nanos + leap * 1000000000⟩

end Timestamp

end MetricLayer

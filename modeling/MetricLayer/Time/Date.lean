import MetricLayer.Text.Blank

/-!
# Dates

A date of the Gregorian calendar, written `2024-03-01`. Years beyond four digits
and before the year 0 carry their sign. `Date.read` reads the same form more
freely: fields may have fewer digits and blanks before them.
-/

namespace MetricLayer

def isLeapYear (year : Int) : Bool := year % 4 == 0 && (year % 100 != 0 || year % 400 == 0)

def daysInMonth (year : Int) (month : Nat) : Nat :=
  if month == 2 then if isLeapYear year then 29 else 28
  else if month == 4 || month == 6 || month == 9 || month == 11 then 30
  else 31

/-- Whether there is such a day, in the years that can be counted. -/
def isDate (year : Int) (month day : Nat) : Bool :=
  -262143 ≤ year && year ≤ 262142 && 1 ≤ month && month ≤ 12 && 1 ≤ day &&
    day ≤ daysInMonth year month

structure Date where
  year : Int
  month : Nat
  day : Nat
  valid : isDate year month day = true
  deriving DecidableEq

namespace Date

/-- Why a text is not a date. -/
inductive Fault where
  | invalid
  | tooShort
  | outOfRange
  | trailing
  deriving DecidableEq, Repr

def Fault.message : Fault → String
  | .invalid => "input contains invalid characters"
  | .tooShort => "premature end of input"
  | .outOfRange => "input is out of range"
  | .trailing => "trailing input"

def ofFields? (year : Int) (month day : Nat) : Option Date :=
  if h : isDate year month day = true then some ⟨year, month, day, h⟩ else none

/-- Increases from each date to the next. -/
def order (d : Date) : Int := (d.year * 13 + d.month) * 32 + d.day

instance : LT Date := ⟨fun a b => a.order < b.order⟩

instance : DecidableLT Date := fun a b => inferInstanceAs (Decidable (a.order < b.order))

def padded (width n : Nat) : String :=
  let digits := toString n
  String.ofList (List.replicate (width - digits.length) '0') ++ digits

def yearText (year : Int) : String :=
  if 0 ≤ year && year ≤ 9999 then padded 4 year.toNat
  else (if year < 0 then "-" else "+") ++ padded 4 year.natAbs

def text (d : Date) : String :=
  yearText d.year ++ "-" ++ padded 2 d.month ++ "-" ++ padded 2 d.day

/-- At most `width` digits, and at least one, and the rest. -/
def number (width : Nat) (cs : List Char) : Except Fault (Nat × List Char) :=
  let digits := (cs.take width).takeWhile Char.isDigit
  if digits.isEmpty then .error (if cs.isEmpty then .tooShort else .invalid)
  else .ok (digits.foldl (fun n c => 10 * n + (c.toNat - '0'.toNat)) 0, cs.drop digits.length)

/-- A year of at most four digits, or of any number of them after a sign. -/
def signedYear (cs : List Char) : Except Fault (Int × List Char) :=
  match cs with
  | '-' :: rest => do
    let (n, rest) ← number rest.length rest
    .ok (-(n : Int), rest)
  | '+' :: rest => do
    let (n, rest) ← number rest.length rest
    .ok ((n : Int), rest)
  | _ => do
    let (n, rest) ← number 4 cs
    .ok ((n : Int), rest)

def literal (c : Char) : List Char → Except Fault (List Char)
  | [] => .error .tooShort
  | d :: rest => if d == c then .ok rest else .error .invalid

def numberIn (low high width : Nat) (cs : List Char) : Except Fault (Nat × List Char) := do
  let (n, rest) ← number width (Text.trimStart cs)
  if low ≤ n && n ≤ high then .ok (n, rest) else .error .outOfRange

def yearIn (cs : List Char) : Except Fault (Int × List Char) := do
  let (year, rest) ← signedYear (Text.trimStart cs)
  if Int32.minValue.toInt ≤ year && year ≤ Int32.maxValue.toInt then .ok (year, rest) else .error .outOfRange

/-- The date that a text is, year before month before day. -/
def read (cs : List Char) : Except Fault Date := do
  let (year, cs) ← yearIn cs
  let cs ← literal '-' cs
  let (month, cs) ← numberIn 1 12 2 cs
  let cs ← literal '-' cs
  let (day, cs) ← numberIn 1 31 2 cs
  if !cs.isEmpty then .error .trailing
  else match ofFields? year month day with
    | some date => .ok date
    | none => .error .outOfRange

end Date

end MetricLayer

import ForwardedIp.Text.Blank
import ForwardedIp.Text.Digits
/-!
# Points in time

A point in time is a day, a second of the day and nanoseconds, in universal time. A leap second is
the last second of a minute with a thousand million nanoseconds or more. Reading takes a date, a
time and an offset and is lenient about blanks and leading zeros; printing always gives universal
time, with no, three, six or nine fraction digits.
-/
namespace ForwardedIp

/-- A point in universal time. Days are counted from 1970-01-01. -/
structure Timestamp where
  day : Int
  second : Nat
  nano : Nat
  deriving DecidableEq

namespace Timestamp

def isLeapYear (year : Int) : Bool := year % 4 == 0 && (year % 100 != 0 || year % 400 == 0)

def daysInMonth (year : Int) (month : Nat) : Nat :=
  if month = 2 then (if isLeapYear year then 29 else 28)
  else if month = 4 ∨ month = 6 ∨ month = 9 ∨ month = 11 then 30
  else 31

/-- The day of a date. Years begin in March here, so that a leap day comes last. -/
def dayOfDate (year : Int) (month day : Nat) : Int :=
  let y := if month ≤ 2 then year - 1 else year
  let era := y / 400
  let yearOfEra := y % 400
  let dayOfYear : Int := (153 * ((month + 9) % 12) + 2) / 5 + day - 1
  era * 146097 + (yearOfEra * 365 + yearOfEra / 4 - yearOfEra / 100 + dayOfYear) - 719468

/-- The date of a day, as year, month and day of the month. -/
def dateOfDay (day : Int) : Int × Nat × Nat :=
  let z := day + 719468
  let era := z / 146097
  let dayOfEra := (z % 146097).toNat
  let yearOfEra := (dayOfEra - dayOfEra / 1460 + dayOfEra / 36524 - dayOfEra / 146096) / 365
  let dayOfYear := dayOfEra - (365 * yearOfEra + yearOfEra / 4 - yearOfEra / 100)
  let m := (5 * dayOfYear + 2) / 153
  let month := if m < 10 then m + 3 else m - 9
  let year := era * 400 + yearOfEra + (if month ≤ 2 then 1 else 0)
  (year, month, dayOfYear - (153 * m + 2) / 5 + 1)

/-- The first and the last year. -/
def yearRange : Int × Int := (-262143, 262142)

/-- Reads from the front of a text. -/
abbrev Scanner := StateT (List Char) Option

/-- Drops the blanks in front. -/
def blanks : Scanner Unit := modify Text.trimStart

/-- Takes one character of a kind. -/
def one (p : Char → Bool) : Scanner Char := fun cs =>
  match cs with
  | c :: rest => if p c then some (c, rest) else none
  | [] => none

/-- Takes digits, one at least and so many at most. -/
def digits (most : Option Nat) : Scanner (List Char) := fun cs =>
  let ds := match most with
    | some n => (cs.take n).takeWhile Char.isDigit
    | none => cs.takeWhile Char.isDigit
  if ds.isEmpty then none else some (ds, cs.drop ds.length)

/-- Takes a number of so many digits at most, after blanks. -/
def number (most : Nat) : Scanner Nat := do
  blanks
  Text.ofDecimal? (← digits (some most))

/-- Takes a year: four digits at most, or any number of digits after a sign. -/
def year : Scanner Int := do
  blanks
  match (← get).head? with
  | some '-' => modify (·.drop 1); return -(← Text.ofDecimal? (← digits none) : Nat)
  | some '+' => modify (·.drop 1); return (← Text.ofDecimal? (← digits none) : Nat)
  | _ => return (← Text.ofDecimal? (← digits (some 4)) : Nat)

/-- Takes a mark after blanks. -/
def mark (c : Char) : Scanner Unit := do
  blanks
  let _ ← one (· == c)

/-- Takes a fraction of a second in nanoseconds. Digits beyond the ninth do not count. -/
def fraction : Scanner Nat := do
  if (← get).head? = some '.' then
    modify (·.drop 1)
    let ds ← digits none
    let first := ds.take 9
    let n ← Text.ofDecimal? first
    return n * Nat.pow 10 (9 - first.length)
  else return 0

/-- Takes an offset from universal time in seconds. Its hours and minutes have two digits each,
with colons and blanks between them. -/
def offset : Scanner Int := do
  let negative := (← one fun c => c == '+' || c == '-' || c == '\u2212') != '+'
  let h1 ← one Char.isDigit
  let h2 ← one Char.isDigit
  modify (·.dropWhile fun c => c == ':' || Text.isBlank c)
  let m1 ← one fun c => c.isDigit && c ≤ '5'
  let m2 ← one Char.isDigit
  let hours ← Text.ofDecimal? [h1, h2]
  let minutes ← Text.ofDecimal? [m1, m2]
  let seconds : Int := hours * 3600 + minutes * 60
  return if negative then -seconds else seconds

/-- Takes a zone: the letters UTC in either case, a Z, or an offset. -/
def zone : Scanner Int := do
  let cs ← get
  if (cs.take 3).map Char.toUpper = ['U', 'T', 'C'] then
    modify (·.drop 3)
    return 0
  if cs.head? = some 'Z' ∨ cs.head? = some 'z' then
    modify (·.drop 1)
    return 0
  offset

/-- The point in time with this local date and time at an offset, if there is one. -/
def ofLocal? (year : Int) (month day hour minute second nano : Nat) (offset : Int) :
    Option Timestamp :=
  if yearRange.1 ≤ year ∧ year ≤ yearRange.2 ∧ 1 ≤ month ∧ month ≤ 12 ∧ 1 ≤ day ∧
      day ≤ daysInMonth year month ∧ hour ≤ 23 ∧ minute ≤ 59 ∧ second ≤ 60 ∧
      offset.natAbs < 86400 then
    -- a leap second is kept in the nanoseconds
    let (second, nano) := if second = 60 then (59, nano + 1000000000) else (second, nano)
    let total : Int := hour * 3600 + minute * 60 + second - offset
    let utcDay := dayOfDate year month day + total / 86400
    let utcYear := (dateOfDay utcDay).1
    if yearRange.1 ≤ utcYear ∧ utcYear ≤ yearRange.2 then
      some ⟨utcDay, (total % 86400).toNat, nano⟩
    else none
  else none

def scan : Scanner Timestamp := do
  let y ← year
  mark '-'
  let m ← number 2
  mark '-'
  let d ← number 2
  let _ ← one fun c => c == 'T' || c == 't' || c == ' '
  let hour ← number 2
  mark ':'
  let minute ← number 2
  mark ':'
  let second ← number 2
  let nano ← fraction
  blanks
  let offset ← zone
  ofLocal? y m d hour minute second nano offset

/-- Reads a point in time; only blanks may follow it. -/
def parse? (text : String) : Option Timestamp := do
  let (t, rest) ← scan text.toList
  if (Text.trimStart rest).isEmpty then some t else none

/-- A number with at least so many digits. -/
def padded (width n : Nat) : List Char :=
  let ds := Nat.toDigits 10 n
  List.replicate (width - ds.length) '0' ++ ds

/-- A year has four digits; outside of these it has a sign and four digits at least. -/
def yearChars (year : Int) : List Char :=
  if 0 ≤ year ∧ year ≤ 9999 then padded 4 year.toNat
  else (if year < 0 then '-' else '+') :: padded 4 year.natAbs

/-- A fraction with three, six or nine digits, or none. -/
def fractionChars (nano : Nat) : List Char :=
  if nano = 0 then []
  else if nano % 1000000 = 0 then '.' :: padded 3 (nano / 1000000)
  else if nano % 1000 = 0 then '.' :: padded 6 (nano / 1000)
  else '.' :: padded 9 nano

def text (t : Timestamp) : String :=
  let (year, month, day) := dateOfDay t.day
  let leap := 1000000000 ≤ t.nano
  let second := t.second % 60 + (if leap then 1 else 0)
  let nano := if leap then t.nano - 1000000000 else t.nano
  String.ofList (yearChars year ++ '-' :: padded 2 month ++ '-' :: padded 2 day ++
    'T' :: padded 2 (t.second / 3600) ++ ':' :: padded 2 (t.second / 60 % 60) ++
    ':' :: padded 2 second ++ fractionChars nano ++ ['Z'])

end Timestamp

end ForwardedIp

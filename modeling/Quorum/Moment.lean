/-
  Quorum/Moment.lean
  ==================
  **Dates, times of day and time stamps.**

  A time stamp counts microseconds from the beginning of 1970 in universal time and keeps
  the zone it was given in, which only its text shows.  Dates follow the Gregorian rules
  in both directions of time.
-/
import Quorum.Decimal.Numeral

namespace Quorum

/-- A day of the Gregorian calendar. -/
structure Date where
  year : Int
  month : Nat
  day : Nat
deriving DecidableEq, Repr

namespace Date

/-- Every fourth year is a leap year, except every hundredth, except every four-hundredth. -/
def isLeap (year : Int) : Bool := year % 4 == 0 && (year % 100 != 0 || year % 400 == 0)

def daysInMonth (year : Int) (month : Nat) : Nat :=
  if month == 2 then (if isLeap year then 29 else 28)
  else if month == 4 || month == 6 || month == 9 || month == 11 then 30
  else 31

/-- Days from 1970-01-01.  Years are counted from March, so that the leap day comes last. -/
def toDays (d : Date) : Int :=
  let y := if d.month ≤ 2 then d.year - 1 else d.year
  let era := Int.fdiv y 400
  let yearOfEra := y - era * 400
  let monthFromMarch : Int := if d.month > 2 then (d.month : Int) - 3 else (d.month : Int) + 9
  let dayOfYear := (153 * monthFromMarch + 2) / 5 + (d.day : Int) - 1
  let dayOfEra := yearOfEra * 365 + yearOfEra / 4 - yearOfEra / 100 + dayOfYear
  era * 146097 + dayOfEra - 719468

/-- The date a number of days after 1970-01-01. -/
def ofDays (days : Int) : Date :=
  let z := days + 719468
  let era := Int.fdiv z 146097
  let dayOfEra := z - era * 146097
  let yearOfEra := (dayOfEra - dayOfEra / 1460 + dayOfEra / 36524 - dayOfEra / 146096) / 365
  let dayOfYear := dayOfEra - (365 * yearOfEra + yearOfEra / 4 - yearOfEra / 100)
  let monthFromMarch := (5 * dayOfYear + 2) / 153
  let day := dayOfYear - (153 * monthFromMarch + 2) / 5 + 1
  let month := if monthFromMarch < 10 then monthFromMarch + 3 else monthFromMarch - 9
  let year := yearOfEra + era * 400 + (if month ≤ 2 then 1 else 0)
  ⟨year, month.toNat, day.toNat⟩

/-- `YYYY-MM-DD`. -/
def text (d : Date) : String :=
  let pad (width n : Nat) := String.ofList (Decimal.padZeros width (Decimal.digitChars n))
  s!"{pad 4 d.year.toNat}-{pad 2 d.month}-{pad 2 d.day}"

end Date

/-- A point in time, with the zone it is written in: minutes east, or none given. -/
structure Timestamp where
  /-- Microseconds from 1970-01-01T00:00:00, in universal time if the zone is known. -/
  micros : Int
  zone : Option Int := some 0
deriving DecidableEq, Repr

namespace Timestamp

/-- The time stamp some seconds later, to the nearest microsecond. -/
def after (t : Timestamp) (seconds : Rat) : Timestamp :=
  { t with micros := t.micros + Decimal.roundRat (seconds * 1000000) }

def secondsSince (later earlier : Timestamp) : Rat :=
  mkRat (later.micros - earlier.micros) 1000000

/-- Date, hour, minute, second and microsecond as they are read in the zone. -/
def civil (t : Timestamp) : Date × Nat × Nat × Nat × Nat :=
  let local' := t.micros + (t.zone.getD 0) * 60000000
  let days := Int.fdiv local' 86400000000
  let rest := (local' - days * 86400000000).toNat
  (Date.ofDays days, rest / 3600000000, rest / 60000000 % 60, rest / 1000000 % 60, rest % 1000000)

/-- Date and time of day; microseconds only where there are any. -/
def localText (t : Timestamp) : String :=
  let (date, hour, minute, second, micro) := t.civil
  let pad (width n : Nat) := String.ofList (Decimal.padZeros width (Decimal.digitChars n))
  let fraction := if micro == 0 then "" else "." ++ pad 6 micro
  s!"{date.text}T{pad 2 hour}:{pad 2 minute}:{pad 2 second}{fraction}"

/-- An offset from universal time as `±HH:MM`. -/
def offsetText (minutes : Int) : String :=
  let pad (n : Nat) := String.ofList (Decimal.padZeros 2 (Decimal.digitChars n))
  let sign := if minutes < 0 then "-" else "+"
  s!"{sign}{pad (minutes.natAbs / 60)}:{pad (minutes.natAbs % 60)}"

/-- With the offset written out: `2025-01-01T12:00:00+00:00`. -/
def text (t : Timestamp) : String :=
  match t.zone with
  | some minutes => t.localText ++ offsetText minutes
  | none => t.localText

/-- With `Z` for universal time: `2025-01-01T12:00:00Z`. -/
def exportText (t : Timestamp) : String :=
  match t.zone with
  | some 0 => t.localText ++ "Z"
  | some minutes => t.localText ++ offsetText minutes
  | none => t.localText

end Timestamp

/-! ### Reading -/

/-- What is wrong with the text of a date or a time stamp. -/
inductive DateProblem where
  | tooShort | extraCharacters | yearDigits | monthDigits | dayDigits | dateSeparator
  | monthRange | dayRange
deriving DecidableEq, Repr

def DateProblem.message : DateProblem → String
  | .tooShort => "input is too short"
  | .extraCharacters => "unexpected extra characters at the end of the input"
  | .yearDigits => "invalid character in year"
  | .monthDigits => "invalid character in month"
  | .dayDigits => "invalid character in day"
  | .dateSeparator => "invalid date separator, expected `-`"
  | .monthRange => "month value is outside expected range of 1-12"
  | .dayRange => "day value is outside expected range"

/-- A number of exactly `width` digits at the start. -/
def fixedDigits? (width : Nat) (cs : List Char) : Option (Nat × List Char) :=
  let head := cs.take width
  if head.length == width && head.all Char.isDigit then some (Decimal.ofDigits head, cs.drop width)
  else none

/-- A date at the start of a text, and the rest. -/
def readDate (cs : List Char) : Except DateProblem (Date × List Char) := do
  if cs.length < 10 then throw .tooShort
  let some (year, r) := fixedDigits? 4 cs | throw .yearDigits
  let '-' :: r := r | throw .dateSeparator
  let some (month, r) := fixedDigits? 2 r | throw .monthDigits
  let '-' :: r := r | throw .dateSeparator
  let some (day, r) := fixedDigits? 2 r | throw .dayDigits
  if month < 1 || 12 < month then throw .monthRange
  if day < 1 || Date.daysInMonth year month < day then throw .dayRange
  return (⟨year, month, day⟩, r)

/-- A text that is a date and nothing else. -/
def wholeDate (cs : List Char) : Except DateProblem Date := do
  let (date, rest) ← readDate cs
  if rest.isEmpty then return date else throw .extraCharacters

def fractionMicros? : List Char → Option (Nat × List Char)
  | '.' :: r | ',' :: r =>
    let (digits, rest) := Decimal.takeDigits r
    if digits.isEmpty || 6 < digits.length then none
    else some (Decimal.ofDigits (digits ++ List.replicate (6 - digits.length) '0'), rest)
  | r => some (0, r)

/-- A zone at the end of a text: nothing, `Z`, or an offset in hours and minutes. -/
def zone? : List Char → Option (Option Int)
  | [] => some none
  | ['Z'] | ['z'] => some (some 0)
  | sign :: r => do
    guard (sign == '+' || sign == '-')
    let (hours, r) ← fixedDigits? 2 r
    let r := match r with
      | ':' :: r' => r'
      | r' => r'
    let (minutes, r) ← fixedDigits? 2 r
    guard (r.isEmpty && hours < 24 && minutes < 60)
    let total : Int := hours * 60 + minutes
    some (some (if sign == '-' then -total else total))

/-- A time stamp: a date, a separator, hours and minutes, perhaps seconds with a fraction, and
    perhaps a zone. -/
def readTimestamp? (cs : List Char) : Option Timestamp := do
  let (date, r) ← (readDate cs).toOption
  let separator :: r := r | none
  guard (separator == 'T' || separator == 't' || separator == ' ' || separator == '_')
  let (hour, r) ← fixedDigits? 2 r
  let ':' :: r := r | none
  let (minute, r) ← fixedDigits? 2 r
  let (second, micro, r) ← match r with
    | ':' :: r' => do
      let (second, r'') ← fixedDigits? 2 r'
      let (micro, rest) ← fractionMicros? r''
      some (second, micro, rest)
    | r' => some (0, 0, r')
  guard (hour < 24 && minute < 60 && second < 60)
  let zone ← zone? r
  let micros := ((date.toDays * 24 + hour) * 60 + minute) * 60000000 + second * 1000000 + micro
  some ⟨micros - (zone.getD 0) * 60000000, zone⟩

end Quorum

/-
  Quorum/Yaml/Scalar.lean
  =======================
  **The data that scalars write.**

  A tag promises a kind of datum; a scalar that a tag was put on may break the promise.
  Numbers may be written in several bases, with low lines anywhere, or as parts of sixty.
-/
import Quorum.Text.Case
import Quorum.Yaml.Node

namespace Quorum.Yaml.Scalar

/-- A datum, or the slip that stands in its place. -/
abbrev Slipped := Except Slip

def truths : List (String × Bool) :=
  [("yes", true), ("no", false), ("true", true), ("false", false), ("on", true), ("off", false)]

def bool (s : String) : Slipped Datum :=
  let word := Text.lower s
  match truths.lookup word with
  | some b => .ok (.bool b)
  | none => .error (.notATruth word)

/-- A numeral without low lines, taken apart: its sign and the rest. -/
def signed (s : String) : Slipped (Bool × List Char) :=
  match s.toList.filter (· != '_') with
  | [] => .error .emptyNumber
  | '-' :: rest => .ok (true, rest)
  | '+' :: rest => .ok (false, rest)
  | cs => .ok (false, cs)

def wholeIn (base : Nat) (cs : List Char) : Slipped Int :=
  (Conversion.integerOfText base (String.ofList cs)).mapError .number

def sixties (cs : List Char) : Slipped Int := do
  let parts ← (cs.splitOn ':').mapM (wholeIn 10)
  return parts.foldl (fun n part => 60 * n + part) 0

def whole : List Char → Slipped Int
  | [] => .error .emptyNumber
  | ['0'] => .ok 0
  | '0' :: 'b' :: rest => wholeIn 2 rest
  | '0' :: 'x' :: rest => wholeIn 16 rest
  | '0' :: rest => wholeIn 8 ('0' :: rest)
  | cs => if cs.contains ':' then sixties cs else wholeIn 10 cs

def int (s : String) : Slipped Datum := do
  let (negative, cs) ← signed s
  let n ← whole cs
  return .int (if negative then -n else n)

def doubleOf (cs : List Char) : Slipped Float :=
  (Conversion.numberOfText (String.ofList cs)).mapError .number

/-- Add parts of sixty up, beginning with the last one. -/
def addSixties (sum : Float) (unit : Int) : List Float → Float
  | [] => sum
  | part :: rest => addSixties (sum + part * Decimal.floatOfInt unit) (60 * unit) rest

def double (cs : List Char) : Slipped Float :=
  if cs == ".inf".toList then .ok (1.0 / 0.0)
  else if cs == ".nan".toList then .ok (0.0 / 0.0)
  else if cs.contains ':' then do
    let parts ← (cs.splitOn ':').mapM doubleOf
    return addSixties 0.0 1 parts.reverse
  else doubleOf cs

def float (s : String) : Slipped Datum := do
  let (negative, cs) ← signed (Text.lower s)
  let x ← double cs
  return .float (if negative then -x else x)

/-- Fail if a condition does not hold. -/
def require (condition : Bool) (s : Slip) : Slipped Unit := if condition then .ok () else .error s

def date (t : TimestampText) : Slipped Date := do
  let month := Decimal.ofDigits t.month
  let day := Decimal.ofDigits t.day
  require (t.year != 0) (.yearRange t.year)
  require (1 ≤ month && month ≤ 12) .monthRange
  require (1 ≤ day && day ≤ Date.daysInMonth t.year month) .dayRange
  return ⟨t.year, month, day⟩

def moment (t : TimestampText) (clock : ClockText) : Slipped Timestamp := do
  let offset := clock.zone.getD 0
  require (decide (-1440 < offset) && decide (offset < 1440)) (.offsetRange offset)
  let day ← date t
  require (clock.hour < 24) .hourRange
  require (clock.minute < 60) .minuteRange
  require (clock.second < 60) .secondRange
  let six := clock.fraction.take 6
  let micros := Decimal.ofDigits (six ++ List.replicate (6 - six.length) '0')
  let minutes := (day.toDays * 24 + clock.hour) * 60 + clock.minute - offset
  return ⟨(minutes * 60 + clock.second) * 1000000 + micros, clock.zone⟩

def timestamp (s : String) : Slipped Datum :=
  match TimestampText.read? (dropFinalBreak s.toList) with
  | none => .error .notATimestamp
  | some t =>
    match t.clock with
    | none => (date t).map .date
    | some clock => (moment t clock).map .timestamp

/-! ### Bytes -/

/-- The letters of base 64 in order. -/
def base64Letters : List Char :=
  "ABCDEFGHIJKLMNOPQRSTUVWXYZabcdefghijklmnopqrstuvwxyz0123456789+/".toList

/-- Bytes in base 64, `bits` holding the bits of the last letter that no byte has taken and
    `count` the letters of the group so far; `pads` counts equals signs in a row.  Other
    characters are passed over, and a group that is filled up with equals signs is the last. -/
def base64From (read : List UInt8) (count bits pads : Nat) :
    List Char → Except Complaint (List UInt8)
  | [] =>
    if count == 0 then .ok read.reverse
    else if count == 1 then .error (.base64Length (read.length / 3 * 4 + 1))
    else .error .base64Padding
  | '=' :: rest =>
    if 2 ≤ count && 4 ≤ count + (pads + 1) then .ok read.reverse
    else base64From read count bits (if 2 ≤ count then pads + 1 else pads) rest
  | c :: rest =>
    match base64Letters.idxOf? c with
    | none => base64From read count bits pads rest
    | some n =>
      match count with
      | 0 => base64From read 1 n 0 rest
      | 1 => base64From (UInt8.ofNat (bits * 4 + n / 16) :: read) 2 (n % 16) 0 rest
      | 2 => base64From (UInt8.ofNat (bits * 16 + n / 4) :: read) 3 (n % 4) 0 rest
      | _ => base64From (UInt8.ofNat (bits * 64 + n) :: read) 0 0 0 rest

def base64 (s : String) : Except Complaint (List UInt8) :=
  let (plain, rest) := s.toList.span fun c => c.toNat < 128
  match rest with
  | [] => base64From [] 0 0 0 plain
  | c :: _ => .error (.notBase64Text plain.length (rest.takeWhile fun c => 128 ≤ c.toNat).length c)

end Quorum.Yaml.Scalar

/-
  Quorum/Document/Conversion.lean
  ===============================
  **Numbers from data that need not be numbers.**

  Some places of a fleet document accept whatever stands for a number: numbers themselves,
  truth values and numerals.  A numeral may be surrounded by white space, its digits may be
  of any script, and single low lines may stand between digits.
-/
import Quorum.Document.Datum
import Quorum.Text.Basic

namespace Quorum

/-- The kinds of numbers that a datum is converted to. -/
inductive NumberKind where
  | integer | double
deriving DecidableEq, Repr

/-- Why a datum stands for no number. -/
inductive ConversionProblem where
  /-- A text is no whole numeral in a base. -/
  | notAnInteger (base : Nat) (literal : String)
  /-- A text is no numeral. -/
  | notADouble (literal : String)
  /-- The datum is of a kind that has nothing to do with numbers. -/
  | wrongKind (target : NumberKind) (kind : String)
  /-- A double that is no number has no whole part. -/
  | notANumber
  /-- An infinite double has no whole part. -/
  | infinite
  /-- A whole number is beyond the doubles. -/
  | tooLarge
  /-- A numeral is longer than the limit. -/
  | tooManyDigits (count : Nat)
  /-- A whole number has no numeral within the limit. -/
  | unwritable
deriving DecidableEq, Repr

def ConversionProblem.message : ConversionProblem → String
  | .notAnInteger base literal => s!"invalid literal for int() with base {base}: {literal}"
  | .notADouble literal => s!"could not convert string to float: {literal}"
  | .wrongKind .integer kind =>
    s!"int() argument must be a string, a bytes-like object or a real number, not '{kind}'"
  | .wrongKind .double kind =>
    s!"float() argument must be a string or a real number, not '{kind}'"
  | .notANumber => "cannot convert float NaN to integer"
  | .infinite => "cannot convert float infinity to integer"
  | .tooLarge => "int too large to convert to float"
  | .tooManyDigits count =>
    s!"Exceeds the limit (4300 digits) for integer string conversion: value has {count} digits; "
      ++ "use sys.set_int_max_str_digits() to increase the limit"
  | .unwritable => Value.noNumeral

namespace Conversion

/-- A character of a numeral in the ASCII range: digits and blanks of every script become
    their plain forms, everything else that is not ASCII becomes a question mark. -/
def plainChar (c : Char) : Char :=
  if c.toNat < 0x7F then c
  else if Text.isWhite c then ' '
  else
    match Text.decimalDigit? c with
    | some d => Char.ofNat ('0'.toNat + d)
    | none => '?'

/-- Drop the low lines, if each stands between two digits; `previous` is the character before. -/
def dropLowLines? (previous : Char) : List Char → Option (List Char)
  | [] => if previous == '_' then none else some []
  | c :: rest =>
    if c == '_' then
      if previous.isDigit then dropLowLines? c rest else none
    else if previous == '_' && !c.isDigit then none
    else (dropLowLines? c rest).map (c :: ·)

/-- The value of a digit, letters counting on from ten. -/
def digitValue? (base : Nat) (c : Char) : Option Nat :=
  let value :=
    if c.isDigit then c.toNat - '0'.toNat
    else if c.isAlpha then c.toLower.toNat - 'a'.toNat + 10
    else base
  if value < base then some value else none

/-- The mark that may stand in front of the digits in a base. -/
def baseMark? (base : Nat) : Option Char :=
  if base == 2 then some 'b' else if base == 8 then some 'o' else if base == 16 then some 'x' else none

/-- Drop a zero and the mark of the base. -/
def dropBaseMark (base : Nat) : List Char → List Char
  | '0' :: c :: rest => if baseMark? base == some c.toLower then rest else '0' :: c :: rest
  | cs => cs

/-- The whole number that digits in a base write; none is none. -/
def ofDigits? (base : Nat) : List Char → Option Nat
  | [] => none
  | digits => digits.foldlM (fun n c => (digitValue? base c).map (base * n + ·)) 0

/-- The whole number that a numeral in a base writes; the literal is for the message. -/
def integerIn (base : Nat) (literal : String) (cs : List Char) : Except ConversionProblem Int :=
  let (negative, rest) := Decimal.takeSign (Text.trim Text.isWhite cs)
  let digits := (dropLowLines? ' ' (dropBaseMark base rest)).getD []
  match ofDigits? base digits with
  | none => .error (.notAnInteger base literal)
  | some n =>
    if base == 10 && Value.digitLimit < digits.length then .error (.tooManyDigits digits.length)
    else .ok (if negative then -(n : Int) else (n : Int))

/-- The whole number that a text writes in a base. -/
def integerOfText (base : Nat) (s : String) : Except ConversionProblem Int :=
  integerIn base (Text.quoted s) (s.toList.map plainChar)

/-- The double that a numeral writes; the literal is for the message. -/
def numberOf (literal : String) (cs : List Char) : Except ConversionProblem Float :=
  match (dropLowLines? ' ' (Text.trim Text.isWhite cs)).bind Decimal.float? with
  | some x => .ok x
  | none => .error (.notADouble literal)

def numberOfText (s : String) : Except ConversionProblem Float :=
  numberOf (Text.quoted s) (s.toList.map plainChar)

/-- The characters of a numeral given as bytes. -/
def plainBytes (bs : List UInt8) : List Char :=
  bs.map fun b => if b.toNat < 0x7F then Char.ofNat b.toNat else '?'

end Conversion

namespace Datum

/-- The word for the kind of a datum, with the family it belongs to. -/
def fullKindName : Datum → String
  | .date _ => "datetime.date"
  | .timestamp _ => "datetime.datetime"
  | d => d.kindName

/-- The whole number a datum stands for; a double loses its fraction. -/
def toInteger : Datum → Except ConversionProblem Int
  | .int i => .ok i
  | .bool b => .ok (if b then 1 else 0)
  | .float x =>
    match Decimal.Reading.ofFloat x with
    | .finite d => .ok (if d.negative then -(d.wholePart : Int) else (d.wholePart : Int))
    | _ => if x.isNaN then .error .notANumber else .error .infinite
  | .text s => Conversion.integerOfText 10 s
  | .bytes bs => Conversion.integerIn 10 (Datum.bytes bs).literal (Conversion.plainBytes bs)
  | d => .error (.wrongKind .integer d.fullKindName)

def toNumber : Datum → Except ConversionProblem Float
  | .float x => .ok x
  | .bool b => .ok (if b then 1.0 else 0.0)
  | .int i =>
    let x := Decimal.floatOfInt i
    if x.isInf then .error .tooLarge else .ok x
  | .text s => Conversion.numberOfText s
  | .bytes bs => Conversion.numberOf (Datum.bytes bs).literal (Conversion.plainBytes bs)
  | d => .error (.wrongKind .double d.fullKindName)

/-- A datum as text, if each of its numbers can be written out. -/
def written (d : Datum) : Except ConversionProblem String :=
  if d.isWritable then .ok d.display else .error .unwritable

end Datum

end Quorum

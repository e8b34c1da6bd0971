/-
  Quorum/Yaml/Tag.lean
  ====================
  **Tags, and which tag a plain scalar has by its form.**

  A plain scalar is a truth value, a number, nothing, a time stamp or a mark for merging if it
  has the form of one; otherwise it is text.  The forms exclude each other, except that a
  sequence of digits with a point may look like a double before it looks like a whole
  number, so doubles are tried first.
-/
import Quorum.Moment
import Quorum.Yaml.Source

namespace Quorum.Yaml

/-- The tags with a meaning of their own. -/
inductive CoreTag where
  | null | bool | int | float | binary | timestamp | orderedMap | pairs | set
  | str | seq | map | merge | value
deriving DecidableEq, Repr

/-- The last part of the name of a tag. -/
def CoreTag.word : CoreTag → String
  | .null => "null"
  | .bool => "bool"
  | .int => "int"
  | .float => "float"
  | .binary => "binary"
  | .timestamp => "timestamp"
  | .orderedMap => "omap"
  | .pairs => "pairs"
  | .set => "set"
  | .str => "str"
  | .seq => "seq"
  | .map => "map"
  | .merge => "merge"
  | .value => "value"

def CoreTag.all : List CoreTag :=
  [.null, .bool, .int, .float, .binary, .timestamp, .orderedMap, .pairs, .set, .str, .seq, .map,
   .merge, .value]

def CoreTag.stem : String := "tag:yaml.org,2002:"

inductive Tag where
  | core (t : CoreTag)
  | other (text : String)
deriving DecidableEq, Repr

namespace Tag

def text : Tag → String
  | .core t => CoreTag.stem ++ t.word
  | .other s => s

def ofText (s : String) : Tag :=
  match CoreTag.all.find? fun t => CoreTag.stem ++ t.word == s with
  | some t => .core t
  | none => .other s

end Tag

/-! ### Forms of plain scalars -/

namespace Form

def isDigitOrLine (c : Char) : Bool := c.isDigit || c == '_'

def dropSign : List Char → List Char
  | '+' :: rest => rest
  | '-' :: rest => rest
  | cs => cs

def dropDigits (cs : List Char) : List Char := cs.dropWhile isDigitOrLine

/-- Nothing, or an exponent with a sign. -/
def isExponent : List Char → Bool
  | [] => true
  | e :: sign :: digits =>
    (e == 'e' || e == 'E') && (sign == '+' || sign == '-') && !digits.isEmpty
      && digits.all Char.isDigit
  | _ => false

/-- Colons, each followed by a number below sixty; the rest after the last of them.  None if
    there is no such part. -/
def dropSixties? : List Char → Option (List Char)
  | ':' :: a :: b :: rest =>
    if !a.isDigit then none
    else if !b.isDigit then some ((dropSixties? (b :: rest)).getD (b :: rest))
    else if a < '6' then some ((dropSixties? rest).getD rest)
    else none
  | [':', a] => if a.isDigit then some [] else none
  | _ => none

def truthWords : List String :=
  ["yes", "Yes", "YES", "no", "No", "NO", "true", "True", "TRUE", "false", "False", "FALSE",
   "on", "On", "ON", "off", "Off", "OFF"]

def nullWords : List String := ["~", "null", "Null", "NULL", ""]

/-- A double: digits with a point, parts of sixty with a point, infinity, or no number. -/
def isFloat (cs : List Char) : Bool :=
  let infinities := [".inf", ".Inf", ".INF"].map String.toList
  let nans := [".nan", ".NaN", ".NAN"].map String.toList
  infinities.contains (dropSign cs) || nans.contains cs
    || match cs with
      | '.' :: d :: rest => d.isDigit && isExponent (dropDigits rest)
      | _ =>
        match dropSign cs with
        | d :: rest =>
          d.isDigit &&
            match dropDigits rest with
            | '.' :: after => isExponent (dropDigits after)
            | after =>
              match dropSixties? after with
              | some ('.' :: last) => last.all isDigitOrLine
              | _ => false
        | [] => false

/-- A whole number: binary, octal, decimal or hexadecimal, or parts of sixty. -/
def isInteger (cs : List Char) : Bool :=
  match dropSign cs with
  | ['0'] => true
  | '0' :: 'b' :: rest => !rest.isEmpty && rest.all fun c => c == '0' || c == '1' || c == '_'
  | '0' :: 'x' :: rest => !rest.isEmpty && rest.all fun c => isHexDigit c || c == '_'
  | '0' :: rest => rest.all fun c => ('0' ≤ c && c ≤ '7') || c == '_'
  | d :: rest =>
    d.isDigit &&
      match dropDigits rest with
      | [] => true
      | after => dropSixties? after == some []
  | [] => false

end Form

/-! ### Time stamps -/

/-- The parts of a time of day. -/
structure ClockText where
  hour : Nat
  minute : Nat
  second : Nat
  fraction : List Char
  /-- The offset in minutes; nothing if none is written. -/
  zone : Option Int

/-- The parts of a time stamp. -/
structure TimestampText where
  year : Nat
  month : List Char
  day : List Char
  clock : Option ClockText

namespace TimestampText

def shortDigits? : List Char → Option (List Char × List Char)
  | a :: b :: rest =>
    if !a.isDigit then none else if b.isDigit then some ([a, b], rest) else some ([a], b :: rest)
  | [a] => if a.isDigit then some ([a], []) else none
  | [] => none

def zone? (cs : List Char) : Option (Option Int) :=
  match cs with
  | [] => some none
  | _ =>
    match cs.dropWhile fun c => c == ' ' || c == '\t' with
    | ['Z'] => some (some 0)
    | sign :: rest => do
      guard (sign == '+' || sign == '-')
      let (hour, rest) ← shortDigits? rest
      let minute ← match rest with
        | [] => some 0
        | ':' :: digits =>
          if digits.length == 2 && digits.all Char.isDigit then some (Decimal.ofDigits digits) else none
        | _ => none
      let offset : Int := 60 * Decimal.ofDigits hour + minute
      some (some (if sign == '-' then -offset else offset))
    | [] => none

def clock? (cs : List Char) : Option ClockText := do
  let (hour, rest) ← shortDigits? cs
  let ':' :: rest := rest | none
  let (minute, rest) ← fixedDigits? 2 rest
  let ':' :: rest := rest | none
  let (second, rest) ← fixedDigits? 2 rest
  let (fraction, rest) := match rest with
    | '.' :: rest => rest.span Char.isDigit
    | rest => ([], rest)
  let zone ← zone? rest
  some ⟨Decimal.ofDigits hour, minute, second, fraction, zone⟩

/-- The parts of a time stamp: a date, and perhaps a letter or blanks and a time of day. -/
def read? (cs : List Char) : Option TimestampText := do
  let (year, rest) ← fixedDigits? 4 cs
  let '-' :: rest := rest | none
  let (month, rest) ← shortDigits? rest
  let '-' :: rest := rest | none
  let (day, rest) ← shortDigits? rest
  match rest with
  | [] => some ⟨year, month, day, none⟩
  | c :: after =>
    let isBlank (ch : Char) := ch == ' ' || ch == '\t'
    if c == 'T' || c == 't' then some ⟨year, month, day, some (← clock? after)⟩
    else if isBlank c then some ⟨year, month, day, some (← clock? (after.dropWhile isBlank))⟩
    else none

/-- A plain scalar is a time stamp; without a time of day, month and day have two digits. -/
def isForm (cs : List Char) : Bool :=
  match read? cs with
  | some t => t.clock.isSome || (t.month.length == 2 && t.day.length == 2)
  | none => false

end TimestampText

/-- A text without a line feed at its end. -/
def dropFinalBreak (cs : List Char) : List Char :=
  if cs.getLast? == some '\n' then cs.dropLast else cs

def CoreTag.ofPlain (s : String) : CoreTag :=
  let cs := dropFinalBreak s.toList
  let word := String.ofList cs
  if Form.truthWords.contains word then .bool
  else if Form.isFloat cs then .float
  else if Form.isInteger cs then .int
  else if word == "<<" then .merge
  else if Form.nullWords.contains word && (word != "" || s == "") then .null
  else if TimestampText.isForm cs then .timestamp
  else if word == "=" then .value
  else .str

end Quorum.Yaml

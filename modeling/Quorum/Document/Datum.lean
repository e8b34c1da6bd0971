/-
  Quorum/Document/Datum.lean
  ==========================
  **Data as they are read from documents, before anything is checked.**

  A document may hold more than values: dates and time stamps, raw bytes, sets, pairs, and
  mappings under keys of any kind.  Field checks start from data; what passes them is of
  the types of the fleet.
-/
import Quorum.Moment
import Quorum.Text.Case
import Quorum.Value.Printer

namespace Quorum

inductive Datum where
  | null
  | bool (b : Bool)
  | int (i : Int)
  | float (x : Float)
  | text (s : String)
  | bytes (bs : List UInt8)
  | date (d : Date)
  | timestamp (t : Timestamp)
  | list (items : List Datum)
  | pair (first second : Datum)
  | mapping (entries : List (Datum × Datum))
  | set (items : List Datum)

namespace Datum

instance : Inhabited Datum := ⟨.null⟩

mutual

def ofValue : Value → Datum
  | .null => .null
  | .bool b => .bool b
  | .int i => .int i
  | .float x => .float x
  | .text s => .text s
  | .list items => .list (ofItems items)
  | .object entries => .mapping (ofEntries entries)

def ofItems : List Value → List Datum
  | [] => []
  | v :: rest => ofValue v :: ofItems rest

def ofEntries : List (String × Value) → List (Datum × Datum)
  | [] => []
  | (k, v) :: rest => (.text k, ofValue v) :: ofEntries rest

end

def kindName : Datum → String
  | .null => "NoneType"
  | .bool _ => "bool"
  | .int _ => "int"
  | .float _ => "float"
  | .text _ => "str"
  | .bytes _ => "bytes"
  | .date _ => "date"
  | .timestamp _ => "datetime"
  | .list _ => "list"
  | .pair _ _ => "tuple"
  | .mapping _ => "dict"
  | .set _ => "set"

/-- The datum counts as given: it is not null, false, zero or empty. -/
def isGiven : Datum → Bool
  | .null => false
  | .bool b => b
  | .int i => i != 0
  | .float x => !(x == 0)
  | .text s => !s.isEmpty
  | .bytes bs => !bs.isEmpty
  | .date _ => true
  | .timestamp _ => true
  | .list items => !items.isEmpty
  | .pair _ _ => true
  | .mapping entries => !entries.isEmpty
  | .set items => !items.isEmpty

def isNull : Datum → Bool
  | .null => true
  | _ => false

/-- The datum, or another one in place of null and of what is empty. -/
def orElse (d other : Datum) : Datum := if d.isGiven then d else other

def bytesLiteral (bs : List UInt8) : List Char :=
  let cs := bs.map fun b => Char.ofNat b.toNat
  let quote := Text.quoteFor cs
  let byte (c : Char) : List Char :=
    if c.toNat < 128 then Text.quotedChar quote c else '\\' :: 'x' :: Text.hexDigits 2 c.toNat
  'b' :: quote :: (cs.flatMap byte ++ [quote])

/-- The numbers inside the literal of a time stamp, trailing zero seconds left out. -/
def clockNumbers (hour minute second micro : Nat) : List Nat :=
  if micro != 0 then [hour, minute, second, micro]
  else if second != 0 then [hour, minute, second]
  else [hour, minute]

def spanLiteral (minutes : Int) : String :=
  let days := Int.fdiv minutes 1440
  let seconds := (minutes - days * 1440) * 60
  let span := if days == 0 then s!"seconds={seconds}"
    else if seconds == 0 then s!"days={days}" else s!"days={days}, seconds={seconds}"
  s!"datetime.timedelta({span})"

def timestampLiteral (t : Timestamp) : String :=
  let (today, hour, minute, second, micro) := t.civil
  let numbers := [today.year.toNat, today.month, today.day] ++ clockNumbers hour minute second micro
  let inner := ", ".intercalate (numbers.map toString)
  let zone := match t.zone with
    | none => ""
    | some 0 => ", tzinfo=datetime.timezone.utc"
    | some minutes => s!", tzinfo=datetime.timezone({spanLiteral minutes})"
  s!"datetime.datetime({inner}{zone})"

mutual

/-- The literal of a datum, as it stands inside messages. -/
def literalChars : Datum → List Char
  | .null => "None".toList
  | .bool true => "True".toList
  | .bool false => "False".toList
  | .int i => (toString i).toList
  | .float x => (Decimal.plainText x).toList
  | .text s => (Text.quoted s).toList
  | .bytes bs => bytesLiteral bs
  | .date d => s!"datetime.date({d.year}, {d.month}, {d.day})".toList
  | .timestamp t => (timestampLiteral t).toList
  | .list items => '[' :: (Value.joined [',', ' '] (literalItems items) ++ [']'])
  | .pair a b => '(' :: (literalChars a ++ [',', ' '] ++ literalChars b ++ [')'])
  | .mapping entries => '{' :: (Value.joined [',', ' '] (literalEntries entries) ++ ['}'])
  | .set [] => "set()".toList
  | .set (d :: rest) =>
    '{' :: (Value.joined [',', ' '] (literalChars d :: literalItems rest) ++ ['}'])

def literalItems : List Datum → List (List Char)
  | [] => []
  | d :: rest => literalChars d :: literalItems rest

def literalEntries : List (Datum × Datum) → List (List Char)
  | [] => []
  | (k, v) :: rest => (literalChars k ++ ':' :: ' ' :: literalChars v) :: literalEntries rest

end

def literal (d : Datum) : String := String.ofList d.literalChars

mutual

def isWritable : Datum → Bool
  | .int i => Value.hasNumeral i
  | .list items => areWritable items
  | .pair a b => isWritable a && isWritable b
  | .mapping entries => entriesWritable entries
  | .set items => areWritable items
  | _ => true

def areWritable : List Datum → Bool
  | [] => true
  | d :: rest => isWritable d && areWritable rest

/-- Each whole number in the entries of a mapping has a numeral. -/
def entriesWritable : List (Datum × Datum) → Bool
  | [] => true
  | (k, v) :: rest => isWritable k && isWritable v && entriesWritable rest

end

def utf8? (bs : List UInt8) : Option String := String.fromUTF8? ⟨bs.toArray⟩

/-- A datum as text: a text as it is, everything else as people write it. -/
def display : Datum → String
  | .text s => s
  | .date d => d.text
  | .timestamp t => t.text.map fun c => if c == 'T' then ' ' else c
  | d => d.literal

mutual

/-- A datum as a value.  What only documents can hold becomes the text that is shown for it. -/
def toValue : Datum → Value
  | .null => .null
  | .bool b => .bool b
  | .int i => .int i
  | .float x => .float x
  | .text s => .text s
  | .bytes bs => .text (display (.bytes bs))
  | .date d => .text (display (.date d))
  | .timestamp t => .text (display (.timestamp t))
  | .list items => .list (toItems items)
  | .pair a b => .list [toValue a, toValue b]
  | .mapping entries => .object (toEntries entries)
  | .set items => .list (toItems items)

def toItems : List Datum → List Value
  | [] => []
  | d :: rest => toValue d :: toItems rest

def toEntries : List (Datum × Datum) → List (String × Value)
  | [] => []
  | (k, v) :: rest => (display k, toValue v) :: toEntries rest

end

end Datum

end Quorum

namespace Quorum.Document

/-! ### One spelling for keys

Keys of fleet documents may be written `minVotes`, `min-votes` or `min_votes`; all of
them mean `min_votes`. -/

/-- Put a low line before every capital letter of the ASCII range that is not the first
    character. -/
def splitWords : List Char → List Char
  | [] => []
  | c :: rest => c :: rest.flatMap fun d => if d.isUpper then ['_', d] else [d]

/-- A key in lower case, its words joined by low lines. -/
def snakeKey (key : String) : String :=
  let marked := (splitWords key.toList).map fun c => if c == '-' then '_' else c
  Text.lower (String.ofList marked)

end Quorum.Document

/-
  Quorum/Check/Field.lean
  =======================
  **Checks for single fields.**

  A check is lenient where nothing is lost: whole doubles and numerals pass as integers,
  numerals as numbers, the usual words as truth values.  Bounds are tested after that, an
  upper bound before a lower one; a number that is none satisfies no bound.
-/
import Quorum.Check.Issue
import Quorum.Text.Basic
import Quorum.Vocabulary

namespace Quorum.Check

open Checked (fail)

abbrev Rule (α : Type) := Datum → Checked α

/-! ### Texts -/

/-- A text; bytes pass if they are UTF-8. -/
def text : Rule String
  | .text s => .ok s
  | .bytes bs =>
    match Datum.utf8? bs with
    | some s => .ok s
    | none => fail .textUnreadable
  | _ => fail .textExpected

def nonEmptyText : Rule String := fun d => do
  let s ← text d
  if s.isEmpty then fail .textTooShort else return s

/-- The characters of a text or of bytes that are UTF-8. -/
def textual? : Datum → Option (List Char)
  | .text s => some s.toList
  | .bytes bs => (Datum.utf8? bs).map String.toList
  | _ => none

/-! ### Integers -/

/-- A sign and decimal digits, with a single low line allowed between two digits. -/
def plainInteger? (cs : List Char) : Option Int :=
  let (negative, r) := Decimal.takeSign cs
  if !r.isEmpty && r.all Char.isDigit then
    let n : Int := Decimal.ofDigits r
    some (if negative then -n else n)
  else none

def lowLinesApart : List Char → Bool
  | '_' :: '_' :: _ => false
  | _ :: r => lowLinesApart r
  | [] => true

/-- The text without its low lines, if none is at an end and no two are neighbours. -/
def withoutLowLines? (cs : List Char) : Option (List Char) :=
  if cs.contains '_' && cs.head? != some '_' && cs.getLast? != some '_' && lowLinesApart cs then
    some (cs.filter (· != '_'))
  else none

/-- Drop leading zeros, and low lines among them; one character is kept before a point and
    at the end.  A first character that is neither a digit nor a minus is refused. -/
def dropLeadingZeros? (cs : List Char) : Option (List Char) :=
  let rec go (last : Char) : List Char → Option (List Char)
    | [] => some [last]
    | c :: r =>
      if c == '0' || c == '_' then go c r
      else if c.isDigit then some (c :: r)
      else if c == '.' then some (last :: c :: r)
      else none
  match cs with
  | '0' :: r => go '0' r
  | c :: r => if c.isDigit || c == '-' then some (c :: r) else none
  | [] => none

/-- Drop a point that only zeros follow. -/
def dropZeroFraction (cs : List Char) : List Char :=
  let (whole, r) := cs.span (· != '.')
  match r with
  | '.' :: zeros => if zeros.all (· == '0') then whole else cs
  | _ => cs

/-- A numeral with extra zeros, a zero fraction or low lines. -/
def looseInteger? (cs : List Char) : Option Int := do
  let r ← match cs with
    | '+' :: '-' :: _ => none
    | '+' :: r => some r
    | r => some r
  let r ← dropLeadingZeros? r
  let r := dropZeroFraction r
  plainInteger? ((withoutLowLines? r).getD r)

def integer? (cs : List Char) : Option Int :=
  let r := Text.trim Text.isWhite cs
  (plainInteger? r).orElse fun _ => looseInteger? r

def integerOfFloat (x : Float) : Checked Int :=
  match Decimal.Reading.ofFloat x with
  | .finite d =>
    if !d.isWhole then fail .integerFractional
    else if d.wholePart < Nat.pow 2 63 then
      .ok (if d.negative then -(d.wholePart : Int) else (d.wholePart : Int))
    else fail .integerTooLarge
  | _ => fail .numberNotFinite

/-- An integer, or something that stands for one. -/
def integer : Rule Int
  | .int i => .ok i
  | .bool b => .ok (if b then 1 else 0)
  | .float x => integerOfFloat x
  | d =>
    match textual? d with
    | some cs =>
      match integer? cs with
      | some i => .ok i
      | none => fail .integerUnreadable
    | none => fail .integerExpected

def integerFrom (bound : Nat) : Rule Int := fun d => do
  let i ← integer d
  if i < bound then fail (.below bound) else return i

/-! ### Numbers -/

def number? (cs : List Char) : Option Float :=
  (Decimal.float? (Text.trim Text.isWhite cs)).orElse fun _ =>
    (withoutLowLines? cs).bind Decimal.float?

/-- A whole number as a double, if it is in their range. -/
def floatOfInt? (i : Int) : Option Float :=
  let x := Decimal.floatOfInt i
  match Decimal.Reading.ofFloat x with
  | .finite _ => some x
  | _ => none

/-- A number, or something that stands for one. -/
def number : Rule Float
  | .float x => .ok x
  | .bool b => .ok (if b then 1.0 else 0.0)
  | .int i =>
    match floatOfInt? i with
    | some x => .ok x
    | none => fail .numberExpected
  | d =>
    match textual? d with
    | some cs =>
      match number? cs with
      | some x => .ok x
      | none => fail .numberUnreadable
    | none => fail .numberExpected

def nonNegative : Rule Float := fun d => do
  let x ← number d
  if 0 ≤ x then return x else fail (.below 0)

def positive : Rule Float := fun d => do
  let x ← number d
  if 0 < x then return x else fail (.notAbove 0)

/-- A number between zero and one. -/
def fraction : Rule Float := fun d => do
  let x ← number d
  if x ≤ 1 then
    if 0 ≤ x then return x else fail (.below 0)
  else fail (.above 1)

/-! ### Truth values -/

/-- The words for the two truth values, in lower case. -/
def truthWords : List (String × Bool) :=
  [("0", false), ("off", false), ("f", false), ("false", false), ("n", false), ("no", false),
   ("1", true), ("on", true), ("t", true), ("true", true), ("y", true), ("yes", true)]

/-- A truth value: itself, zero or one, or one of the usual words in any case. -/
def truth : Rule Bool
  | .bool b => .ok b
  | .int 0 => .ok false
  | .int 1 => .ok true
  | .int i => if i.natAbs < Nat.pow 2 63 then fail .truthUnreadable else fail .truthExpected
  | .float x =>
    match integerOfFloat x with
    | .ok 0 => .ok false
    | .ok 1 => .ok true
    | .ok _ => fail .truthUnreadable
    | .error _ => fail .truthExpected
  | d =>
    match textual? d with
    | some cs =>
      match truthWords.lookup (String.ofList (cs.map Char.toLower)) with
      | some b => .ok b
      | none => fail .truthUnreadable
    | none => fail .truthExpected

/-! ### Vocabularies, optional fields, lists and mappings -/

/-- A member of a vocabulary, by its exact name. -/
def member (α : Type) [Named α] : Rule α
  | .text s =>
    match Named.ofName? (α := α) s with
    | some a => .ok a
    | none => fail (.notAMember (Named.names α))
  | _ => fail (.notAMember (Named.names α))

def optional {α : Type} (rule : Rule α) : Rule (Option α)
  | .null => .ok none
  | d => (rule d).map some

def anything : Rule Value := fun d => .ok d.toValue

/-- What an agent may return: a text, a mapping or a list; null stands for nothing. -/
def output : Rule Value
  | .null => .ok .null
  | .text s => .ok (.text s)
  | .list items => .ok (Datum.list items).toValue
  | .mapping entries => .ok (Datum.mapping entries).toValue
  | _ => .error [⟨["str"], .textExpected⟩, ⟨["dict[str,any]"], .mappingExpected⟩,
      ⟨["list[any]"], .listExpected⟩]

def list {α : Type} (rule : Rule α) : Rule (List α)
  | .list items => Checked.all (fun i d => (rule d).inside (toString i)) 0 items
  | .set items => Checked.all (fun i d => (rule d).inside (toString i)) 0 items
  | .pair a b => Checked.all (fun i d => (rule d).inside (toString i)) 0 [a, b]
  | _ => fail .listExpected

/-- A list with at least one item. -/
def nonEmptyList {α : Type} (rule : Rule α) : Rule (List α) := fun d => do
  let items ← list rule d
  if items.isEmpty then fail .listTooShort else return items

/-- Write an entry under a key: in place if the key is there, at the end otherwise. -/
def insertKey {κ α : Type} [BEq κ] (key : κ) (value : α) : List (κ × α) → List (κ × α)
  | [] => [(key, value)]
  | (k, v) :: rest =>
    if k == key then (key, value) :: rest else (k, v) :: insertKey key value rest

/-- A mapping whose keys and values satisfy two rules.  Of equal keys the last one wins. -/
def mapping {κ α : Type} [BEq κ] (keyRule : Rule κ) (rule : Rule α) : Rule (List (κ × α))
  | .mapping entries => do
    let checked ← Checked.all (fun _ (k, v) =>
      let shown := k.display
      ((Checked.build Prod.mk).apply (((keyRule k).inside "[key]").inside shown)).apply
        ((rule v).inside shown)) 0 entries
    return checked.foldl (fun es (k, v) => insertKey k v es) []
  | _ => fail .mappingExpected

/-- A time stamp: a text in the usual form. -/
def timestamp : Rule Timestamp
  | .timestamp t => .ok t
  | .date d => .ok ⟨d.toDays * 86400000000, none⟩
  | .text s =>
    match readTimestamp? s.toList with
    | some t => .ok t
    | none =>
      match wholeDate s.toList with
      | .ok d => .ok ⟨d.toDays * 86400000000, none⟩
      | .error problem => fail (.timestampUnreadable problem)
  | .int i => .ok ⟨i * 1000000, some 0⟩
  | _ => fail .timestampExpected

/-! ### Records -/

abbrev Fields := List (String × Datum)

def fieldsOf : List (Datum × Datum) → Fields
  | [] => []
  | (.text k, v) :: rest => (k, v) :: fieldsOf rest
  | _ :: rest => fieldsOf rest

/-- A record: any mapping; keys that are no texts name no field. -/
def record (name : String) : Rule Fields
  | .mapping entries => .ok (fieldsOf entries)
  | _ => fail (.recordExpected name)

def required {α : Type} (fields : Fields) (key : String) (rule : Rule α) : Checked α :=
  match fields.lookup key with
  | some d => (rule d).inside key
  | none => (fail .missing).inside key

def withDefault {α : Type} (fields : Fields) (key : String) (default : α) (rule : Rule α) :
    Checked α :=
  match fields.lookup key with
  | some d => (rule d).inside key
  | none => .ok default

end Quorum.Check

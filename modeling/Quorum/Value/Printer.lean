/-
  Quorum/Value/Printer.lean
  =========================
  **Values as text.**

  One printer writes a value in a `Form`: on one line or indented, entries sorted by key
  or in their own order, numbers in a given style.  `Form.canonical` is the text behind
  the grouping of votes, `Form.rendered` the text people read in prompts and reports, and
  `Form.exported` the text of report files.  Entries are printed first and sorted
  afterwards, so the recursion follows the value.
-/
import Quorum.Decimal.Style
import Quorum.Text.Quoted
import Quorum.Value.Basic

namespace Quorum.Value

/-! ### Texts inside double quotes -/

def escapedChar (c : Char) : List Char :=
  if c == '"' then ['\\', '"']
  else if c == '\\' then ['\\', '\\']
  else if c == '\n' then ['\\', 'n']
  else if c == '\r' then ['\\', 'r']
  else if c == '\t' then ['\\', 't']
  else if c == '\x08' then ['\\', 'b']
  else if c == '\x0c' then ['\\', 'f']
  else if c.toNat < 0x20 then '\\' :: 'u' :: Text.hexDigits 4 c.toNat
  else [c]

def escaped (s : String) : List Char := '"' :: (s.toList.flatMap escapedChar ++ ['"'])

/-! ### Forms -/

structure Form where
  /-- Spaces per level of nesting; `none` keeps everything on one line. -/
  indent : Option Nat
  /-- Entries are ordered by key. -/
  sorted : Bool
  numbers : Decimal.Style

/-- One line, entries sorted. -/
def Form.canonical : Form := ⟨none, true, Decimal.Style.json⟩

def Form.rendered : Form := ⟨some 2, true, Decimal.Style.json⟩

/-- Two spaces per level, entries in their own order. -/
def Form.exported : Form := ⟨some 2, false, Decimal.Style.exported⟩

def joined (separator : List Char) : List (List Char) → List Char
  | [] => []
  | [t] => t
  | t :: rest => t ++ separator ++ joined separator rest

/-- A bracketed sequence of texts at a level of nesting. -/
def Form.bracketed (form : Form) (level : Nat) (opening closing : Char) (items : List (List Char)) :
    List Char :=
  if items.isEmpty then [opening, closing]
  else
    match form.indent with
    | none => opening :: (joined [',', ' '] items ++ [closing])
    | some width =>
      let line (n : Nat) := '\n' :: List.replicate (n * width) ' '
      opening :: (line (level + 1) ++ joined (',' :: line (level + 1)) items ++ line level ++ [closing])

/-- Texts with keys, in ascending order of the keys. -/
def sortedByKey {α : Type} (entries : List (String × α)) : List (String × α) :=
  entries.mergeSort fun a b => decide (a.1 ≤ b.1)

mutual

/-- The text of a value at a level of nesting. -/
def Form.chars (form : Form) (level : Nat) : Value → List Char
  | .null => "null".toList
  | .bool true => "true".toList
  | .bool false => "false".toList
  | .int i => (toString i).toList
  | .float x => (form.numbers.write x).toList
  | .text s => escaped s
  | .list items => form.bracketed level '[' ']' (form.itemChars (level + 1) items)
  | .object entries =>
    let parts := form.entryChars (level + 1) entries
    let parts := if form.sorted then sortedByKey parts else parts
    form.bracketed level '{' '}' (parts.map fun (k, t) => escaped k ++ ':' :: ' ' :: t)

def Form.itemChars (form : Form) (level : Nat) : List Value → List (List Char)
  | [] => []
  | v :: rest => form.chars level v :: form.itemChars level rest

/-- The texts of the values of an object, with their keys. -/
def Form.entryChars (form : Form) (level : Nat) : List (String × Value) → List (String × List Char)
  | [] => []
  | (k, v) :: rest => (k, form.chars level v) :: form.entryChars level rest

end

def write (form : Form) (v : Value) : String := String.ofList (form.chars 0 v)

/-- The text that stands for a value when votes are grouped and ties are broken.  A text
    and a structured value never share a key, since their first characters differ. -/
def canonicalKey : Value → String
  | .text s => "s:" ++ s
  | v => "j:" ++ v.write .canonical

/-- A value as people read it: texts as they are, everything else indented. -/
def render : Value → String
  | .null => "(none)"
  | .text s => s
  | v => v.write .rendered

/-! ### Values inside the text of an error

Details are shown as literals: texts between quotes, `None`, `True` and `False` for the
three words, entries in their own order.  A whole number of too many digits is never
written out, and neither is a value that is nested too deeply: its key exists, but whoever
asks for it gets a failure instead (`key?`). -/

mutual

def literalChars : Value → List Char
  | .null => "None".toList
  | .bool true => "True".toList
  | .bool false => "False".toList
  | .int i => (toString i).toList
  | .float x => (Decimal.plainText x).toList
  | .text s => (Text.quoted s).toList
  | .list items => '[' :: (joined [',', ' '] (literalItems items) ++ [']'])
  | .object entries => '{' :: (joined [',', ' '] (literalEntries entries) ++ ['}'])

def literalItems : List Value → List (List Char)
  | [] => []
  | v :: rest => literalChars v :: literalItems rest

def literalEntries : List (String × Value) → List (List Char)
  | [] => []
  | (k, v) :: rest =>
    ((Text.quoted k).toList ++ ':' :: ' ' :: literalChars v) :: literalEntries rest

end

def literal (v : Value) : String := String.ofList v.literalChars

/-! ### Numbers that are not written out -/

/-- The most digits that the numeral of a whole number may have. -/
def digitLimit : Nat := 4300

@[irreducible]
def hasNumeral (n : Int) : Bool := n.natAbs < Nat.pow 10 digitLimit

/-- What is said of a number that has no such numeral. -/
def noNumeral : String :=
  s!"Exceeds the limit ({digitLimit} digits) for integer string conversion; "
    ++ "use sys.set_int_max_str_digits() to increase the limit"

/-! ### Keys that are not written out -/

inductive Unwritable where
  /-- A number in the value has no numeral. -/
  | noNumeral
  /-- Its lists and objects are nested too deeply. -/
  | tooDeep

mutual

/-- What keeps a value from being written out with so many levels of nesting left. -/
def unwritable? (levels : Nat) : Value → Option Unwritable
  | .int i => if hasNumeral i then none else some .noNumeral
  | .list items =>
    match levels with
    | 0 => some .tooDeep
    | n + 1 => unwritableItem? n items
  | .object entries =>
    match levels with
    | 0 => some .tooDeep
    | n + 1 => (sortedByKey (unwritableEntries n entries)).findSome? Prod.snd
  | _ => none

def unwritableItem? (levels : Nat) : List Value → Option Unwritable
  | [] => none
  | v :: rest => (unwritable? levels v).or (unwritableItem? levels rest)

def unwritableEntries (levels : Nat) :
    List (String × Value) → List (String × Option Unwritable)
  | [] => []
  | (k, v) :: rest => (k, unwritable? levels v) :: unwritableEntries levels rest

end

/-- The key of a value as it is asked for, with so many levels of nesting left. -/
def key? (levels : Nat) (v : Value) : Except Unwritable String :=
  match v.unwritable? levels with
  | some why => .error why
  | none => .ok v.canonicalKey

end Quorum.Value

/-
  Quorum/Value/Reader.lean
  ========================
  **Reading a value from text, with the place of the first mistake.**

  The reader follows the grammar of structured values with blanks between tokens, plus the
  three words for numbers that are none.  A mistake is reported with what was expected and
  the number of characters that were left, from which line and column follow.
-/
import Quorum.Decimal.Numeral
import Quorum.Text.Basic
import Quorum.Value.Basic

namespace Quorum.Value

inductive ReadProblem where
  | valueExpected
  | nameExpected
  | colonExpected
  | commaExpected
  | controlCharacter
  | unterminatedText
  | badEscape
  | badCodeEscape
  | extraData
  | byteOrderMark
deriving DecidableEq, Repr

def ReadProblem.message : ReadProblem → String
  | .valueExpected => "Expecting value"
  | .nameExpected => "Expecting property name enclosed in double quotes"
  | .colonExpected => "Expecting ':' delimiter"
  | .commaExpected => "Expecting ',' delimiter"
  | .controlCharacter => "Invalid control character at"
  | .unterminatedText => "Unterminated string starting at"
  | .badEscape => "Invalid \\escape"
  | .badCodeEscape => "Invalid \\uXXXX escape"
  | .extraData => "Extra data"
  | .byteOrderMark => "Unexpected UTF-8 BOM (decode using utf-8-sig)"

/-- A problem and the number of characters left where it was found. -/
structure Mistake where
  problem : ReadProblem
  left : Nat
deriving DecidableEq, Repr

/-- A problem and its offset from the start of the text. -/
structure ReadError where
  problem : ReadProblem
  offset : Nat
  /-- Counted from one. -/
  line : Nat
  /-- Counted from one. -/
  column : Nat
deriving DecidableEq, Repr

/-- The message of a reading error: problem, line, column and offset. -/
def ReadError.message (e : ReadError) : String :=
  s!"{e.problem.message}: line {e.line} column {e.column} (char {e.offset})"

/-- Place a mistake in the text it was found in. -/
def Mistake.locate (text : List Char) (m : Mistake) : ReadError :=
  let offset := text.length - m.left
  let before := text.take offset
  { problem := m.problem
    offset := offset
    line := before.count '\n' + 1
    column := (before.reverse.takeWhile (· != '\n')).length + 1 }

def mistake {α : Type} (problem : ReadProblem) (rest : List Char) : Except Mistake α :=
  .error ⟨problem, rest.length⟩

def isGap (c : Char) : Bool := c == ' ' || c == '\t' || c == '\n' || c == '\r'

/-- The text after the blanks at its start. -/
def skipGaps (cs : List Char) : List Char := cs.dropWhile isGap

/-! ### Texts -/

def hexValue? (c : Char) : Option Nat :=
  if c.isDigit then some (c.toNat - 48)
  else if 'a' ≤ c ∧ c ≤ 'f' then some (c.toNat - 87)
  else if 'A' ≤ c ∧ c ≤ 'F' then some (c.toNat - 55)
  else none

def hexFour? : List Char → Option Nat
  | [a, b, c, d] => do
    let a ← hexValue? a
    let b ← hexValue? b
    let c ← hexValue? c
    let d ← hexValue? d
    some (((a * 16 + b) * 16 + c) * 16 + d)
  | _ => none

def simpleEscape? : Char → Option Char
  | '"' => some '"'
  | '\\' => some '\\'
  | '/' => some '/'
  | 'b' => some '\x08'
  | 'f' => some '\x0c'
  | 'n' => some '\n'
  | 'r' => some '\r'
  | 't' => some '\t'
  | _ => none

/-- Four hexadecimal digits after `\u`, with at least one character after them.  `rest`
    starts behind the `u`. -/
def codeUnit (rest : List Char) : Except Mistake (Nat × List Char) :=
  if rest.length ≤ 4 then .error ⟨.badCodeEscape, rest.length + 1⟩
  else
    match hexFour? (rest.take 4) with
    | some n => .ok (n, rest.drop 4)
    | none => .error ⟨.badCodeEscape, rest.length + 1⟩

/-- The second half of a pair of code units, if it follows. -/
def lowUnit? (high : Nat) (rest : List Char) : Except Mistake (Option (Nat × List Char)) :=
  if 0xD800 ≤ high ∧ high < 0xDC00 ∧ 6 < rest.length then
    match rest with
    | '\\' :: 'u' :: r => do
      let (low, after) ← codeUnit r
      if 0xDC00 ≤ low ∧ low < 0xE000 then
        return some (0x10000 + (high - 0xD800) * 0x400 + (low - 0xDC00), after)
      else return none
    | _ => return none
  else return none

/-- The characters of a text up to its closing quote.  `opening` is the number of
    characters left at the opening quote. -/
def textChars (opening : Nat) : Nat → List Char → Except Mistake (List Char × List Char)
  | 0, _ => .error ⟨.unterminatedText, opening⟩
  | _, [] => .error ⟨.unterminatedText, opening⟩
  | fuel + 1, c :: rest =>
    if c == '"' then .ok ([], rest)
    else if c == '\\' then
      match rest with
      | [] => .error ⟨.unterminatedText, opening⟩
      | 'u' :: r => do
        let (unit, after) ← codeUnit r
        match ← lowUnit? unit after with
        | some (code, after') =>
          let (more, last) ← textChars opening fuel after'
          return (Char.ofNat code :: more, last)
        | none =>
          let (more, last) ← textChars opening fuel after
          return (Text.ofCode unit :: more, last)
      | e :: r =>
        match simpleEscape? e with
        | some image => do
          let (more, last) ← textChars opening fuel r
          return (image :: more, last)
        | none => mistake .badEscape (c :: rest)
    else if c.toNat < 0x20 then mistake .controlCharacter (c :: rest)
    else do
      let (more, last) ← textChars opening fuel rest
      return (c :: more, last)

def textBody (rest : List Char) : Except Mistake (String × List Char) := do
  let (cs, after) ← textChars (rest.length + 1) (rest.length + 1) rest
  return (String.ofList cs, after)

/-! ### Numbers -/

/-- The digits before the point: a single zero, or digits that do not start with zero. -/
def wholeDigits? : List Char → Option (List Char × List Char)
  | '0' :: r => some (['0'], r)
  | c :: r => if c.isDigit then some (Decimal.takeDigits (c :: r)) else none
  | [] => none

def number? (cs : List Char) : Option (Value × List Char) := do
  let (negative, r) := match cs with
    | '-' :: r => (true, r)
    | r => (false, r)
  let (whole, r) ← wholeDigits? r
  let (fraction, r) := match r with
    | '.' :: r' =>
      let (f, after) := Decimal.takeDigits r'
      if f.isEmpty then (none, r) else (some f, after)
    | r => (none, r)
  let (exponent, r) := Decimal.takeExponent? r
  if fraction.isNone && exponent.isNone then
    let n : Int := Decimal.ofDigits whole
    some (.int (if negative then -n else n), r)
  else
    some (.float (Decimal.Numeral.toFloat ⟨negative, whole, fraction, exponent⟩), r)

/-- Drop a word from the start of a text. -/
def afterWord? : List Char → List Char → Option (List Char)
  | [], rest => some rest
  | w :: ws, c :: cs => if w == c then afterWord? ws cs else none
  | _ :: _, [] => none

def words : List (List Char × Value) :=
  [("null".toList, .null), ("true".toList, .bool true), ("false".toList, .bool false),
   ("NaN".toList, .float (0.0 / 0.0)), ("Infinity".toList, .float (1.0 / 0.0)),
   ("-Infinity".toList, .float (-(1.0 / 0.0)))]

/-- A word or a number at the start of the text. -/
def atom (cs : List Char) : Except Mistake (Value × List Char) :=
  match words.findSome? fun (w, v) => (afterWord? w cs).map (v, ·) with
  | some found => .ok found
  | none =>
    match number? cs with
    | some found => .ok found
    | none => mistake .valueExpected cs

/-! ### Lists, objects and whole texts -/

mutual

def readValue : Nat → List Char → Except Mistake (Value × List Char)
  | 0, cs => mistake .valueExpected cs
  | fuel + 1, cs =>
    match cs with
    | '"' :: rest => do
      let (s, after) ← textBody rest
      return (.text s, after)
    | '[' :: rest =>
      match skipGaps rest with
      | ']' :: after => .ok (.list [], after)
      | r => do
        let (items, after) ← readItems fuel r
        return (.list items, after)
    | '{' :: rest =>
      match skipGaps rest with
      | '}' :: after => .ok (.object [], after)
      | r => do
        let (entries, after) ← readEntries fuel r
        return (.object (Entries.ofList entries), after)
    | cs => atom cs

/-- The items of a list up to its closing bracket. -/
def readItems : Nat → List Char → Except Mistake (List Value × List Char)
  | 0, cs => mistake .valueExpected cs
  | fuel + 1, cs => do
    let (v, r) ← readValue fuel cs
    match skipGaps r with
    | ']' :: after => return ([v], after)
    | ',' :: r' =>
      let (more, after) ← readItems fuel (skipGaps r')
      return (v :: more, after)
    | r' => mistake .commaExpected r'

/-- The entries of an object up to its closing brace. -/
def readEntries : Nat → List Char → Except Mistake (List (String × Value) × List Char)
  | 0, cs => mistake .valueExpected cs
  | fuel + 1, cs =>
    match cs with
    | '"' :: rest => do
      let (key, r) ← textBody rest
      match skipGaps r with
      | ':' :: r' =>
        let (v, r'') ← readValue fuel (skipGaps r')
        match skipGaps r'' with
        | '}' :: after => return ([(key, v)], after)
        | ',' :: r3 =>
          let (more, after) ← readEntries fuel (skipGaps r3)
          return ((key, v) :: more, after)
        | r3 => mistake .commaExpected r3
      | r' => mistake .colonExpected r'
    | cs => mistake .nameExpected cs

end

def read (s : String) : Except ReadError Value :=
  let cs := s.toList
  let result : Except Mistake Value := do
    if cs.head? == some '\uFEFF' then mistake .byteOrderMark cs
    -- a bracket takes a step as a value and another one for its items
    let (v, rest) ← readValue (2 * cs.length + 1) (skipGaps cs)
    match skipGaps rest with
    | [] => return v
    | r => mistake .extraData r
  result.mapError (·.locate cs)

end Quorum.Value

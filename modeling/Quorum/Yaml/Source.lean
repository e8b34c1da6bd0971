/-
  Quorum/Yaml/Source.lean
  =======================
  **The text of a document and places in it.**

  A cursor is what is left of the text together with its place.  The end of the text reads
  as a NUL, which no text may hold.  A mark is a place, kept for messages; when the text
  itself is at hand, a message shows the line around the place.
-/
import Quorum.Text.Quoted

namespace Quorum.Yaml

/-! ### Classes of characters -/

def endChar : Char := '\x00'

def isBreak (c : Char) : Bool :=
  c == '\n' || c == '\r' || c == '\u0085' || c == '\u2028' || c == '\u2029'

def endsLine (c : Char) : Bool := c == endChar || isBreak c

/-- A space, or a line or the text ends here. -/
def isSpaceOrEnd (c : Char) : Bool := c == ' ' || endsLine c

/-- A space or tab, or a line or the text ends here. -/
def endsWord (c : Char) : Bool := c == '\t' || isSpaceOrEnd c

/-- A letter or digit of the ASCII range, a hyphen or a low line. -/
def isWordChar (c : Char) : Bool := c.isAlphanum || c == '-' || c == '_'

def isHexDigit (c : Char) : Bool :=
  c.isDigit || ('a' ≤ c && c ≤ 'f') || ('A' ≤ c && c ≤ 'F')

def isAcceptable (c : Char) : Bool :=
  let n := c.toNat
  n == 0x9 || n == 0xA || n == 0xD || (0x20 ≤ n && n ≤ 0x7E) || n == 0x85
    || (0xA0 ≤ n && n ≤ 0xD7FF) || (0xE000 ≤ n && n ≤ 0xFFFD) || 0x10000 ≤ n

/-! ### Marks and cursors -/

/-- A place in a text: characters from its beginning, line and column, all from zero. -/
structure Mark where
  index : Nat
  line : Nat
  column : Nat
deriving DecidableEq, Repr

/-- A place in a text and what follows it. -/
structure Cursor where
  mark : Mark
  rest : List Char

/-- A text with the name it goes by in messages. -/
structure Source where
  name : String
  chars : List Char
  /-- Messages show the line they speak of. -/
  shown : Bool

namespace Source

def ofText (s : String) : Source := ⟨"<unicode string>", s.toList, true⟩

def ofFile (name : String) (chars : List Char) : Source := ⟨name, chars, false⟩

end Source

namespace Cursor

def start (s : Source) : Cursor := ⟨⟨0, 0, 0⟩, s.chars⟩

/-- The character `n` places on. -/
def peek (c : Cursor) (n : Nat := 0) : Char := c.rest[n]?.getD endChar

def column (c : Cursor) : Int := c.mark.column

/-- The next place.  A carriage return ends a line unless a line feed follows; a byte order
    mark takes no column. -/
def next (c : Cursor) : Cursor :=
  match c.rest with
  | [] => c
  | ch :: rest =>
    let endsHere := isBreak ch && !(ch == '\r' && rest.head? == some '\n')
    let mark : Mark :=
      if endsHere then ⟨c.mark.index + 1, c.mark.line + 1, 0⟩
      else if ch == '\uFEFF' then { c.mark with index := c.mark.index + 1 }
      else { c.mark with index := c.mark.index + 1, column := c.mark.column + 1 }
    ⟨mark, rest⟩

/-- The place `n` characters on. -/
def forward (c : Cursor) : Nat → Cursor
  | 0 => c
  | n + 1 => c.next.forward n

/-- The characters of a class from here on, and the place after them. -/
def takeWhile (c : Cursor) (p : Char → Bool) : List Char × Cursor :=
  let taken := c.rest.takeWhile p
  (taken, c.forward taken.length)

/-- The place after the characters of a class. -/
def skipWhile (c : Cursor) (p : Char → Bool) : Cursor := (c.takeWhile p).2

/-- The place after the next line end, and the character it stands for: nothing if no line
    ends here, a line feed for the usual line ends, a separator for itself. -/
def lineBreak (c : Cursor) : List Char × Cursor :=
  let ch := c.peek
  if ch == '\r' && c.peek 1 == '\n' then (['\n'], c.forward 2)
  else if ch == '\r' || ch == '\n' || ch == '\u0085' then (['\n'], c.next)
  else if ch == '\u2028' || ch == '\u2029' then ([ch], c.next)
  else ([], c)

/-- Three equal characters stand here as a word of their own. -/
def isTriple (c : Cursor) (ch : Char) : Bool :=
  c.peek == ch && c.peek 1 == ch && c.peek 2 == ch && endsWord (c.peek 3)

def isSeparator (c : Cursor) : Bool := c.isTriple '-' || c.isTriple '.'

/-- A bound for the steps that scanning from here can take. -/
def size (c : Cursor) : Nat := c.rest.length

end Cursor

/-! ### Excerpts -/

/-- The most characters of a line that a message shows. -/
def excerptWidth : Nat := 75

/-- Walk away from a place inside a line, `taken` holding what was passed, nearest last.
    A walk that gets too long is cut back by five characters. -/
def excerptSide (taken : List Char) (count : Nat) : List Char → List Char × Bool
  | [] => (taken, false)
  | c :: rest =>
    if endsLine c then (taken, false)
    else if excerptWidth < 2 * (count + 1) + 2 then ((c :: taken).drop 5, true)
    else excerptSide (c :: taken) (count + 1) rest

/-- The line around a place with a caret below it. -/
def Source.excerpt (s : Source) (m : Mark) : String :=
  let (before, cutBefore) := excerptSide [] 0 (s.chars.take m.index).reverse
  let (after, cutAfter) := excerptSide [] 0 (s.chars.drop m.index)
  let head := if cutBefore then " ... " else ""
  let tail := if cutAfter then " ... " else ""
  let shown := String.ofList (before ++ after.reverse)
  let indent := String.ofList (List.replicate (4 + before.length + head.length) ' ')
  s!"    {head}{shown}{tail}\n{indent}^"

def Source.place (s : Source) (m : Mark) : String :=
  let text := s!"  in \"{s.name}\", line {m.line + 1}, column {m.column + 1}"
  if s.shown then s!"{text}:\n{s.excerpt m}" else text

end Quorum.Yaml

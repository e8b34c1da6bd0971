/-
  Quorum/Yaml/Token.lean
  ======================
  **A document as a sequence of tokens.**

  Block structure is told by columns: a deeper column opens a collection, a shallower one
  closes all that are deeper.  A key is only known as such when its colon is reached, so
  places where a key may have begun are remembered, one per level of flow collections, as
  long as they are on the same line and at most 1024 characters back.  The first tokens
  are held back while one of them may still turn out to be a key.
-/
import Quorum.Yaml.Lexeme

namespace Quorum.Yaml

inductive TokenKind where
  | streamStart | streamEnd
  | directive (d : Directive)
  | documentStart | documentEnd
  | blockSequenceStart | blockMappingStart | blockEnd
  | flowSequenceStart | flowSequenceEnd | flowMappingStart | flowMappingEnd
  | blockEntry | flowEntry | key | value
  | alias (name : String)
  | anchor (name : String)
  | tag (handle : Option String) (text : String)
  | scalar (text : String) (plain : Bool)

def TokenKind.name : TokenKind → String
  | .streamStart => "<stream start>"
  | .streamEnd => "<stream end>"
  | .directive _ => "<directive>"
  | .documentStart => "<document start>"
  | .documentEnd => "<document end>"
  | .blockSequenceStart => "<block sequence start>"
  | .blockMappingStart => "<block mapping start>"
  | .blockEnd => "<block end>"
  | .flowSequenceStart => "["
  | .flowSequenceEnd => "]"
  | .flowMappingStart => "\x7b"
  | .flowMappingEnd => "\x7d"
  | .blockEntry => "-"
  | .flowEntry => ","
  | .key => "?"
  | .value => ":"
  | .alias _ => "<alias>"
  | .anchor _ => "<anchor>"
  | .tag _ _ => "<tag>"
  | .scalar _ _ => "<scalar>"

/-- A token and where it begins and ends. -/
structure Token where
  kind : TokenKind
  start : Mark
  stop : Mark

/-- A place where a key may have begun. -/
structure KeyPlace where
  /-- The number of the token that begins there. -/
  token : Nat
  /-- The token has to turn out to be a key. -/
  required : Bool
  mark : Mark

/-- The tokens of a text as far as they were read. -/
structure Lexer where
  cursor : Cursor
  /-- Tokens read and not handed out. -/
  held : List Token
  /-- How many tokens were handed out. -/
  taken : Nat
  /-- How many flow collections are open. -/
  level : Int
  /-- The column of the innermost block collection, and those around it. -/
  indent : Int
  indents : List Int
  /-- A key may begin at the next token. -/
  keyAllowed : Bool
  /-- Places where keys may have begun, by level. -/
  places : List (Int × KeyPlace)
  done : Bool

namespace Lexer

def start (s : Source) : Lexer where
  cursor := .start s
  held := [⟨.streamStart, ⟨0, 0, 0⟩, ⟨0, 0, 0⟩⟩]
  taken := 0
  level := 0
  indent := -1
  indents := []
  keyAllowed := true
  places := []
  done := false

def mark (l : Lexer) : Mark := l.cursor.mark

def inBlock (l : Lexer) : Bool := l.level == 0

def push (l : Lexer) (kind : TokenKind) (start stop : Mark) : Lexer :=
  { l with held := l.held ++ [⟨kind, start, stop⟩] }

/-- Hold a token that takes no characters. -/
def pushHere (l : Lexer) (kind : TokenKind) : Lexer := l.push kind l.mark l.mark

/-- Read a token of some characters that mean nothing but itself. -/
def pushMark (l : Lexer) (kind : TokenKind) (length : Nat) : Lexer :=
  let after := l.cursor.forward length
  { l.push kind l.mark after.mark with cursor := after }

def putAt (l : Lexer) (number : Nat) (kind : TokenKind) (m : Mark) : Lexer :=
  let (before, after) := l.held.splitAt (number - l.taken)
  { l with held := before ++ ⟨kind, m, m⟩ :: after }

/-! ### Keys -/

/-- Forget the places where no key can begin any more. -/
def dropStale (l : Lexer) : Scanned Lexer := do
  let stale (p : KeyPlace) := p.mark.line != l.mark.line || 1024 < l.mark.index - p.mark.index
  match l.places.find? fun (_, p) => stale p && p.required with
  | some (_, p) => complain .simpleKey p.mark .colonMissing l.mark
  | none => return { l with places := l.places.filter fun (_, p) => !stale p }

def dropPlace (l : Lexer) : Scanned Lexer :=
  match l.places.lookup l.level with
  | some p =>
    if p.required then complain .simpleKey p.mark .colonMissing l.mark
    else .ok { l with places := l.places.filter fun (level, _) => level != l.level }
  | none => .ok l

/-- Remember the present place, if a key may begin here. -/
def savePlace (l : Lexer) : Scanned Lexer := do
  if !l.keyAllowed then return l
  let required := l.inBlock && l.indent == l.cursor.column
  let l ← l.dropPlace
  let place : KeyPlace := ⟨l.taken + l.held.length, required, l.mark⟩
  return { l with places := l.places ++ [(l.level, place)] }

/-! ### Columns -/

/-- Close the block collections that are deeper than a column; `open'` lists the columns
    around them. -/
def closeTo (column : Int) (l : Lexer) : List Int → Lexer
  | [] => l
  | outer :: rest =>
    if column < l.indent then
      closeTo column { l.pushHere .blockEnd with indent := outer, indents := rest } rest
    else l

def unwind (l : Lexer) (column : Int) : Lexer :=
  if l.inBlock then closeTo column l l.indents else l

def opens (l : Lexer) (column : Int) : Bool := l.indent < column

def openAt (l : Lexer) (column : Int) : Lexer :=
  { l with indent := column, indents := l.indent :: l.indents }

/-- Open a block collection here, if the column asks for one. -/
def openHere (l : Lexer) (kind : TokenKind) : Lexer :=
  if l.opens l.cursor.column then (l.openAt l.cursor.column).pushHere kind else l

/-! ### Tokens -/

def streamEnd (l : Lexer) : Scanned Lexer := do
  let l ← (l.unwind (-1)).dropPlace
  return { l.pushHere .streamEnd with keyAllowed := false, places := [], done := true }

def directive (l : Lexer) : Scanned Lexer := do
  let l ← (l.unwind (-1)).dropPlace
  let ((d, stop), after) ← Lexeme.directive l.cursor
  return { l.push (.directive d) l.mark stop with cursor := after, keyAllowed := false }

def separator (l : Lexer) (kind : TokenKind) : Scanned Lexer := do
  let l ← (l.unwind (-1)).dropPlace
  return { l.pushMark kind 3 with keyAllowed := false }

def flowStart (l : Lexer) (kind : TokenKind) : Scanned Lexer := do
  let l ← l.savePlace
  return { l.pushMark kind 1 with level := l.level + 1, keyAllowed := true }

def flowEnd (l : Lexer) (kind : TokenKind) : Scanned Lexer := do
  let l ← l.dropPlace
  return { l.pushMark kind 1 with level := l.level - 1, keyAllowed := false }

def flowEntry (l : Lexer) : Scanned Lexer := do
  let l ← { l with keyAllowed := true }.dropPlace
  return l.pushMark .flowEntry 1

/-- The hyphen before an item of a block sequence. -/
def blockEntry (l : Lexer) : Scanned Lexer := do
  if l.inBlock && !l.keyAllowed then complainAt .entryMisplaced l.mark
  else
    let l := if l.inBlock then l.openHere .blockSequenceStart else l
    let l ← { l with keyAllowed := true }.dropPlace
    return l.pushMark .blockEntry 1

def explicitKey (l : Lexer) : Scanned Lexer := do
  if l.inBlock && !l.keyAllowed then complainAt .keyMisplaced l.mark
  else
    let l := if l.inBlock then l.openHere .blockMappingStart else l
    let l ← { l with keyAllowed := l.inBlock }.dropPlace
    return l.pushMark .key 1

/-- A colon after the key that began at a place. -/
def valueOf (l : Lexer) (p : KeyPlace) : Lexer :=
  let l := { l with places := l.places.filter fun (level, _) => level != l.level }
  let l := l.putAt p.token .key p.mark
  let column : Int := p.mark.column
  let l := if l.inBlock && l.opens column then
      (l.openAt column).putAt p.token .blockMappingStart p.mark
    else l
  { l with keyAllowed := false }.pushMark .value 1

/-- A colon with no simple key before it. -/
def bareValue (l : Lexer) : Scanned Lexer := do
  if l.inBlock && !l.keyAllowed then complainAt .valueMisplaced l.mark
  else
    let l := if l.inBlock then l.openHere .blockMappingStart else l
    let l ← { l with keyAllowed := l.inBlock }.dropPlace
    return l.pushMark .value 1

def value (l : Lexer) : Scanned Lexer :=
  match l.places.lookup l.level with
  | some p => .ok (l.valueOf p)
  | none => l.bareValue

def keyStart (l : Lexer) (read : Cursor → Scanned (TokenKind × Cursor)) : Scanned Lexer := do
  let l ← l.savePlace
  let (kind, after) ← read l.cursor
  return { l.push kind l.mark after.mark with cursor := after, keyAllowed := false }

/-- A plain scalar.  A line end after it allows a key again. -/
def plain (l : Lexer) : Scanned Lexer := do
  let l ← l.savePlace
  let (t, after) := Lexeme.plainScalar (!l.inBlock) l.indent l.cursor
  return { l.push (.scalar (String.ofList t.text) true) l.mark t.stop with
    cursor := after, keyAllowed := t.lineEnded }

def block (l : Lexer) (folded : Bool) : Scanned Lexer := do
  let l ← { l with keyAllowed := true }.dropPlace
  let (text, after) ← Lexeme.blockScalar folded l.indent l.cursor
  return { l.push (.scalar text false) l.mark after.mark with cursor := after }

def quotedToken (c : Cursor) : Scanned (TokenKind × Cursor) := do
  let (text, after) ← Lexeme.quotedScalar c
  return (.scalar text false, after)

def tagToken (c : Cursor) : Scanned (TokenKind × Cursor) := do
  let ((h, text), after) ← Lexeme.tag c
  return (.tag h text, after)

def aliasToken (c : Cursor) : Scanned (TokenKind × Cursor) := do
  let (word, after) ← Lexeme.name .alias c
  return (.alias word, after)

def anchorToken (c : Cursor) : Scanned (TokenKind × Cursor) := do
  let (word, after) ← Lexeme.name .anchor c
  return (.anchor word, after)

/-- Skip spaces, comments and line ends.  A line end outside flow collections allows a key. -/
def skipBlanks : Nat → Lexer → Lexer
  | 0, l => l
  | steps + 1, l =>
    let c := l.cursor.skipWhile (· == ' ')
    let c := if c.peek == '#' then c.skipWhile fun ch => !endsLine ch else c
    if isBreak c.peek then
      skipBlanks steps { l with cursor := c.lineBreak.2, keyAllowed := l.keyAllowed || l.inBlock }
    else { l with cursor := c }

/-- Skip what comes before the next token; a byte order mark may begin the text. -/
def toNextToken (l : Lexer) : Lexer :=
  let l := if l.mark.index == 0 && l.cursor.peek == '\uFEFF' then
      { l with cursor := l.cursor.next } else l
  skipBlanks (l.cursor.size + 1) l

/-- The characters that do not begin a plain scalar. -/
def indicators : List Char := "-?:,[]\x7b\x7d#&*!|>'\"%@`".toList

def startsPlain (l : Lexer) : Bool :=
  let ch := l.cursor.peek
  let next := l.cursor.peek 1
  !(endsWord ch || indicators.contains ch)
    || (!endsWord next && (ch == '-' || (l.inBlock && (ch == '?' || ch == ':'))))

/-- Read the next token, and what the column says before it. -/
def more (l : Lexer) : Scanned Lexer := do
  let l ← l.toNextToken.dropStale
  let l := l.unwind l.cursor.column
  let c := l.cursor
  let ch := c.peek
  let apart := endsWord (c.peek 1)
  let lineStart := c.mark.column == 0
  if ch == endChar then l.streamEnd
  else if ch == '%' && lineStart then l.directive
  else if lineStart && c.isTriple '-' then l.separator .documentStart
  else if lineStart && c.isTriple '.' then l.separator .documentEnd
  else if ch == '[' then l.flowStart .flowSequenceStart
  else if ch == '\x7b' then l.flowStart .flowMappingStart
  else if ch == ']' then l.flowEnd .flowSequenceEnd
  else if ch == '\x7d' then l.flowEnd .flowMappingEnd
  else if ch == ',' then l.flowEntry
  else if ch == '-' && apart then l.blockEntry
  else if ch == '?' && (!l.inBlock || apart) then l.explicitKey
  else if ch == ':' && (!l.inBlock || apart) then l.value
  else if ch == '*' then l.keyStart aliasToken
  else if ch == '&' then l.keyStart anchorToken
  else if ch == '!' then l.keyStart tagToken
  else if ch == '|' && l.inBlock then l.block false
  else if ch == '>' && l.inBlock then l.block true
  else if ch == '\'' || ch == '"' then l.keyStart quotedToken
  else if l.startsPlain then l.plain
  else .error (.problem (.marked (some .nextToken) none (.noToken ch) l.mark))

/-- The first token that is held may still turn out to be a key. -/
def headIsOpen (l : Lexer) : Bool := l.places.any fun (_, p) => p.token == l.taken

/-- Read until the first token can be handed out, or the text ends. -/
def settle : Nat → Lexer → Scanned Lexer
  | 0, l => .ok l
  | steps + 1, l => do
    if l.done then return l
    if l.held.isEmpty then settle steps (← l.more)
    else
      let l ← l.dropStale
      if l.headIsOpen then settle steps (← l.more) else return l

end Lexer

/-- The tokens of a text in order, and what ends them if it is not the end of the text. -/
structure Tokens where
  list : List Token
  failure : Option Failure

/-- Hand out tokens until none is left; `given` holds those before in reverse. -/
def Tokens.from (bound : Nat) (given : List Token) : Nat → Lexer → Tokens
  | 0, _ => ⟨given.reverse, none⟩
  | steps + 1, l =>
    match l.settle bound with
    | .error f => ⟨given.reverse, some f⟩
    | .ok l =>
      match l.held with
      | [] => ⟨given.reverse, none⟩
      | t :: rest => Tokens.from bound (t :: given) steps { l with held := rest, taken := l.taken + 1 }

def Tokens.ofSource (s : Source) : Tokens :=
  let bound := s.chars.length + 2
  Tokens.from bound [] (4 * bound + 4) (.start s)

end Quorum.Yaml

/-
  Quorum/Yaml/Lexeme.lean
  =======================
  **The parts of a document that span several characters.**

  Names of anchors, tags, directives and scalars in their four styles.  Every function reads
  one of them at a cursor and gives the cursor after it.  Loops take a bound for their
  steps, which the length of the remaining text provides.
-/
import Quorum.Text.Basic
import Quorum.Yaml.Problem

namespace Quorum.Yaml

/-- What was read, or why it could not be read. -/
abbrev Scanned := Except Failure

/-- A directive: an instruction for the document that follows. -/
inductive Directive where
  | version (major minor : Nat)
  | handle (name expansion : String)
  | other (name : String)

namespace Lexeme

/-! ### Anchors -/

/-- The name after the mark of an anchor or an alias. -/
def name (activity : Activity) (c : Cursor) : Scanned (String × Cursor) := do
  let (word, after) := c.next.takeWhile isWordChar
  let follows := after.peek
  if word.isEmpty then complain activity c.mark (.wordExpected follows) after.mark
  else if !endsWord follows && !("?:,]\x7d%@`".toList.contains follows) then
    complain activity c.mark (.wordExpected follows) after.mark
  else return (String.ofList word, after)

/-! ### Tags -/

/-- The activity of reading a part of a tag, or of a directive about tags. -/
structure TagPart where
  scanning : Activity
  parsing : Activity

def TagPart.ofNode : TagPart := ⟨.tag, .tagText⟩

def TagPart.ofDirective : TagPart := ⟨.directive, .directiveText⟩

/-- The handle of a tag: an exclamation mark, or a word between two of them. -/
def handle (part : TagPart) (began : Mark) (c : Cursor) : Scanned (String × Cursor) := do
  if c.peek != '!' then complain part.scanning began (.bangExpected c.peek) c.mark
  else if c.peek 1 == ' ' then return ("!", c.next)
  else
    let (word, after) := c.next.takeWhile isWordChar
    if after.peek != '!' then complain part.scanning began (.bangExpected after.peek) after.mark
    else return (String.ofList ('!' :: (word ++ ['!'])), after.next)

/-- The value of a hexadecimal digit. -/
def hexValue (c : Char) : Nat := (Conversion.digitValue? 16 c).getD 0

def hexNumber (cs : List Char) : Nat := cs.foldl (fun n c => 16 * n + hexValue c) 0

/-- Bytes written as percent signs with two hexadecimal digits each. -/
def escapedBytes (part : TagPart) (began : Mark) : Nat → Cursor → Scanned (List UInt8 × Cursor)
  | 0, c => .ok ([], c)
  | steps + 1, c => do
    if c.peek != '%' then return ([], c)
    let c := c.next
    if !isHexDigit c.peek then complain part.scanning began (.uriEscape c.peek) c.mark
    else if !isHexDigit (c.peek 1) then complain part.scanning began (.uriEscape (c.peek 1)) c.mark
    else
      let byte := UInt8.ofNat (hexNumber [c.peek, c.peek 1])
      let (bytes, after) ← escapedBytes part began steps (c.forward 2)
      return (byte :: bytes, after)

def isUriChar (c : Char) : Bool :=
  c.isAlphanum || "-;/?:@&=+$,_.!~*'()[]".toList.contains c

/-- The characters of a tag; bytes may be escaped. -/
def uriChars (part : TagPart) (began : Mark) : Nat → Cursor → Scanned (List Char × Cursor)
  | 0, c => .ok ([], c)
  | steps + 1, c => do
    let (plain, after) := c.takeWhile isUriChar
    if after.peek != '%' then return (plain, after)
    let (bytes, next) ← escapedBytes part began after.size after
    match Text.decodeUtf8 bytes with
    | .error problem => complain part.scanning began (.uriBytes problem) after.mark
    | .ok cs =>
      let (more, last) ← uriChars part began steps next
      return (plain ++ cs ++ more, last)

def uri (part : TagPart) (began : Mark) (c : Cursor) : Scanned (String × Cursor) := do
  let (cs, after) ← uriChars part began (c.size + 1) c
  if cs.isEmpty then complain part.parsing began (.uriExpected after.peek) after.mark
  else return (String.ofList cs, after)

/-- An exclamation mark stands in the word that begins here. -/
def hasBang (c : Cursor) : Bool :=
  (c.rest.takeWhile fun ch => !isSpaceOrEnd ch).contains '!'

/-- A tag: a handle, if there is one, and the text after it. -/
def tag (c : Cursor) : Scanned ((Option String × String) × Cursor) := do
  let began := c.mark
  let (value, after) ←
    if c.peek 1 == '<' then do
      let (text, after) ← uri .ofNode began (c.forward 2)
      if after.peek != '>' then complain .tagText began (.angleExpected after.peek) after.mark
      else pure ((none, text), after.next)
    else if endsWord (c.peek 1) then pure ((none, "!"), c.next)
    else if hasBang c.next then do
      let (h, after) ← handle .ofNode began c
      let (text, last) ← uri .ofNode began after
      pure ((some h, text), last)
    else do
      let (text, last) ← uri .ofNode began c.next
      pure ((some "!", text), last)
  if isSpaceOrEnd after.peek then return (value, after)
  else complain .tag began (.spaceExpected after.peek) after.mark

/-! ### Directives -/

/-- The place after spaces, a comment and the end of the line. -/
def restOfLine (activity : Activity) (began : Mark) (c : Cursor) : Scanned Cursor := do
  let c := c.skipWhile (· == ' ')
  let c := if c.peek == '#' then c.skipWhile fun ch => !endsLine ch else c
  if endsLine c.peek then return c.lineBreak.2
  else complain activity began (.lineEndExpected c.peek) c.mark

def decimal (began : Mark) (c : Cursor) : Scanned (Nat × Cursor) := do
  let (digits, after) := c.takeWhile Char.isDigit
  if digits.isEmpty then complain .directive began (.digitExpected c.peek) c.mark
  else return (Decimal.ofDigits digits, after)

/-- A version: two numbers with a point between them. -/
def version (began : Mark) (c : Cursor) : Scanned (Directive × Cursor) := do
  let (major, c) ← decimal began (c.skipWhile (· == ' '))
  if c.peek != '.' then complain .directive began (.digitOrPointExpected c.peek) c.mark
  else
    let (minor, c) ← decimal began c.next
    if isSpaceOrEnd c.peek then return (.version major minor, c)
    else complain .directive began (.digitOrSpaceExpected c.peek) c.mark

def tagHandle (began : Mark) (c : Cursor) : Scanned (Directive × Cursor) := do
  let (h, c) ← handle .ofDirective began (c.skipWhile (· == ' '))
  if c.peek != ' ' then complain .directive began (.spaceExpected c.peek) c.mark
  else
    let (text, c) ← uri .ofDirective began (c.skipWhile (· == ' '))
    if isSpaceOrEnd c.peek then return (.handle h text, c)
    else complain .directive began (.spaceExpected c.peek) c.mark

/-- A directive, up to and including the end of its line; the first place is the end of its
    own text. -/
def directive (c : Cursor) : Scanned ((Directive × Mark) × Cursor) := do
  let began := c.mark
  let (word, after) := c.next.takeWhile isWordChar
  if word.isEmpty || !isSpaceOrEnd after.peek then
    complain .directive began (.wordExpected after.peek) after.mark
  else
    let (d, last) ← match String.ofList word with
      | "YAML" => version began after
      | "TAG" => tagHandle began after
      | other => pure (.other other, after)
    let rest := match d with
      | .other _ => last.skipWhile fun ch => !endsLine ch
      | _ => last
    let next ← restOfLine .directive began rest
    return ((d, last.mark), next)

/-! ### Block scalars -/

/-- What the head of a block scalar says: which line ends at its end are kept, all or none,
    and how far it is indented. -/
structure BlockHead where
  keeps : Option Bool
  increment : Option Nat

def chomping? (c : Char) : Option Bool :=
  if c == '+' then some true else if c == '-' then some false else none

/-- The digit that says how far a block scalar is indented. -/
def increment (began : Mark) (c : Cursor) : Scanned (Option Nat × Cursor) := do
  if c.peek == '0' then complain .blockScalar began .indentZero c.mark
  else if c.peek.isDigit then return (some (Decimal.digitValue c.peek), c.next)
  else return (none, c)

/-- The head of a block scalar: a sign and a digit in either order. -/
def blockHead (began : Mark) (c : Cursor) : Scanned (BlockHead × Cursor) := do
  let (head, c) ←
    match chomping? c.peek with
    | some keeps => do
      let (n, c) ← increment began c.next
      pure (⟨some keeps, n⟩, c)
    | none => do
      let (n, c) ← increment began c
      match n, chomping? c.peek with
      | some _, some keeps => pure (⟨some keeps, n⟩, c.next)
      | _, _ => pure (⟨none, n⟩, c)
  if isSpaceOrEnd c.peek then return (head, c)
  else complain .blockScalar began (.indicatorsExpected c.peek) c.mark

/-- Line ends and spaces before the first line of a block scalar, with the widest column
    reached by spaces. -/
def leadingBreaks : Nat → List Char → Int → Cursor → (List Char × Int) × Cursor
  | 0, breaks, widest, c => ((breaks, widest), c)
  | steps + 1, breaks, widest, c =>
    if isBreak c.peek then
      let (br, c) := c.lineBreak
      leadingBreaks steps (breaks ++ br) widest c
    else if c.peek == ' ' then leadingBreaks steps breaks (max widest c.next.column) c.next
    else ((breaks, widest), c)

/-- The place after spaces up to a column. -/
def indentTo (indent : Int) (c : Cursor) : Cursor :=
  let spaces := (c.rest.takeWhile (· == ' ')).length
  c.forward (min spaces (indent - c.column).toNat)

/-- Line ends, each followed by spaces up to a column. -/
def innerBreaks (indent : Int) : Nat → List Char → Cursor → List Char × Cursor
  | 0, breaks, c => (breaks, c)
  | steps + 1, breaks, c =>
    let c := indentTo indent c
    if isBreak c.peek then
      let (br, c) := c.lineBreak
      innerBreaks indent steps (breaks ++ br) c
    else (breaks, c)

/-- The lines of a block scalar as far as they were read: the text, the end of the last line
    and the line ends after it. -/
structure BlockText where
  text : List Char
  lastBreak : List Char
  breaks : List Char

/-- The lines of a block scalar.  When lines are folded, a single line end between two lines
    that do not begin with a blank becomes a space. -/
def blockLines (folded : Bool) (indent : Int) : Nat → BlockText → Cursor → BlockText × Cursor
  | 0, t, c => (t, c)
  | steps + 1, t, c =>
    if c.column == indent && c.peek != endChar then
      let isBlank (ch : Char) := ch == ' ' || ch == '\t'
      let startsPlain := !isBlank c.peek
      let (line, c) := c.takeWhile fun ch => !endsLine ch
      let (br, c) := c.lineBreak
      let (breaks, c) := innerBreaks indent (c.size + 1) [] c
      let text := t.text ++ t.breaks ++ line
      if c.column == indent && c.peek != endChar then
        let joint :=
          if folded && br == ['\n'] && startsPlain && !isBlank c.peek then
            (if breaks.isEmpty then [' '] else [])
          else br
        blockLines folded indent steps ⟨text ++ joint, br, breaks⟩ c
      else (⟨text, br, breaks⟩, c)
    else (t, c)

/-- A block scalar below a given indentation. -/
def blockScalar (folded : Bool) (outer : Int) (c : Cursor) : Scanned (String × Cursor) := do
  let began := c.mark
  let (head, c) ← blockHead began c.next
  let c ← restOfLine .blockScalar began c
  let least := max 1 (outer + 1)
  let (breaks, indent, c) := match head.increment with
    | none =>
      let ((breaks, widest), c) := leadingBreaks (c.size + 1) [] 0 c
      (breaks, max least widest, c)
    | some n =>
      let indent := least + n - 1
      let (breaks, c) := innerBreaks indent (c.size + 1) [] c
      (breaks, indent, c)
  let (t, c) := blockLines folded indent (c.size + 1) ⟨[], [], breaks⟩ c
  let text := match head.keeps with
    | none => t.text ++ t.lastBreak
    | some true => t.text ++ t.lastBreak ++ t.breaks
    | some false => t.text
  return (String.ofList text, c)

/-! ### Quoted scalars -/

/-- What a backslash and a character stand for between double quotes. -/
def escapes : List (Char × Char) :=
  [('0', '\x00'), ('a', '\x07'), ('b', '\x08'), ('t', '\t'), ('\t', '\t'), ('n', '\n'),
   ('v', '\x0B'), ('f', '\x0C'), ('r', '\r'), ('e', '\x1B'), (' ', ' '), ('"', '"'),
   ('\\', '\\'), ('/', '/'), ('N', '\u0085'), ('_', '\u00A0'), ('L', '\u2028'), ('P', '\u2029')]

/-- The characters that announce a code point, and how many digits it has. -/
def codeLengths : List (Char × Nat) := [('x', 2), ('u', 4), ('U', 8)]

def charOfCode (code : Nat) : Except Slip Char :=
  if 0x80000000 ≤ code then .error .characterNumber
  else if 0x110000 ≤ code then .error .characterRange
  else .ok (Text.ofCode code)

def codePoint (began : Mark) (count : Nat) (c : Cursor) : Scanned (Char × Cursor) := do
  let digits := (List.range count).map fun i => c.peek i
  match digits.find? fun ch => !isHexDigit ch with
  | some ch => complain .doubleQuoted began (.escapeDigits count ch) c.mark
  | none =>
    match charOfCode (hexNumber digits) with
    | .ok ch => return (ch, c.forward count)
    | .error s => .error (.slip s)

def quotedBreaks (began : Mark) : Nat → List Char → Cursor → Scanned (List Char × Cursor)
  | 0, breaks, c => .ok (breaks, c)
  | steps + 1, breaks, c =>
    if c.isSeparator then complain .quotedScalar began .separatorInQuotes c.mark
    else
      let c := c.skipWhile fun ch => ch == ' ' || ch == '\t'
      if isBreak c.peek then
        let (br, c) := c.lineBreak
        quotedBreaks began steps (breaks ++ br) c
      else .ok (breaks, c)

def isPlainInQuotes (ch : Char) : Bool :=
  !(ch == '\'' || ch == '"' || ch == '\\' || endsWord ch)

/-- Text between quotes up to a blank, a line end or the closing quote. -/
def quotedWord (double : Bool) (began : Mark) : Nat → List Char → Cursor → Scanned (List Char × Cursor)
  | 0, text, c => .ok (text, c)
  | steps + 1, text, c => do
    let (plain, c) := c.takeWhile isPlainInQuotes
    let text := text ++ plain
    let ch := c.peek
    if !double && ch == '\'' && c.peek 1 == '\'' then
      quotedWord double began steps (text ++ ['\'']) (c.forward 2)
    else if (double && ch == '\'') || (!double && (ch == '"' || ch == '\\')) then
      quotedWord double began steps (text ++ [ch]) c.next
    else if double && ch == '\\' then
      let c := c.next
      let mark := c.peek
      match escapes.lookup mark, codeLengths.lookup mark with
      | some e, _ => quotedWord double began steps (text ++ [e]) c.next
      | none, some count => do
        let (e, c) ← codePoint began count c.next
        quotedWord double began steps (text ++ [e]) c
      | none, none =>
        if isBreak mark then do
          let (breaks, c) ← quotedBreaks began (c.size + 1) [] c.lineBreak.2
          quotedWord double began steps (text ++ breaks) c
        else complain .doubleQuoted began (.unknownEscape mark) c.mark
    else return (text, c)

/-- Blanks between quotes.  A single line end becomes a space. -/
def quotedBlanks (began : Mark) (c : Cursor) : Scanned (List Char × Cursor) := do
  let (blanks, c) := c.takeWhile fun ch => ch == ' ' || ch == '\t'
  if c.peek == endChar then complain .quotedScalar began .endInQuotes c.mark
  else if isBreak c.peek then
    let (br, c) := c.lineBreak
    let (breaks, c) ← quotedBreaks began (c.size + 1) [] c
    let first := if br != ['\n'] then br else if breaks.isEmpty then [' '] else []
    return (first ++ breaks, c)
  else return (blanks, c)

/-- The rest of a quoted scalar after its first word. -/
def quotedRest (double : Bool) (quote : Char) (began : Mark) :
    Nat → List Char → Cursor → Scanned (List Char × Cursor)
  | 0, text, c => .ok (text, c)
  | steps + 1, text, c => do
    if c.peek == quote then return (text, c.next)
    let (blanks, c) ← quotedBlanks began c
    let (text, c) ← quotedWord double began (c.size + 1) (text ++ blanks) c
    quotedRest double quote began steps text c

def quotedScalar (c : Cursor) : Scanned (String × Cursor) := do
  let quote := c.peek
  let double := quote == '"'
  let (text, after) ← quotedWord double c.mark (c.size + 1) [] c.next
  let (text, after) ← quotedRest double quote c.mark (c.size + 1) text after
  return (String.ofList text, after)

/-! ### Plain scalars -/

/-- The character is one of those that structure flow collections. -/
def isFlowMark (c : Char) : Bool := ",[]\x7b\x7d".toList.contains c

/-- The characters of a plain scalar up to a blank, a colon that ends a key, or a mark. -/
def plainRun (inFlow : Bool) : List Char → List Char
  | [] => []
  | c :: rest =>
    let follows := rest.head?.getD endChar
    if endsWord c || (c == ':' && (endsWord follows || (inFlow && isFlowMark follows)))
        || (inFlow && (isFlowMark c || c == '?')) then []
    else c :: plainRun inFlow rest

/-- Line ends and spaces between the lines of a plain scalar; none before a separator. -/
def plainBreaks : Nat → List Char → Cursor → Option (List Char) × Cursor
  | 0, breaks, c => (some breaks, c)
  | steps + 1, breaks, c =>
    if c.peek == ' ' then plainBreaks steps breaks c.next
    else if isBreak c.peek then
      let (br, c) := c.lineBreak
      if c.isSeparator then (none, c) else plainBreaks steps (breaks ++ br) c
    else (some breaks, c)

/-- Blanks after a part of a plain scalar: what they stand for, and whether a line ended.
    They stand for nothing where the scalar cannot go on. -/
def plainBlanks (c : Cursor) : (List Char × Bool) × Cursor :=
  let (spaces, c) := c.takeWhile (· == ' ')
  if isBreak c.peek then
    let (br, c) := c.lineBreak
    if c.isSeparator then (([], true), c)
    else
      match plainBreaks (c.size + 1) [] c with
      | (none, c) => (([], true), c)
      | (some breaks, c) =>
        let first := if br != ['\n'] then br else if breaks.isEmpty then [' '] else []
        ((first ++ breaks, true), c)
  else ((spaces, false), c)

/-- A plain scalar as far as it was read. -/
structure PlainText where
  text : List Char
  /-- The place after the last character that is not blank. -/
  stop : Mark
  /-- The blanks after it end a line. -/
  lineEnded : Bool

/-- The parts of a plain scalar, `blanks` being what stands before the next one. -/
def plainParts (inFlow : Bool) (indent : Int) :
    Nat → List Char → PlainText → Cursor → PlainText × Cursor
  | 0, _, t, c => (t, c)
  | steps + 1, blanks, t, c =>
    let run := if c.peek == '#' then [] else plainRun inFlow c.rest
    if run.isEmpty then (t, c)
    else
      let c := c.forward run.length
      let stop := c.mark
      let ((next, lineEnded), c) := plainBlanks c
      let t := ⟨t.text ++ blanks ++ run, stop, lineEnded⟩
      if next.isEmpty || c.peek == '#' || (!inFlow && c.column < indent) then (t, c)
      else plainParts inFlow indent steps next t c

/-- A plain scalar inside a flow collection, or below a given indentation. -/
def plainScalar (inFlow : Bool) (outer : Int) (c : Cursor) : PlainText × Cursor :=
  plainParts inFlow (outer + 1) (c.size + 1) [] ⟨[], c.mark, false⟩ c

end Lexeme

end Quorum.Yaml

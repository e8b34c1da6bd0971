/-
  Quorum/Settings/EnvFile.lean
  ============================
  **Files of environment variables.**

  Each line binds a name to a value.  A value may be quoted, with escapes, and then runs
  over several lines; one that is not quoted ends before a comment.  A line that cannot be
  read is skipped.  `${NAME}` and `${NAME:-default}` stand for the values of earlier
  bindings and of the environment.
-/
import Quorum.Text.Basic
import Quorum.Value.Basic

namespace Quorum.EnvFile

/-- A name and its value; a name alone has none. -/
abbrev Binding := String × Option String

/-! ### Lines -/

def isLineEnd (c : Char) : Bool := c == '\n' || c == '\r'

def isSpace (c : Char) : Bool := Text.isBlank c && !isLineEnd c

/-- Drop what is left of a line, and its end. -/
def dropLine (cs : List Char) : List Char :=
  match cs.dropWhile fun c => !isLineEnd c with
  | [] => []
  | _ :: rest => rest

/-- The end of a line, with blanks and perhaps a comment before it. -/
def lineEnd? (cs : List Char) : Option (List Char) :=
  let r := cs.dropWhile isSpace
  let r := match r with
    | '#' :: _ => r.dropWhile fun c => !isLineEnd c
    | _ => r
  match r with
  | [] => some []
  | '\r' :: '\n' :: rest => some rest
  | c :: rest => if isLineEnd c then some rest else none

/-- Skip the word that marks a variable for other programs. -/
def skipExport (cs : List Char) : List Char :=
  match cs with
  | 'e' :: 'x' :: 'p' :: 'o' :: 'r' :: 't' :: c :: rest =>
    if isSpace c then rest.dropWhile isSpace else cs
  | _ => cs

/-! ### Values -/

/-- What stands before the closing quote, and what comes after it.  A quote after a
    backslash closes only if no other one does. -/
def quoted? (quote : Char) : List Char → Option (List Char × List Char)
  | [] => none
  | '\\' :: c :: rest =>
    if c == quote then
      match quoted? quote rest with
      | some (value, after) => some ('\\' :: c :: value, after)
      | none => some (['\\'], rest)
    else (quoted? quote (c :: rest)).map fun (value, after) => ('\\' :: value, after)
  | c :: rest =>
    if c == quote then some ([], rest)
    else (quoted? quote rest).map fun (value, after) => (c :: value, after)

/-- The characters with an escape of their own between double quotes. -/
def escapes : List (Char × Char) :=
  [('\\', '\\'), ('\'', '\''), ('"', '"'), ('a', '\x07'), ('b', '\x08'), ('f', '\x0c'),
   ('n', '\n'), ('r', '\r'), ('t', '\t'), ('v', '\x0b')]

def unescape (table : List (Char × Char)) : List Char → List Char
  | '\\' :: c :: rest =>
    match table.lookup c with
    | some c' => c' :: unescape table rest
    | none => '\\' :: unescape table (c :: rest)
  | c :: rest => c :: unescape table rest
  | [] => []

/-- Cut a value off before a comment that follows blanks. -/
def dropComment : List Char → List Char
  | [] => []
  | c :: rest =>
    match Text.isBlank c, rest.dropWhile Text.isBlank with
    | true, '#' :: _ => []
    | _, _ => c :: dropComment rest

/-- The value after an equals sign, and the rest. -/
def value? : List Char → Option (String × List Char)
  | '\'' :: rest =>
    (quoted? '\'' rest).map fun (v, after) =>
      (String.ofList (unescape [('\\', '\\'), ('\'', '\'')] v), after)
  | '"' :: rest =>
    (quoted? '"' rest).map fun (v, after) => (String.ofList (unescape escapes v), after)
  | cs =>
    let (line, after) := cs.span fun c => !isLineEnd c
    some (String.ofList (Text.trimEnd Text.isBlank (dropComment line)), after)

/-! ### Bindings -/

/-- The name at the start of a line, and the rest. -/
def name? : List Char → Option (String × List Char)
  | '\'' :: rest =>
    match rest.span (· != '\'') with
    | (c :: name, '\'' :: after) => some (String.ofList (c :: name), after)
    | _ => none
  | cs =>
    match cs.span fun c => c != '=' && c != '#' && !Text.isBlank c with
    | ([], _) => none
    | (name, after) => some (String.ofList name, after)

/-- A binding that is read, or what is left where reading stopped. -/
def binding (cs : List Char) : Option (Option Binding × List Char) × List Char :=
  match cs with
  | '#' :: _ => ((lineEnd? cs).map fun r => (none, r), cs)
  | _ =>
    match name? cs with
    | none => (none, cs)
    | some (name, r) =>
      match r.dropWhile isSpace with
      | '=' :: r' =>
        let r'' := r'.dropWhile isSpace
        match value? r'' with
        | none => (none, r'')
        | some (value, after) => ((lineEnd? after).map fun r => (some (name, some value), r), after)
      | r' => ((lineEnd? r').map fun r => (some (name, none), r), r')

/-- The bindings of a text.  Every round takes at least one character. -/
def bindings : Nat → List Char → List Binding
  | 0, _ => []
  | fuel + 1, cs =>
    match cs.dropWhile Text.isBlank with
    | [] => []
    | r =>
      match binding (skipExport r) with
      | (some (some b, after), _) => b :: bindings fuel after
      | (some (none, after), _) => bindings fuel after
      | (none, stopped) => bindings fuel (dropLine stopped)

/-! ### References -/

/-- A reference at the start of a text, after its opening: name, default and rest. -/
def reference? (cs : List Char) : Option (String × String × List Char) :=
  let (name, r) := cs.span fun c => c != '}' && c != ':'
  match r with
  | '}' :: rest => some (String.ofList name, "", rest)
  | ':' :: '-' :: r' =>
    match r'.span (· != '}') with
    | (default, '}' :: rest) => some (String.ofList name, String.ofList default, rest)
    | _ => none
  | _ => none

/-- Replace all references.  Every round takes at least one character. -/
def expand (known : List Binding) : Nat → List Char → List Char
  | 0, cs => cs
  | _, [] => []
  | fuel + 1, c :: rest =>
    match c, rest with
    | '$', '\x7b' :: r =>
      match reference? r with
      | some (name, default, after) =>
        let value := match known.lookup name with
          | some v => v.getD ""
          | none => default
        value.toList ++ expand known fuel after
      | none => c :: expand known fuel rest
    | _, _ => c :: expand known fuel rest

/-- Replace the references in all values, each from the bindings before it and, behind
    those, from the environment. -/
def resolve (environment : List Binding) : List Binding → List Binding → List Binding
  | done, [] => done
  | done, (name, value) :: rest =>
    let value' := value.map fun v =>
      String.ofList (expand (done ++ environment) v.length v.toList)
    resolve environment (Entries.insert name value' done) rest

/-- The variables that a file binds, the last binding of a name in the place of the first. -/
def read (environment : List (String × String)) (file : String) : List Binding :=
  let cs := file.toList
  resolve (environment.map fun (n, v) => (n, some v)) [] (bindings cs.length cs)

end Quorum.EnvFile

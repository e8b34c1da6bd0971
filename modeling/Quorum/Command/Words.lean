/-
  Quorum/Command/Words.lean
  =========================
  **The words of a command line: options, their values, and arguments.**

  A word that begins with a hyphen and goes on is an option: one with a long name, whose
  value may follow an equals sign, or several with short names, the last of which may have
  its value in the same word.  A value that is not in the word is the next word, whatever
  it looks like.  Two hyphens end the options.  Words are read from left to right, and the
  first one that is wrong is reported.
-/
import Quorum.Check.Field
import Quorum.Document.FileTree
import Quorum.Text.Basic

namespace Quorum.Command

/-! ### Options of a command line, and what is wrong with one -/

/-- An option: its names, and whether a value belongs to it. -/
structure Flag where
  long : String
  short : Option Char
  takesValue : Bool
deriving DecidableEq, Repr

namespace Flag

def shortName (c : Char) : String := String.ofList ['-', c]

def names (f : Flag) : List String := f.long :: (f.short.map shortName).toList

def label (f : Flag) : String := " / ".intercalate (f.names.map fun n => s!"'{n}'")

end Flag

/-- What is wrong with a command line. -/
inductive UsageError where
  | missingCommand
  | unknownCommand (name : String) (similar : List String)
  | unknownOption (name : String) (similar : List String)
  | valueExpected (name : String)
  | valueRefused (name : String)
  /-- A parameter names no file that can be read. -/
  | badFile (parameter name : String) (problem : FileProblem)
  /-- The value of a parameter is not what it should be. -/
  | badValue (parameter : String) (cause : IssueCause)
  | missingArgument (name : String)
  | extraArguments (arguments : List String)

/-- How the problem with a file is put to the user. -/
def fileVerdict : FileProblem → String
  | .isADirectory => "is a directory."
  | _ => "does not exist."

def suggestion (similar : List String) : String :=
  if similar.isEmpty then "."
  else ". Did you mean " ++ ", ".intercalate (similar.map Text.quoted) ++ "?"

/-- Options that are suggested instead of an unknown one, in order of their names. -/
def optionSuggestion (similar : List String) : String :=
  if similar.isEmpty then ""
  else
    let sorted := similar.mergeSort fun a b => decide (a ≤ b)
    " (Possible options: " ++ ", ".intercalate sorted ++ ")"

def UsageError.message : UsageError → String
  | .missingCommand => "Missing command."
  | .unknownCommand name similar => s!"No such command {Text.quoted name}" ++ suggestion similar
  | .unknownOption name similar => s!"No such option: {name}" ++ optionSuggestion similar
  | .valueExpected name => s!"Option '{name}' requires an argument."
  | .valueRefused name => s!"Option '{name}' does not take a value."
  | .badFile parameter name problem =>
    s!"Invalid value for {parameter}: file {Text.quoted name} {fileVerdict problem}"
  | .badValue parameter cause => s!"Invalid value for {parameter}: {cause.message}"
  | .missingArgument name => s!"Missing argument '{name}'."
  | .extraArguments arguments =>
    "Got unexpected extra argument(s) (" ++ " ".intercalate arguments ++ ")"

/-- An option as given, with its value; the value of one that takes none is empty. -/
abbrev Given := Flag × String

structure Words where
  given : List Given
  arguments : List String

/-- What a single word holds: options that are complete, and then perhaps one that still
    needs its value, under the name it is written with. -/
structure OptionWord where
  complete : List Given
  waiting : Option (Flag × String)

def isOption (word : String) : Bool := word.startsWith "-" && 1 < word.length

/-- The name before an equals sign and the value after it. -/
def splitValue (word : String) : String × Option String :=
  let (name, rest) := word.toList.span (· != '=')
  match rest with
  | _ :: value => (String.ofList name, some (String.ofList value))
  | [] => (word, none)

def readShort (flags : List Flag) : List Char → Except UsageError OptionWord
  | [] => .ok ⟨[], none⟩
  | c :: rest =>
    match flags.find? fun f => f.short == some c with
    | none => .error (.unknownOption (Flag.shortName c) [])
    | some f =>
      if f.takesValue then
        if rest.isEmpty then .ok ⟨[], some (f, Flag.shortName c)⟩
        else .ok ⟨[(f, String.ofList rest)], none⟩
      else (readShort flags rest).map fun w => { w with complete := (f, "") :: w.complete }

/-- Read a word that is an option with a long name. -/
def readLong (f : Flag) (value : Option String) : Except UsageError OptionWord :=
  match f.takesValue, value with
  | true, some v => .ok ⟨[(f, v)], none⟩
  | true, none => .ok ⟨[], some (f, f.long)⟩
  | false, some _ => .error (.valueRefused f.long)
  | false, none => .ok ⟨[(f, "")], none⟩

def readOption (flags : List Flag) (word : String) : Except UsageError OptionWord :=
  let (name, value) := splitValue word
  match flags.find? fun f => f.long == name with
  | some f => readLong f value
  | none =>
    if word.startsWith "--" then
      .error (.unknownOption name (Text.closeMatches name (flags.map Flag.long)))
    else readShort flags (word.toList.drop 1)

/-- Read words.  Where arguments and options do not mix, the first argument ends the options. -/
def Words.read (flags : List Flag) (mixed : Bool) : List String → Except UsageError Words
  | [] => .ok ⟨[], []⟩
  | word :: rest =>
    if word == "--" then .ok ⟨[], rest⟩
    else if isOption word then
      match readOption flags word, rest with
      | .error e, _ => .error e
      | .ok ⟨_, some (_, name)⟩, [] => .error (.valueExpected name)
      | .ok ⟨complete, some (f, _)⟩, value :: rest =>
        (Words.read flags mixed rest).map fun w =>
          { w with given := complete ++ (f, value) :: w.given }
      | .ok ⟨complete, none⟩, rest =>
        (Words.read flags mixed rest).map fun w => { w with given := complete ++ w.given }
    else if mixed then
      (Words.read flags mixed rest).map fun w => { w with arguments := word :: w.arguments }
    else .ok ⟨[], word :: rest⟩

namespace Words

/-- The options in order of their first appearance. -/
def appearances (w : Words) : List Flag := (w.given.map Prod.fst).eraseDups

/-- The value of an option; of several ones the last. -/
def value? (w : Words) (f : Flag) : Option String := w.given.reverse.lookup f

def has (w : Words) (f : Flag) : Bool := (w.value? f).isSome

end Words

end Quorum.Command

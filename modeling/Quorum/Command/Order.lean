/-
  Quorum/Command/Order.lean
  =========================
  **What a command line asks for.**

  Options before the command concern the program, options after it the command.  Help and
  the version come before everything else.  The values of options are checked in the order
  in which the options are given, then the fleet file, and last comes what is left over.
-/
import Quorum.Command.Words

namespace Quorum.Command

/-! ### Options and commands -/

namespace Flag

def help : Flag := ⟨"--help", none, false⟩

def version : Flag := ⟨"--version", some 'V', false⟩

def task : Flag := ⟨"--task", some 't', true⟩

def taskFile : Flag := ⟨"--task-file", some 'f', true⟩

def deadline : Flag := ⟨"--deadline", some 'd', true⟩

/-- Seconds for every agent that says nothing else. -/
def timeout : Flag := ⟨"--timeout", none, true⟩

def exportFormat : Flag := ⟨"--export", some 'e', true⟩

def output : Flag := ⟨"--output", some 'o', true⟩

def verbose : Flag := ⟨"--verbose", some 'v', false⟩

def jsonLogs : Flag := ⟨"--json-logs", none, false⟩

def program : List Flag := [version, help]

def validation : List Flag := [help]

def run : List Flag :=
  [task, taskFile, deadline, timeout, exportFormat, output, verbose, jsonLogs, help]

end Flag

def commands : List String := ["validate", "run"]

def fleetFile : String := "fleet_file"

/-- A run as it is asked for. -/
structure RunOrder where
  fleetFile : String
  task : Option String
  taskFile : Option String
  /-- Seconds for the whole run. -/
  deadline : Option Float
  /-- Seconds for every agent that says nothing else. -/
  timeout : Option Float
  exportFormat : Option String
  output : Option String
  verbose : Bool
  jsonLogs : Bool

/-- What a command line asks for. -/
inductive Order where
  | help
  | version
  | validate (fleetFile : String)
  | run (order : RunOrder)

/-! ### Checks -/

def checkFile (files : FileTree) (parameter name : String) : Except UsageError Unit :=
  match files.placeToRead name with
  | .ok _ => .ok ()
  | .error problem => .error (.badFile parameter name problem)

def checkNumber (f : Flag) (value : String) : Except UsageError Unit :=
  match Check.number (.text value) with
  | .error (issue :: _) => .error (.badValue f.label issue.cause)
  | _ => .ok ()

/-- The value of an option is as it should be. -/
def checkOption (files : FileTree) (w : Words) (f : Flag) : Except UsageError Unit :=
  let value := (w.value? f).getD ""
  if f == .taskFile then checkFile files f.label value
  else if f == .deadline || f == .timeout then checkNumber f value
  else .ok ()

/-- The fleet file, if it is there and the only argument. -/
def checkArguments (files : FileTree) (arguments : List String) : Except UsageError String :=
  match arguments with
  | [] => .error (.missingArgument fleetFile)
  | name :: extra => do
    checkFile files s!"'{fleetFile}'" name
    if !extra.isEmpty then throw (.extraArguments extra)
    return name

namespace Order

/-- Help or the version, whichever is asked for first. -/
def urgent? (w : Words) : Option Order :=
  match w.appearances.find? fun f => f == .help || f == .version with
  | some f => some (if f == .help then .help else .version)
  | none => none

def ofValidation (files : FileTree) (words : List String) : Except UsageError Order := do
  let w ← Words.read Flag.validation true words
  if let some order := urgent? w then return order
  return .validate (← checkArguments files w.arguments)

def number? (w : Words) (f : Flag) : Option Float :=
  (w.value? f).bind fun value => (Check.number (.text value)).toOption

def ofRun (files : FileTree) (words : List String) : Except UsageError Order := do
  let w ← Words.read Flag.run true words
  if let some order := urgent? w then return order
  w.appearances.forM (checkOption files w)
  let fleetFile ← checkArguments files w.arguments
  return .run {
    fleetFile := fleetFile
    task := w.value? .task
    taskFile := w.value? .taskFile
    deadline := number? w .deadline
    timeout := number? w .timeout
    exportFormat := w.value? .exportFormat
    output := w.value? .output
    verbose := w.has .verbose
    jsonLogs := w.has .jsonLogs }

/-- The order for a name that is none of a command; what looks like an option is read once
    more as options of the program. -/
def ofUnknown (name : String) (words : List String) : Except UsageError Order := do
  let w ← Words.read Flag.program false words
  if let some order := urgent? w then return order
  throw (.unknownCommand name (Text.closeMatches name commands))

/-- The order that the words of a command line make up; without any it is for help. -/
def ofWords (files : FileTree) (words : List String) : Except UsageError Order := do
  if words.isEmpty then return .help
  let w ← Words.read Flag.program false words
  if let some order := urgent? w then return order
  match w.arguments with
  | [] => throw .missingCommand
  | "validate" :: rest => ofValidation files rest
  | "run" :: rest => ofRun files rest
  | name :: rest => ofUnknown name (name :: rest)

end Order

end Quorum.Command

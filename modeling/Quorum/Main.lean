/-
  Quorum/Main.lean
  ================
  **The program.**

  It reads the files that its arguments name and those that belong to the fleet, all of
  them below the working directory, and the variables that settings may come from.  Each
  line of standard input is a reply of the service.  The clock starts at the second given by
  the variable `SOURCE_DATE_EPOCH`.
-/
import Quorum.Command.Session
import Quorum.Display
import Quorum.Service.Content

namespace Quorum.Command

def settingsVariables : List String :=
  let own := ConsensusDefaults.keys.map fun key => "CONCORD_CONSENSUS_" ++ key.toUpper
  let names := Settings.keys ++ "CONSENSUS" :: own
  names ++ names.map String.toLower

def readEnvironment (names : List String) : IO (List (String × String)) :=
  names.filterMapM fun name => return (← IO.getEnv name).map fun value => (name, value)

/-- What is known of a directory is that something lies in it. -/
def markDirectory (steps : List String) : List String × List UInt8 := (steps ++ [""], [])

/-- The file a path leads to, if there is one. -/
def readEntry (path : FilePath) : IO (Option (List String × List UInt8)) := do
  try
    return some (path.steps, (← IO.FS.readBinFile path.text).toList)
  catch
    | .inappropriateType .. => return some (markDirectory path.steps)
    | _ => return none

/-- The files that some paths lead to, together with those there are already. -/
def readFiles (files : FileTree) (paths : List FilePath) : IO FileTree := do
  let below := paths.filter fun path => !path.isAbsolute && !path.steps.contains ".."
  return ⟨files.files ++ (← below.filterMapM readEntry)⟩

/-- The lines of standard input. -/
partial def readLines (input : IO.FS.Stream) (lines : List String) : IO (List String) := do
  let line ← input.getLine
  if line.isEmpty then return lines.reverse
  readLines input ((line.dropEndWhile (· == '\n')).toString :: lines)

/-- The replies of the service, if the command asks for any. -/
def readReplies (order : Except UsageError Order) : IO (List Service.Reply) := do
  match order with
  | .ok (.run _) =>
    let lines ← readLines (← IO.getStdin) []
    return lines.map fun line => Service.Response.reply ⟨0, .ok [.ofText line]⟩
  | _ => return []

def readEpoch : IO Timestamp := do
  let seconds := ((← IO.getEnv "SOURCE_DATE_EPOCH").bind String.toNat?).getD 0
  return ⟨(seconds : Int) * 1000000, some 0⟩

/-- Show what a command leaves, and give its exit code. -/
def present (session : Session) : IO UInt32 := do
  for block in session.transcript.console do
    for line in block.plain do IO.println line
  for (place, text) in session.transcript.written do
    IO.FS.writeFile ("/".intercalate place) text
  if let .error why := session.ending then IO.eprintln s!"Error: {why.message}"
  return session.exitCode.toUInt32

end Quorum.Command

open Quorum Quorum.Command in
def main (words : List String) : IO UInt32 := do
  let paths := (".env" :: words).map FilePath.ofText
  let named ← readFiles .empty (paths ++ paths.map FilePath.parent)
  let files ← readFiles named (words.flatMap fun word => Fleet.filesBeside named (.ofText word))
  let world : World := {
    files := files
    environment := ← readEnvironment settingsVariables
    replies := ← readReplies (Order.ofWords files words)
    runId := s!"run-{← IO.rand 0 1000000}"
    epoch := ← readEpoch }
  present (perform world words)

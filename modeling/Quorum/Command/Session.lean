/-
  Quorum/Command/Session.lean
  ===========================
  **Commands carried out.**

  A command sees files, the environment and the replies of the service, and leaves a
  transcript: what is displayed, how logging was set up, the progress, the requests and the
  files it wrote.  It ends with an exit code, unless something breaks it off.  What is wrong
  with a fleet, or with a run of it, is displayed; what is wrong with the command line, the
  settings or the text of a file breaks the command off.
-/
import Quorum.Command.Order
import Quorum.Definition.Fleet
import Quorum.Display
import Quorum.Log
import Quorum.Report.Export
import Quorum.Service.Dealing

namespace Quorum.Command

/-! ### What a command sees and leaves -/

/-- What a command sees of the world. -/
structure World where
  files : FileTree
  environment : List (String × String)
  replies : List Service.Reply
  /-- The name of the next run. -/
  runId : String
  /-- When the clock was started. -/
  epoch : Timestamp

structure Transcript where
  console : List Block := []
  /-- The level and the format of the log, once it is set up. -/
  logging : Option (String × LogFormat) := none
  progress : List String := []
  requests : List (Rat × Service.Request) := []
  written : List (List String × String) := []

inductive Breakdown where
  | usage (e : UsageError)
  | settings (f : SettingsFault)
  | load (e : LoadError)
  /-- A file that should hold text does not. -/
  | notText (p : Text.Utf8Problem)
  /-- The run was cancelled from within. -/
  | cancelled

def Breakdown.message : Breakdown → String
  | .usage e => e.message
  | .settings f => f.message
  | .load e => e.message
  | .notText p => p.message
  | .cancelled => ""

/-- The exit code of a breakdown: two for a wrong command line, one for anything else. -/
def Breakdown.exitCode : Breakdown → Nat
  | .usage _ => 2
  | .settings _ | .load _ | .notText _ | .cancelled => 1

/-- A command carried out: its transcript and its exit code. -/
structure Session where
  transcript : Transcript
  ending : Except Breakdown Nat

/-- The exit code, that of the breakdown if something broke the command off. -/
def Session.exitCode (s : Session) : Nat :=
  match s.ending with
  | .ok code => code
  | .error why => why.exitCode

namespace Transcript

def exit (t : Transcript) (code : Nat) : Session := ⟨t, .ok code⟩

def breakOff (t : Transcript) (why : Breakdown) : Session := ⟨t, .error why⟩

def showing (t : Transcript) (blocks : List Block) : Transcript :=
  { t with console := t.console ++ blocks }

end Transcript

/-! ### Files and settings -/

def versionNumber : String := "0.1.0"

namespace World

def textAt (w : World) (place : List String) : Except Text.Utf8Problem String :=
  (Text.decodeUtf8 ((w.files.file? place).getD [])).map String.ofList

/-- The text of the file of variables, if there is one. -/
def envFile (w : World) : Except Text.Utf8Problem (Option String) :=
  match w.files.placeToRead ".env" with
  | .ok place => (w.textAt place).map some
  | .error _ => .ok none

def settings (w : World) : Except Breakdown Settings := do
  let envFile ← w.envFile.mapError .notText
  (Settings.ofSources ⟨[], w.environment, envFile⟩).mapError .settings

/-- The task of a run: the text of the task file, else what is given directly. -/
def task (w : World) (o : RunOrder) : Except Text.Utf8Problem String :=
  match o.taskFile with
  | none => .ok (o.task.getD "")
  | some name =>
    match w.files.placeToRead name with
    | .ok place => (w.textAt place).map Text.ofFile
    | .error _ => .ok ""

def fleet (w : World) (settings : Settings) (name : String) : Except LoadError Fleet :=
  Fleet.ofFile settings w.files (.ofText name)

end World

/-! ### Validation -/

/-- The line for a fleet that cannot be loaded. -/
def invalidLine (e : LoadError) : Block := .text s!"[red]Invalid fleet:[/red] {e.message}"

/-- A line for each of the errors that a fault lists. -/
def errorLines (f : Fault) : List Block :=
  match f.detail "errors" with
  | .list errors => errors.map fun e => .text s!"  - {Log.shown e}"
  | _ => []

def World.validate (w : World) (settings : Settings) (name : String) : Session :=
  let t : Transcript := { logging := some (settings.logLevel, settings.logFormat) }
  match w.fleet settings name with
  | .ok f => (t.showing (Display.fleet f ++ [.text "\n[green]Fleet is valid.[/green]"])).exit 0
  | .error e =>
    match e.fault? with
    | some fault => (t.showing (invalidLine e :: errorLines fault)).exit 1
    | none => t.breakOff (.load e)

/-! ### Runs -/

/-- What is displayed without a key for the service. -/
def keyMissing : Block :=
  .text ("[red]Error:[/red] ANTHROPIC_API_KEY not configured. "
    ++ "Please set it in your .env file or environment.")

def taskMissing : Block := .text "[red]Error:[/red] Provide a task with --task or --task-file."

def runPanel (f : Fleet) : Block :=
  .panel
    (s!"[bold]Fleet:[/bold] {f.name}\n[bold]Tiers:[/bold] {Markdown.tierList f.tiers}\n" ++
      s!"[bold]Agents:[/bold] {f.agents.length}")
    "Fleet Run" "blue"

/-- What is displayed when a report was not written. -/
def exportProblem (message : String) : Block := .text s!"\n[red]Export error:[/red] {message}"

/-- Write a report in a format to a file: what is displayed, and the file. -/
def World.exportTo (w : World) (format output : String) (r : FleetReport) :
    Block × List (List String × String) :=
  match ExportFormat.read format with
  | .error message => (exportProblem message, [])
  | .ok format =>
    match w.files.placeToWrite output with
    | .error problem => (exportProblem (problem.message output), [])
    | .ok place => (.text s!"\n[green]Report exported to {output}[/green]", [(place, r.fileText format)])

/-- Write a report if a format and a file are given. -/
def World.exportReport (w : World) (o : RunOrder) (r : FleetReport) (t : Transcript) : Transcript :=
  match o.exportFormat.filter (!·.isEmpty), o.output.filter (!·.isEmpty) with
  | some format, some output =>
    let (block, written) := w.exportTo format output r
    { t.showing [block] with written := written }
  | _, _ => t

def World.runFleet (w : World) (settings : Settings) (o : RunOrder) (task : String) (f : Fleet)
    (t : Transcript) : Session :=
  let deadline := Mission.deadlineOr settings (o.deadline.map .double)
  let mission : Service.ServedMission :=
    ⟨settings, f, o.timeout.map .double, w.runId, w.epoch⟩
  let (run, requests) := mission.run (.text task) deadline w.replies
  let record := Observers.attentive.watch f.name w.runId run.journey.notices
  let t := { t.showing [runPanel f] with
    progress := "Initializing..." :: record.progress, requests := requests }
  match run.ending with
  | .ok r =>
    let t := w.exportReport o r (t.showing (Display.report o.verbose r))
    t.exit (if r.succeeded then 0 else 1)
  | .error .cancelled => t.breakOff .cancelled
  | .error why => (t.showing [.text s!"\n[red]Error during fleet run:[/red] {why.message}"]).exit 1

def World.run (w : World) (settings : Settings) (o : RunOrder) : Session :=
  let format := if o.jsonLogs then .json else settings.logFormat
  let t : Transcript := { logging := some (settings.logLevel, format) }
  if !settings.isConfigured then (t.showing [keyMissing]).exit 1
  else
    match w.task o with
    | .error problem => t.breakOff (.notText problem)
    | .ok task =>
      if task.toList.all Text.isBlank then (t.showing [taskMissing]).exit 1
      else
        match w.fleet settings o.fleetFile with
        | .ok f => w.runFleet settings o task f t
        | .error e =>
          if e.fault?.isSome then (t.showing [invalidLine e]).exit 1 else t.breakOff (.load e)

/-! ### Command lines -/

def Order.perform (w : World) : Order → Session
  | .help => ({} : Transcript).exit 0
  | .version =>
    (({} : Transcript).showing [.text s!"[bold cyan]Concord[/bold cyan] v{versionNumber}"]).exit 0
  | .validate name =>
    match w.settings with
    | .ok settings => w.validate settings name
    | .error why => ({} : Transcript).breakOff why
  | .run o =>
    match w.settings with
    | .ok settings => w.run settings o
    | .error why => ({} : Transcript).breakOff why

def perform (w : World) (words : List String) : Session :=
  match Order.ofWords w.files words with
  | .ok order => order.perform w
  | .error e => ({} : Transcript).breakOff (.usage e)

end Quorum.Command

/-
  Quorum/Definition/AgentEntry.lean
  =================================
  **Agents in a fleet definition.**

  What an agent is told and how it is run may be said in three layers: in a file of its own,
  in the block inside its entry, and, for its time limit and the form of its output, in
  the entry itself.  Later layers win.  In a file and in a block the instructions may also
  go by the name of a system prompt.
-/
import Quorum.Definition.Level
import Quorum.Text.Basic

namespace Quorum.Definition

/-- Where the files of a definition are found. -/
structure Library where
  files : FileTree
  /-- The directory that paths are relative to; without one they stand by themselves. -/
  directory : Option FilePath

namespace Library

def empty : Library := ⟨.empty, none⟩

/-- A path as seen from the directory of the library. -/
def locate (library : Library) (path : FilePath) : FilePath :=
  match library.directory with
  | some directory => directory.within path
  | none => path

end Library

/-! ### Layers -/

def layerKeys : List String :=
  ["model", "instructions", "temperature", "output_format", "timeout_seconds"]

/-- A system prompt is taken for the instructions, unless there are instructions. -/
def withSystemPrompt (level : Level) : Level :=
  match level.lookup "system_prompt" with
  | some prompt => if level.has "instructions" then level else level ++ [("instructions", prompt)]
  | none => level

/-- The layer that a file gives: its own level, overlaid by its inner block. -/
def fileLayer (document : Datum) : Except LoadError Level := do
  let level ← Level.ofDatum document
  let level ← match level.get "spec" with
    | .mapping entries => do pure (Entries.insertAll level (← Level.ofDatum (.mapping entries)))
    | _ => pure level
  return (withSystemPrompt level).pick layerKeys

def blockLayer (block : Datum) : Except LoadError Level := do
  return (withSystemPrompt (← Level.ofDatum block)).pick layerKeys

def entryLayer (entry : Level) : Level := entry.pick ["timeout_seconds", "output_format"]

/-! ### Files -/

def pathOf : Datum → Except LoadError FilePath
  | .text s => .ok (.ofText s)
  | .bytes _ => .error .bytesAsPath
  | d => .error (.notAPath d.kindName)

/-- The place of a file among the details of a fault. -/
def pathDetails (path : FilePath) : List (String × Value) := [("path", .text path.text)]

/-- What failed when the file of an agent could not be used. -/
def configSubject (name : Datum) : Except LoadError String := do
  let name ← name.written.mapError .conversion
  return s!"Failed to load config for agent '{name}'"

/-- The document in the file of an agent.  Such a file is read piece by piece. -/
def configDocument (library : Library) (name : Datum) (path : FilePath) :
    Except LoadError Datum := do
  if path.text.toList.contains '\x00' then throw .nulInPath
  match library.files.read path with
  | .error problem =>
    let subject ← configSubject name
    throw (.fault (Fault.configuration s!"{subject}: {problem.message path.text}"
      (pathDetails path)))
  | .ok bytes =>
    match Text.decodeUtf8 bytes with
    | .error problem => throw (.notText problem.heldBack)
    | .ok cs =>
      let source := Yaml.Source.ofFile path.text (Text.unifiedLineEnds cs)
      match Yaml.read source with
      | .ok d => return d
      | .error (.problem p) => throw (.malformed (← configSubject name) source p (pathDetails path))
      | .error (.slip s) => throw (.slip s)

def configLayer (library : Library) (name config : Datum) : Except LoadError Level := do
  let path ← pathOf config
  let document ← configDocument library name (library.locate path)
  fileLayer document

/-! ### Entries -/

/-- What an entry says about the agent itself. -/
def placement (name : Datum) (entry : Level) : Level :=
  let tier := entry.get "tier"
  [("name", name),
   ("tier", if tier.isNull then .int 1 else tier),
   ("weight", entry.get "weight"),
   ("role", entry.getOr "role" (.text "worker")),
   ("labels", (entry.get "labels").orElse (.mapping []))]

/-- What an entry says about the agent, overlaid by the file that it names, if it names one. -/
def placedFields (library : Library) (name : Datum) (entry : Level) : Except LoadError Level := do
  let config := entry.get "config"
  if config.isGiven then
    let shown ← config.written.mapError .conversion
    let layer ← configLayer library name config
    return Entries.insertAll (placement name entry) (("config_path", .text shown) :: layer)
  else return placement name entry

def agentFields (library : Library) (d : Datum) : Except LoadError Level := do
  let entry ← Level.ofDatum d
  let name := entry.get "name"
  if !name.isGiven then throw (.fault (Fault.configuration "Every agent needs a name"))
  let fields ← placedFields library name entry
  let block ← blockLayer (entry.get "spec")
  return Entries.insertAll fields (block ++ entryLayer entry)

end Quorum.Definition

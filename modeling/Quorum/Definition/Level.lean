/-
  Quorum/Definition/Level.lean
  ============================
  **The levels of a fleet definition.**

  A definition is made of mappings inside mappings.  At every level keys may be written in
  several spellings; a level is the mapping under their one spelling, and of keys that are
  spelled alike the last one counts.  Nothing, and whatever is empty, is an empty level.
-/
import Quorum.Document.Datum
import Quorum.Document.FileTree
import Quorum.Fleet.Spec
import Quorum.Yaml.Content

namespace Quorum

/-! ### Why a fleet cannot be loaded

Most causes are faults of the definition.  A few slip through: data that a conversion
refuses, files that are no text, things that name no file, and tiers that cannot be
listed. -/

/-- Why a fleet cannot be loaded. -/
inductive LoadError where
  | fault (f : Fault)
  /-- A document breaks the rules of its format. -/
  | malformed (subject : String) (source : Yaml.Source) (problem : Yaml.Problem)
    (details : List (String × Value))
  /-- A scalar does not have the form its tag promises. -/
  | slip (s : Yaml.Slip)
  /-- A datum stands for no number. -/
  | conversion (p : ConversionProblem)
  /-- A file holds no text. -/
  | notText (p : Text.Utf8Problem)
  /-- A datum that is no text stands where a file should be named. -/
  | notAPath (kind : String)
  /-- Bytes stand where a file should be named. -/
  | bytesAsPath
  /-- The name of a file holds a NUL. -/
  | nulInPath
  /-- The numbers of the tiers cannot be listed. -/
  | unlistable (p : ListProblem)

namespace LoadError

/-- The fault of the definition, if the cause is one. -/
def fault? : LoadError → Option Fault
  | .fault f => some f
  | .malformed subject source problem details =>
    some (Fault.configuration s!"{subject}: {problem.message source}" details)
  | _ => none

def message : LoadError → String
  | .fault f => f.message
  | .malformed subject source problem _ => s!"{subject}: {problem.message source}"
  | .slip s => s.message
  | .conversion p => p.message
  | .notText p => p.message
  | .notAPath kind => s!"expected str, bytes or os.PathLike object, not {kind}"
  | .bytesAsPath =>
    "argument should be a str object or an os.PathLike object returning str, not <class 'bytes'>"
  | .nulInPath => "embedded null byte"
  | .unlistable p => p.message

/-- The error that a fleet was not created. -/
def ofFleet : FleetError → LoadError
  | .fault f => .fault f
  | .unlistable p => .unlistable p

end LoadError

end Quorum

namespace Quorum.Definition

abbrev Level := List (String × Datum)

namespace Level

/-- The fault of a level that is no mapping. -/
def notAMapping (d : Datum) : Fault :=
  Fault.configuration s!"Expected a mapping, got {d.kindName}"

def spelled (entry : Datum × Datum) : Except LoadError (String × Datum) := do
  let key ← entry.1.written.mapError .conversion
  return (Document.snakeKey key, entry.2)

def ofDatum (d : Datum) : Except LoadError Level :=
  if !d.isGiven then .ok []
  else
    match d with
    | .mapping entries => (entries.mapM spelled).map Entries.ofList
    | other => .error (.fault (notAMapping other))

/-- The datum under a key; null if there is none. -/
def get (level : Level) (key : String) : Datum := (level.lookup key).getD .null

/-- The datum under a key, or another one if the key is not there. -/
def getOr (level : Level) (key : String) (other : Datum) : Datum := (level.lookup key).getD other

def has (level : Level) (key : String) : Bool := (level.lookup key).isSome

/-- The entries under some keys, in the order of those keys. -/
def pick (level : Level) (keys : List String) : Level :=
  keys.filterMap fun key => (level.lookup key).map (key, ·)

/-- The entries under some keys that are not null. -/
def pickGiven (level : Level) (keys : List String) : Level :=
  (level.pick keys).filter fun (_, d) => !d.isNull

def toDatum (level : Level) : Datum := .mapping (level.map fun (k, v) => (.text k, v))

end Level

end Quorum.Definition

/-
  Quorum/Definition/Fleet.lean
  ============================
  **Fleets from their definitions.**

  A definition has metadata, which name the fleet, and a block that lists its agents and
  coordinates them.  It may be data, a text, or a file whose agents have files of their own
  beside it.  Everything is put together before any field is checked.
-/
import Quorum.Check.Field
import Quorum.Definition.AgentEntry
import Quorum.Definition.Level
import Quorum.Log
import Quorum.Settings.Basic

namespace Quorum.Definition

/-! ### The coordination block of a fleet definition

Voting rules are layered: the block of a tier over the block of the fleet over the defaults
of the settings.  A layer says nothing with a null.  A time limit may be given in
milliseconds, which counts where the key for seconds is not there at all. -/

def ruleKeys : List String :=
  ["algorithm", "min_votes", "min_confidence", "timeout_seconds", "weights"]

def milliseconds (block : Level) : Except LoadError Level := do
  let limit := block.get "timeout_ms"
  if limit.isNull || block.has "timeout_seconds" then return []
  else
    let x ← limit.toNumber.mapError .conversion
    return [("timeout_seconds", .float (x / 1000))]

def rulesOver (base : Level) (d : Datum) : Except LoadError Level := do
  let block ← Level.ofDatum d
  let limit ← milliseconds block
  return Entries.insertAll base (block.pickGiven ruleKeys ++ limit)

def rulesOfSettings (defaults : ConsensusDefaults) : Level :=
  [("algorithm", .text (Named.name defaults.algorithm)), ("min_votes", .int defaults.minVotes),
   ("min_confidence", .float defaults.minConfidence)]

def tierNumber (key : Datum) : Except LoadError Int :=
  match key.toInteger with
  | .ok n => .ok n
  | .error .infinite => .error (.conversion .infinite)
  | .error _ =>
    if key.isWritable then .error (.fault (Fault.configuration
      s!"Invalid tier number in tier_consensus: {key.literal}"))
    else .error (.conversion .unwritable)

/-- The voting rules of single tiers.  Of blocks for one tier the last one counts. -/
def tierRules (base : Level) (numbered : List (Int × Datum)) :
    List (Datum × Datum) → Except LoadError (List (Int × Datum))
  | [] => .ok numbered
  | (key, block) :: rest => do
    let number ← tierNumber key
    let rules ← rulesOver base block
    tierRules base (Check.insertKey number rules.toDatum numbered) rest

/-- The entries of the block with rules for single tiers. -/
def tierBlocks (tiered : Level) : Except LoadError (List (Datum × Datum)) :=
  match (tiered.get "tier_consensus").orElse (.mapping []) with
  | .mapping entries => .ok entries
  | _ => .error (.fault (Fault.configuration "tiered.tier_consensus must be a mapping"))

/-- The keys of the block about tiers that are taken over as they are. -/
def tieredKeys : List String :=
  ["pass_all_results", "final_aggregation", "allow_tier_gaps", "abort_on_tier_failure"]

def coordinationFields (defaults : ConsensusDefaults) (d : Datum) : Except LoadError Level := do
  let block ← Level.ofDatum d
  let tiered ← Level.ofDatum (block.get "tiered")
  let base ← rulesOver (rulesOfSettings defaults) (block.get "consensus")
  let numbered ← tierRules base [] (← tierBlocks tiered)
  let manager := block.get "manager"
  return [("mode", block.getOr "mode" (.text "tiered")),
      ("default_consensus", base.toDatum),
      ("tier_consensus", .mapping (numbered.map fun (n, rules) => (.int n, rules)))]
    ++ (if manager.isGiven then [("manager", manager)] else [])
    ++ tiered.pickGiven tieredKeys

end Quorum.Definition

namespace Quorum.Fleet

open Definition

def agentEntries (spec : Level) : Except LoadError (List Datum) :=
  match (spec.get "agents").orElse (.list []) with
  | .list items => .ok items
  | _ => .error (.fault (Fault.configuration "spec.agents must be a list"))

def fields (settings : Settings) (library : Library) (definition : Datum) :
    Except LoadError Level := do
  let document ← Level.ofDatum definition
  let metadata ← Level.ofDatum (document.get "metadata")
  let spec ← Level.ofDatum (document.get "spec")
  let name := metadata.get "name"
  if !name.isGiven then throw (.fault (Fault.configuration "Fleet metadata.name is required"))
  let entries ← agentEntries spec
  let agents ← entries.mapM (agentFields library)
  let coordination ← coordinationFields settings.consensus (spec.get "coordination")
  return [("name", name),
    ("api_version", document.getOr "api_version" (.text "concord.dev/v1")),
    ("kind", document.getOr "kind" (.text "AgentFleet")),
    ("labels", (metadata.get "labels").orElse (.mapping [])),
    ("agents", .list (agents.map Level.toDatum)),
    ("coordination", coordination.toDatum)]

def ofDefinition (settings : Settings) (library : Library) (definition : Datum) :
    Except LoadError Fleet := do
  let fields ← fields settings library definition
  (create fields.toDatum).mapError .ofFleet

def ofYaml (settings : Settings) (library : Library) (source : Yaml.Source) :
    Except LoadError Fleet := do
  match Yaml.read source with
  | .error (.problem p) => throw (.malformed "Failed to parse fleet YAML" source p [])
  | .error (.slip s) => throw (.slip s)
  | .ok (.mapping entries) => ofDefinition settings library (.mapping entries)
  | .ok _ => throw (.fault (Fault.configuration "Fleet YAML must be a mapping"))

/-- A fleet from the file of its definition.  Other files are looked for beside it. -/
def ofFile (settings : Settings) (files : FileTree) (path : FilePath) : Except LoadError Fleet := do
  if path.text.toList.contains '\x00' then throw .nulInPath
  match files.read path with
  | .error problem =>
    throw (.fault (Fault.configuration s!"Failed to read fleet file: {problem.message path.text}"
      (pathDetails path)))
  | .ok bytes =>
    match Text.decodeUtf8 bytes with
    | .error problem => throw (.notText problem)
    | .ok cs =>
      let text := String.ofList (Text.unifiedLineEnds cs)
      ofYaml settings ⟨files, some path.parent⟩ (.ofText text)

/-- The file that an entry of a definition names, if it names one. -/
def entryFile? (library : Library) (entry : Datum) : Option FilePath := do
  let level ← (Level.ofDatum entry).toOption
  let path ← (pathOf (level.get "config")).toOption
  return library.locate path

/-- The files that the agents of a definition have of their own. -/
def agentFiles (library : Library) (definition : Datum) : List FilePath :=
  let entries : Option (List Datum) := do
    let document ← (Level.ofDatum definition).toOption
    let spec ← (Level.ofDatum (document.get "spec")).toOption
    (agentEntries spec).toOption
  (entries.getD []).filterMap (entryFile? library)

/-- The files that the agents of a fleet file have of their own, as far as it can be read. -/
def filesBeside (files : FileTree) (path : FilePath) : List FilePath :=
  match files.read path with
  | .error _ => []
  | .ok bytes =>
    match (Text.decodeUtf8 bytes).map fun cs => Yaml.read (.ofText (String.ofList cs)) with
    | .ok (.ok definition) => agentFiles ⟨files, some path.parent⟩ definition
    | _ => []

def loadNotices (f : Fleet) : List LogEntry :=
  f.notices ++ [⟨.info, "fleet_loaded", [("fleet", .text f.name), ("agents", .int f.agents.length),
    ("tiers", .list (f.tiers.map .int)),
    ("final_aggregation", .named f.coordination.finalAggregation)]⟩]

end Quorum.Fleet

/-
  Quorum/Settings/Basic.lean
  ==========================
  **Settings and where they come from.**

  A setting is given directly, or by an environment variable, or in a file of variables,
  in this order; names of variables may be written in any case.  The consensus defaults
  are settings of their own: they may be given together as one block, and what the block
  leaves out comes from their own variables.
-/
import Quorum.Consensus.Verdict
import Quorum.Settings.EnvFile
import Quorum.Text.Case
import Quorum.Text.Basic
import Quorum.Value.Basic
import Quorum.Value.Reader

namespace Quorum

/-- What the consensus blocks of a fleet file leave out. -/
structure ConsensusDefaults where
  algorithm : Algorithm
  minVotes : Int
  minConfidence : Float

structure Settings where
  apiKey : String
  model : String
  maxTokens : Int
  temperature : Float
  logLevel : String
  logFormat : LogFormat
  maxConcurrentAgents : Int
  agentTimeout : Float
  fleetDeadline : Option Float
  retryAttempts : Int
  retryDelay : Float
  consensus : ConsensusDefaults

/-- The sources of settings, the first one first in rank. -/
structure Sources where
  given : List (String × Datum)
  environment : List (String × String)
  envFile : Option String

inductive SettingsFault where
  /-- A variable does not hold a structured value. -/
  | unreadable (field source : String)
  /-- A key is of a kind that has no beginning. -/
  | notAText (kind : String)
  | invalid (model : String) (issues : List Issue)

def SettingsFault.message : SettingsFault → String
  | .unreadable field source => s!"error parsing value for field \"{field}\" from source \"{source}\""
  | .notAText kind => s!"'{kind}' object has no attribute 'startswith'"
  | .invalid model issues => s!"{issues.length} error(s) for {model}"

namespace Sources

/-- The variables of the environment under lower-case names. -/
def environmentVariables (s : Sources) : List EnvFile.Binding :=
  Entries.ofList (s.environment.map fun (n, v) => (Text.lower n, some v))

def fileVariables (s : Sources) : List EnvFile.Binding :=
  match s.envFile with
  | none => []
  | some file =>
    let bindings := EnvFile.read s.environment (Text.ofFile file)
    Entries.ofList (bindings.map fun (n, v) => (Text.lower n, v))

/-- The text of a variable; names are in lower case. -/
def valueOf? (s : Sources) (name : String) : Option String :=
  match (s.environmentVariables.lookup name).bind id with
  | some v => some v
  | none => (s.fileVariables.lookup name).bind id

/-- A field given directly, else its variable. -/
def field? (s : Sources) (given : List (String × Datum)) (key variableName : String) :
    Option (String × Datum) :=
  match given.lookup key with
  | some d => some (key, d)
  | none => (s.valueOf? variableName).map fun v => (key, .text v)

end Sources

/-! ### Consensus defaults -/

def ConsensusDefaults.keys : List String := ["algorithm", "min_votes", "min_confidence"]

/-- The consensus defaults from what is given and from their own variables. -/
def ConsensusDefaults.check (s : Sources) (given : List (String × Datum)) :
    Checked ConsensusDefaults :=
  let fields := keys.filterMap fun key => s.field? given key ("concord_consensus_" ++ key)
  Checked.build ConsensusDefaults.mk
    |>.apply (Check.withDefault fields "algorithm" .majority (Check.member Algorithm))
    |>.apply (Check.withDefault fields "min_votes" 1 (Check.integerFrom 1))
    |>.apply (Check.withDefault fields "min_confidence" 0.5 Check.fraction)

def ConsensusDefaults.toValue (c : ConsensusDefaults) : Value := .object [
  ("algorithm", .named c.algorithm), ("min_votes", .int c.minVotes),
  ("min_confidence", .float c.minConfidence)]

def ConsensusDefaults.rule (s : Sources) : Check.Rule ConsensusDefaults := fun d => do
  let given ← Check.record "ConsensusDefaults" d
  ConsensusDefaults.check s given

/-- Overlay one block on another: entries of the upper one win. -/
def overlay (upper lower : Datum) : Datum :=
  match upper, lower with
  | .mapping us, .mapping ls => .mapping (us ++ ls)
  | _, _ => upper

/-- A block of consensus defaults in a variable; its keys may be written in any case. -/
def ConsensusDefaults.ofVariable : Value → Option Datum
  | .null => none
  | .object entries =>
    let named := entries.map fun (k, v) => if keys.contains (Text.lower k) then (Text.lower k, v) else (k, v)
    some (.ofValue (.object (Entries.ofList named)))
  | v => some (.ofValue v)

def structured (source : String) : Option (Option String) → Except SettingsFault (Option Datum)
  | some (some text) =>
    match Value.read text with
    | .ok v => .ok (ConsensusDefaults.ofVariable v)
    | .error _ => .error (.unreadable "consensus" source)
  | _ => .ok none

/-- The block of consensus defaults that all sources together give. -/
def Sources.consensusBlock (s : Sources) : Except SettingsFault (Option Datum) := do
  let fromEnvironment ← structured "EnvSettingsSource" (s.environmentVariables.lookup "consensus")
  let fromFile ← structured "DotEnvSettingsSource" (s.fileVariables.lookup "consensus")
  let blocks := [s.given.lookup "consensus", fromEnvironment, fromFile].filterMap id
  match blocks with
  | [] => return none
  | top :: rest => return some (rest.foldl overlay top)

/-! ### Settings -/

namespace Settings

/-- The fields in order, by the names of their variables. -/
def keys : List String :=
  ["ANTHROPIC_API_KEY", "CONCORD_MODEL", "CONCORD_MAX_TOKENS", "CONCORD_TEMPERATURE",
   "CONCORD_LOG_LEVEL", "CONCORD_LOG_FORMAT", "CONCORD_MAX_CONCURRENT_AGENTS",
   "CONCORD_AGENT_TIMEOUT", "CONCORD_FLEET_DEADLINE", "CONCORD_API_RETRY_ATTEMPTS",
   "CONCORD_API_RETRY_DELAY"]

/-- An API key: a text that is empty or begins in the right way. -/
def apiKeyRule : Check.Rule String := fun d => do
  let s ← Check.text d
  if s.isEmpty || s.startsWith "sk-ant-" then return s
  else Checked.fail (.refused "Invalid Anthropic API key format")

def logFormatRule : Check.Rule LogFormat := fun d => do
  let s := Text.lower (← Check.text d)
  match Named.ofName? s with
  | some f => return f
  | none => Checked.fail (.refused s!"log_format must be 'console' or 'json', got '{s}'")

def countRule : Check.Rule Int := fun d => do
  let n ← Check.integer d
  if n < 1 then Checked.fail (.refused "must be at least 1") else return n

def check (fields : Check.Fields) (consensus : Checked ConsensusDefaults) : Checked Settings :=
  Checked.build Settings.mk
    |>.apply (Check.withDefault fields "ANTHROPIC_API_KEY" "" apiKeyRule)
    |>.apply (Check.withDefault fields "CONCORD_MODEL" "claude-sonnet-4-5" Check.text)
    |>.apply (Check.withDefault fields "CONCORD_MAX_TOKENS" 4096 Check.integer)
    |>.apply (Check.withDefault fields "CONCORD_TEMPERATURE" 0.7 Check.number)
    |>.apply (Check.withDefault fields "CONCORD_LOG_LEVEL" "INFO" Check.text)
    |>.apply (Check.withDefault fields "CONCORD_LOG_FORMAT" .console logFormatRule)
    |>.apply (Check.withDefault fields "CONCORD_MAX_CONCURRENT_AGENTS" 10 countRule)
    |>.apply (Check.withDefault fields "CONCORD_AGENT_TIMEOUT" 120.0 Check.number)
    |>.apply (Check.withDefault fields "CONCORD_FLEET_DEADLINE" none (Check.optional Check.number))
    |>.apply (Check.withDefault fields "CONCORD_API_RETRY_ATTEMPTS" 3 countRule)
    |>.apply (Check.withDefault fields "CONCORD_API_RETRY_DELAY" 1.0 Check.number)
    |>.apply consensus

/-- The kind of an API key that is given but is no text. -/
def badKeyKind? (fields : Check.Fields) : Option String :=
  match fields.lookup "ANTHROPIC_API_KEY" with
  | some (.text _) => none
  | some d => if d.isGiven then some d.kindName else none
  | none => none

/-- Settings from their sources.  Consensus defaults that nobody gives as a block are taken
    from their variables, and what is wrong with those is reported by itself. -/
def ofSources (s : Sources) : Except SettingsFault Settings := do
  let block ← s.consensusBlock
  let fields := keys.filterMap fun key => s.field? s.given key (Text.lower key)
  if let some kind := badKeyKind? fields then throw (.notAText kind)
  let consensus ← match block with
    | some d => pure ((ConsensusDefaults.rule s d).inside "consensus")
    | none =>
      match ConsensusDefaults.check s [] with
      | .ok c => pure (.ok c)
      | .error issues => throw (.invalid "ConsensusDefaults" issues)
  (check fields consensus).mapError (.invalid "Settings")

/-- A key is there, so that agents can be called. -/
def isConfigured (s : Settings) : Bool := !s.apiKey.isEmpty

def toValue (s : Settings) : Value := .object [
  ("anthropic_api_key", .text s.apiKey),
  ("model", .text s.model),
  ("max_tokens", .int s.maxTokens),
  ("temperature", .float s.temperature),
  ("log_level", .text s.logLevel),
  ("log_format", .named s.logFormat),
  ("max_concurrent_agents", .int s.maxConcurrentAgents),
  ("agent_timeout_seconds", .float s.agentTimeout),
  ("fleet_deadline_seconds", .ofOption .float s.fleetDeadline),
  ("api_retry_attempts", .int s.retryAttempts),
  ("api_retry_delay", .float s.retryDelay),
  ("consensus", s.consensus.toValue)]

end Settings

end Quorum

/-
  Quorum/Fleet/Spec.lean
  ======================
  **Fleets and the rules a fleet has to keep.**

  The fields of a fleet are checked first, each by itself.  Then the rules that tie them
  together are tested in a fixed order, and the first one that is broken is reported:
  names are unique, tiers are contiguous, overrides belong to tiers, there is at most one
  manager and it sits in the highest tier, and every name that is referred to exists.
  To look for a gap the numbers up to the highest tier are listed, which a number beyond
  the length of lists makes impossible.
-/
import Quorum.Fault
import Quorum.Fleet.Declaration

namespace Quorum

/-- A fleet: its agents and their coordination. -/
structure Fleet where
  name : String
  apiVersion : String
  kind : String
  labels : List (String × String)
  agents : List Agent
  coordination : Coordination

/-- A rule of fleets that is broken. -/
inductive FleetConflict where
  | duplicateName (name : String)
  | tierGap (tiers : List Int)
  | unknownTier (tier : Int)
  | severalManagers (names : List String)
  | managerBelowTop (name : String) (top tier : Int)
  | managerAlone
  | unknownManager (name : String)
  | managerIsWorker (name : String) (role : Role)
  | synthesisWithoutManager
  | weightsOfStrangers (names : List String)

def FleetConflict.message : FleetConflict → String
  | .duplicateName name => s!"Duplicate agent name in fleet: {name}"
  | .tierGap tiers =>
    s!"Tier numbers must be contiguous starting at 1, got {(Value.list (tiers.map .int)).literal}"
  | .unknownTier tier => s!"tier_consensus references unknown tier {tier}"
  | .severalManagers names =>
    s!"At most one manager allowed, got {(Value.list (names.map .text)).literal}"
  | .managerBelowTop name top tier =>
    s!"Manager '{name}' must belong to the highest tier ({top}), found in tier {tier}"
  | .managerAlone => "A fleet cannot consist of only a manager"
  | .unknownManager name => s!"Unknown manager agent: {name}"
  | .managerIsWorker name role =>
    s!"Agent '{name}' is named as manager but has role '{Named.name role}'"
  | .synthesisWithoutManager => "manager_synthesis aggregation requires a manager agent"
  | .weightsOfStrangers names =>
    s!"Consensus weights reference unknown agents: {(Value.list (names.map .text)).literal}"

/-- The numbers that the wording of a conflict writes out. -/
def FleetConflict.numbers : FleetConflict → List Int
  | .tierGap tiers => tiers
  | .unknownTier tier => [tier]
  | .managerBelowTop _ top tier => [top, tier]
  | _ => []

/-- What is reported of a conflict: its wording, unless one of its numbers cannot be
    written out. -/
def FleetConflict.report (c : FleetConflict) : String :=
  if c.numbers.all Value.hasNumeral then c.message else Value.noNumeral

/-- Why the numbers of tiers cannot be listed. -/
inductive ListProblem where
  /-- The list does not fit into memory. -/
  | tooLarge
  /-- The list is longer than can be counted. -/
  | tooLong
deriving DecidableEq, Repr

def ListProblem.message : ListProblem → String
  | .tooLarge => ""
  | .tooLong => "Python int too large to convert to C ssize_t"

inductive FleetError where
  | fault (f : Fault)
  /-- The numbers up to the highest tier cannot be listed. -/
  | unlistable (p : ListProblem)

namespace Fleet

/-! ### Tiers and agents -/

/-- The tier numbers in ascending order, each once. -/
def tiersOf (agents : List Agent) : List Int :=
  ((agents.map Agent.tier).mergeSort fun a b => decide (a ≤ b)).eraseDups

def tiers (f : Fleet) : List Int := tiersOf f.agents

/-- The highest tier; zero if there is none. -/
def topTier (f : Fleet) : Int := f.tiers.getLast?.getD 0

/-- The agents assigned to a tier, in their own order. -/
def agentsInTier (f : Fleet) (tier : Int) : List Agent := f.agents.filter fun a => a.tier == tier

def managers (f : Fleet) : List Agent := f.agents.filter Agent.isManager

def manager? (f : Fleet) : Option Agent := f.agents.find? Agent.isManager

/-- The agent of a name; of agents with one name the last. -/
def agent? (f : Fleet) (name : String) : Option Agent :=
  f.agents.reverse.find? fun a => a.name == name

def synthesizes (f : Fleet) : Bool := f.coordination.finalAggregation == .managerSynthesis

/-- The agents that vote in a tier; a manager that synthesizes sits out. -/
def votingAgents (f : Fleet) (tier : Int) : List Agent :=
  (f.agentsInTier tier).filter fun a => !(f.synthesizes && a.isManager)

/-- The tiers in which somebody votes, in ascending order. -/
def votingTiers (f : Fleet) : List Int := f.tiers.filter fun t => !(f.votingAgents t).isEmpty

/-! ### Weights -/

/-- The weight of agents for which nothing is set. -/
def defaultWeight : Float := 1.0

/-- The weight an agent has in the whole fleet: its own, else the one of the default rules. -/
def resolvedWeight (f : Fleet) (a : Agent) : Float :=
  match a.weight with
  | some w => w
  | none => (f.coordination.defaultRules.weights.lookup a.name).getD defaultWeight

/-- The index of weights: the weights of all agents by name. -/
def weights (f : Fleet) : List (String × Float) :=
  Entries.ofList (f.agents.map fun a => (a.name, f.resolvedWeight a))

/-- A look-up works on the index of weights.  If it meets a name that no agent has, it fails
    with that name. -/
abbrev LookUp (α : Type) := StateT (List (String × Float)) (Except String) α

/-- Look up all weights: a copy of the index. -/
def lookUpWeights : LookUp (List (String × Float)) := get

/-- Write a hint over the weight of an agent, unless the agent has a weight of its own. -/
def withHint (f : Fleet) (weights : List (String × Float)) (hint : String × Float) :
    Except String (List (String × Float)) :=
  match f.agent? hint.1 with
  | none => .error hint.1
  | some a => .ok (if a.weight.isNone then Entries.insert hint.1 hint.2 weights else weights)

/-- Look up the weights in force in a tier: a copy of the index under the tier's hints. -/
def lookUpWeightsFor (f : Fleet) (tier : Int) : LookUp (List (String × Float)) := do
  let weights ← lookUpWeights
  match f.coordination.tierRules.lookup tier with
  | none => return weights
  | some rules => liftM (rules.weights.foldlM f.withHint weights)

/-- The weights in force in a tier, by name.  In fleets that keep the rules no look-up fails;
    where one does, the index stands. -/
def weightsFor (f : Fleet) (tier : Int) : List (String × Float) :=
  ((f.lookUpWeightsFor tier).run' f.weights).toOption.getD f.weights

/-! ### Rules -/

def repeatedName? : List String → List Agent → Option String
  | _, [] => none
  | seen, a :: rest =>
    if seen.contains a.name then some a.name else repeatedName? (a.name :: seen) rest

/-- The list counts upwards in steps of one, starting from a number. -/
def countsFrom : Int → List Int → Bool
  | _, [] => true
  | n, t :: rest => t == n && countsFrom (n + 1) rest

def sortedNames (names : List String) : List String :=
  (names.mergeSort fun a b => decide (a ≤ b)).eraseDups

/-- The names with weights in some rules that belong to no agent. -/
def strangers (f : Fleet) (rules : VotingRules) : List String :=
  sortedNames ((rules.weights.map Prod.fst).filter fun n => !f.agents.any fun a => a.name == n)

def conflictIf (condition : Bool) (c : FleetConflict) : Except FleetConflict Unit :=
  if condition then .error c else .ok ()

/-- The tiers are one, two, … without a gap, unless gaps are allowed. -/
def checkTiers (f : Fleet) : Except FleetConflict Unit :=
  conflictIf (!f.coordination.allowTierGaps && !countsFrom 1 f.tiers) (.tierGap f.tiers)

def checkOverrides (f : Fleet) : Except FleetConflict Unit :=
  match f.coordination.tierRules.find? fun (t, _) => !f.tiers.contains t with
  | some (t, _) => .error (.unknownTier t)
  | none => .ok ()

/-- There is at most one manager, in the highest tier and not alone. -/
def checkManagers (f : Fleet) : Except FleetConflict Unit :=
  match f.managers with
  | [] => .ok ()
  | [m] => do
    conflictIf (m.tier != f.topTier) (.managerBelowTop m.name f.topTier m.tier)
    conflictIf (f.agents.length == 1) .managerAlone
  | several => .error (.severalManagers (several.map Agent.name))

/-- A manager named by the coordination exists and has that role. -/
def checkNamedManager (f : Fleet) : Except FleetConflict Unit :=
  match f.coordination.manager with
  | none => .ok ()
  | some name =>
    match f.agent? name with
    | none => .error (.unknownManager name)
    | some a => conflictIf (!a.isManager) (.managerIsWorker name a.role)

def checkWeights (f : Fleet) : List VotingRules → Except FleetConflict Unit
  | [] => .ok ()
  | rules :: rest => do
    let unknown := f.strangers rules
    conflictIf (!unknown.isEmpty) (.weightsOfStrangers unknown)
    checkWeights f rest

/-- All rules of a fleet, in the order in which they are reported. -/
def validate (f : Fleet) : Except FleetConflict Unit := do
  match repeatedName? [] f.agents with
  | some name => throw (.duplicateName name)
  | none => pure ()
  f.checkTiers
  f.checkOverrides
  f.checkManagers
  f.checkNamedManager
  conflictIf (f.synthesizes && f.managers.isEmpty) .synthesisWithoutManager
  f.checkWeights (f.coordination.defaultRules :: f.coordination.tierRules.map Prod.snd)

/-! ### Creation -/

/-- The fields of a fleet from unchecked data, each checked by itself. -/
def read : Check.Rule Fleet := fun d => do
  let fields ← Check.record "FleetSpec" d
  Checked.build Fleet.mk
    |>.apply (Check.required fields "name" Check.nonEmptyText)
    |>.apply (Check.withDefault fields "api_version" "concord.dev/v1" Check.text)
    |>.apply (Check.withDefault fields "kind" "AgentFleet" Check.text)
    |>.apply (Check.withDefault fields "labels" [] Agent.labelsRule)
    |>.apply (Check.required fields "agents" (Check.nonEmptyList Agent.check))
    |>.apply (Check.withDefault fields "coordination" .default Coordination.check)

def issuesFault (issues : List Issue) : Fault :=
  Fault.configuration s!"Invalid fleet specification: {issues.length} error(s)"
    [("errors", .list (issues.map fun i => .text i.cause.message))]

def conflictFault (c : FleetConflict) : Fault := issuesFault [⟨[], .refused c.report⟩]

/-- The longest list that an address space of `2 ^ 47` bytes holds at eight bytes an item: beyond
    this the list cannot be allocated, whatever the machine. -/
def listRoom : Nat := Nat.pow 2 44

/-- The lengths of lists are below this: they are counted in a signed word of 64 bits. -/
def countRoom : Nat := Nat.pow 2 63

/-- What is in the way of listing the numbers up to the highest tier, as it is done to look
    for gaps in a fleet without repeated names. -/
def listProblem? (f : Fleet) : Option ListProblem :=
  if (repeatedName? [] f.agents).isSome || f.coordination.allowTierGaps then none
  else if countRoom ≤ f.topTier then some .tooLong
  else if listRoom ≤ f.topTier then some .tooLarge
  else none

/-- A fleet of which the fields are checked, if it keeps the rules. -/
def accept (f : Fleet) : Except FleetError Fleet :=
  match f.listProblem? with
  | some problem => .error (.unlistable problem)
  | none =>
    match f.validate with
    | .error conflict => .error (.fault (conflictFault conflict))
    | .ok () => .ok f

/-- A valid fleet from unchecked data, or what is wrong with it. -/
def create (d : Datum) : Except FleetError Fleet := do
  let f ← (read d).mapError fun issues => .fault (issuesFault issues)
  f.accept

/-! ### Look-ups by name -/

/-- The fault of asking for an agent that is not there. -/
def unknownAgent (f : Fleet) (name : String) : Fault :=
  Fault.configuration s!"Unknown agent: {name}" [("fleet", .text f.name)]

/-- The agent of a name. -/
def getAgent (f : Fleet) (name : String) : Except Fault Agent :=
  match f.agent? name with
  | some a => .ok a
  | none => .error (f.unknownAgent name)

def weightOf (f : Fleet) (name : String) : Except Fault Float :=
  match f.weights.lookup name with
  | some w => .ok w
  | none => .error (f.unknownAgent name)

end Fleet

end Quorum

/-
  Quorum/Fleet/Declaration.lean
  =============================
  **What a fleet declares: its agents, and how their tiers are sequenced, reconciled and
  brought to an answer.**
-/
import Quorum.Consensus.Verdict

namespace Quorum

/-! ### One agent's place in a fleet -/

/-- An agent of a fleet. -/
structure Agent where
  name : String
  tier : Int
  weight : Option Float
  role : Role
  model : Option String
  instructions : Option String
  temperature : Option Float
  outputFormat : OutputFormat
  timeoutSeconds : Option Float
  configPath : Option String
  labels : List (String × String)

namespace Agent

def isManager (a : Agent) : Bool := a.role == .manager

/-- An agent of which only the name and the tier are given. -/
def bare (name : String) (tier : Int) : Agent :=
  ⟨name, tier, none, .worker, none, none, none, .text, none, none, []⟩

section

variable (name : String) (tier : Int)

@[simp] theorem bare_name : (bare name tier).name = name := rfl
@[simp] theorem bare_tier : (bare name tier).tier = tier := rfl
@[simp] theorem bare_role : (bare name tier).role = .worker := rfl

end

/-- Labels: texts under texts. -/
def labelsRule : Check.Rule (List (String × String)) := Check.mapping Check.text Check.text

def check : Check.Rule Agent := fun d => do
  let fields ← Check.record "AgentAssignment" d
  Checked.build Agent.mk
    |>.apply (Check.required fields "name" Check.nonEmptyText)
    |>.apply (Check.withDefault fields "tier" 1 (Check.integerFrom 1))
    |>.apply (Check.withDefault fields "weight" none (Check.optional Check.nonNegative))
    |>.apply (Check.withDefault fields "role" .worker (Check.member Role))
    |>.apply (Check.withDefault fields "model" none (Check.optional Check.text))
    |>.apply (Check.withDefault fields "instructions" none (Check.optional Check.text))
    |>.apply (Check.withDefault fields "temperature" none (Check.optional Check.fraction))
    |>.apply (Check.withDefault fields "output_format" .text (Check.member OutputFormat))
    |>.apply (Check.withDefault fields "timeout_seconds" none (Check.optional Check.positive))
    |>.apply (Check.withDefault fields "config_path" none (Check.optional Check.text))
    |>.apply (Check.withDefault fields "labels" [] labelsRule)

end Agent

/-! ### How the tiers of a fleet are sequenced, reconciled and brought to an answer -/

structure Coordination where
  mode : CoordinationMode
  defaultRules : VotingRules
  /-- Rules for single tiers. -/
  tierRules : List (Int × VotingRules)
  passAllResults : Bool
  finalAggregation : Aggregation
  manager : Option String
  allowTierGaps : Bool
  abortOnTierFailure : Bool

namespace Coordination

/-- Majority in every tier and at the end. -/
def default : Coordination :=
  ⟨.tiered, .default, [], false, .consensus, none, false, false⟩

def rulesFor (c : Coordination) (tier : Int) : VotingRules :=
  (c.tierRules.lookup tier).getD c.defaultRules

def check : Check.Rule Coordination := fun d => do
  let fields ← Check.record "CoordinationConfig" d
  Checked.build Coordination.mk
    |>.apply (Check.withDefault fields "mode" .tiered (Check.member CoordinationMode))
    |>.apply (Check.withDefault fields "default_consensus" .default VotingRules.check)
    |>.apply (Check.withDefault fields "tier_consensus" []
      (Check.mapping Check.integer VotingRules.check))
    |>.apply (Check.withDefault fields "pass_all_results" false Check.truth)
    |>.apply (Check.withDefault fields "final_aggregation" .consensus (Check.member Aggregation))
    |>.apply (Check.withDefault fields "manager" none (Check.optional Check.text))
    |>.apply (Check.withDefault fields "allow_tier_gaps" false Check.truth)
    |>.apply (Check.withDefault fields "abort_on_tier_failure" false Check.truth)

end Coordination

end Quorum

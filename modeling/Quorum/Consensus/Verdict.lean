/-
  Quorum/Consensus/Verdict.lean
  =============================
  **Rules of agreement, verdicts, and the results they are about.**
-/
import Quorum.Check.Field

namespace Quorum

/-! ### The voting rules of a tier

Scores and confidences are sums and quotients over a `Scale`: doubles when a fleet runs,
exact rationals where the arithmetic itself is studied. -/

/-- Arithmetic and comparison for weights, scores and confidences. -/
class Scale (α : Type) where
  zero : α
  one : α
  add : α → α → α
  div : α → α → α
  ofNat : Nat → α
  same : α → α → Bool
  less : α → α → Bool
  atMost : α → α → Bool

instance : Scale Float where
  zero := 0.0
  one := 1.0
  add a b := a + b
  div a b := a / b
  ofNat n := n.toFloat
  same a b := a == b
  less a b := decide (a < b)
  atMost a b := decide (a ≤ b)

/-- How the outputs of a tier are reduced to a verdict. -/
structure Rules (α : Type) where
  algorithm : Algorithm
  minVotes : Int
  minConfidence : α
  timeoutSeconds : Option α
  weights : List (String × α)

/-- The voting rules of a fleet: confidences and weights are doubles. -/
abbrev VotingRules := Rules Float

namespace VotingRules

/-- A simple majority of whoever answers. -/
def default : VotingRules := ⟨.majority, 1, 0.5, none, []⟩

/-- The first entry whose weight compares below zero. -/
def negativeWeight? (weights : List (String × Float)) : Option (String × Float) :=
  weights.find? fun (_, w) => decide (w < 0)

/-- Voting rules from unchecked data.  Weights are compared with zero after all fields are
    typed. -/
def check : Check.Rule VotingRules := fun d => do
  let fields ← Check.record "ConsensusConfig" d
  let rules ← Checked.build Rules.mk
    |>.apply (Check.withDefault fields "algorithm" .majority (Check.member Algorithm))
    |>.apply (Check.withDefault fields "min_votes" 1 (Check.integerFrom 1))
    |>.apply (Check.withDefault fields "min_confidence" 0.5 Check.fraction)
    |>.apply (Check.withDefault fields "timeout_seconds" none (Check.optional Check.positive))
    |>.apply (Check.withDefault fields "weights" [] (Check.mapping Check.text Check.number))
  match negativeWeight? rules.weights with
  | some (name, w) =>
    Checked.fail (.refused s!"Weight for agent '{name}' must be >= 0, got {Decimal.plainText w}")
  | none => return rules

end VotingRules

/-! ### Verdicts: what a tier's votes come to

A verdict names the winning value, how sure the fleet may be of it, and the support of
every distinct value, best supported first. -/

/-- The support behind one distinct value. -/
structure Tally (α : Type) where
  value : Value
  count : Int
  score : α
  agents : List String

/-- The verdict of a tier. -/
structure Verdict (α : Type) where
  /-- The winning value; null if nobody voted. -/
  result : Value
  confidence : α
  votes : Int
  algorithm : Algorithm
  reached : Bool
  minVotes : Int
  minConfidence : α
  tally : List (Tally α)
  /-- Who voted for another value, in order of names. -/
  dissenters : List String
  escalation : Option Severity

namespace Verdict

variable {α : Type}

def noData (v : Verdict α) : Bool := v.votes == 0

def distinctValues (v : Verdict α) : Nat := v.tally.length

end Verdict

/-- A tally row from unchecked data. -/
def Tally.check : Check.Rule (Tally Float) := fun d => do
  let fields ← Check.record "VoteTally" d
  Checked.build Tally.mk
    |>.apply (Check.required fields "value" Check.anything)
    |>.apply (Check.required fields "count" Check.integer)
    |>.apply (Check.required fields "score" Check.number)
    |>.apply (Check.required fields "agents" (Check.list Check.text))

def Verdict.check : Check.Rule (Verdict Float) := fun d => do
  let fields ← Check.record "ConsensusResult" d
  Checked.build Verdict.mk
    |>.apply (Check.withDefault fields "result" .null Check.anything)
    |>.apply (Check.required fields "confidence" Check.fraction)
    |>.apply (Check.required fields "votes" (Check.integerFrom 0))
    |>.apply (Check.required fields "algorithm" (Check.member Algorithm))
    |>.apply (Check.required fields "reached" Check.truth)
    |>.apply (Check.withDefault fields "min_votes" 1 Check.integer)
    |>.apply (Check.withDefault fields "min_confidence" 0.5 Check.number)
    |>.apply (Check.withDefault fields "tally" [] (Check.list Tally.check))
    |>.apply (Check.withDefault fields "dissenters" [] (Check.list Check.text))
    |>.apply (Check.withDefault fields "escalation" none (Check.optional (Check.member Severity)))

/-! ### The outcome of one invocation of an agent

A result is a success exactly when it carries no error.  Only texts that are not blank,
objects and lists can be voted on. -/

def Value.isWellFormed : Value → Bool
  | .text s => !Text.allBlank s
  | .list _ => true
  | .object _ => true
  | _ => false

structure AgentResult where
  agentName : String
  tier : Int
  /-- What the agent returned; null if it failed. -/
  output : Value
  weight : Float
  latencyMs : Float
  startedAt : Timestamp
  completedAt : Timestamp
  error : Option String
  errorKind : Option FailureKind

namespace AgentResult

def succeeded (r : AgentResult) : Bool := r.error.isNone

/-- A result from unchecked data; `now` stands for times that are left out. -/
def check (now : Timestamp) : Check.Rule AgentResult := fun d => do
  let fields ← Check.record "AgentResult" d
  Checked.build AgentResult.mk
    |>.apply (Check.required fields "agent_name" Check.text)
    |>.apply (Check.required fields "tier" Check.integer)
    |>.apply ((Check.withDefault fields "output" .null Check.output))
    |>.apply (Check.withDefault fields "weight" 1.0 Check.number)
    |>.apply (Check.withDefault fields "latency_ms" 0.0 Check.number)
    |>.apply (Check.withDefault fields "started_at" now Check.timestamp)
    |>.apply (Check.withDefault fields "completed_at" now Check.timestamp)
    |>.apply (Check.withDefault fields "error" none (Check.optional Check.text))
    |>.apply (Check.withDefault fields "error_kind" none
      (Check.optional (Check.member FailureKind)))

end AgentResult

end Quorum

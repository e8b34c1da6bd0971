/-
  Quorum/Proofs/Consensus/Exact.lean
  ==================================
  **Verdicts in exact arithmetic.**

  Scores and confidences are sums and quotients over a scale.  Results are evaluated over the
  doubles they carry as weights; over the rationals the same evaluation makes no error, and
  its laws can be stated as they are meant.  `evaluateWith` is the evaluation over any scale,
  with the weights of the results as a parameter, and `evaluate` is one case of it
  (`evaluate_eq_evaluateWith`); `evaluateExactly` reads every double as the number it is.
-/
import Mathlib.Algebra.Order.Ring.Rat
import Quorum.Decimal.Shortest
import Quorum.Proofs.Consensus.Groups

namespace Quorum

/-! ### The scale of rationals -/

instance : Scale ℚ where
  zero := 0
  one := 1
  add a b := a + b
  div a b := a / b
  ofNat n := n
  same a b := a == b
  less a b := decide (a < b)
  atMost a b := decide (a ≤ b)

namespace Scale

@[simp] theorem zero_rat : (Scale.zero : ℚ) = 0 := rfl

@[simp] theorem one_rat : (Scale.one : ℚ) = 1 := rfl

@[simp] theorem add_rat (a b : ℚ) : Scale.add a b = a + b := rfl

@[simp] theorem div_rat (a b : ℚ) : Scale.div a b = a / b := rfl

@[simp] theorem ofNat_rat (n : Nat) : (Scale.ofNat n : ℚ) = n := rfl

@[simp] theorem same_rat (a b : ℚ) : Scale.same a b = true ↔ a = b := beq_iff_eq

@[simp] theorem less_rat (a b : ℚ) : Scale.less a b = true ↔ a < b := decide_eq_true_iff

@[simp] theorem atMost_rat (a b : ℚ) : Scale.atMost a b = true ↔ a ≤ b := decide_eq_true_iff

end Scale

namespace Consensus

theorem capped_eq {x : ℚ} (hx : x ≤ 1) : capped x = x := by
  unfold capped
  split
  · rfl
  · next h =>
    simp only [Scale.less_rat, Scale.one_rat, not_lt] at h
    exact le_antisymm h hx

theorem floored_eq {x : ℚ} (hx : 0 ≤ x) : floored x = x := by
  unfold floored
  split
  · rfl
  · next h =>
    simp only [Scale.less_rat, Scale.zero_rat, not_lt] at h
    exact le_antisymm hx h

/-- A confidence between zero and one is not clamped. -/
theorem clamped_eq {x : ℚ} (hlow : 0 ≤ x) (hhigh : x ≤ 1) : floored (capped x) = x := by
  rw [capped_eq hhigh, floored_eq hlow]

/-! ### Evaluation over a scale -/

section Weighing

variable {α : Type}

/-- The votes of a list of results, where `own` gives the weight of each result. -/
def weighedVotes (own : AgentResult → α) (results : List AgentResult) : List (Ballot α) :=
  (results.filter AgentResult.succeeded).map fun r =>
    ⟨r.agentName, r.completedAt.micros, r.output, own r⟩

def evaluateWith [Scale α] (own : AgentResult → α) (results : List AgentResult)
    (weights : List (String × α)) (rules : Rules α) : Verdict α :=
  evaluateBallots (weighedVotes own results) weights rules

theorem evaluate_eq_evaluateWith (results : List AgentResult) (weights : List (String × Float))
    (rules : VotingRules) :
    evaluate results weights rules = evaluateWith AgentResult.weight results weights rules := by
  unfold evaluate evaluateWith
  rw [ballots_eq_map]
  rfl

theorem mem_weighedVotes {own : AgentResult → α} {results : List AgentResult} {b : Ballot α} :
    b ∈ weighedVotes own results ↔ ∃ r ∈ results, r.succeeded = true ∧
      b = ⟨r.agentName, r.completedAt.micros, r.output, own r⟩ := by
  simp only [weighedVotes, List.mem_map, List.mem_filter, and_assoc, eq_comm]

end Weighing

/-! ### Doubles read exactly -/

/-- The exact number that a double stands for, and zero where it stands for none. -/
def exactly (x : Float) : ℚ := (Decimal.exactValue? x).getD 0

/-- The weight of a result as an exact number. -/
def exactWeight (r : AgentResult) : ℚ := exactly r.weight

def exactWeights (weights : List (String × Float)) : List (String × ℚ) :=
  weights.map fun entry => (entry.1, exactly entry.2)

/-- Voting rules with exact thresholds. -/
def exactRules (rules : VotingRules) : Rules ℚ where
  algorithm := rules.algorithm
  minVotes := rules.minVotes
  minConfidence := exactly rules.minConfidence
  timeoutSeconds := rules.timeoutSeconds.map exactly
  weights := exactWeights rules.weights

/-- The verdict on the results of a tier in exact arithmetic. -/
def evaluateExactly (results : List AgentResult) (weights : List (String × Float))
    (rules : VotingRules) : Verdict ℚ :=
  evaluateWith exactWeight results (exactWeights weights) (exactRules rules)

end Consensus

end Quorum

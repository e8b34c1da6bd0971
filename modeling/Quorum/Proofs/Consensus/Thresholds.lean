/-
  Quorum/Proofs/Consensus/Thresholds.lean
  =======================================
  **Thresholds only gate.**

  The least number of votes and the least confidence are compared with what a rule has found,
  and nothing is computed from them.  Higher ones leave ranking and confidence as they are; all
  they can do is to keep a verdict from being reached and to make a review more urgent
  (`decisionFor_gated`).  Unanimity is the delicate case, since it is sure once it is reached,
  and if too few votes keep it from that it has the share of the votes behind the only value
  as its confidence.  That share is a number over itself, and so one in either case
  (`capped_unanimous`).
-/
import Quorum.Proofs.Consensus.Agreement
import Quorum.Proofs.Decimal.Doubles

namespace Quorum

/-- How urgent an escalation is. -/
def Severity.urgency : Severity → Nat
  | .low => 0
  | .high => 1
  | .critical => 2

namespace Consensus

/-! ### What thresholds rely on -/

/-- What the arithmetic has to grant: comparisons can be chained, and a number over itself
    counts as one. -/
structure Gauges (α : Type) [Scale α] : Prop where
  trans : ∀ {a b c : α}, Scale.atMost a b = true → Scale.atMost b c = true →
    Scale.atMost a c = true
  self : ∀ a : α, capped (Scale.div a a) = Scale.one

/-- Doubles grant it, although a double over itself need not be a number. -/
theorem gauges_float : Gauges Float := by
  constructor
  · intro a b c hab hbc
    have hab : a ≤ b := of_decide_eq_true hab
    have hbc : b ≤ c := of_decide_eq_true hbc
    exact decide_eq_true (Decimal.le_trans_double hab hbc)
  · intro a
    have hcases : Scale.div a a = (1.0 : Float) ∨ Scale.div a a = (0.0 : Float) / 0.0 :=
      Decimal.div_self_cases a
    rcases hcases with hone | hnone
    · rw [hone]
      exact ite_self _
    · rw [hnone]
      rfl

section Decisions

variable {α : Type} [Scale α] {loose strict : Rules α}

/-- Rules that differ in their thresholds alone, and those of the second are at least as high. -/
structure Stricter (loose strict : Rules α) : Prop where
  algorithm : strict.algorithm = loose.algorithm
  timeoutSeconds : strict.timeoutSeconds = loose.timeoutSeconds
  weights : strict.weights = loose.weights
  minVotes : loose.minVotes ≤ strict.minVotes
  minConfidence : Scale.atMost loose.minConfidence strict.minConfidence = true

/-- An escalation is as urgent as another or more so, or there is none in either case. -/
def NoLessUrgent : Option Severity → Option Severity → Prop :=
  Option.Rel fun s t => s.urgency ≤ t.urgency

/-- Two decisions about the same groups that differ by what a threshold may gate. -/
structure GatedDecision (loose strict : Decision α) : Prop where
  ranked : strict.ranked = loose.ranked
  confidence : capped strict.confidence = capped loose.confidence
  reached : strict.reached = true → loose.reached = true
  escalation : NoLessUrgent loose.escalation strict.escalation

/-! ### Decisions -/

/-- The confidence of unanimity does not tell whether it was reached. -/
theorem capped_unanimous (hgauges : Gauges α) (rules : Rules α) {groups : List (Group α)}
    {winner : Group α} {total : Nat} (hall : groups.length = 1 → winner.count = total) :
    capped (unanimous rules groups winner total).confidence =
      if groups.length = 1 then Scale.one else capped (plurality winner total) := by
  unfold unanimous
  dsimp only
  by_cases hsingle : groups.length = 1
  · rw [if_pos hsingle]
    split
    · exact ite_self _
    · rw [plurality, hall hsingle]
      exact hgauges.self _
  · have hdivided : ¬ (groups.length == 1 && decide (rules.minVotes ≤ total)) = true := by
      simp [hsingle]
    rw [if_neg hdivided, if_neg hsingle]

theorem decisionFor_gated (hgauges : Gauges α) (h : Stricter loose strict) (byWeight : Bool)
    {groups : List (Group α)} (firstKey : String) {winner : Group α} {total : Nat}
    (hall : groups.length = 1 → winner.count = total) :
    GatedDecision (decisionFor loose byWeight groups firstKey winner total)
      (decisionFor strict byWeight groups firstKey winner total) := by
  have hvotes : strict.minVotes ≤ total → loose.minVotes ≤ total := h.minVotes.trans
  have hconfidence : ∀ c, Scale.atMost strict.minConfidence c = true →
      Scale.atMost loose.minConfidence c = true := fun c => hgauges.trans h.minConfidence
  unfold decisionFor
  rw [h.algorithm]
  cases loose.algorithm with
  | majority =>
    refine ⟨rfl, rfl, ?_, .none⟩
    simp only [majority, Bool.and_eq_true, decide_eq_true_eq]
    exact And.imp_right hvotes
  | unanimous =>
    refine ⟨rfl, ?_, ?_, .none⟩
    · rw [capped_unanimous hgauges _ hall, capped_unanimous hgauges _ hall]
    · simp only [unanimous, Bool.and_eq_true, decide_eq_true_eq]
      exact And.imp_right hvotes
  | weighted =>
    refine ⟨rfl, rfl, ?_, .none⟩
    simp only [weighted, Bool.and_eq_true, decide_eq_true_eq]
    exact And.imp (And.imp_right (hconfidence _)) hvotes
  | firstWins => exact ⟨rfl, rfl, id, .none⟩
  | humanReview =>
    refine ⟨rfl, rfl, id, .some ?_⟩
    generalize (if byWeight = true then weightShare groups winner else plurality winner total) =
      confidence
    -- what is enough for the stricter rules is enough for the others
    by_cases henough : Scale.atMost strict.minConfidence confidence = true
    · rw [if_pos henough, if_pos (hconfidence _ henough)]
    · rw [if_neg henough]
      split
      · exact Nat.zero_le _
      · exact le_rfl

/-- A ranking does not depend on the group that turns out to be in front. -/
theorem decisionFor_ranked_congr (rules : Rules α) (byWeight : Bool) (groups : List (Group α))
    (firstKey : String) (winner winner' : Group α) (total : Nat) :
    (decisionFor rules byWeight groups firstKey winner total).ranked =
      (decisionFor rules byWeight groups firstKey winner' total).ranked := by
  unfold decisionFor
  cases rules.algorithm <;> rfl

/-! ### Verdicts -/

/-- Two verdicts that differ by what a threshold may gate. -/
structure GatedVerdict (loose strict : Verdict α) : Prop where
  agree : Agree loose strict
  confidence : strict.confidence = loose.confidence
  reached : strict.reached = true → loose.reached = true
  escalation : NoLessUrgent loose.escalation strict.escalation

theorem noData_gated (h : Stricter loose strict) : GatedVerdict (noData loose) (noData strict) := by
  refine ⟨⟨rfl, rfl, rfl, rfl⟩, rfl, id, ?_⟩
  unfold noData
  rw [h.algorithm]
  dsimp only
  split
  · exact .some le_rfl
  · exact .none

theorem evaluateBallots_gated (hgauges : Gauges α) (h : Stricter loose strict)
    (ballots : List (Ballot α)) (weights : List (String × α)) :
    GatedVerdict (evaluateBallots ballots weights loose)
      (evaluateBallots ballots weights strict) := by
  by_cases hvotes : ballots = []
  · subst hvotes
    rw [evaluateBallots_nil, evaluateBallots_nil]
    exact noData_gated h
  · obtain ⟨first, decision, winner, rest, hfirst, hdecision, hranked, hloose⟩ :=
      evaluateBallots_of_votes weights loose hvotes
    obtain ⟨first', decision', winner', rest', hfirst', hdecision', hranked', hstrict⟩ :=
      evaluateBallots_of_votes weights strict hvotes
    -- the same vote came first, and the same group is in front
    obtain rfl : first = first' := Option.some.inj (hfirst.symm.trans hfirst')
    have hwinner : winner ∈ groupsOf weights (counted ballots) :=
      (decideGroups_ranked_perm hdecision).mem_iff.mp (hranked ▸ List.mem_cons_self)
    have hall : (groupsOf weights (counted ballots)).length = 1 →
        winner.count = (counted ballots).length := fun hsingle => by
      rw [(counted_perm ballots).length_eq, count_eq_support hwinner]
      exact (length_groupsOf_eq_one_iff hwinner).mp hsingle
    obtain rfl := decideGroups_eq_decisionFor hdecision hranked
    obtain rfl := decideGroups_eq_decisionFor hdecision' hranked'
    have hgated := decisionFor_gated hgauges h (!weights.isEmpty) first.value.canonicalKey hall
    have hfront : winner' = winner := by
      rw [decisionFor_ranked_congr strict _ _ _ winner' winner, hgated.ranked, hranked] at hranked'
      exact (List.cons.inj hranked').1.symm
    subst hfront
    rw [hloose, hstrict]
    constructor
    · exact ⟨rfl, rfl, congrArg (List.map Group.tally) hgated.ranked.symm, rfl⟩
    · exact congrArg floored hgated.confidence
    · exact hgated.reached
    · exact hgated.escalation

theorem evaluateBallots_escalates (ballots : List (Ballot α)) (weights : List (String × α))
    {rules : Rules α} (hrules : rules.algorithm = .humanReview) :
    (evaluateBallots ballots weights rules).escalation.isSome = true := by
  by_cases hvotes : ballots = []
  · subst hvotes
    rw [evaluateBallots_nil, noData, hrules]
    rfl
  · obtain ⟨firstKey, winner, rest, -, -, -, hverdict⟩ :=
      evaluateBallots_decided weights rules hvotes
    rw [hverdict]
    simp only [decisionFor, hrules, humanReview, Option.isSome_some]

end Decisions

/-- **Thresholds only gate.**  Whatever the results and the weights, rules with higher
    thresholds come to the same result with the same confidence, votes, tally and dissenters.
    What is reached under them is reached under the others, and a review, which always
    escalates, is no less urgent. -/
theorem evaluate_stricter (results : List AgentResult) (weights : List (String × Float))
    {loose strict : VotingRules} (h : Stricter loose strict) :
    GatedVerdict (evaluate results weights loose) (evaluate results weights strict) ∧
      (loose.algorithm = .humanReview →
        (evaluate results weights loose).escalation.isSome = true ∧
          (evaluate results weights strict).escalation.isSome = true) := by
  refine ⟨evaluateBallots_gated gauges_float h _ weights, ?_⟩
  intro hreview
  exact ⟨evaluateBallots_escalates _ weights hreview,
    evaluateBallots_escalates _ weights (h.algorithm.trans hreview)⟩

/-- Two agents agree, and three votes are asked for instead of one: unanimity is not reached
    any more, and is as sure as before. -/
theorem evaluate_unanimous_stricter :
    let loose : VotingRules := { VotingRules.default with algorithm := .unanimous }
    let strict : VotingRules := { loose with minVotes := 3, minConfidence := 0.75 }
    let results := [answered "a" "x" 1, answered "b" "x" 2]
    Stricter loose strict ∧
      GatedVerdict (evaluate results [] loose) (evaluate results [] strict) := by
  intro loose strict results
  have hstricter : Stricter loose strict := ⟨rfl, rfl, rfl, by decide, by decide⟩
  exact ⟨hstricter, (evaluate_stricter results [] hstricter).1⟩

end Consensus

end Quorum

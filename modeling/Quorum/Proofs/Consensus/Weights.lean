/-
  Quorum/Proofs/Consensus/Weights.lean
  ====================================
  **What a verdict takes from a map of weights.**

  A map of weights counts through the weights it gives to the votes (`evaluateBallots_weights`),
  and a review asks besides whether there is a map at all.  So where a map agrees with the
  weights that are recorded with the results, the results alone tell the verdict
  (`evaluate_recounted`).
-/
import Quorum.Proofs.Consensus.Groups

namespace Quorum.Consensus

/-! ### Maps that give the same weights -/

section Maps

variable {α : Type} [Scale α] {given given' : List (String × α)} {ballots : List (Ballot α)}

theorem weightSum_congr (h : ∀ b ∈ ballots, ballotWeight given b = ballotWeight given' b) :
    weightSum given ballots = weightSum given' ballots := by
  unfold weightSum
  apply List.foldl_ext
  intro sum b hb
  rw [h b hb]

theorem groupsOf_congr (h : ∀ b ∈ ballots, ballotWeight given b = ballotWeight given' b) :
    groupsOf given ballots = groupsOf given' ballots := by
  unfold groupsOf
  apply List.map_congr_left
  intro key _
  unfold groupOf
  -- only the scores look at the weights
  dsimp only
  congr 1
  apply weightSum_congr
  intro b hb
  obtain ⟨pair, hpair, rfl⟩ := List.mem_map.mp hb
  obtain ⟨c, hc, rfl⟩ := List.mem_map.mp (List.mem_filter.mp hpair).1
  exact h c hc

theorem decideGroups_byWeight {rules : Rules α}
    (hrules : rules.algorithm ≠ .humanReview) (byWeight byWeight' : Bool)
    (groups : List (Group α)) (key : String) (total : Nat) :
    decideGroups rules byWeight groups key total =
      decideGroups rules byWeight' groups key total := by
  cases halgorithm : rules.algorithm with
  | humanReview => exact absurd halgorithm hrules
  | majority => simp only [decideGroups, halgorithm]
  | unanimous => simp only [decideGroups, halgorithm]
  | weighted => simp only [decideGroups, halgorithm]
  | firstWins => simp only [decideGroups, halgorithm]

/-- Two maps that give the same weights to the votes give the same verdict; for a review both
    have to be there, or neither. -/
theorem evaluateBallots_weights {rules : Rules α}
    (hweights : ∀ b ∈ ballots, ballotWeight given b = ballotWeight given' b)
    (hreview : rules.algorithm = .humanReview → given.isEmpty = given'.isEmpty) :
    evaluateBallots ballots given rules = evaluateBallots ballots given' rules := by
  have hgroups : groupsOf given (ballots.mergeSort ballotOrder) =
      groupsOf given' (ballots.mergeSort ballotOrder) := by
    apply groupsOf_congr
    intro b hb
    exact hweights b (List.mem_mergeSort.mp hb)
  unfold evaluateBallots
  dsimp only
  rw [hgroups]
  by_cases hrules : rules.algorithm = .humanReview
  · rw [hreview hrules]
  · simp only [decideGroups_byWeight hrules (!given.isEmpty) (!given'.isEmpty)]

end Maps

/-! ### Recorded weights -/

/-- The weights that are recorded with some results. -/
def recordedWeights (results : List AgentResult) : List (String × Float) :=
  results.map fun r => (r.agentName, r.weight)

variable {results : List AgentResult} {given : List (String × Float)}

/-- Where a map agrees with what is recorded, so do the recorded weights as a map. -/
theorem recordedWeights_lookup
    (hgiven : ∀ r ∈ results, given.lookup r.agentName = some r.weight) {r : AgentResult}
    (hr : r ∈ results) : (recordedWeights results).lookup r.agentName = some r.weight := by
  cases hlookup : (recordedWeights results).lookup r.agentName with
  | none =>
    have hmissing := List.lookup_eq_none_iff.mp hlookup (r.agentName, r.weight)
      (List.mem_map_of_mem hr)
    simp at hmissing
  | some w =>
    obtain ⟨before, after, hsplit, -⟩ := List.lookup_eq_some_iff.mp hlookup
    have hmem : (r.agentName, w) ∈ recordedWeights results := by
      rw [hsplit]
      simp
    obtain ⟨other, hother, hsame⟩ := List.mem_map.mp hmem
    obtain ⟨hname, rfl⟩ := Prod.mk.inj hsame
    rw [← hgiven r hr, ← hname, hgiven other hother]

/-- A map that agrees with the recorded weights gives no other verdict than the results do by
    themselves; a review has to be given the recorded weights as a map. -/
theorem evaluate_recounted (rules : VotingRules)
    (hgiven : ∀ r ∈ results, given.lookup r.agentName = some r.weight) :
    (rules.algorithm ≠ .humanReview → evaluate results [] rules = evaluate results given rules) ∧
    evaluate results (recordedWeights results) rules = evaluate results given rules := by
  -- the weight of each vote, from the map and from its result
  have hballot : ∀ b ∈ results.filterMap AgentResult.ballot?,
      ballotWeight given b = b.weight ∧ ballotWeight (recordedWeights results) b = b.weight := by
    intro b hb
    rw [ballots_eq_map, List.mem_map] at hb
    obtain ⟨r, hr, rfl⟩ := hb
    have hmem := (List.mem_filter.mp hr).1
    constructor
    · simp [ballotWeight, AgentResult.ballot, hgiven r hmem]
    · simp [ballotWeight, AgentResult.ballot, recordedWeights_lookup hgiven hmem]
  constructor
  · intro hrules
    apply evaluateBallots_weights
    · intro b hb
      rw [(hballot b hb).1]
      rfl
    · intro hreview
      exact absurd hreview hrules
  · cases results with
    | nil =>
      have hnobody : ([] : List AgentResult).filterMap AgentResult.ballot? = [] := rfl
      rw [evaluate, evaluate, hnobody, evaluateBallots_nil, evaluateBallots_nil]
    | cons r rest =>
      apply evaluateBallots_weights
      · intro b hb
        rw [(hballot b hb).1, (hballot b hb).2]
      · intro _
        cases given with
        | nil => cases hgiven r List.mem_cons_self
        | cons _ _ => rfl

end Quorum.Consensus

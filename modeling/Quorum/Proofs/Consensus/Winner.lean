/-
  Quorum/Proofs/Consensus/Winner.lean
  ===================================
  **Which value wins, and what it does not depend on.**

  The value of a verdict is the value of one of its votes (`evaluate_result`).  When the
  first success wins, it is the value of the vote that arrived first, and nothing else about
  the votes counts (`firstWins_verdict`).  Under every other voting rule the times at which
  votes arrive have no influence: once the votes are in counting order, they can be taken
  away (`evaluate_untimed`).
-/
import Quorum.Proofs.Consensus.Groups

namespace Quorum

namespace Consensus

variable {α : Type}

/-! ### The winning value -/

section Value

variable [Scale α] {ballots : List (Ballot α)}

/-- The value of a group is the value of one of its votes. -/
theorem exists_ballot_of_group {weights : List (String × α)} {g : Group α}
    (hg : g ∈ groupsOf weights ballots) : ∃ b ∈ ballots, g.value = b.value := by
  rw [groupsOf_eq, List.mem_map] at hg
  obtain ⟨key, hkey, rfl⟩ := hg
  obtain ⟨b, hb, hbkey⟩ := mem_votedKeys.mp hkey
  have hsupporter : b ∈ supporters ballots key := mem_supporters.mpr ⟨hb, hbkey⟩
  cases hvotes : supporters ballots key with
  | nil =>
    rw [hvotes] at hsupporter
    cases hsupporter
  | cons first rest =>
    have hfirst : first ∈ supporters ballots key := by rw [hvotes]; exact List.mem_cons_self
    exact ⟨first, (mem_supporters.mp hfirst).1, by simp [groupUnder, hvotes]⟩

theorem evaluateBallots_result (weights : List (String × α)) (rules : Rules α)
    (hvotes : ballots ≠ []) :
    ∃ b ∈ ballots, (evaluateBallots ballots weights rules).result = b.value := by
  obtain ⟨first, decision, winner, rest, -, hdecision, hranked, hverdict⟩ :=
    evaluateBallots_of_votes weights rules hvotes
  have hwinner : winner ∈ decision.ranked := by
    rw [hranked]
    exact List.mem_cons_self
  obtain ⟨b, hb, hvalue⟩ :=
    exists_ballot_of_group ((decideGroups_ranked_perm hdecision).mem_iff.mp hwinner)
  exact ⟨b, (counted_perm ballots).mem_iff.mp hb, by rw [hverdict]; exact hvalue⟩

end Value

theorem mem_ballots {results : List AgentResult} {b : Ballot Float} :
    b ∈ results.filterMap AgentResult.ballot? ↔
      ∃ r ∈ results, r.succeeded = true ∧ r.ballot = b := by
  rw [ballots_eq_map, List.mem_map]
  simp only [List.mem_filter, and_assoc]

theorem evaluate_of_no_success {results : List AgentResult}
    (hfailed : ∀ r ∈ results, r.succeeded = false) (weights : List (String × Float))
    (rules : VotingRules) : evaluate results weights rules = noData rules := by
  have hvotes : results.filterMap AgentResult.ballot? = [] := by
    rw [ballots_eq_map, List.map_eq_nil_iff, List.filter_eq_nil_iff]
    simpa using hfailed
  rw [evaluate, hvotes, evaluateBallots_nil]

/-- A verdict names the output of a success, if there is one. -/
theorem evaluate_result {results : List AgentResult} {r : AgentResult} (hr : r ∈ results)
    (hsucceeded : r.succeeded = true) (weights : List (String × Float)) (rules : VotingRules) :
    ∃ s ∈ results, s.succeeded = true ∧ (evaluate results weights rules).result = s.output := by
  have hvotes : results.filterMap AgentResult.ballot? ≠ [] :=
    List.ne_nil_of_mem (mem_ballots.mpr ⟨r, hr, hsucceeded, rfl⟩)
  obtain ⟨b, hb, hvalue⟩ := evaluateBallots_result weights rules hvotes
  obtain ⟨s, hs, hsucceeded, rfl⟩ := mem_ballots.mp hb
  exact ⟨s, hs, hsucceeded, hvalue⟩

/-! ### The vote that arrived first -/

theorem arrivalOrder_iff (a b : Ballot α) :
    arrivalOrder a b = true ↔
      a.completedAt < b.completedAt ∨ (a.completedAt = b.completedAt ∧ a.agent ≤ b.agent) := by
  simp only [arrivalOrder, Bool.or_eq_true, Bool.and_eq_true, decide_eq_true_eq, beq_iff_eq]

theorem arrivalOrder_trans (a b c : Ballot α) (hab : arrivalOrder a b) (hbc : arrivalOrder b c) :
    arrivalOrder a c := by
  rw [arrivalOrder_iff] at hab hbc ⊢
  rcases hab with hab | ⟨hab, hagents⟩ <;> rcases hbc with hbc | ⟨hbc, hagents'⟩
  · exact Or.inl (hab.trans hbc)
  · exact Or.inl (hbc ▸ hab)
  · exact Or.inl (hab ▸ hbc)
  · exact Or.inr ⟨hab.trans hbc, hagents.trans hagents'⟩

theorem arrivalOrder_total (a b : Ballot α) : arrivalOrder a b || arrivalOrder b a := by
  rw [Bool.or_eq_true, arrivalOrder_iff, arrivalOrder_iff]
  rcases lt_trichotomy a.completedAt b.completedAt with h | h | h
  · exact Or.inl (Or.inl h)
  · rcases le_total a.agent b.agent with hagents | hagents
    · exact Or.inl (Or.inr ⟨h, hagents⟩)
    · exact Or.inr (Or.inr ⟨h.symm, hagents⟩)
  · exact Or.inr (Or.inl h)

/-- The vote that arrived first is one of the votes, and none arrived before it. -/
theorem firstArrival_spec {ballots : List (Ballot α)} {first : Ballot α}
    (hfirst : (ballots.mergeSort arrivalOrder).head? = some first) :
    first ∈ ballots ∧ ∀ b ∈ ballots, first.completedAt ≤ b.completedAt := by
  have hsorted := List.pairwise_mergeSort arrivalOrder_trans arrivalOrder_total ballots
  obtain ⟨rest, hcons⟩ := List.head?_eq_some_iff.mp hfirst
  have hmem : ∀ b, b ∈ ballots ↔ b ∈ first :: rest := fun b => by
    rw [← hcons, List.mem_mergeSort]
  rw [hcons, List.pairwise_cons] at hsorted
  constructor
  · exact (hmem first).mpr List.mem_cons_self
  · intro b hb
    rcases List.mem_cons.mp ((hmem b).mp hb) with rfl | hb
    · exact le_refl _
    · rcases (arrivalOrder_iff _ _).mp (hsorted.1 b hb) with h | ⟨h, -⟩
      · exact h.le
      · exact h.le

/-- When the first success wins and one vote arrived before all others, its value is the
    result, whatever the thresholds. -/
theorem firstWins_verdict [Scale α] {weights : List (String × α)} {rules : Rules α}
    {ballots : List (Ballot α)} (hrules : rules.algorithm = .firstWins) {first : Ballot α}
    (hfirst : first ∈ ballots)
    (halone : ∀ b ∈ ballots, b.completedAt ≤ first.completedAt → b = first) :
    let verdict := evaluateBallots ballots weights rules
    verdict.result.canonicalKey = first.value.canonicalKey ∧ verdict.reached = true ∧
      verdict.confidence = floored (capped Scale.one) ∧ verdict.noData = false := by
  obtain ⟨arrival, decision, winner, rest, harrival, hdecision, hranked, hverdict⟩ :=
    evaluateBallots_of_votes weights rules (List.ne_nil_of_mem hfirst)
  have hcounted : ∀ b, b ∈ counted ballots ↔ b ∈ ballots := fun b =>
    (counted_perm ballots).mem_iff
  obtain ⟨hmem, hearliest⟩ := firstArrival_spec harrival
  have heq : arrival = first :=
    halone arrival ((hcounted _).mp hmem) (hearliest first ((hcounted _).mpr hfirst))
  subst heq
  simp only [decideGroups, hrules, Option.some.injEq] at hdecision
  subst hdecision
  -- the group of the first vote is there, so it stands in front of the ranking
  obtain ⟨g, hg, hkey⟩ := exists_group weights (counted ballots) hmem
  have hgroup : g ∈ (groupsOf weights (counted ballots)).filter
      fun g => g.key == arrival.value.canonicalKey := by
    rw [List.mem_filter, beq_iff_eq]
    exact ⟨hg, hkey⟩
  obtain ⟨w, others, hfilter⟩ := List.exists_cons_of_ne_nil (List.ne_nil_of_mem hgroup)
  have hw : w ∈ (groupsOf weights (counted ballots)).filter
      fun g => g.key == arrival.value.canonicalKey := by
    rw [hfilter]
    exact List.mem_cons_self
  rw [firstWins, hfilter, List.cons_append, List.cons.injEq] at hranked
  obtain ⟨rfl, -⟩ := hranked
  rw [List.mem_filter, beq_iff_eq] at hw
  have hvotes : (counted ballots).length ≠ 0 := by
    intro hnone
    rw [List.length_eq_zero_iff] at hnone
    rw [hnone] at hmem
    cases hmem
  rw [hverdict]
  refine ⟨?_, rfl, rfl, ?_⟩
  · exact (groupsOf_value weights (counted ballots) hw.1).trans hw.2
  · simpa [Verdict.noData] using hvotes

/-! ### Times of arrival -/

/-- A vote without the time at which it arrived. -/
def untimedBallot (b : Ballot α) : Ballot α := { b with completedAt := 0 }

theorem supporters_untimed (ballots : List (Ballot α)) (key : String) :
    supporters (ballots.map untimedBallot) key = (supporters ballots key).map untimedBallot := by
  rw [supporters, List.filter_map, supporters]
  rfl

theorem votedKeys_untimed (ballots : List (Ballot α)) :
    votedKeys (ballots.map untimedBallot) = votedKeys ballots := by
  simp only [votedKeys, keysOf, List.map_map]
  rfl

/-- Votes of different agents in order of names are in counting order. -/
theorem counted_of_ascending {ballots : List (Ballot α)}
    (hnames : (ballots.map Ballot.agent).Pairwise (· < ·)) : counted ballots = ballots := by
  refine List.mergeSort_of_pairwise ?_
  rw [List.pairwise_map] at hnames
  refine hnames.imp fun h => ?_
  rw [ballotOrder_iff]
  exact Or.inl h

section Untimed

variable [Scale α] (weights : List (String × α)) (ballots : List (Ballot α))

theorem groupUnder_untimed (key : String) :
    groupUnder weights (ballots.map untimedBallot) key = groupUnder weights ballots key := by
  simp only [groupUnder, supporters_untimed, weightSum, List.foldl_map, List.map_map,
    List.head?_map, Option.map_map]
  rfl

theorem groupsOf_untimed :
    groupsOf weights (ballots.map untimedBallot) = groupsOf weights ballots := by
  rw [groupsOf_eq, groupsOf_eq, votedKeys_untimed]
  exact List.map_congr_left fun key _ => groupUnder_untimed weights ballots key

/-- Only the rule of the first success asks which vote arrived first. -/
theorem decideGroups_firstKey {rules : Rules α} (hrules : rules.algorithm ≠ .firstWins)
    (byWeight : Bool) (groups : List (Group α)) (key key' : String) (total : Nat) :
    decideGroups rules byWeight groups key total =
      decideGroups rules byWeight groups key' total := by
  cases halgorithm : rules.algorithm with
  | firstWins => exact absurd halgorithm hrules
  | majority => simp only [decideGroups, halgorithm]
  | unanimous => simp only [decideGroups, halgorithm]
  | weighted => simp only [decideGroups, halgorithm]
  | humanReview => simp only [decideGroups, halgorithm]

theorem evaluateBallots_untimed {rules : Rules α} (hrules : rules.algorithm ≠ .firstWins)
    {ballots : List (Ballot α)} (hnames : (ballots.map Ballot.agent).Pairwise (· < ·)) :
    evaluateBallots (ballots.map untimedBallot) weights rules =
      evaluateBallots ballots weights rules := by
  have hcounted := counted_of_ascending hnames
  have hcounted' : counted (ballots.map untimedBallot) = ballots.map untimedBallot := by
    refine counted_of_ascending ?_
    rwa [List.map_map]
  by_cases hvotes : ballots = []
  · subst hvotes
    rfl
  · obtain ⟨first, decision, winner, rest, -, hdecision, hranked, hverdict⟩ :=
      evaluateBallots_of_votes weights rules hvotes
    have hvotes' : ballots.map untimedBallot ≠ [] := by simpa using hvotes
    obtain ⟨first', decision', winner', rest', -, hdecision', hranked', hverdict'⟩ :=
      evaluateBallots_of_votes weights rules hvotes'
    rw [hcounted', groupsOf_untimed, List.length_map] at hdecision' hverdict'
    rw [hcounted] at hdecision hverdict
    rw [decideGroups_firstKey hrules _ _ _ first.value.canonicalKey, hdecision] at hdecision'
    obtain rfl := Option.some.inj hdecision'
    rw [hranked, List.cons.injEq] at hranked'
    obtain ⟨rfl, -⟩ := hranked'
    rw [hverdict, hverdict']

end Untimed

end Consensus

/-! ### Results without times -/

/-- A result without its times: what an agent came to, not when. -/
def AgentResult.untimed (r : AgentResult) : AgentResult :=
  { r with latencyMs := 0.0, startedAt := ⟨0, some 0⟩, completedAt := ⟨0, some 0⟩ }

theorem Consensus.ballots_untimed (results : List AgentResult) :
    (results.map AgentResult.untimed).filterMap AgentResult.ballot? =
      (results.filterMap AgentResult.ballot?).map untimedBallot := by
  rw [ballots_eq_map, ballots_eq_map, List.filter_map, List.map_map, List.map_map]
  rfl

/-- The verdict on results in order of names does not depend on their times, unless the
    first success wins. -/
theorem Consensus.evaluate_untimed {results : List AgentResult} {rules : VotingRules}
    (hrules : rules.algorithm ≠ .firstWins)
    (hnames : (results.map AgentResult.agentName).Pairwise (· < ·))
    (weights : List (String × Float)) :
    evaluate (results.map AgentResult.untimed) weights rules =
      evaluate results weights rules := by
  have hvoters : ((results.filterMap AgentResult.ballot?).map Ballot.agent).Pairwise (· < ·) := by
    rw [ballots_eq_map, List.map_map]
    exact hnames.sublist (List.filter_sublist.map AgentResult.agentName)
  rw [evaluate, ballots_untimed, evaluateBallots_untimed weights hrules hvoters, evaluate]

end Quorum

/-
  Quorum/Proofs/Consensus/Ballots.lean
  ====================================
  **A verdict depends on the votes and on nothing else.**

  Votes are put in counting order before anything is done with them.  Two votes that stand
  for each other in that order have the same agent and the same time of completion, and a
  tier has no two such votes, since its agents have different names.  So the order in which
  results arrive leaves no trace, and failed results have no vote
  (`evaluate_eq_of_sameVotes`).
-/
import Quorum.Consensus.Evaluation
import Quorum.Proofs.Order

namespace Quorum

/-! ### The votes of a list of results -/

/-- The vote a result has if it is a success. -/
def AgentResult.ballot (r : AgentResult) : Ballot Float :=
  ⟨r.agentName, r.completedAt.micros, r.output, r.weight⟩

namespace Consensus

/-- Voters are the successful results, in the order in which they stand. -/
theorem ballots_eq_map (results : List AgentResult) :
    results.filterMap AgentResult.ballot? =
      (results.filter AgentResult.succeeded).map AgentResult.ballot := by
  induction results with
  | nil => rfl
  | cons r rest ih =>
    by_cases hr : r.succeeded = true
    · have hballot : r.ballot? = some r.ballot := by
        simp only [AgentResult.ballot?, if_pos hr, AgentResult.ballot]
      rw [List.filterMap_cons_some hballot, List.filter_cons_of_pos hr, List.map_cons, ih]
    · have hballot : r.ballot? = none := by simp only [AgentResult.ballot?, if_neg hr]
      rw [List.filterMap_cons_none hballot, List.filter_cons_of_neg hr, ih]

/-- No two successes come from the same agent at the same time. -/
def DistinctVotes (results : List AgentResult) : Prop :=
  ((results.filter AgentResult.succeeded).map fun r => (r.agentName, r.completedAt.micros)).Nodup

instance (results : List AgentResult) : Decidable (DistinctVotes results) :=
  inferInstanceAs (Decidable (List.Nodup _))

/-- Two lists of results hold the same successes, in whatever order and among whatever
    failures. -/
def SameVotes (results results' : List AgentResult) : Prop :=
  (results.filter AgentResult.succeeded).Perm (results'.filter AgentResult.succeeded)

theorem SameVotes.of_perm {results results' : List AgentResult} (h : results.Perm results') :
    SameVotes results results' :=
  h.filter _

theorem SameVotes.trans {first second third : List AgentResult} (h : SameVotes first second)
    (h' : SameVotes second third) : SameVotes first third :=
  List.Perm.trans h h'

/-- A failed result may stand anywhere, or be left out. -/
theorem SameVotes.insert_failure {r : AgentResult} (hr : r.succeeded = false)
    (before after : List AgentResult) : SameVotes (before ++ after) (before ++ r :: after) := by
  have hskip : (r :: after).filter AgentResult.succeeded = after.filter AgentResult.succeeded :=
    List.filter_cons_of_neg (by simp [hr])
  unfold SameVotes
  rw [List.filter_append, List.filter_append, hskip]

/-! ### Counting order -/

section CountingOrder

variable {α : Type}

theorem ballotOrder_iff (a b : Ballot α) :
    ballotOrder a b = true ↔
      a.agent < b.agent ∨ (a.agent = b.agent ∧ a.completedAt ≤ b.completedAt) := by
  simp only [ballotOrder, Bool.or_eq_true, Bool.and_eq_true, decide_eq_true_eq, beq_iff_eq]

theorem ballotOrder_trans (a b c : Ballot α) (hab : ballotOrder a b) (hbc : ballotOrder b c) :
    ballotOrder a c := by
  rw [ballotOrder_iff] at hab hbc ⊢
  rcases hab with hab | ⟨hab, htimes⟩
  · rcases hbc with hbc | ⟨hbc, -⟩
    · exact Or.inl (hab.trans hbc)
    · exact Or.inl (hbc ▸ hab)
  · rcases hbc with hbc | ⟨hbc, htimes'⟩
    · exact Or.inl (hab ▸ hbc)
    · exact Or.inr ⟨hab.trans hbc, htimes.trans htimes'⟩

theorem ballotOrder_total (a b : Ballot α) : ballotOrder a b || ballotOrder b a := by
  rw [Bool.or_eq_true, ballotOrder_iff, ballotOrder_iff]
  rcases lt_trichotomy a.agent b.agent with hlt | heq | hgt
  · exact Or.inl (Or.inl hlt)
  · rcases Int.le_total a.completedAt b.completedAt with hle | hle
    · exact Or.inl (Or.inr ⟨heq, hle⟩)
    · exact Or.inr (Or.inr ⟨heq.symm, hle⟩)
  · exact Or.inr (Or.inl hgt)

/-- Votes that stand for each other come from one agent at one time. -/
theorem ballotOrder_antisymm {a b : Ballot α} (hab : ballotOrder a b) (hba : ballotOrder b a) :
    a.agent = b.agent ∧ a.completedAt = b.completedAt := by
  rw [ballotOrder_iff] at hab hba
  rcases hab with hab | ⟨heq, hle⟩
  · rcases hba with hba | ⟨heq, -⟩
    · exact absurd hba hab.not_gt
    · exact absurd heq hab.ne'
  · rcases hba with hba | ⟨-, hge⟩
    · exact absurd heq hba.ne'
    · exact ⟨heq, Int.le_antisymm hle hge⟩

/-- The votes in the order in which they are counted. -/
def counted (ballots : List (Ballot α)) : List (Ballot α) := ballots.mergeSort ballotOrder

theorem counted_perm (ballots : List (Ballot α)) : (counted ballots).Perm ballots :=
  List.mergeSort_perm ballots ballotOrder

/-- Votes that differ in agent or time are counted in one order, however they came in. -/
theorem counted_eq_of_perm {ballots ballots' : List (Ballot α)}
    (hapart : ∀ a ∈ ballots, ∀ b ∈ ballots,
      a.agent = b.agent → a.completedAt = b.completedAt → a = b)
    (hperm : ballots.Perm ballots') : counted ballots = counted ballots' := by
  refine Order.mergeSort_eq_of_perm ballotOrder_trans ballotOrder_total ?_ hperm
  intro a ha b hb hab hba
  obtain ⟨hagent, htime⟩ := ballotOrder_antisymm hab hba
  exact hapart a ha b hb hagent htime

/-- A verdict looks at the counted votes only. -/
theorem evaluateBallots_congr [Scale α] {ballots ballots' : List (Ballot α)}
    (hcounted : counted ballots = counted ballots') (weights : List (String × α))
    (rules : Rules α) :
    evaluateBallots ballots weights rules = evaluateBallots ballots' weights rules := by
  unfold counted at hcounted
  unfold evaluateBallots
  rw [hcounted]

end CountingOrder

/-! ### Verdicts on the same votes -/

theorem DistinctVotes.eq_of_ballots {results : List AgentResult} (h : DistinctVotes results)
    {a b : Ballot Float} (ha : a ∈ results.filterMap AgentResult.ballot?)
    (hb : b ∈ results.filterMap AgentResult.ballot?) (hagent : a.agent = b.agent)
    (htime : a.completedAt = b.completedAt) : a = b := by
  rw [ballots_eq_map, List.mem_map] at ha hb
  obtain ⟨r, hr, rfl⟩ := ha
  obtain ⟨s, hs, rfl⟩ := hb
  have hsame : r = s := List.inj_on_of_nodup_map h hr hs (Prod.ext hagent htime)
  rw [hsame]

/-- **Order and failures leave no trace.**  Results in any order, with any failed results
    put in or taken out anywhere, get one and the same verdict under all five voting rules:
    value, confidence, votes, tally rows with their order and scores, dissenters and
    escalation. -/
theorem evaluate_eq_of_sameVotes {results results' : List AgentResult}
    (hdistinct : DistinctVotes results) (hsame : SameVotes results results')
    (weights : List (String × Float)) (rules : VotingRules) :
    evaluate results weights rules = evaluate results' weights rules := by
  have hballots : (results.filterMap AgentResult.ballot?).Perm
      (results'.filterMap AgentResult.ballot?) := by
    rw [ballots_eq_map, ballots_eq_map]
    exact hsame.map _
  refine evaluateBallots_congr (counted_eq_of_perm ?_ hballots) weights rules
  intro a ha b hb
  exact hdistinct.eq_of_ballots ha hb

/-- An agent's answer at a time. -/
def answered (agent answer : String) (micros : Int) : AgentResult :=
  ⟨agent, 1, .text answer, 1.0, 0.0, ⟨0, some 0⟩, ⟨micros, some 0⟩, none, none⟩

/-- An agent's failure. -/
def unanswered (agent : String) : AgentResult :=
  ⟨agent, 1, .null, 1.0, 0.0, ⟨0, some 0⟩, ⟨9, some 0⟩, some "timed out", some .timeout⟩

/-- One agent answers twice, another once; the answers are swapped and a failure comes
    between them. -/
theorem evaluate_swapped_answers_with_failure :
    DistinctVotes [answered "a" "x" 1, answered "a" "y" 2, answered "b" "y" 1] ∧
      SameVotes [answered "a" "x" 1, answered "a" "y" 2, answered "b" "y" 1]
        [answered "a" "y" 2, unanswered "c", answered "a" "x" 1, answered "b" "y" 1] ∧
      evaluate [answered "a" "x" 1, answered "a" "y" 2, answered "b" "y" 1] [("b", 0.5)]
          { VotingRules.default with algorithm := .firstWins } =
        evaluate [answered "a" "y" 2, unanswered "c", answered "a" "x" 1, answered "b" "y" 1]
          [("b", 0.5)] { VotingRules.default with algorithm := .firstWins } := by
  have hdistinct :
      DistinctVotes [answered "a" "x" 1, answered "a" "y" 2, answered "b" "y" 1] := by decide
  have hsame : SameVotes [answered "a" "x" 1, answered "a" "y" 2, answered "b" "y" 1]
      [answered "a" "y" 2, unanswered "c", answered "a" "x" 1, answered "b" "y" 1] :=
    (SameVotes.of_perm (List.Perm.swap _ _ _)).trans
      (SameVotes.insert_failure rfl [answered "a" "y" 2] [answered "a" "x" 1, answered "b" "y" 1])
  exact ⟨hdistinct, hsame, evaluate_eq_of_sameVotes hdistinct hsame _ _⟩

end Consensus

end Quorum

/-
  Quorum/Proofs/Consensus/Agreement.lean
  ======================================
  **Where the voting rules agree.**

  A verdict takes its result, tally and dissenters from the ranking that its rule makes of the
  groups, and nothing else of the rule shows in them (`agree_of_ranked`).  The majority rule
  and unanimity rank by number, a review ranks by weight if there are weights and by number
  otherwise, and a single group is ranked in one way only.  Unanimity asks for all votes, and
  all votes are more than half of them (`evaluate_agreement`).
-/
import Quorum.Proofs.Consensus.Majority

namespace Quorum.Consensus

/-! ### Verdicts that agree -/

/-- Two verdicts agree: they name one value, with the same votes behind every value. -/
structure Agree {α : Type} (v w : Verdict α) : Prop where
  result : v.result = w.result
  votes : v.votes = w.votes
  tally : v.tally = w.tally
  dissenters : v.dissenters = w.dissenters

/-- How the verdicts of the voting rules on the same votes agree. -/
structure RulesAgree {α : Type} (weights : List (String × α)) (verdict : Algorithm → Verdict α) :
    Prop where
  byNumber : Agree (verdict .majority) (verdict .unanimous)
  reached : (verdict .unanimous).reached = true → (verdict .majority).reached = true
  unreached : (verdict .humanReview).reached = false
  review_weights : weights ≠ [] → Agree (verdict .humanReview) (verdict .weighted) ∧
    (verdict .humanReview).confidence = (verdict .weighted).confidence
  review_number : weights = [] → Agree (verdict .humanReview) (verdict .majority) ∧
    (verdict .humanReview).confidence = (verdict .majority).confidence

section Ballots

variable {α : Type} [Scale α] {ballots : List (Ballot α)} {weights : List (String × α)}
  {rules rules' : Rules α} {ranking : List (Group α)}

/-- The rules rank the groups of the votes in a certain way, whichever vote came first. -/
def Ranks (ballots : List (Ballot α)) (weights : List (String × α)) (rules : Rules α)
    (ranking : List (Group α)) : Prop :=
  ∀ firstKey winner total, (decisionFor rules (!weights.isEmpty)
    (groupsOf weights (counted ballots)) firstKey winner total).ranked = ranking

/-- The verdict of rules that rank in a certain way. -/
theorem evaluateBallots_ranked (hvotes : ballots ≠ []) (h : Ranks ballots weights rules ranking) :
    ∃ firstKey winner rest, ranking = winner :: rest ∧
      winner ∈ groupsOf weights (counted ballots) ∧
      let decision := decisionFor rules (!weights.isEmpty) (groupsOf weights (counted ballots))
        firstKey winner ballots.length
      let verdict := evaluateBallots ballots weights rules
      verdict.result = winner.value ∧ verdict.votes = ballots.length ∧
        verdict.tally = ranking.map Group.tally ∧
        verdict.dissenters = dissentersOf (groupsOf weights (counted ballots)) winner ∧
        verdict.confidence = floored (capped decision.confidence) ∧
        verdict.reached = decision.reached := by
  obtain ⟨firstKey, winner, rest, hwinner, hranked, -, hverdict⟩ :=
    evaluateBallots_decided weights rules hvotes
  rw [h] at hranked
  refine ⟨firstKey, winner, rest, hranked, hwinner, ?_⟩
  rw [hverdict, h]
  exact ⟨rfl, rfl, rfl, rfl, rfl, rfl⟩

/-- Rules that rank alike agree, and if they are as confident of the group in front, their
    verdicts are. -/
theorem agree_of_ranked (h : Ranks ballots weights rules ranking)
    (h' : Ranks ballots weights rules' ranking) :
    Agree (evaluateBallots ballots weights rules) (evaluateBallots ballots weights rules') ∧
      ((∀ groups firstKey firstKey' winner total,
        (decisionFor rules (!weights.isEmpty) groups firstKey winner total).confidence =
          (decisionFor rules' (!weights.isEmpty) groups firstKey' winner total).confidence) →
        (evaluateBallots ballots weights rules).confidence =
          (evaluateBallots ballots weights rules').confidence) := by
  by_cases hvotes : ballots = []
  · subst hvotes
    rw [evaluateBallots_nil, evaluateBallots_nil]
    exact ⟨⟨rfl, rfl, rfl, rfl⟩, fun _ => rfl⟩
  · obtain ⟨firstKey, winner, rest, hranking, -, hresult, hcount, htally, hdissenters,
      hconfidence, -⟩ := evaluateBallots_ranked hvotes h
    obtain ⟨firstKey', winner', rest', hranking', -, hresult', hcount', htally', hdissenters',
      hconfidence', -⟩ := evaluateBallots_ranked hvotes h'
    have hsame : winner' = winner := by
      rw [hranking] at hranking'
      exact (List.cons.inj hranking').1.symm
    subst hsame
    constructor
    · constructor
      · rw [hresult, hresult']
      · rw [hcount, hcount']
      · rw [htally, htally']
      · rw [hdissenters, hdissenters']
    · intro hsame
      rw [hconfidence, hconfidence', hsame]

/-! ### Rankings of the rules -/

theorem ranks_of_countsVotes (hrules : CountsVotes rules) :
    Ranks ballots weights rules (byCount (groupsOf weights (counted ballots))) := by
  intro firstKey winner total
  exact decisionFor_ranked hrules _ _ _ _ _

theorem ranks_of_weighted (hrules : rules.algorithm = .weighted) :
    Ranks ballots weights rules (byScore (groupsOf weights (counted ballots))) := by
  intro firstKey winner total
  simp only [decisionFor, hrules, weighted]

theorem ranks_of_review (hrules : rules.algorithm = .humanReview) :
    Ranks ballots weights rules (if (!weights.isEmpty) = true
      then byScore (groupsOf weights (counted ballots))
      else byCount (groupsOf weights (counted ballots))) := by
  intro firstKey winner total
  simp only [decisionFor, hrules, humanReview]

theorem ranks_of_single {g : Group α} (hgroups : groupsOf weights (counted ballots) = [g])
    (rules : Rules α) : Ranks ballots weights rules [g] := by
  intro firstKey winner total
  rw [hgroups]
  apply List.perm_singleton.mp
  cases halgorithm : rules.algorithm with
  | majority =>
    simp only [decisionFor, halgorithm, majority]
    exact byCount_perm [g]
  | unanimous =>
    simp only [decisionFor, halgorithm, unanimous]
    exact byCount_perm [g]
  | weighted =>
    simp only [decisionFor, halgorithm, weighted]
    exact byScore_perm [g]
  | firstWins =>
    simp only [decisionFor, halgorithm]
    exact firstWins_ranked_perm [g] firstKey
  | humanReview =>
    simp only [decisionFor, halgorithm, humanReview]
    split
    · exact byScore_perm [g]
    · exact byCount_perm [g]

/-! ### The rules side by side -/

def ruledBy (rules : Rules α) (algorithm : Algorithm) : Rules α := { rules with algorithm := algorithm }

theorem majority_reached_of_unanimous
    (h : (evaluateBallots ballots weights (ruledBy rules .unanimous)).reached = true) :
    (evaluateBallots ballots weights (ruledBy rules .majority)).reached = true := by
  by_cases hvotes : ballots = []
  · subst hvotes
    rw [evaluateBallots_nil] at h
    exact absurd h Bool.false_ne_true
  · have hmajority : CountsVotes (ruledBy rules .majority) := Or.inl rfl
    have hunanimous : CountsVotes (ruledBy rules .unanimous) := Or.inr rfl
    have hagree : Agree (evaluateBallots ballots weights (ruledBy rules .majority))
        (evaluateBallots ballots weights (ruledBy rules .unanimous)) :=
      (agree_of_ranked (ranks_of_countsVotes hmajority) (ranks_of_countsVotes hunanimous)).1
    obtain ⟨hall, henough⟩ := (unanimous_reached_iff weights rfl hvotes).mp h
    have hsome := List.length_pos_of_ne_nil hvotes
    refine (majority_reached_iff weights rfl hvotes).mpr ⟨?_, henough⟩
    rw [hagree.result, hall]
    omega

theorem evaluateBallots_rulesAgree (ballots : List (Ballot α)) (weights : List (String × α))
    (rules : Rules α) : RulesAgree weights fun algorithm =>
      evaluateBallots ballots weights (ruledBy rules algorithm) := by
  have hmajority : CountsVotes (ruledBy rules .majority) := Or.inl rfl
  have hunanimous : CountsVotes (ruledBy rules .unanimous) := Or.inr rfl
  have hreview : (ruledBy rules .humanReview).algorithm = .humanReview := rfl
  have hweighted : (ruledBy rules .weighted).algorithm = .weighted := rfl
  constructor
  · exact (agree_of_ranked (ranks_of_countsVotes hmajority) (ranks_of_countsVotes hunanimous)).1
  · exact majority_reached_of_unanimous
  · by_cases hvotes : ballots = []
    · subst hvotes
      rw [evaluateBallots_nil]
      rfl
    · obtain ⟨firstKey, winner, rest, -, -, -, -, -, -, -, hreached⟩ :=
        evaluateBallots_ranked hvotes (ranks_of_review hreview)
      exact hreached
  · intro hsome
    have hbyWeight : (!weights.isEmpty) = true := by simpa using hsome
    have hranks : Ranks ballots weights (ruledBy rules .humanReview) _ := ranks_of_review hreview
    rw [if_pos hbyWeight] at hranks
    obtain ⟨hagree, hconfident⟩ := agree_of_ranked hranks (ranks_of_weighted hweighted)
    refine ⟨hagree, hconfident ?_⟩
    intro groups firstKey firstKey' winner total
    simp only [decisionFor, hreview, hweighted, humanReview, weighted, if_pos hbyWeight]
  · rintro rfl
    have hranks : Ranks ballots [] (ruledBy rules .humanReview) _ := ranks_of_review hreview
    rw [if_neg (by simp)] at hranks
    obtain ⟨hagree, hconfident⟩ := agree_of_ranked hranks (ranks_of_countsVotes hmajority)
    refine ⟨hagree, hconfident ?_⟩
    intro groups firstKey firstKey' winner total
    rfl

/-- Votes for one value get the same tally of one row under all rules. -/
theorem evaluateBallots_alike (weights : List (String × α))
    (halike : ∀ b ∈ ballots, ∀ c ∈ ballots, b.value.canonicalKey = c.value.canonicalKey)
    (rules rules' : Rules α) :
    Agree (evaluateBallots ballots weights rules) (evaluateBallots ballots weights rules') ∧
      (evaluateBallots ballots weights rules).dissenters = [] ∧
      (ballots ≠ [] → (evaluateBallots ballots weights rules).tally.length = 1) := by
  by_cases hvotes : ballots = []
  · subst hvotes
    rw [evaluateBallots_nil, evaluateBallots_nil]
    exact ⟨⟨rfl, rfl, rfl, rfl⟩, rfl, fun h => absurd rfl h⟩
  · obtain ⟨b, hb⟩ := List.exists_mem_of_ne_nil ballots hvotes
    obtain ⟨g, hg, hkey⟩ := exists_group weights _ ((counted_perm ballots).mem_iff.mpr hb)
    have hall : support (castOf ballots) g.key = ballots.length := by
      rw [← length_castOf, support_eq_length_iff]
      intro c hc
      obtain ⟨d, hd, rfl⟩ := List.mem_map.mp hc
      rw [hkey]
      exact halike d hd b hb
    obtain ⟨h, hsingle⟩ := List.length_eq_one_iff.mp ((length_groupsOf_eq_one_iff hg).mpr hall)
    have hranks := ranks_of_single hsingle rules
    obtain ⟨firstKey, winner, rest, hranking, -, -, -, htally, hdissenters, -⟩ :=
      evaluateBallots_ranked hvotes hranks
    refine ⟨(agree_of_ranked hranks (ranks_of_single hsingle rules')).1, ?_, ?_⟩
    · have hwinner : h = winner := (List.cons.inj hranking).1
      rw [hdissenters, hsingle, hwinner]
      simp [dissentersOf]
    · intro _
      rw [htally]
      rfl

end Ballots

/-- **The voting rules agree where they must.**  Whatever the results, the weights and the
    thresholds, majority and unanimity count alike, a review proposes what its rule of number
    or weight decides, and results that all say the same get one verdict from all rules. -/
theorem evaluate_agreement (results : List AgentResult) (weights : List (String × Float))
    (rules : VotingRules) :
    let verdict := fun algorithm => evaluate results weights (ruledBy rules algorithm)
    RulesAgree weights verdict ∧
      ((∀ r ∈ results, ∀ s ∈ results, r.succeeded = true → s.succeeded = true →
          r.output.canonicalKey = s.output.canonicalKey) →
        ∀ algorithm algorithm', Agree (verdict algorithm) (verdict algorithm') ∧
          (verdict algorithm).dissenters = [] ∧
          ((∃ r ∈ results, r.succeeded = true) → (verdict algorithm).tally.length = 1)) := by
  intro verdict
  constructor
  · exact evaluateBallots_rulesAgree _ weights rules
  · intro halike algorithm algorithm'
    have hballots : ∀ b ∈ results.filterMap AgentResult.ballot?,
        ∀ c ∈ results.filterMap AgentResult.ballot?,
          b.value.canonicalKey = c.value.canonicalKey := by
      intro b hb c hc
      obtain ⟨r, hr, hsucceeded, rfl⟩ := mem_ballots.mp hb
      obtain ⟨s, hs, hsucceeded', rfl⟩ := mem_ballots.mp hc
      exact halike r hr s hs hsucceeded hsucceeded'
    obtain ⟨hagree, hdissenters, hrow⟩ := evaluateBallots_alike weights hballots
      (ruledBy rules algorithm) (ruledBy rules algorithm')
    refine ⟨hagree, hdissenters, ?_⟩
    rintro ⟨r, hr, hsucceeded⟩
    exact hrow (List.ne_nil_of_mem (mem_ballots.mpr ⟨r, hr, hsucceeded, rfl⟩))

end Quorum.Consensus

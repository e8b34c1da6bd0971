/-
  Quorum/Proofs/Consensus/Weighted.lean
  =====================================
  **Verdicts by weight, in exact arithmetic.**

  The weight behind a key is summed over the votes that were cast for it.  Scores are sums
  over groups, and as every vote has one group, the scores of all groups sum up to the total
  weight (`sum_scores`).  No group weighs more than the winner, so the winner has at least
  its even share of the total and at most all of it (`share_bounds`), and the confidence of a
  verdict needs no clamp (`evaluateWith_weighted`).
-/
import Mathlib.Algebra.Order.BigOperators.Group.List
import Mathlib.Algebra.Order.Field.Basic
import Mathlib.Algebra.Order.Field.Rat
import Quorum.Proofs.Consensus.Exact
import Quorum.Proofs.Consensus.Ranked
import Quorum.Proofs.Consensus.Winner
import Quorum.Proofs.Value.Entries

namespace Quorum.Consensus

variable {weights : List (String × ℚ)} {ballots : List (Ballot ℚ)}

/-! ### Weights of votes -/

def totalWeight (weights : List (String × ℚ)) (ballots : List (Ballot ℚ)) : ℚ :=
  (ballots.map (ballotWeight weights)).sum

/-- The weight behind the value under a key. -/
def backing (weights : List (String × ℚ)) (ballots : List (Ballot ℚ)) (key : String) : ℚ :=
  totalWeight weights (supporters ballots key)

theorem weightSum_eq (weights : List (String × ℚ)) (ballots : List (Ballot ℚ)) :
    weightSum weights ballots = totalWeight weights ballots := by
  simp only [weightSum, Scale.add_rat, Scale.zero_rat]
  rw [totalWeight, List.sum_eq_foldl, List.foldl_map]

theorem totalWeight_perm {ballots ballots' : List (Ballot ℚ)} (h : ballots.Perm ballots') :
    totalWeight weights ballots = totalWeight weights ballots' :=
  (h.map _).sum_eq

theorem score_eq_backing {g : Group ℚ} (hg : g ∈ groupsOf weights (counted ballots)) :
    g.score = backing weights ballots g.key := by
  rw [groupsOf_eq, List.mem_map] at hg
  obtain ⟨key, -, rfl⟩ := hg
  have hscore : (groupUnder weights (counted ballots) key).score =
      weightSum weights (supporters (counted ballots) key) := rfl
  rw [hscore, weightSum_eq]
  exact totalWeight_perm ((counted_perm ballots).filter _)

theorem sum_scores (weights : List (String × ℚ)) (ballots : List (Ballot ℚ)) :
    ((groupsOf weights (counted ballots)).map Group.score).sum = totalWeight weights ballots := by
  have hsplit : ((votedKeys (counted ballots)).flatMap (supporters (counted ballots))).Perm
      (counted ballots) :=
    flatMap_filter_key_perm (fun b : Ballot ℚ => b.value.canonicalKey)
      ((votedKeys_ascending _).imp fun hlt => hlt.ne) _
      (fun b hb => mem_votedKeys.mpr ⟨b, hb, rfl⟩)
  have hscores : (groupsOf weights (counted ballots)).map Group.score =
      (votedKeys (counted ballots)).map fun key =>
        totalWeight weights (supporters (counted ballots) key) := by
    rw [groupsOf_eq, List.map_map]
    apply List.map_congr_left
    intro key _
    exact weightSum_eq weights _
  calc ((groupsOf weights (counted ballots)).map Group.score).sum
      = totalWeight weights ((votedKeys (counted ballots)).flatMap
          (supporters (counted ballots))) := by
        rw [hscores, totalWeight, List.flatMap_def, List.map_flatten, List.sum_flatten,
          List.map_map, List.map_map]
        rfl
    _ = totalWeight weights (counted ballots) := totalWeight_perm hsplit
    _ = totalWeight weights ballots := totalWeight_perm (counted_perm ballots)

/-! ### Rankings by weight -/

theorem byScore_ahead {groups : List (Group ℚ)} (hkeys : (groups.map Group.key).Nodup) :
    (byScore groups).Pairwise (Ahead Group.score) := by
  apply sort_ahead
  · intro g h
    unfold Group.beforeByScore Ahead
    split
    · next hsame =>
      rw [Scale.same_rat] at hsame
      rw [decide_eq_true_iff, hsame]
      simp
    · next hapart =>
      rw [Scale.same_rat] at hapart
      rw [Scale.less_rat]
      simp [hapart]
  · exact hkeys

/-! ### Shares -/

/-- Among weights of which none is greater than a certain one, that one has its even share of
    the total and at most all of it. -/
theorem share_bounds {scores : List ℚ} {most : ℚ} (hmem : most ∈ scores)
    (hnonneg : ∀ s ∈ scores, 0 ≤ s) (hmost : ∀ s ∈ scores, s ≤ most) (hpos : 0 < scores.sum) :
    1 / (scores.length : ℚ) ≤ most / scores.sum ∧ most / scores.sum ≤ 1 := by
  have hsum : scores.sum ≤ scores.length * most := by
    rw [← nsmul_eq_mul]
    exact List.sum_le_card_nsmul scores most hmost
  have hlength : (0 : ℚ) < scores.length := Nat.cast_pos.mpr (List.length_pos_of_mem hmem)
  constructor
  · rw [div_le_div_iff₀ hlength hpos, one_mul, mul_comm]
    exact hsum
  · rw [div_le_one hpos]
    exact List.single_le_sum hnonneg most hmem

/-- The share of the winner: nothing if there is no weight, and otherwise its part of the
    total. -/
theorem weightShare_eq {groups : List (Group ℚ)} {winner : Group ℚ} (hwinner : winner ∈ groups)
    (hnonneg : ∀ g ∈ groups, 0 ≤ g.score) (hmost : ∀ g ∈ groups, g.score ≤ winner.score) :
    let total := (groups.map Group.score).sum
    (total = 0 → weightShare groups winner = 0) ∧
      (total ≠ 0 → weightShare groups winner = winner.score / total ∧
        1 / (groups.length : ℚ) ≤ weightShare groups winner ∧ weightShare groups winner ≤ 1) := by
  intro total
  have htotal : groups.foldl (fun sum g => sum + g.score) 0 = total := by
    unfold total
    rw [List.sum_eq_foldl, List.foldl_map]
  have hscores : ∀ s ∈ groups.map Group.score, 0 ≤ s := by
    intro s hs
    obtain ⟨g, hg, rfl⟩ := List.mem_map.mp hs
    exact hnonneg g hg
  unfold weightShare
  simp only [Scale.add_rat, Scale.zero_rat, Scale.atMost_rat, Scale.div_rat, htotal]
  constructor
  · intro hzero
    rw [if_pos hzero.le]
  · intro hsome
    have hpos : 0 < total := lt_of_le_of_ne (List.sum_nonneg hscores) (Ne.symm hsome)
    have hbounds := share_bounds (List.mem_map_of_mem hwinner) hscores
      (fun s hs => by
        obtain ⟨g, hg, rfl⟩ := List.mem_map.mp hs
        exact hmost g hg) hpos
    rw [List.length_map] at hbounds
    rw [if_neg (not_le.mpr hpos), capped_eq hbounds.2]
    exact ⟨rfl, hbounds⟩

/-! ### The winner by weight -/

/-- The group in front of a ranking by weight has the greatest score, and the smallest key
    among those with the same. -/
theorem byScore_front {groups rest : List (Group ℚ)} {winner : Group ℚ}
    (hkeys : (groups.map Group.key).Nodup) (hranked : byScore groups = winner :: rest)
    {g : Group ℚ} (hg : g ∈ groups) :
    g.score ≤ winner.score ∧ (g.score = winner.score → winner.key ≤ g.key) := by
  have hahead := byScore_ahead hkeys
  have hmem := (byScore_perm groups).mem_iff.mpr hg
  rw [hranked] at hahead hmem
  rcases List.mem_cons.mp hmem with rfl | hmem
  · exact ⟨le_rfl, fun _ => le_rfl⟩
  · rcases (List.pairwise_cons.mp hahead).1 g hmem with hless | ⟨hsame, hbefore⟩
    · exact ⟨hless.le, fun hsame => absurd hsame hless.ne⟩
    · exact ⟨hsame.ge, fun _ => hbefore.le⟩

section Winner

variable {winner : Group ℚ} {rest : List (Group ℚ)}
  (hranked : byScore (groupsOf weights (counted ballots)) = winner :: rest)
include hranked

theorem winner_mem : winner ∈ groupsOf weights (counted ballots) :=
  (byScore_perm _).mem_iff.mp (hranked ▸ List.mem_cons_self)

/-- No voted value has more weight behind it than the winner's. -/
theorem backing_front {b : Ballot ℚ} (hb : b ∈ ballots) :
    backing weights ballots b.value.canonicalKey ≤ backing weights ballots winner.key ∧
      (backing weights ballots b.value.canonicalKey = backing weights ballots winner.key →
        winner.key ≤ b.value.canonicalKey) := by
  obtain ⟨g, hg, hkey⟩ := exists_group weights _ ((counted_perm ballots).mem_iff.mpr hb)
  rw [← hkey, ← score_eq_backing hg, ← score_eq_backing (winner_mem hranked)]
  exact byScore_front (groupsOf_keys_nodup weights _) hranked hg

/-- The confidence of a verdict by weight, which no clamp changes. -/
theorem weightShare_front (hnonneg : ∀ b ∈ ballots, 0 ≤ ballotWeight weights b) :
    let share := weightShare (groupsOf weights (counted ballots)) winner
    (totalWeight weights ballots = 0 → share = 0) ∧
      (totalWeight weights ballots ≠ 0 →
        share = backing weights ballots winner.key / totalWeight weights ballots ∧
        1 / ((ballots.map fun b => b.value.canonicalKey).toFinset.card : ℚ) ≤ share ∧
        share ≤ 1) ∧
      floored (capped share) = share := by
  intro share
  have hwinner := winner_mem hranked
  have hscores : ∀ g ∈ groupsOf weights (counted ballots), 0 ≤ g.score := by
    intro g hg
    rw [score_eq_backing hg]
    apply List.sum_nonneg
    intro w hw
    obtain ⟨b, hb, rfl⟩ := List.mem_map.mp hw
    exact hnonneg b (mem_supporters.mp hb).1
  obtain ⟨hweightless, hpart⟩ := weightShare_eq hwinner hscores
    (fun g hg => (byScore_front (groupsOf_keys_nodup weights _) hranked hg).1)
  rw [sum_scores] at hweightless hpart
  rw [length_groupsOf, score_eq_backing hwinner] at hpart
  refine ⟨hweightless, hpart, ?_⟩
  by_cases htotal : totalWeight weights ballots = 0
  · have hzero : share = 0 := hweightless htotal
    rw [hzero]
    rfl
  · obtain ⟨-, hlow, hhigh⟩ := hpart htotal
    exact clamped_eq ((div_nonneg zero_le_one (Nat.cast_nonneg _)).trans hlow) hhigh

end Winner

/-! ### Verdicts by weight -/

/-- A verdict as the rule of weight promises it for the votes that were cast. -/
structure ByWeight (weights : List (String × ℚ)) (ballots : List (Ballot ℚ)) (rules : Rules ℚ)
    (v : Verdict ℚ) : Prop where
  /-- A row has the agents behind its value, and the sum of the weights of their votes. -/
  rows : ∀ row ∈ v.tally,
    row.agents.Perm ((supporters ballots row.value.canonicalKey).map Ballot.agent) ∧
      row.score = backing weights ballots row.value.canonicalKey
  most : ∀ b ∈ ballots, backing weights ballots b.value.canonicalKey ≤
    backing weights ballots v.result.canonicalKey
  ties : ∀ b ∈ ballots, backing weights ballots b.value.canonicalKey =
    backing weights ballots v.result.canonicalKey →
      v.result.canonicalKey ≤ b.value.canonicalKey
  weightless : totalWeight weights ballots = 0 → v.confidence = 0
  share : totalWeight weights ballots ≠ 0 →
    v.confidence = backing weights ballots v.result.canonicalKey / totalWeight weights ballots ∧
    1 / ((ballots.map fun b => b.value.canonicalKey).toFinset.card : ℚ) ≤ v.confidence ∧
    v.confidence ≤ 1
  reached : v.reached = true ↔
    0 < v.confidence ∧ rules.minConfidence ≤ v.confidence ∧ rules.minVotes ≤ ballots.length

theorem evaluateBallots_byWeight {rules : Rules ℚ} (hrules : rules.algorithm = .weighted)
    (hvotes : ballots ≠ []) (hnonneg : ∀ b ∈ ballots, 0 ≤ ballotWeight weights b) :
    ByWeight weights ballots rules (evaluateBallots ballots weights rules) := by
  obtain ⟨firstKey, winner, rest, -, hranked, hperm, hverdict⟩ :=
    evaluateBallots_decided weights rules hvotes
  have hdecision : decisionFor rules (!weights.isEmpty) (groupsOf weights (counted ballots))
      firstKey winner ballots.length =
        weighted rules (groupsOf weights (counted ballots)) winner ballots.length := by
    simp only [decisionFor, hrules]
  rw [hdecision] at hranked hperm hverdict
  have hkey := groupsOf_value weights _ (winner_mem hranked)
  obtain ⟨hweightless, hshare, hunclamped⟩ := weightShare_front hranked hnonneg
  rw [hverdict]
  simp only [weighted, hunclamped]
  constructor
  · intro row hrow
    obtain ⟨g, hg, rfl⟩ := List.mem_map.mp hrow
    have hg := hperm.mem_iff.mp hg
    have hvalue : g.tally.value.canonicalKey = g.key := groupsOf_value weights _ hg
    have hagents : g.tally.agents = (supporters (counted ballots) g.key).map Ballot.agent :=
      groupsOf_agents weights _ hg
    rw [hvalue, hagents]
    exact ⟨((counted_perm ballots).filter _).map _, score_eq_backing hg⟩
  · intro b hb
    rw [hkey]
    exact (backing_front hranked hb).1
  · intro b hb
    rw [hkey]
    exact (backing_front hranked hb).2
  · exact hweightless
  · rw [hkey]
    exact hshare
  · simp only [Bool.and_eq_true, Scale.less_rat, Scale.zero_rat, Scale.atMost_rat,
      decide_eq_true_eq, and_assoc]

/-- **The verdict by weight.**  With weights that are not negative and in exact arithmetic,
    the result is the value with the most weight behind it, the confidence is its share of
    the weight of all successes, and no clamp changes it. -/
theorem evaluateWith_weighted {own : AgentResult → ℚ} {results : List AgentResult}
    {rules : Rules ℚ} (hrules : rules.algorithm = .weighted)
    (hvoted : ∃ r ∈ results, r.succeeded = true)
    (hown : ∀ r ∈ results, r.succeeded = true → 0 ≤ own r)
    (hweights : ∀ entry ∈ weights, 0 ≤ entry.2) :
    let verdict := evaluateWith own results weights rules
    (∃ r ∈ results, r.succeeded = true ∧ verdict.result = r.output) ∧
      ByWeight weights (weighedVotes own results) rules verdict := by
  obtain ⟨r, hr, hsucceeded⟩ := hvoted
  have hvotes : weighedVotes own results ≠ [] :=
    List.ne_nil_of_mem (mem_weighedVotes.mpr ⟨r, hr, hsucceeded, rfl⟩)
  constructor
  · obtain ⟨b, hb, hresult⟩ := evaluateBallots_result weights rules hvotes
    obtain ⟨s, hs, hsucceeded, rfl⟩ := mem_weighedVotes.mp hb
    exact ⟨s, hs, hsucceeded, hresult⟩
  · apply evaluateBallots_byWeight hrules hvotes
    intro b hb
    obtain ⟨s, hs, hsucceeded, rfl⟩ := mem_weighedVotes.mp hb
    unfold ballotWeight
    cases hlookup : weights.lookup s.agentName with
    | none => exact hown s hs hsucceeded
    | some w => exact hweights _ (Entries.mem_of_lookup hlookup)

/-- A vote that the map makes weigh two stands against two votes that weigh one. -/
theorem evaluateWith_even_weights :
    let results := [answered "a" "y" 1, answered "b" "x" 1, unanswered "c", answered "d" "y" 2]
    let weights : List (String × ℚ) := [("b", 2)]
    let rules : Rules ℚ := ⟨.weighted, 1, 1 / 2, none, []⟩
    let verdict := evaluateWith exactWeight results weights rules
    rules.algorithm = .weighted ∧ (∃ r ∈ results, r.succeeded = true) ∧
      (∀ r ∈ results, r.succeeded = true → 0 ≤ exactWeight r) ∧
      (∀ entry ∈ weights, 0 ≤ entry.2) ∧
      (∃ r ∈ results, r.succeeded = true ∧ verdict.result = r.output) ∧
      ByWeight weights (weighedVotes exactWeight results) rules verdict := by
  intro results weights rules verdict
  have hrules : rules.algorithm = .weighted := rfl
  have hvoted : ∃ r ∈ results, r.succeeded = true := ⟨_, List.mem_cons_self, rfl⟩
  have hown : ∀ r ∈ results, r.succeeded = true → 0 ≤ exactWeight r := by decide +kernel
  have hweights : ∀ entry ∈ weights, 0 ≤ entry.2 := by decide +kernel
  exact ⟨hrules, hvoted, hown, hweights, evaluateWith_weighted hrules hvoted hown hweights⟩

end Quorum.Consensus

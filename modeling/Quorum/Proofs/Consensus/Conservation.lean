/-
  Quorum/Proofs/Consensus/Conservation.lean
  =========================================
  **No vote is lost, none is counted twice.**

  A verdict accounts for the votes that were cast if its tally has one row for every
  distinct value, each row lists exactly the agents that voted for its value, the first row
  carries the result, and the agents of all other rows dissent.  Votes go through a
  grouping, two rankings and, for the first success, a ranking put together by hand; all of
  them keep the groups they are given, so every verdict accounts for its votes
  (`evaluate_accounts`).
-/
import Mathlib
import Quorum.Proofs.Consensus.Groups

namespace Quorum.Consensus

/-- A verdict accounts for the votes cast, each given by its agent and the canonical key of
    its value. -/
structure Accounts {α : Type} (cast : List (String × String)) (v : Verdict α) : Prop where
  votes : v.votes = cast.length
  counts : (v.tally.map Tally.count).sum = v.votes
  row_count : ∀ row ∈ v.tally, row.count = row.agents.length
  /-- All rows together have every voter once for each of its votes. -/
  everybody : (v.tally.flatMap Tally.agents).Perm (cast.map Prod.fst)
  /-- A row has the voters for its value and nobody else. -/
  supporters : ∀ row ∈ v.tally,
    row.agents.Perm ((cast.filter fun c => c.2 == row.value.canonicalKey).map Prod.fst)
  placed : ∀ c ∈ cast, ∃ row ∈ v.tally, row.value.canonicalKey = c.2
  distinct : (v.tally.map fun row => row.value.canonicalKey).Nodup
  winner : 0 < v.votes → ∃ first others, v.tally = first :: others ∧ v.result = first.value ∧
    v.dissenters.Perm (others.flatMap Tally.agents) ∧ v.dissenters.Pairwise (· ≤ ·)
  nobody : v.votes = 0 → v.tally = [] ∧ v.dissenters = [] ∧ v.result = .null ∧ v.reached = false

/-! ### Dissenters -/

section Dissenters

variable {α : Type}

theorem dissentersOf_sorted (groups : List (Group α)) (winner : Group α) :
    (dissentersOf groups winner).Pairwise (· ≤ ·) :=
  Order.sorted_mergeSort (fun _ _ => decide_eq_true_iff) _

/-- Whoever is not in the winning group dissents. -/
theorem dissentersOf_perm {groups : List (Group α)} {winner : Group α} {others : List (Group α)}
    (hranked : (winner :: others).Perm groups) (hkeys : (groups.map Group.key).Nodup) :
    (dissentersOf groups winner).Perm (others.flatMap Group.agents) := by
  have hdistinct : ((winner :: others).map Group.key).Nodup :=
    (hranked.map Group.key).nodup_iff.mpr hkeys
  rw [List.map_cons, List.nodup_cons] at hdistinct
  have hothers : (winner :: others).filter (fun g => g.key != winner.key) = others := by
    rw [List.filter_cons_of_neg (by simp)]
    refine List.filter_eq_self.mpr fun g hg => ?_
    have hne : g.key ≠ winner.key := fun heq => hdistinct.1 (heq ▸ List.mem_map_of_mem hg)
    exact bne_iff_ne.mpr hne
  have hfiltered : (groups.filter fun g => g.key != winner.key).Perm others := by
    have hfilter := hranked.symm.filter fun g => g.key != winner.key
    rwa [hothers] at hfilter
  exact (List.mergeSort_perm _ _).trans (hfiltered.flatMap_right _)

end Dissenters

/-! ### The votes behind a ranking -/

section Ranked

variable {α : Type} [Scale α] {weights : List (String × α)} {ballots : List (Ballot α)}
  {ranked : List (Group α)}

/-- The agent and the canonical key of every vote. -/
def castOf (ballots : List (Ballot α)) : List (String × String) :=
  ballots.map fun b => (b.agent, b.value.canonicalKey)

omit [Scale α] in
theorem length_castOf (ballots : List (Ballot α)) : (castOf ballots).length = ballots.length :=
  List.length_map _

omit [Scale α] in
theorem castOf_counted_perm (ballots : List (Ballot α)) :
    (castOf (counted ballots)).Perm (castOf ballots) :=
  (counted_perm ballots).map _

omit [Scale α] in
/-- The votes under a key are the votes of its supporters. -/
theorem castOf_filter (ballots : List (Ballot α)) (key : String) :
    ((castOf ballots).filter fun c => c.2 == key).map Prod.fst =
      (supporters ballots key).map Ballot.agent := by
  rw [castOf, List.filter_map, List.map_map, supporters]
  rfl

omit [Scale α] in
theorem sum_count_tally (groups : List (Group α)) :
    ((groups.map Group.tally).map Tally.count).sum = ((groups.flatMap Group.agents).length : Int) := by
  induction groups with
  | nil => rfl
  | cons g rest ih =>
    rw [List.map_cons, List.map_cons, List.sum_cons, ih, List.flatMap_cons, List.length_append,
      Int.natCast_add]
    rfl

theorem sum_count_ranked (hranked : ranked.Perm (groupsOf weights ballots)) :
    ((ranked.map Group.tally).map Tally.count).sum = (ballots.length : Int) := by
  have hperm := (hranked.flatMap_right Group.agents).trans (groupsOf_flatMap_agents weights ballots)
  rw [sum_count_tally, hperm.length_eq, List.length_map]

theorem ranked_value (hranked : ranked.Perm (groupsOf weights ballots)) {g : Group α}
    (hg : g ∈ ranked) : g.value.canonicalKey = g.key :=
  groupsOf_value weights ballots (hranked.mem_iff.mp hg)

theorem ranked_value_keys_nodup (hranked : ranked.Perm (groupsOf weights ballots)) :
    ((ranked.map Group.tally).map fun row => row.value.canonicalKey).Nodup := by
  have hkeys : (ranked.map Group.tally).map (fun row => row.value.canonicalKey) =
      ranked.map Group.key := by
    rw [List.map_map]
    exact List.map_congr_left fun g hg => ranked_value hranked hg
  rw [hkeys]
  exact (hranked.map Group.key).nodup_iff.mpr (groupsOf_keys_nodup weights ballots)

end Ranked

/-! ### Verdicts -/

section Verdicts

variable {α : Type} [Scale α]

theorem noData_accounts (rules : Rules α) : Accounts [] (noData rules) where
  votes := rfl
  counts := rfl
  row_count := by simp [noData]
  everybody := List.Perm.refl _
  supporters := by simp [noData]
  placed := by simp
  distinct := List.nodup_nil
  winner := by simp [noData]
  nobody := fun _ => ⟨rfl, rfl, rfl, rfl⟩

/-- Every verdict accounts for the votes it is given, in any arithmetic. -/
theorem evaluateBallots_accounts (ballots : List (Ballot α)) (weights : List (String × α))
    (rules : Rules α) : Accounts (castOf ballots) (evaluateBallots ballots weights rules) := by
  by_cases hvotes : ballots = []
  · subst hvotes
    rw [evaluateBallots_nil]
    exact noData_accounts rules
  · obtain ⟨first, decision, winner, others, -, hdecision, hhead, hverdict⟩ :=
      evaluateBallots_of_votes weights rules hvotes
    have hranked := decideGroups_ranked_perm hdecision
    have hcast := castOf_counted_perm ballots
    rw [hverdict]
    refine ⟨?_, ?_, ?_, ?_, ?_, ?_, ?_, ?_, ?_⟩
    · -- votes
      rw [← hcast.length_eq, castOf, List.length_map]
    · -- counts
      exact sum_count_ranked hranked
    · -- the count of a row
      intro row hrow
      obtain ⟨g, -, rfl⟩ := List.mem_map.mp hrow
      rfl
    · -- everybody
      have hagents : (decision.ranked.map Group.tally).flatMap Tally.agents =
          decision.ranked.flatMap Group.agents := List.flatMap_map ..
      have hvoters := (hranked.flatMap_right Group.agents).trans
        (groupsOf_flatMap_agents weights (counted ballots))
      have hcasters := hcast.map Prod.fst
      rw [castOf, List.map_map] at hcasters
      rw [hagents]
      exact hvoters.trans hcasters
    · -- the supporters of a row
      intro row hrow
      obtain ⟨g, hg, rfl⟩ := List.mem_map.mp hrow
      have hagents : g.tally.agents = (supporters (counted ballots) g.key).map Ballot.agent :=
        groupsOf_agents weights (counted ballots) (hranked.mem_iff.mp hg)
      have hkey : g.tally.value.canonicalKey = g.key := ranked_value hranked hg
      rw [hagents, hkey, ← castOf_filter]
      exact (hcast.filter _).map _
    · -- the row of a vote
      intro c hc
      obtain ⟨b, hb, rfl⟩ := List.mem_map.mp (hcast.mem_iff.mpr hc)
      obtain ⟨g, hg, hkey⟩ := exists_group weights (counted ballots) hb
      have hg' := hranked.mem_iff.mpr hg
      exact ⟨g.tally, List.mem_map_of_mem hg', (ranked_value hranked hg').trans hkey⟩
    · -- distinct rows
      exact ranked_value_keys_nodup hranked
    · -- the winner and the dissenters
      intro _
      refine ⟨winner.tally, others.map Group.tally, by rw [hhead, List.map_cons], rfl, ?_,
        dissentersOf_sorted _ _⟩
      have hagents : (others.map Group.tally).flatMap Tally.agents =
          others.flatMap Group.agents := List.flatMap_map ..
      rw [hagents]
      exact dissentersOf_perm (hhead ▸ hranked) (groupsOf_keys_nodup weights _)
    · -- there are votes
      intro hnone
      have hlength : (counted ballots).length = 0 := Int.natCast_eq_zero.mp hnone
      rw [(counted_perm ballots).length_eq] at hlength
      exact absurd (List.eq_nil_of_length_eq_zero hlength) hvotes

end Verdicts

/-- The votes of a list of results: the name of every success and the canonical key of its
    output. -/
def votesCast (results : List AgentResult) : List (String × String) :=
  (results.filter AgentResult.succeeded).map fun r => (r.agentName, r.output.canonicalKey)

/-- **Conservation of votes.**  Whatever the results, the weights and the rules, the verdict
    accounts for the successful results: it counts each of them once, in the one row of its
    value. -/
theorem evaluate_accounts (results : List AgentResult) (weights : List (String × Float))
    (rules : VotingRules) : Accounts (votesCast results) (evaluate results weights rules) := by
  have hcast : votesCast results = castOf (results.filterMap AgentResult.ballot?) := by
    rw [ballots_eq_map, castOf, List.map_map]
    rfl
  rw [hcast]
  exact evaluateBallots_accounts _ weights rules

end Quorum.Consensus

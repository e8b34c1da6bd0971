/-
  Quorum/Proofs/Consensus/Groups.lean
  ===================================
  **What grouping and ranking keep.**

  Votes are grouped by the canonical keys of their values.  The groups stand in strictly
  ascending order of keys, each holds exactly the votes under its key, and every vote has a
  group.  Ranking by bisection only moves groups about, whatever the comparison says, so it
  holds also for scores that are not ordered.  `evaluateBallots_of_votes` says all that a
  verdict on at least one vote consists of.
-/
import Mathlib.Data.Finset.Card
import Quorum.Proofs.Consensus.Ballots

/-! ### Ranking moves items about -/

namespace Quorum.Ranking

variable {α : Type} (less : α → α → Bool)

theorem insert_perm (sorted : List α) (x : α) : (insert less sorted x).Perm (x :: sorted) := by
  refine List.perm_middle.trans ?_
  rw [List.take_append_drop]

theorem foldl_insert_perm (added sorted : List α) :
    (added.foldl (insert less) sorted).Perm (sorted ++ added) := by
  induction added generalizing sorted with
  | nil => simp
  | cons x rest ih =>
    rw [List.foldl_cons]
    calc (rest.foldl (insert less) (insert less sorted x)).Perm (insert less sorted x ++ rest) :=
          ih _
      List.Perm _ (x :: sorted ++ rest) := (insert_perm less sorted x).append_right rest
      List.Perm _ (sorted ++ x :: rest) := List.perm_middle.symm

/-- The ranking has the items of the list it is made from. -/
theorem sort_perm (items : List α) : (sort less items).Perm items := by
  match items with
  | [] => exact List.Perm.refl _
  | [_] => exact List.Perm.refl _
  | a :: b :: rest =>
    simp only [sort]
    split
    · -- the list begins with a falling run, which is turned round first
      refine (foldl_insert_perm less _ _).trans ?_
      refine ((List.reverse_perm _).append_right _).trans ?_
      rw [List.take_append_drop]
    · refine (foldl_insert_perm less _ _).trans ?_
      rw [List.take_append_drop]

end Quorum.Ranking

namespace Quorum.Consensus

/-! ### Splitting a list by keys -/

section Splitting

variable {α κ : Type} [BEq κ] [LawfulBEq κ]

/-- Parts of a list by distinct keys, put one behind the other, are the whole list if every
    item has one of the keys. -/
theorem flatMap_filter_key_perm (key : α → κ) {keys : List κ} (hdistinct : keys.Nodup)
    (items : List α) (hcovered : ∀ x ∈ items, key x ∈ keys) :
    (keys.flatMap fun k => items.filter fun x => key x == k).Perm items := by
  induction keys generalizing items with
  | nil =>
    have hnone : items = [] := List.eq_nil_iff_forall_not_mem.mpr fun x hx => by
      simpa using hcovered x hx
    simp [hnone]
  | cons k rest ih =>
    rw [List.nodup_cons] at hdistinct
    obtain ⟨hk, hrest⟩ := hdistinct
    -- the items under other keys are found again among those that are not under `k`
    have hothers : (rest.flatMap fun k' => items.filter fun x => key x == k') =
        rest.flatMap fun k' => (items.filter fun x => !key x == k).filter fun x => key x == k' := by
      refine List.flatMap_congr fun k' hk' => ?_
      rw [List.filter_filter]
      refine List.filter_congr fun x _ => ?_
      by_cases hx : key x = k'
      · have hne : k' ≠ k := fun heq => hk (heq ▸ hk')
        simp [hx, hne]
      · simp [hx]
    have hremaining := ih hrest (items.filter fun x => !key x == k) (fun x hx => by
      rw [List.mem_filter] at hx
      have hmem := hcovered x hx.1
      rcases List.mem_cons.mp hmem with heq | hmem
      · simp [heq] at hx
      · exact hmem)
    rw [List.flatMap_cons, hothers]
    exact (hremaining.append_left _).trans (List.filter_append_perm _ _)

end Splitting

variable {α : Type}

/-! ### Groups of votes -/

/-- The votes for the value under a key. -/
def supporters (ballots : List (Ballot α)) (key : String) : List (Ballot α) :=
  ballots.filter fun b => b.value.canonicalKey == key

theorem mem_supporters {ballots : List (Ballot α)} {key : String} {b : Ballot α} :
    b ∈ supporters ballots key ↔ b ∈ ballots ∧ b.value.canonicalKey = key := by
  rw [supporters, List.mem_filter, beq_iff_eq]

/-- The keys under which there are votes. -/
def votedKeys (ballots : List (Ballot α)) : List String :=
  keysOf (ballots.map fun b => (b.value.canonicalKey, b))

theorem votedKeys_ascending (ballots : List (Ballot α)) :
    (votedKeys ballots).Pairwise (· < ·) :=
  Order.ascending_sorted_distinct (fun _ _ => decide_eq_true_iff) _

theorem mem_votedKeys {ballots : List (Ballot α)} {key : String} :
    key ∈ votedKeys ballots ↔ ∃ b ∈ ballots, b.value.canonicalKey = key := by
  rw [votedKeys, keysOf, Order.mem_sorted_distinct]
  simp

section Groups

variable [Scale α] (weights : List (String × α)) (ballots : List (Ballot α))

/-- The group of the votes under a key. -/
def groupUnder (key : String) : Group α where
  key := key
  value := ((supporters ballots key).head?.map Ballot.value).getD .null
  agents := (supporters ballots key).map Ballot.agent
  score := weightSum weights (supporters ballots key)

/-- There is one group for every key under which there are votes. -/
theorem groupsOf_eq : groupsOf weights ballots = (votedKeys ballots).map (groupUnder weights ballots) := by
  unfold groupsOf
  refine List.map_congr_left fun key _ => ?_
  have hmembers : ((ballots.map fun b => (b.value.canonicalKey, b)).filter
      fun p => p.1 == key).map Prod.snd = supporters ballots key := by
    rw [List.filter_map, List.map_map, supporters]
    exact List.map_id _
  simp only [groupOf, hmembers, groupUnder]

theorem groupsOf_ascending : (groupsOf weights ballots).Pairwise fun g h => g.key < h.key := by
  rw [groupsOf_eq, List.pairwise_map]
  exact votedKeys_ascending ballots

theorem groupsOf_keys_nodup : ((groupsOf weights ballots).map Group.key).Nodup := by
  refine List.pairwise_map.mpr ((groupsOf_ascending weights ballots).imp fun hlt heq => ?_)
  exact absurd heq hlt.ne

theorem groupsOf_agents {g : Group α} (hg : g ∈ groupsOf weights ballots) :
    g.agents = (supporters ballots g.key).map Ballot.agent := by
  rw [groupsOf_eq, List.mem_map] at hg
  obtain ⟨key, -, rfl⟩ := hg
  rfl

/-- The value of a group is the value of one of its votes, so it has the group's key. -/
theorem groupsOf_value {g : Group α} (hg : g ∈ groupsOf weights ballots) :
    g.value.canonicalKey = g.key := by
  rw [groupsOf_eq, List.mem_map] at hg
  obtain ⟨key, hkey, rfl⟩ := hg
  obtain ⟨b, hb, hbkey⟩ := mem_votedKeys.mp hkey
  cases hvotes : supporters ballots key with
  | nil =>
    have hmem : b ∈ supporters ballots key := mem_supporters.mpr ⟨hb, hbkey⟩
    rw [hvotes] at hmem
    cases hmem
  | cons first rest =>
    have hfirst : first ∈ supporters ballots key := by rw [hvotes]; exact List.mem_cons_self
    simpa [groupUnder, hvotes] using (mem_supporters.mp hfirst).2

theorem exists_group {b : Ballot α} (hb : b ∈ ballots) :
    ∃ g ∈ groupsOf weights ballots, g.key = b.value.canonicalKey := by
  rw [groupsOf_eq]
  exact ⟨groupUnder weights ballots b.value.canonicalKey,
    List.mem_map.mpr ⟨_, mem_votedKeys.mpr ⟨b, hb, rfl⟩, rfl⟩, rfl⟩

/-- The voters of all groups together are all voters. -/
theorem groupsOf_flatMap_agents :
    ((groupsOf weights ballots).flatMap Group.agents).Perm (ballots.map Ballot.agent) := by
  have hsplit : ((votedKeys ballots).flatMap (supporters ballots)).Perm ballots :=
    flatMap_filter_key_perm (fun b : Ballot α => b.value.canonicalKey)
      ((votedKeys_ascending ballots).imp fun hlt => hlt.ne) ballots
      (fun b hb => mem_votedKeys.mpr ⟨b, hb, rfl⟩)
  have hagents : (groupsOf weights ballots).flatMap Group.agents =
      ((votedKeys ballots).flatMap (supporters ballots)).map Ballot.agent := by
    rw [groupsOf_eq, List.flatMap_map, List.map_flatMap]
    rfl
  rw [hagents]
  exact hsplit.map _

/-- There are as many groups as distinct values. -/
theorem length_groupsOf : (groupsOf weights (counted ballots)).length =
    (ballots.map fun b => b.value.canonicalKey).toFinset.card := by
  have hdistinct : (votedKeys (counted ballots)).Nodup :=
    (votedKeys_ascending _).imp fun hlt => hlt.ne
  rw [groupsOf_eq, List.length_map, ← List.toFinset_card_of_nodup hdistinct]
  congr 1
  ext key
  rw [List.mem_toFinset, mem_votedKeys, List.mem_toFinset, List.mem_map]
  simp only [(counted_perm ballots).mem_iff]

end Groups

/-! ### Decisions rank the groups they are given -/

theorem byCount_perm (groups : List (Group α)) : (byCount groups).Perm groups :=
  Ranking.sort_perm _ _

theorem exists_head_of_perm {β : Type} {ranked items : List β} (hperm : ranked.Perm items)
    (hitems : items ≠ []) : ∃ w, ranked.head? = some w := by
  cases ranked with
  | nil => exact absurd hperm.nil_eq.symm hitems
  | cons w rest => exact ⟨w, rfl⟩

section Decisions

variable [Scale α] {rules : Rules α} {byWeight : Bool} {groups : List (Group α)}
  {firstKey : String} {total : Nat}

theorem byScore_perm (groups : List (Group α)) : (byScore groups).Perm groups :=
  Ranking.sort_perm _ _

/-- The rule of the first success puts its group in front and leaves out none. -/
theorem firstWins_ranked_perm (groups : List (Group α)) (firstKey : String) :
    (firstWins groups firstKey).ranked.Perm groups := by
  have hothers := (byCount_perm groups).filter fun g => g.key != firstKey
  exact (hothers.append_left _).trans (List.filter_append_perm (fun g => g.key == firstKey) groups)

/-- Every voting rule ranks all the groups there are. -/
theorem decideGroups_ranked_perm {decision : Decision α}
    (h : decideGroups rules byWeight groups firstKey total = some decision) :
    decision.ranked.Perm groups := by
  cases halgorithm : rules.algorithm with
  | majority =>
    simp only [decideGroups, halgorithm] at h
    obtain ⟨w, -, rfl⟩ := Option.map_eq_some_iff.mp h
    exact byCount_perm groups
  | unanimous =>
    simp only [decideGroups, halgorithm] at h
    obtain ⟨w, -, rfl⟩ := Option.map_eq_some_iff.mp h
    exact byCount_perm groups
  | weighted =>
    simp only [decideGroups, halgorithm] at h
    obtain ⟨w, -, rfl⟩ := Option.map_eq_some_iff.mp h
    exact byScore_perm groups
  | firstWins =>
    simp only [decideGroups, halgorithm] at h
    obtain rfl := Option.some.inj h
    exact firstWins_ranked_perm groups firstKey
  | humanReview =>
    simp only [decideGroups, halgorithm] at h
    obtain ⟨w, -, rfl⟩ := Option.map_eq_some_iff.mp h
    cases byWeight with
    | false => exact byCount_perm groups
    | true => exact byScore_perm groups

/-- Every voting rule decides if there is a group. -/
theorem exists_decision (hgroups : groups ≠ []) :
    ∃ decision, decideGroups rules byWeight groups firstKey total = some decision := by
  obtain ⟨leader, hleader⟩ := exists_head_of_perm (byCount_perm groups) hgroups
  obtain ⟨favourite, hfavourite⟩ := exists_head_of_perm (byScore_perm groups) hgroups
  cases halgorithm : rules.algorithm with
  | majority => exact ⟨_, by simp only [decideGroups, halgorithm, hleader, Option.map_some]; rfl⟩
  | unanimous => exact ⟨_, by simp only [decideGroups, halgorithm, hleader, Option.map_some]; rfl⟩
  | weighted => exact ⟨_, by simp only [decideGroups, halgorithm, hfavourite, Option.map_some]; rfl⟩
  | firstWins => exact ⟨_, by simp only [decideGroups, halgorithm]; rfl⟩
  | humanReview =>
    cases byWeight with
    | false =>
      exact ⟨_, by simp only [decideGroups, halgorithm, hleader, Bool.false_eq_true, if_false,
        Option.map_some]; rfl⟩
    | true =>
      exact ⟨_, by simp only [decideGroups, halgorithm, hfavourite, if_true, Option.map_some]; rfl⟩

end Decisions

/-! ### What a verdict consists of -/

section Verdicts

variable [Scale α] (weights : List (String × α)) (rules : Rules α)

theorem evaluateBallots_nil : evaluateBallots [] weights rules = noData rules := by
  simp [evaluateBallots]

/-- The verdict on at least one vote: the groups of the counted votes are ranked by the rules
    in force, and the verdict names the group that comes first. -/
theorem evaluateBallots_of_votes {ballots : List (Ballot α)} (hvotes : ballots ≠ []) :
    ∃ first decision winner rest,
      ((counted ballots).mergeSort arrivalOrder).head? = some first ∧
      decideGroups rules (!weights.isEmpty) (groupsOf weights (counted ballots))
        first.value.canonicalKey (counted ballots).length = some decision ∧
      decision.ranked = winner :: rest ∧
      evaluateBallots ballots weights rules =
        { result := winner.value
          confidence := floored (capped decision.confidence)
          votes := (counted ballots).length
          algorithm := rules.algorithm
          reached := decision.reached
          minVotes := rules.minVotes
          minConfidence := rules.minConfidence
          tally := decision.ranked.map Group.tally
          dissenters := dissentersOf (groupsOf weights (counted ballots)) winner
          escalation := decision.escalation } := by
  have hcounted : counted ballots ≠ [] := fun hnil =>
    hvotes (List.nil_perm.mp (hnil ▸ counted_perm ballots))
  obtain ⟨first, hfirst⟩ : ∃ first, ((counted ballots).mergeSort arrivalOrder).head? = some first :=
    exists_head_of_perm (List.mergeSort_perm _ _) hcounted
  have hgroups : groupsOf weights (counted ballots) ≠ [] := by
    obtain ⟨b, hb⟩ := List.exists_mem_of_ne_nil _ hcounted
    obtain ⟨g, hg, -⟩ := exists_group weights _ hb
    exact List.ne_nil_of_mem hg
  obtain ⟨decision, hdecision⟩ : ∃ decision, decideGroups rules (!weights.isEmpty)
      (groupsOf weights (counted ballots)) first.value.canonicalKey (counted ballots).length =
        some decision := exists_decision hgroups
  obtain ⟨winner, hwinner⟩ := exists_head_of_perm (decideGroups_ranked_perm hdecision) hgroups
  obtain ⟨rest, hranked⟩ := List.head?_eq_some_iff.mp hwinner
  refine ⟨first, decision, winner, rest, hfirst, hdecision, hranked, ?_⟩
  unfold counted at hfirst hdecision
  simp only [evaluateBallots, hfirst, hdecision, hranked, counted]

end Verdicts

end Quorum.Consensus

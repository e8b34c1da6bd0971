/-
  Quorum/Proofs/Consensus/Ranked.lean
  ===================================
  **A ranking by an order is in order, and its front decides.**

  Ranking turns the run that a list begins with the right way round, and then puts every
  further item at a place found by bisection.  Where the comparison is one of positions in a
  linear order, bisection finds the place that divides the list for the item
  (`divides_bisect`), an insertion there keeps the order, and so the ranking goes upwards
  (`sort_ascending`).  Groups of votes are compared by a measure and then by their keys, and
  no two groups have one key: their ranking by number of votes leaves no choice
  (`byCount_ahead`).  Whatever the ranking, a voting rule decides about the group that comes
  first in it (`evaluateBallots_decided`).
-/
import Mathlib.Data.Prod.Lex
import Mathlib.Order.OrderDual
import Quorum.Proofs.Consensus.Groups

namespace Quorum.Ranking

section Positions

variable {α γ : Type} [LinearOrder γ] {position : α → γ} {less : α → α → Bool}

def Ascending (position : α → γ) (items : List α) : Prop :=
  items.Pairwise fun a b => position a ≤ position b

/-! ### Bisection -/

/-- A place divides a list for an item: nothing before it lies above the item, and
    everything from it on does. -/
structure Divides (position : α → γ) (x : α) (items : List α) (place : Nat) : Prop where
  before : ∀ y ∈ items.take place, position y ≤ position x
  behind : ∀ y ∈ items.drop place, position x < position y

theorem Ascending.around {items : List α} (h : Ascending position items) {i : Nat} {y : α}
    (hy : items[i]? = some y) :
    (∀ z ∈ items.take (i + 1), position z ≤ position y) ∧
      ∀ z ∈ items.drop i, position y ≤ position z := by
  obtain ⟨hi, rfl⟩ := List.getElem?_eq_some_iff.mp hy
  have hsplit : items = items.take i ++ items[i] :: items.drop (i + 1) := by
    rw [← List.drop_eq_getElem_cons hi, List.take_append_drop]
  unfold Ascending at h
  rw [hsplit, List.pairwise_append, List.pairwise_cons] at h
  obtain ⟨-, ⟨hbehind, -⟩, hacross⟩ := h
  constructor
  · intro z hz
    rw [List.take_succ_eq_append_getElem hi, List.mem_append, List.mem_singleton] at hz
    rcases hz with hz | rfl
    · exact hacross z hz _ List.mem_cons_self
    · exact le_rfl
  · intro z hz
    rw [List.drop_eq_getElem_cons hi] at hz
    rcases List.mem_cons.mp hz with rfl | hz
    · exact le_rfl
    · exact hbehind z hz

variable (hless : ∀ a b, less a b = true ↔ position a < position b)
include hless

theorem less_eq_false (a b : α) : less a b = false ↔ position b ≤ position a := by
  rw [← Bool.not_eq_true, hless, not_lt]

/-- Bisection keeps to a stretch outside of which it is known on which side of the item the
    others lie, and ends at a place that divides the list. -/
theorem divides_bisect {x : α} {items : List α} (hitems : Ascending position items)
    (low high : Nat) (hlow : low ≤ high) (hhigh : high ≤ items.length)
    (hbefore : ∀ y ∈ items.take low, position y ≤ position x)
    (hbehind : ∀ y ∈ items.drop high, position x < position y) :
    Divides position x items (bisect less x items.toArray low high) := by
  fun_induction bisect less x items.toArray low high with
  | case1 low high hlt middle y hy hbelow ih =>
    rw [List.getElem?_toArray] at hy
    refine ih (by omega) (by omega) hbefore fun z hz => ?_
    exact ((hless _ _).mp hbelow).trans_le ((hitems.around hy).2 z hz)
  | case2 low high hlt middle y hy hnotbelow ih =>
    rw [List.getElem?_toArray] at hy
    have hle : position y ≤ position x := (less_eq_false hless _ _).mp (by simpa using hnotbelow)
    refine ih (by omega) hhigh (fun z hz => ?_) hbehind
    exact ((hitems.around hy).1 z hz).trans hle
  | case3 low high hlt middle hnone =>
    -- the middle of the stretch lies within the list
    rw [List.getElem?_toArray, List.getElem?_eq_none_iff] at hnone
    omega
  | case4 low high hempty =>
    have heq : low = high := by omega
    exact ⟨hbefore, heq ▸ hbehind⟩

/-! ### Insertion -/

theorem insert_ascending {sorted : List α} (hsorted : Ascending position sorted) (x : α) :
    Ascending position (insert less sorted x) := by
  have hplace : Divides position x sorted (bisect less x sorted.toArray 0 sorted.length) :=
    divides_bisect hless hsorted 0 sorted.length (Nat.zero_le _) le_rfl (by simp) (by simp)
  unfold Ascending at hsorted
  rw [← List.take_append_drop (bisect less x sorted.toArray 0 sorted.length) sorted,
    List.pairwise_append] at hsorted
  obtain ⟨hfront, hback, hacross⟩ := hsorted
  refine List.pairwise_append.mpr ⟨hfront, List.pairwise_cons.mpr ⟨?_, hback⟩, ?_⟩
  · intro y hy
    exact (hplace.behind y hy).le
  · intro y hy z hz
    rcases List.mem_cons.mp hz with rfl | hz
    · exact hplace.before y hy
    · exact hacross y hy z hz

theorem foldl_insert_ascending (added : List α) {sorted : List α}
    (hsorted : Ascending position sorted) :
    Ascending position (added.foldl (insert less) sorted) := by
  induction added generalizing sorted with
  | nil => exact hsorted
  | cons x rest ih => exact ih (insert_ascending hless hsorted x)

/-! ### The run at the beginning -/

theorem risingRun_ascending (a : α) (rest : List α) :
    Ascending position ((a :: rest).take (risingRun less a rest + 1)) := by
  induction rest generalizing a with
  | nil => simp [Ascending]
  | cons b rest ih =>
    by_cases hab : less b a = true
    · simp [risingRun, hab, Ascending]
    · have hle : position a ≤ position b := (less_eq_false hless _ _).mp (by simpa using hab)
      have hrun := ih b
      rw [List.take_succ_cons] at hrun
      have hrest := (List.pairwise_cons.mp hrun).1
      simp only [risingRun, hab, if_false, List.take_succ_cons, Bool.false_eq_true]
      refine List.pairwise_cons.mpr ⟨fun z hz => ?_, hrun⟩
      rcases List.mem_cons.mp hz with rfl | hz
      · exact hle
      · exact hle.trans (hrest z hz)

/-- A falling run goes upwards when it is turned round. -/
theorem fallingRun_ascending (a : α) (rest : List α) :
    Ascending position ((a :: rest).take (fallingRun less a rest + 1)).reverse := by
  unfold Ascending
  rw [List.pairwise_reverse]
  induction rest generalizing a with
  | nil => simp
  | cons b rest ih =>
    by_cases hab : less b a = true
    · have hle : position b ≤ position a := ((hless _ _).mp hab).le
      have hrun := ih b
      rw [List.take_succ_cons] at hrun
      have hrest := (List.pairwise_cons.mp hrun).1
      simp only [fallingRun, hab, if_true, List.take_succ_cons]
      refine List.pairwise_cons.mpr ⟨fun z hz => ?_, hrun⟩
      rcases List.mem_cons.mp hz with rfl | hz
      · exact hle
      · exact (hrest z hz).trans hle
    · simp [fallingRun, hab]

theorem sort_ascending (items : List α) : Ascending position (sort less items) := by
  match items with
  | [] => exact List.Pairwise.nil
  | [a] => exact List.pairwise_singleton _ a
  | a :: b :: rest =>
    simp only [sort]
    split
    · next hfalls =>
      apply foldl_insert_ascending hless
      have hrun := fallingRun_ascending hless a (b :: rest)
      rwa [fallingRun, if_pos hfalls] at hrun
    · next hrises =>
      apply foldl_insert_ascending hless
      have hrun := risingRun_ascending hless a (b :: rest)
      rwa [risingRun, if_neg hrises] at hrun

end Positions

end Quorum.Ranking

namespace Quorum.Consensus

variable {α : Type}

/-! ### Groups by a measure -/

section Measures

variable {β : Type} [LinearOrder β] {measure : Group α → β} {less : Group α → Group α → Bool}

/-- A group stands ahead of another: it measures more, or as much under a smaller key. -/
def Ahead (measure : Group α → β) (g h : Group α) : Prop :=
  measure h < measure g ∨ (measure g = measure h ∧ g.key < h.key)

/-- The position of a group in a ranking by a measure. -/
def standing (measure : Group α → β) (g : Group α) : Lex (βᵒᵈ × String) :=
  toLex (OrderDual.toDual (measure g), g.key)

theorem standing_lt_iff (g h : Group α) :
    standing measure g < standing measure h ↔ Ahead measure g h := by
  rw [standing, standing, Prod.Lex.toLex_lt_toLex]
  exact Iff.rfl

/-- Groups under distinct keys are ranked without a choice. -/
theorem sort_ahead (hless : ∀ g h, less g h = true ↔ Ahead measure g h) {groups : List (Group α)}
    (hkeys : (groups.map Group.key).Nodup) :
    (Ranking.sort less groups).Pairwise (Ahead measure) := by
  have hascending : Ranking.Ascending (standing measure) (Ranking.sort less groups) :=
    Ranking.sort_ascending (fun g h => (hless g h).trans (standing_lt_iff g h).symm) groups
  have hdistinct : (Ranking.sort less groups).Pairwise fun g h => g.key ≠ h.key :=
    List.pairwise_map.mp (((Ranking.sort_perm less groups).map Group.key).nodup_iff.mpr hkeys)
  refine hascending.imp₂ (fun g h hle hne => ?_) hdistinct
  rw [← standing_lt_iff]
  refine lt_of_le_of_ne hle fun heq => hne ?_
  exact congrArg (fun place => (ofLex place).2) heq

end Measures

/-- In a ranking by number, more votes come first, and among equals the smaller key. -/
theorem byCount_ahead {groups : List (Group α)} (hkeys : (groups.map Group.key).Nodup) :
    (byCount groups).Pairwise (Ahead Group.count) := by
  refine sort_ahead (fun g h => ?_) hkeys
  simp only [Group.beforeByCount, Ahead, Bool.or_eq_true, Bool.and_eq_true, decide_eq_true_eq,
    beq_iff_eq]

/-! ### The group in front -/

section Front

variable [Scale α]

/-- What the rules in force decide about groups with a winner in front. -/
def decisionFor (rules : Rules α) (byWeight : Bool) (groups : List (Group α)) (firstKey : String)
    (winner : Group α) (total : Nat) : Decision α :=
  match rules.algorithm with
  | .majority => majority rules groups winner total
  | .unanimous => unanimous rules groups winner total
  | .weighted => weighted rules groups winner total
  | .firstWins => firstWins groups firstKey
  | .humanReview => humanReview rules byWeight groups winner total

/-- A rule looks at the group that comes first in its own ranking. -/
theorem decideGroups_eq_decisionFor {rules : Rules α} {byWeight : Bool} {groups : List (Group α)}
    {firstKey : String} {total : Nat} {decision : Decision α} {winner : Group α}
    {rest : List (Group α)} (h : decideGroups rules byWeight groups firstKey total = some decision)
    (hranked : decision.ranked = winner :: rest) :
    decision = decisionFor rules byWeight groups firstKey winner total := by
  -- the head of a ranking that is known to begin with the winner
  have hfront : ∀ {ranking : List (Group α)} {w : Group α}, ranking.head? = some w →
      ranking = winner :: rest → w = winner := fun hhead heq => by
    rw [heq] at hhead
    exact (Option.some.inj hhead).symm
  cases halgorithm : rules.algorithm with
  | majority =>
    simp only [decideGroups, halgorithm, Option.map_eq_some_iff] at h
    obtain ⟨w, hw, rfl⟩ := h
    rw [hfront hw hranked, decisionFor, halgorithm]
  | unanimous =>
    simp only [decideGroups, halgorithm, Option.map_eq_some_iff] at h
    obtain ⟨w, hw, rfl⟩ := h
    rw [hfront hw hranked, decisionFor, halgorithm]
  | weighted =>
    simp only [decideGroups, halgorithm, Option.map_eq_some_iff] at h
    obtain ⟨w, hw, rfl⟩ := h
    rw [hfront hw hranked, decisionFor, halgorithm]
  | firstWins =>
    simp only [decideGroups, halgorithm, Option.some.injEq] at h
    rw [← h, decisionFor, halgorithm]
  | humanReview =>
    simp only [decideGroups, halgorithm, Option.map_eq_some_iff] at h
    obtain ⟨w, hw, rfl⟩ := h
    cases byWeight with
    | false => rw [hfront hw hranked, decisionFor, halgorithm]
    | true => rw [hfront hw hranked, decisionFor, halgorithm]

/-- The verdict on at least one vote is the decision about the group in front. -/
theorem evaluateBallots_decided (weights : List (String × α)) (rules : Rules α)
    {ballots : List (Ballot α)} (hvotes : ballots ≠ []) :
    ∃ firstKey winner rest,
      let groups := groupsOf weights (counted ballots)
      let decision := decisionFor rules (!weights.isEmpty) groups firstKey winner ballots.length
      winner ∈ groups ∧ decision.ranked = winner :: rest ∧ decision.ranked.Perm groups ∧
        evaluateBallots ballots weights rules =
          { result := winner.value
            confidence := floored (capped decision.confidence)
            votes := ballots.length
            algorithm := rules.algorithm
            reached := decision.reached
            minVotes := rules.minVotes
            minConfidence := rules.minConfidence
            tally := decision.ranked.map Group.tally
            dissenters := dissentersOf groups winner
            escalation := decision.escalation } := by
  obtain ⟨first, decision, winner, rest, -, hdecision, hranked, hverdict⟩ :=
    evaluateBallots_of_votes weights rules hvotes
  have hperm := decideGroups_ranked_perm hdecision
  rw [(counted_perm ballots).length_eq] at hdecision hverdict
  obtain rfl := decideGroups_eq_decisionFor hdecision hranked
  refine ⟨first.value.canonicalKey, winner, rest, ?_, hranked, hperm, hverdict⟩
  exact hperm.mem_iff.mp (hranked ▸ List.mem_cons_self)

end Front

end Quorum.Consensus

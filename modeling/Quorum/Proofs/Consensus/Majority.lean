/-
  Quorum/Proofs/Consensus/Majority.lean
  =====================================
  **Verdicts by number: most votes win, and more than half of them, or all, settle it.**

  The support of a key is counted on the votes as they were cast, before they are grouped or
  ranked.  A verdict that accounts for its votes and whose rows go downwards names the key
  that leads (`Accounts.leads`): no other has more support, and those with as much are
  greater.  The rules that rank by number are satisfied by the support of that key
  (`majority_reached_iff`, `unanimous_reached_iff`), and for the majority rule this gives the
  verdict in terms of support alone (`evaluate_majority`).
-/
import Quorum.Proofs.Consensus.Conservation
import Quorum.Proofs.Consensus.Ranked
import Quorum.Proofs.Consensus.Winner

namespace Quorum.Consensus

/-! ### Support -/

/-- The number of votes, each given by its agent and a key, that were cast for a key. -/
def support (cast : List (String × String)) (key : String) : Nat := cast.countP fun c => c.2 == key

section Support

variable {cast : List (String × String)} {key other : String}

theorem support_le_length (cast : List (String × String)) (key : String) :
    support cast key ≤ cast.length := List.countP_le_length

theorem support_pos_iff : 0 < support cast key ↔ ∃ c ∈ cast, c.2 = key := by
  simp only [support, List.countP_pos_iff, beq_iff_eq]

theorem support_eq_length_iff : support cast key = cast.length ↔ ∀ c ∈ cast, c.2 = key := by
  simp only [support, List.countP_eq_length, beq_iff_eq]

/-- Nobody supports two keys with one vote. -/
theorem support_add_le (cast : List (String × String)) (hne : key ≠ other) :
    support cast key + support cast other ≤ cast.length := by
  have hothers : support cast other ≤ cast.countP fun c => !(c.2 == key) := by
    unfold support
    apply List.countP_mono_left
    intro c _ hc
    have hc : c.2 = other := beq_iff_eq.mp hc
    simp [hc, hne.symm]
  have hlength := List.length_eq_countP_add_countP (fun c => c.2 == key) (l := cast)
  simp only [Bool.not_eq_true, Bool.decide_eq_false] at hlength
  unfold support at hothers ⊢
  omega

/-- A key leads: no other has more support, and those with as much are greater. -/
structure Leads (cast : List (String × String)) (key : String) : Prop where
  most : ∀ other, support cast other ≤ support cast key
  ties : ∀ other, support cast other = support cast key → key ≤ other

theorem Leads.unique (h : Leads cast key) (h' : Leads cast other) : key = other := by
  have heq : support cast other = support cast key :=
    Nat.le_antisymm (h.most other) (h'.most key)
  exact le_antisymm (h.ties other heq) (h'.ties key heq.symm)

/-- More than half of the votes are enough to lead, whatever the key. -/
theorem Leads.eq_of_half_lt (h : Leads cast key) (hhalf : cast.length < 2 * support cast other) :
    key = other := by
  by_contra hne
  have hboth := support_add_le cast hne
  have hmost := h.most other
  omega

/-- Where a key has just half of the votes, nobody has more. -/
theorem not_half_lt_of_half (hhalf : 2 * support cast other = cast.length) :
    ¬ cast.length < 2 * support cast key := by
  intro hmore
  by_cases hsame : key = other
  · rw [hsame] at hmore
    omega
  · have hboth := support_add_le cast hsame
    omega

end Support

/-! ### Rows of a tally -/

section Rows

variable {α : Type}

/-- A row stands above another: it has more votes, or as many for a smaller key. -/
def StandsAbove (row next : Tally α) : Prop :=
  next.count < row.count ∨
    (row.count = next.count ∧ row.value.canonicalKey < next.value.canonicalKey)

theorem Accounts.row_support {cast : List (String × String)} {v : Verdict α}
    (h : Accounts cast v) {row : Tally α} (hrow : row ∈ v.tally) :
    row.count = support cast row.value.canonicalKey := by
  have hlength := (h.supporters row hrow).length_eq
  rw [List.length_map, ← List.countP_eq_length_filter] at hlength
  rw [h.row_count row hrow, hlength]
  rfl

/-- Where the rows go downwards, the value of the first of them leads. -/
theorem Accounts.leads {cast : List (String × String)} {v : Verdict α} (h : Accounts cast v)
    (hrows : v.tally.Pairwise StandsAbove) (hcast : cast ≠ []) :
    Leads cast v.result.canonicalKey := by
  have hvotes : 0 < v.votes := by
    rw [h.votes]
    exact Int.natCast_pos.mpr (List.length_pos_of_ne_nil hcast)
  obtain ⟨first, others, htally, hresult, -, -⟩ := h.winner hvotes
  have hfirst : (first.count : Int) = support cast v.result.canonicalKey := by
    rw [hresult]
    exact h.row_support (htally ▸ List.mem_cons_self)
  -- every key that was voted for has a row, and the first row is that one or stands above it
  have hvoted : ∀ c ∈ cast, support cast c.2 < support cast v.result.canonicalKey ∨
      (support cast c.2 = support cast v.result.canonicalKey ∧
        v.result.canonicalKey ≤ c.2) := by
    intro c hc
    obtain ⟨row, hrow, hkey⟩ := h.placed c hc
    have hcount := h.row_support hrow
    rw [hkey] at hcount
    rw [htally] at hrow hrows
    rcases List.mem_cons.mp hrow with rfl | hrow
    · right
      rw [hresult, hkey]
      exact ⟨rfl, le_rfl⟩
    · rcases (List.pairwise_cons.mp hrows).1 row hrow with hless | ⟨hsame, hbefore⟩
      · left
        omega
      · right
        rw [hresult, ← hkey]
        refine ⟨?_, hbefore.le⟩
        rw [hkey, ← hresult]
        omega
  obtain ⟨c, hc⟩ := List.exists_mem_of_ne_nil cast hcast
  have hsupported : 0 < support cast v.result.canonicalKey := by
    have hpos : 0 < support cast c.2 := support_pos_iff.mpr ⟨c, hc, rfl⟩
    rcases hvoted c hc with hless | ⟨hsame, -⟩
    · omega
    · omega
  constructor
  · intro other
    by_cases hother : 0 < support cast other
    · obtain ⟨d, hd, rfl⟩ := support_pos_iff.mp hother
      rcases hvoted d hd with hless | ⟨hsame, -⟩
      · exact hless.le
      · exact hsame.le
    · omega
  · intro other hsame
    obtain ⟨d, hd, rfl⟩ := support_pos_iff.mp (hsame ▸ hsupported)
    rcases hvoted d hd with hless | ⟨-, hle⟩
    · omega
    · exact hle

end Rows

/-! ### Verdicts by number -/

section ByNumber

variable {α : Type} [Scale α] {rules : Rules α} {ballots : List (Ballot α)}

/-- The majority rule and the rule of unanimity rank by number of votes. -/
def CountsVotes (rules : Rules α) : Prop :=
  rules.algorithm = .majority ∨ rules.algorithm = .unanimous

theorem count_eq_support {weights : List (String × α)} {g : Group α}
    (hg : g ∈ groupsOf weights (counted ballots)) :
    g.count = support (castOf ballots) g.key := by
  have hsupport : support (castOf ballots) g.key = support (castOf (counted ballots)) g.key :=
    ((castOf_counted_perm ballots).countP_eq _).symm
  have hcast := congrArg List.length (castOf_filter (counted ballots) g.key)
  rw [List.length_map, ← List.countP_eq_length_filter] at hcast
  rw [hsupport, Group.count, groupsOf_agents weights _ hg, ← hcast]
  rfl

theorem decisionFor_ranked (hrules : CountsVotes rules) (byWeight : Bool) (groups : List (Group α))
    (firstKey : String) (winner : Group α) (total : Nat) :
    (decisionFor rules byWeight groups firstKey winner total).ranked = byCount groups := by
  rcases hrules with hrules | hrules
  · simp only [decisionFor, hrules, majority]
  · simp only [decisionFor, hrules, unanimous]

theorem evaluateBallots_rows (ballots : List (Ballot α)) (weights : List (String × α))
    (hrules : CountsVotes rules) :
    (evaluateBallots ballots weights rules).tally.Pairwise StandsAbove := by
  by_cases hvotes : ballots = []
  · subst hvotes
    rw [evaluateBallots_nil]
    exact List.Pairwise.nil
  · obtain ⟨firstKey, winner, rest, -, -, hperm, hverdict⟩ :=
      evaluateBallots_decided weights rules hvotes
    rw [hverdict]
    rw [decisionFor_ranked hrules] at hperm ⊢
    refine List.pairwise_map.mpr ?_
    have hahead := byCount_ahead (groupsOf_keys_nodup weights (counted ballots))
    refine hahead.imp_of_mem ?_
    intro g h hg hh hgh
    have hgkey := groupsOf_value weights _ (hperm.mem_iff.mp hg)
    have hhkey := groupsOf_value weights _ (hperm.mem_iff.mp hh)
    unfold StandsAbove Group.tally
    rw [hgkey, hhkey]
    rcases hgh with hless | ⟨hsame, hbefore⟩
    · exact Or.inl (Int.ofNat_lt.mpr hless)
    · exact Or.inr ⟨congrArg Int.ofNat hsame, hbefore⟩

/-- Under a rule that counts votes the verdict names the key that leads. -/
theorem evaluateBallots_leads (weights : List (String × α)) (hrules : CountsVotes rules)
    (hvotes : ballots ≠ []) :
    Leads (castOf ballots) (evaluateBallots ballots weights rules).result.canonicalKey := by
  have hrows := evaluateBallots_rows ballots weights hrules
  refine (evaluateBallots_accounts ballots weights rules).leads hrows ?_
  simpa [castOf] using hvotes

/-- The majority rule is satisfied by more than half of enough votes. -/
theorem majority_reached_iff (weights : List (String × α)) (hrules : rules.algorithm = .majority)
    (hvotes : ballots ≠ []) :
    let verdict := evaluateBallots ballots weights rules
    verdict.reached = true ↔
      ballots.length < 2 * support (castOf ballots) verdict.result.canonicalKey ∧
        rules.minVotes ≤ ballots.length := by
  obtain ⟨firstKey, winner, rest, hwinner, -, -, hverdict⟩ :=
    evaluateBallots_decided weights rules hvotes
  have hkey := groupsOf_value weights _ hwinner
  have hcount := count_eq_support hwinner
  rw [hverdict]
  simp only [decisionFor, hrules, majority, Bool.and_eq_true, decide_eq_true_eq, hkey, hcount]
  rw [Nat.mul_comm]

theorem length_groupsOf_eq_one_iff {weights : List (String × α)} {g : Group α}
    (hg : g ∈ groupsOf weights (counted ballots)) :
    (groupsOf weights (counted ballots)).length = 1 ↔
      support (castOf ballots) g.key = ballots.length := by
  obtain ⟨b, hb, hvalue⟩ := exists_ballot_of_group hg
  have hb : b ∈ ballots := (counted_perm ballots).mem_iff.mp hb
  have hkey : b.value.canonicalKey = g.key := hvalue ▸ groupsOf_value weights _ hg
  rw [length_groupsOf, Finset.card_eq_one, ← length_castOf, support_eq_length_iff]
  constructor
  · rintro ⟨key, hkeys⟩ c hc
    have hsame : ∀ c ∈ ballots, c.value.canonicalKey = key := by
      intro c hc
      have hmem : c.value.canonicalKey ∈ (ballots.map fun b => b.value.canonicalKey).toFinset :=
        List.mem_toFinset.mpr (List.mem_map_of_mem hc)
      rw [hkeys] at hmem
      exact Finset.mem_singleton.mp hmem
    obtain ⟨d, hd, rfl⟩ := List.mem_map.mp hc
    exact (hsame d hd).trans ((hsame b hb).symm.trans hkey)
  · intro hall
    refine ⟨g.key, Finset.eq_singleton_iff_unique_mem.mpr ⟨?_, ?_⟩⟩
    · exact List.mem_toFinset.mpr (List.mem_map.mpr ⟨b, hb, hkey⟩)
    · intro key hmem
      obtain ⟨c, hc, rfl⟩ := List.mem_map.mp (List.mem_toFinset.mp hmem)
      exact hall _ (List.mem_map_of_mem hc)

/-- The rule of unanimity is satisfied by all of enough votes. -/
theorem unanimous_reached_iff (weights : List (String × α)) (hrules : rules.algorithm = .unanimous)
    (hvotes : ballots ≠ []) :
    let verdict := evaluateBallots ballots weights rules
    verdict.reached = true ↔
      support (castOf ballots) verdict.result.canonicalKey = ballots.length ∧
        rules.minVotes ≤ ballots.length := by
  obtain ⟨firstKey, winner, rest, hwinner, -, -, hverdict⟩ :=
    evaluateBallots_decided weights rules hvotes
  have hkey := groupsOf_value weights _ hwinner
  rw [hverdict]
  simp only [decisionFor, hrules, unanimous, Bool.and_eq_true, decide_eq_true_eq, hkey, beq_iff_eq,
    length_groupsOf_eq_one_iff hwinner]

end ByNumber

/-! ### The majority rule -/

/-- A verdict as the majority rule promises it for the votes that were cast. -/
structure ByMajority {α : Type} (cast : List (String × String)) (minVotes : Int) (v : Verdict α) :
    Prop where
  leads : Leads cast v.result.canonicalKey
  reached : v.reached = true ↔
    cast.length < 2 * support cast v.result.canonicalKey ∧ minVotes ≤ cast.length
  /-- More than half of the votes are always the result. -/
  outright : ∀ key, cast.length < 2 * support cast key → v.result.canonicalKey = key
  /-- Just half of the votes never settle it. -/
  halved : ∀ key, 2 * support cast key = cast.length → v.reached = false
  row_count : ∀ row ∈ v.tally, row.count = support cast row.value.canonicalKey
  rows : v.tally.Pairwise StandsAbove

theorem evaluateBallots_byMajority {α : Type} [Scale α] {rules : Rules α}
    {ballots : List (Ballot α)} (weights : List (String × α))
    (hrules : rules.algorithm = .majority) (hvotes : ballots ≠ []) :
    ByMajority (castOf ballots) rules.minVotes (evaluateBallots ballots weights rules) := by
  have hcounts : CountsVotes rules := Or.inl hrules
  have hleads := evaluateBallots_leads weights hcounts hvotes
  have hreached := majority_reached_iff weights hrules hvotes
  rw [← length_castOf] at hreached
  constructor
  · exact hleads
  · exact hreached
  · intro key hhalf
    exact hleads.eq_of_half_lt hhalf
  · intro key hhalf
    rw [← Bool.not_eq_true]
    intro htrue
    exact not_half_lt_of_half hhalf (hreached.mp htrue).1
  · intro row hrow
    exact (evaluateBallots_accounts ballots weights rules).row_support hrow
  · exact evaluateBallots_rows ballots weights hcounts

theorem votesCast_eq (results : List AgentResult) :
    votesCast results = castOf (results.filterMap AgentResult.ballot?) := by
  rw [ballots_eq_map, castOf, List.map_map]
  rfl

/-- **The verdict by majority.**  Of the values that successful results came to, the result
    is the one with the most support, and the smallest key among equals; it is reached
    exactly if more than half of enough votes support it. -/
theorem evaluate_majority {results : List AgentResult} (weights : List (String × Float))
    {rules : VotingRules} (hrules : rules.algorithm = .majority)
    (hvoted : ∃ r ∈ results, r.succeeded = true) :
    (∃ r ∈ results, r.succeeded = true ∧ (evaluate results weights rules).result = r.output) ∧
      ByMajority (votesCast results) rules.minVotes (evaluate results weights rules) := by
  obtain ⟨r, hr, hsucceeded⟩ := hvoted
  constructor
  · exact evaluate_result hr hsucceeded weights rules
  · have hvotes : results.filterMap AgentResult.ballot? ≠ [] :=
      List.ne_nil_of_mem (mem_ballots.mpr ⟨r, hr, hsucceeded, rfl⟩)
    rw [votesCast_eq]
    exact evaluateBallots_byMajority weights hrules hvotes

/-- Two agents against two, and one fails: the smaller key is the result, but not reached. -/
theorem evaluate_two_against_two :
    let results := [answered "a" "y" 1, answered "b" "x" 1, unanswered "c", answered "d" "x" 2,
      answered "e" "y" 2]
    VotingRules.default.algorithm = .majority ∧ (∃ r ∈ results, r.succeeded = true) ∧
      ByMajority (votesCast results) 1 (evaluate results [] VotingRules.default) ∧
      (evaluate results [] VotingRules.default).reached = false := by
  intro results
  have hrules : VotingRules.default.algorithm = .majority := rfl
  have hvoted : ∃ r ∈ results, r.succeeded = true := ⟨_, List.mem_cons_self, rfl⟩
  have hverdict := (evaluate_majority [] hrules hvoted).2
  exact ⟨hrules, hvoted, hverdict, hverdict.halved "s:x" (by decide)⟩

end Quorum.Consensus

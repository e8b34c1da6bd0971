/-
  Quorum/Proofs/Consensus/Gains.lean
  ==================================
  **Support never hurts.**

  The value that leads by number of votes gains a supporter, who was not there before or was
  for another value.  Its support grows by one, no other key gains and the number of votes
  grows by one at most (`Gain`).  So it is ahead of every other key without a tie, it has no
  smaller share of the votes, and more than half of them, or all, still are
  (`evaluate_gains`).
-/
import Mathlib.Algebra.Order.Field.Basic
import Mathlib.Algebra.Order.Field.Rat
import Quorum.Proofs.Consensus.Exact
import Quorum.Proofs.Consensus.Majority

namespace Quorum.Consensus

/-! ### One more supporter -/

/-- A successful result comes in for a key, or one that was against it changes its output. -/
inductive Gains (key : String) : List AgentResult → List AgentResult → Prop where
  | joined (before after : List AgentResult) (r : AgentResult) (hsucceeded : r.succeeded = true)
      (hkey : r.output.canonicalKey = key) : Gains key (before ++ after) (before ++ r :: after)
  | convinced (before after : List AgentResult) (r : AgentResult) (output : Value)
      (hsucceeded : r.succeeded = true) (hdissent : r.output.canonicalKey ≠ key)
      (hkey : output.canonicalKey = key) :
      Gains key (before ++ r :: after) (before ++ { r with output := output } :: after)

/-- What the gain of a supporter comes to in votes. -/
structure Gain (key : String) (cast cast' : List (String × String)) : Prop where
  gained : support cast' key = support cast key + 1
  others : ∀ other, other ≠ key → support cast' other ≤ support cast other
  no_fewer : cast.length ≤ cast'.length
  one_more : cast'.length ≤ cast.length + 1

theorem votesCast_append (before after : List AgentResult) :
    votesCast (before ++ after) = votesCast before ++ votesCast after := by
  simp only [votesCast, List.filter_append, List.map_append]

theorem votesCast_cons {r : AgentResult} (hsucceeded : r.succeeded = true)
    (after : List AgentResult) :
    votesCast (r :: after) = (r.agentName, r.output.canonicalKey) :: votesCast after := by
  simp only [votesCast, List.filter_cons_of_pos hsucceeded, List.map_cons]

theorem support_insert (before after : List (String × String)) (c : String × String)
    (key : String) : support (before ++ c :: after) key =
      support (before ++ after) key + if c.2 = key then 1 else 0 := by
  simp only [support, List.countP_append, List.countP_cons, beq_iff_eq]
  omega

theorem Gains.gain {key : String} {results results' : List AgentResult}
    (h : Gains key results results') : Gain key (votesCast results) (votesCast results') := by
  cases h with
  | joined before after r hsucceeded hkey =>
    rw [votesCast_append, votesCast_append, votesCast_cons hsucceeded, hkey]
    constructor
    · rw [support_insert, if_pos rfl]
    · intro other hother
      rw [support_insert, if_neg hother.symm]
      exact le_rfl
    · simp only [List.length_append, List.length_cons]
      omega
    · simp only [List.length_append, List.length_cons]
      omega
  | convinced before after r output hsucceeded hdissent hkey =>
    have hchanged : AgentResult.succeeded { r with output := output } = true := hsucceeded
    rw [votesCast_append, votesCast_append, votesCast_cons hsucceeded, votesCast_cons hchanged,
      hkey]
    constructor
    · rw [support_insert, support_insert, if_pos rfl, if_neg hdissent]
    · intro other hother
      rw [support_insert, support_insert, if_neg hother.symm]
      omega
    · simp only [List.length_append, List.length_cons]
      omega
    · simp only [List.length_append, List.length_cons]
      omega

section Counting

variable {key : String} {cast cast' : List (String × String)}

/-- A key that nobody was ahead of is alone in front with one more supporter. -/
theorem Gain.leads (h : Gain key cast cast')
    (hmost : ∀ other, support cast other ≤ support cast key) : Leads cast' key := by
  have hahead : ∀ other, other ≠ key → support cast' other < support cast' key := by
    intro other hother
    have hless := h.others other hother
    have hle := hmost other
    rw [h.gained]
    omega
  constructor
  · intro other
    by_cases hother : other = key
    · rw [hother]
    · exact (hahead other hother).le
  · intro other hsame
    by_cases hother : other = key
    · rw [hother]
    · exact absurd hsame (hahead other hother).ne

theorem Gain.ne_nil (h : Gain key cast cast') : cast' ≠ [] := by
  have hpos : 0 < support cast' key := by
    rw [h.gained]
    omega
  obtain ⟨c, hc, -⟩ := support_pos_iff.mp hpos
  exact List.ne_nil_of_mem hc

theorem Gain.share_le (h : Gain key cast cast') (hcast : cast ≠ []) :
    (support cast key : ℚ) / cast.length ≤ (support cast' key : ℚ) / cast'.length := by
  have hpos : (0 : ℚ) < cast.length := Nat.cast_pos.mpr (List.length_pos_of_ne_nil hcast)
  have hpos' : (0 : ℚ) < cast'.length := Nat.cast_pos.mpr (List.length_pos_of_ne_nil h.ne_nil)
  rw [div_le_div_iff₀ hpos hpos', h.gained]
  have hmore := h.one_more
  have hpart := support_le_length cast key
  have hproducts : support cast key * cast'.length ≤ (support cast key + 1) * cast.length :=
    calc support cast key * cast'.length
        ≤ support cast key * (cast.length + 1) := Nat.mul_le_mul_left _ hmore
      _ = support cast key * cast.length + support cast key := Nat.mul_succ _ _
      _ ≤ support cast key * cast.length + cast.length := Nat.add_le_add_left hpart _
      _ = (support cast key + 1) * cast.length := (Nat.succ_mul _ _).symm
  exact_mod_cast hproducts

end Counting

/-! ### Verdicts before and after -/

theorem ne_nil_of_gain {α : Type} {ballots ballots' : List (Ballot α)} {key : String}
    (h : Gain key (castOf ballots) (castOf ballots')) : ballots' ≠ [] := by
  intro hnone
  apply h.ne_nil
  rw [hnone]
  rfl

section Verdicts

variable {α : Type} [Scale α] {rules : Rules α} {weights : List (String × α)}
  {ballots ballots' : List (Ballot α)} {key : String}
  (hrules : CountsVotes rules)
  (hkey : (evaluateBallots ballots weights rules).result.canonicalKey = key)
  (h : Gain key (castOf ballots) (castOf ballots'))
include hrules hkey h

theorem leads_of_gain : Leads (castOf ballots') key := by
  apply h.leads
  intro other
  by_cases hvotes : ballots = []
  · subst hvotes
    exact le_rfl
  · have hleads := evaluateBallots_leads weights hrules hvotes
    rw [hkey] at hleads
    exact hleads.most other

theorem evaluateBallots_gain_key :
    (evaluateBallots ballots' weights rules).result.canonicalKey = key := by
  have hleads := evaluateBallots_leads weights hrules (ne_nil_of_gain h)
  exact hleads.unique (leads_of_gain hrules hkey h)

theorem evaluateBallots_gain_reached
    (hreached : (evaluateBallots ballots weights rules).reached = true) :
    (evaluateBallots ballots' weights rules).reached = true := by
  have hkey' := evaluateBallots_gain_key hrules hkey h
  have hvotes : ballots ≠ [] := by
    rintro rfl
    rw [evaluateBallots_nil] at hreached
    exact Bool.false_ne_true hreached
  have hvotes' := ne_nil_of_gain h
  have hgained := h.gained
  have hfewer := h.no_fewer
  have hmore := h.one_more
  have hpart := support_le_length (castOf ballots') key
  simp only [length_castOf] at hfewer hmore hpart
  rcases hrules with hrules | hrules
  · have hbefore := (majority_reached_iff weights hrules hvotes).mp hreached
    apply (majority_reached_iff weights hrules hvotes').mpr
    rw [hkey] at hbefore
    rw [hkey']
    obtain ⟨hhalf, henough⟩ := hbefore
    constructor
    · omega
    · omega
  · have hbefore := (unanimous_reached_iff weights hrules hvotes).mp hreached
    apply (unanimous_reached_iff weights hrules hvotes').mpr
    rw [hkey] at hbefore
    rw [hkey']
    obtain ⟨hall, henough⟩ := hbefore
    constructor
    · omega
    · omega

end Verdicts

/-! ### Exact confidence -/

section Confidence

variable {rules : Rules ℚ} {ballots : List (Ballot ℚ)}

/-- A rule that counts votes is as confident as the share of the votes is. -/
theorem confidence_eq_share (weights : List (String × ℚ)) (hrules : CountsVotes rules)
    (hvotes : ballots ≠ []) :
    let verdict := evaluateBallots ballots weights rules
    verdict.confidence =
      (support (castOf ballots) verdict.result.canonicalKey : ℚ) / ballots.length := by
  obtain ⟨firstKey, winner, rest, hwinner, -, -, hverdict⟩ :=
    evaluateBallots_decided weights rules hvotes
  have hkey := groupsOf_value weights _ hwinner
  have hpart := support_le_length (castOf ballots) winner.key
  rw [length_castOf] at hpart
  have hpos : (0 : ℚ) < ballots.length := Nat.cast_pos.mpr (List.length_pos_of_ne_nil hvotes)
  have hlow : (0 : ℚ) ≤ (support (castOf ballots) winner.key : ℚ) / ballots.length :=
    div_nonneg (Nat.cast_nonneg _) hpos.le
  have hhigh : (support (castOf ballots) winner.key : ℚ) / ballots.length ≤ 1 := by
    rw [div_le_one₀ hpos]
    exact_mod_cast hpart
  have hplurality : plurality winner ballots.length =
      (support (castOf ballots) winner.key : ℚ) / ballots.length := by
    simp only [plurality, Scale.div_rat, Scale.ofNat_rat, count_eq_support hwinner]
  have hdecision : (decisionFor rules (!weights.isEmpty) (groupsOf weights (counted ballots))
      firstKey winner ballots.length).confidence =
        (support (castOf ballots) winner.key : ℚ) / ballots.length := by
    rcases hrules with hrules | hrules
    · simp only [decisionFor, hrules, majority, hplurality]
    · simp only [decisionFor, hrules, unanimous, hplurality]
      split
      · next hreached =>
        -- all votes are there, so their share is one
        simp only [Bool.and_eq_true, beq_iff_eq, length_groupsOf_eq_one_iff hwinner] at hreached
        rw [hreached.1, div_self hpos.ne']
        rfl
      · rfl
  rw [hverdict]
  simp only [hkey, hdecision, clamped_eq hlow hhigh]

end Confidence

/-! ### Results before and after -/

theorem castOf_weighedVotes {α : Type} (own : AgentResult → α) (results : List AgentResult) :
    castOf (weighedVotes own results) = votesCast results := by
  rw [castOf, weighedVotes, List.map_map]
  rfl

theorem weighedVotes_eq_nil_iff {α : Type} (own : AgentResult → α) {results : List AgentResult} :
    weighedVotes own results = [] ↔ votesCast results = [] := by
  rw [← castOf_weighedVotes own, castOf, List.map_eq_nil_iff]

theorem weighedVotes_ne_nil {α : Type} (own : AgentResult → α) {results : List AgentResult}
    (hvotes : votesCast results ≠ []) : weighedVotes own results ≠ [] :=
  mt (weighedVotes_eq_nil_iff own).mp hvotes

theorem evaluateWith_leads {α : Type} [Scale α] (own : AgentResult → α)
    (weights : List (String × α)) {rules : Rules α} (hrules : CountsVotes rules)
    {results : List AgentResult} (hvotes : votesCast results ≠ []) :
    Leads (votesCast results) (evaluateWith own results weights rules).result.canonicalKey := by
  rw [← castOf_weighedVotes own]
  exact evaluateBallots_leads weights hrules (weighedVotes_ne_nil own hvotes)

/-- Exact or not, the weights have no say in what is counted. -/
theorem evaluateExactly_key {rules : VotingRules} (hrules : CountsVotes rules)
    (results : List AgentResult) (weights : List (String × Float)) :
    (evaluateExactly results weights rules).result.canonicalKey =
      (evaluate results weights rules).result.canonicalKey := by
  rw [evaluate_eq_evaluateWith]
  have hrules' : CountsVotes (exactRules rules) := hrules
  by_cases hvotes : votesCast results = []
  · rw [evaluateExactly, evaluateWith, (weighedVotes_eq_nil_iff _).mpr hvotes, evaluateWith,
      (weighedVotes_eq_nil_iff _).mpr hvotes, evaluateBallots_nil, evaluateBallots_nil]
    rfl
  · exact (evaluateWith_leads exactWeight (exactWeights weights) hrules' hvotes).unique
      (evaluateWith_leads AgentResult.weight weights hrules hvotes)

/-- The exact confidence is the share of the votes that support the result. -/
theorem evaluateExactly_confidence {rules : VotingRules} (hrules : CountsVotes rules)
    {results : List AgentResult} (weights : List (String × Float))
    (hvotes : votesCast results ≠ []) :
    (evaluateExactly results weights rules).confidence =
      (support (votesCast results) (evaluate results weights rules).result.canonicalKey : ℚ) /
        (votesCast results).length := by
  have hrules' : CountsVotes (exactRules rules) := hrules
  have hshare := confidence_eq_share (exactWeights weights) hrules'
    (weighedVotes_ne_nil exactWeight hvotes)
  rw [← length_castOf, castOf_weighedVotes] at hshare
  rw [← evaluateExactly_key hrules]
  exact hshare

/-- **Support never hurts.**  If the majority rule or unanimity names a value, and a success
    comes in for it or one that was for another value changes to it, then the value stays the
    result, the exact confidence does not fall, and what was reached stays reached. -/
theorem evaluate_gains {key : String} {results results' : List AgentResult}
    (weights : List (String × Float)) {rules : VotingRules} (hrules : CountsVotes rules)
    (hkey : (evaluate results weights rules).result.canonicalKey = key)
    (hgains : Gains key results results') :
    (evaluate results' weights rules).result.canonicalKey = key ∧
      (evaluateExactly results weights rules).confidence ≤
        (evaluateExactly results' weights rules).confidence ∧
      ((evaluate results weights rules).reached = true →
        (evaluate results' weights rules).reached = true) := by
  have hgain := hgains.gain
  have hkey' : (evaluate results' weights rules).result.canonicalKey = key := by
    rw [evaluate_eq_evaluateWith] at hkey ⊢
    exact evaluateBallots_gain_key hrules hkey (by simpa only [castOf_weighedVotes])
  refine ⟨hkey', ?_, ?_⟩
  · rw [evaluateExactly_confidence hrules weights hgain.ne_nil, hkey']
    by_cases hvotes : votesCast results = []
    · -- without a vote there is no confidence yet
      rw [evaluateExactly, evaluateWith, (weighedVotes_eq_nil_iff _).mpr hvotes,
        evaluateBallots_nil]
      exact div_nonneg (Nat.cast_nonneg _) (Nat.cast_nonneg _)
    · rw [evaluateExactly_confidence hrules weights hvotes, hkey]
      exact hgain.share_le hvotes
  · intro hreached
    rw [evaluate_eq_evaluateWith] at hkey hreached ⊢
    exact evaluateBallots_gain_reached hrules hkey
      (by simpa only [castOf_weighedVotes]) hreached

/-- One against two comes round, and there are three of three. -/
theorem evaluate_one_convinced :
    let results := [answered "a" "x" 1, answered "b" "y" 1, answered "c" "x" 2]
    let results' := [answered "a" "x" 1, answered "b" "x" 1, answered "c" "x" 2]
    CountsVotes VotingRules.default ∧
      (evaluate results [] VotingRules.default).result.canonicalKey = "s:x" ∧
      Gains "s:x" results results' ∧
      (evaluate results' [] VotingRules.default).result.canonicalKey = "s:x" ∧
      (evaluateExactly results [] VotingRules.default).confidence ≤
        (evaluateExactly results' [] VotingRules.default).confidence := by
  intro results results'
  have hrules : CountsVotes VotingRules.default := Or.inl rfl
  have hkey : (evaluate results [] VotingRules.default).result.canonicalKey = "s:x" := by
    rw [evaluate_eq_evaluateWith]
    have hvotes : votesCast results ≠ [] := List.cons_ne_nil _ _
    exact (evaluateWith_leads AgentResult.weight [] hrules hvotes).eq_of_half_lt (by decide)
  have hgains : Gains "s:x" results results' :=
    Gains.convinced [answered "a" "x" 1] [answered "c" "x" 2] (answered "b" "y" 1) (.text "x")
      rfl (by decide) (by decide)
  have hverdict := evaluate_gains [] hrules hkey hgains
  exact ⟨hrules, hkey, hgains, hverdict.1, hverdict.2.1⟩

end Quorum.Consensus

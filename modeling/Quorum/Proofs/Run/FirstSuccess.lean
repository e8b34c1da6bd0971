/-
  Quorum/Proofs/Run/FirstSuccess.lean
  ===================================
  **Settling for the first success changes no verdict.**

  A tier whose rules let the first success win does not wait for the others.  Had it waited,
  the others would only have added votes that arrived later, and the first vote would still
  have been the first (`firstVote_spec`).  This asks of the clock that it tells successes
  apart: it counts microseconds, and of two votes with one time stamp the name decides and
  not the arrival.  So the verdict is the one a patient tier would have had, and nobody is
  cancelled unless somebody succeeded (`runTier_first_success`).
-/
import Quorum.Proofs.Run.ScheduleFree

namespace Quorum

theorem firstStop?_spec {attempts : List Attempt} {q : Attempt → Bool} {t : Instant}
    (h : firstStop? attempts q = some t) :
    (∃ a ∈ attempts, q a = true ∧ a.span.stop = t) ∧
      ∀ a ∈ attempts, q a = true → t ≤ a.span.stop := by
  obtain ⟨hmem, hearliest⟩ := Instant.earliest?_spec h
  simp only [List.mem_map, List.mem_filter] at hmem hearliest
  constructor
  · obtain ⟨a, ⟨ha, hq⟩, hstop⟩ := hmem
    exact ⟨a, ha, hq, hstop⟩
  · intro a ha hq
    exact hearliest _ ⟨a, ⟨ha, hq⟩, rfl⟩

theorem firstStop?_eq_none_iff {attempts : List Attempt} {q : Attempt → Bool} :
    firstStop? attempts q = none ↔ ∀ a ∈ attempts, q a = false := by
  rw [firstStop?, Instant.earliest?_eq_none, List.map_eq_nil_iff, List.filter_eq_nil_iff]
  simp

namespace Executor

variable {x : Executor} {p : TierPlan}

/-- No two attempts of a tier succeed at the same instant of the clock. -/
def SuccessesApart (x : Executor) (p : TierPlan) : Prop :=
  ∀ a ∈ x.attempts p, ∀ b ∈ x.attempts p, a.succeeds = true → b.succeeds = true →
    x.timestamp a.span.stop = x.timestamp b.span.stop → a.agent.name = b.agent.name

instance (x : Executor) (p : TierPlan) : Decidable (x.SuccessesApart p) :=
  inferInstanceAs (Decidable (∀ a ∈ x.attempts p, ∀ b ∈ x.attempts p, _))

/-! ### The votes of a tier -/

theorem resultAt_of_over {t : Instant} {a : Attempt} (hover : a.span.stop ≤ t) :
    x.resultAt p t a = x.resultOf p.tier (p.weightOf a.agent.name) a :=
  if_pos hover

/-- The successes of a tier that ends at an instant are the attempts that succeeded by
    then. -/
theorem resultAt_succeeded {t : Instant} {a : Attempt} :
    (x.resultAt p t a).succeeded = true ↔ a.span.stop ≤ t ∧ a.succeeds = true := by
  by_cases hover : a.span.stop ≤ t
  · rw [resultAt_of_over hover, resultOf_succeeded]
    simp [hover]
  · rw [resultAt, if_neg hover, (stragglerResult_isFailure x p.tier _ t a).not_succeeded]
    simp [hover]

section First

variable (hplaces : 1 ≤ x.places) (hnames : (p.agents.map Agent.name).Nodup)
  (hapart : x.SuccessesApart p) {first : Attempt} (hmem : first ∈ x.attempts p)
  (hsucceeds : first.succeeds = true)
  (hearliest : ∀ a ∈ x.attempts p, a.succeeds = true → first.span.stop ≤ a.span.stop)
include hplaces hnames hapart hmem hsucceeds hearliest

/-- However long a tier waits after its first success, the vote of that success arrived
    before all others. -/
theorem firstVote_spec {t : Instant} (ht : first.span.stop ≤ t) :
    let ballots := (x.resultsAt p t (x.attempts p)).filterMap AgentResult.ballot?
    let vote := (x.resultAt p first.span.stop first).ballot
    vote ∈ ballots ∧ ∀ b ∈ ballots, b.completedAt ≤ vote.completedAt → b = vote := by
  have hvote : x.resultAt p first.span.stop first = x.resultAt p t first := by
    rw [resultAt_of_over (le_refl _), resultAt_of_over ht]
  simp only [Consensus.mem_ballots, mem_resultsAt]
  constructor
  · rw [hvote]
    exact ⟨_, ⟨first, hmem, rfl⟩, resultAt_succeeded.mpr ⟨ht, hsucceeds⟩, rfl⟩
  · rintro _ ⟨_, ⟨a, ha, rfl⟩, hsucceeded, rfl⟩ hbefore
    obtain ⟨hover, hasucceeds⟩ := resultAt_succeeded.mp hsucceeded
    -- the attempt stopped no earlier, so the clock shows the same for both
    have hafter := x.micros_timestamp_mono (hearliest a ha hasucceeds)
    rw [resultAt_of_over hover, resultAt_of_over (le_refl _)] at hbefore
    simp only [AgentResult.ballot, resultOf_completedAt] at hbefore
    have hstamp : x.timestamp a.span.stop = x.timestamp first.span.stop := by
      have hmicros := Int.le_antisymm hbefore hafter
      simp only [timestamp, Timestamp.after] at hmicros ⊢
      rw [hmicros]
    have hname := hapart a ha first hmem hasucceeds hsucceeds hstamp
    rw [attempt_eq_of_name_eq hplaces hnames ha hmem hname, hvote]

/-- Nothing a tier waits for after its first success has an influence on its verdict. -/
theorem firstWins_verdict_at (hrules : p.rules.algorithm = .firstWins) {t : Instant}
    (ht : first.span.stop ≤ t) :
    let verdict := Consensus.evaluate (x.resultsAt p t (x.attempts p)) p.weights p.rules
    verdict.result.canonicalKey =
        (x.resultAt p first.span.stop first).output.canonicalKey ∧
      verdict.reached = true ∧
      verdict.confidence = Consensus.floored (Consensus.capped Scale.one) ∧
      verdict.noData = false := by
  obtain ⟨hvote, halone⟩ := firstVote_spec hplaces hnames hapart hmem hsucceeds hearliest ht
  exact Consensus.firstWins_verdict hrules hvote halone

end First

/-! ### Early and patient tiers -/

/-- A tier that waits for everybody has the same results however much longer it waits. -/
theorem resultsAt_eq_of_over {t u : Instant} {attempts : List Attempt}
    (ht : ∀ a ∈ attempts, a.span.stop ≤ t) (hu : ∀ a ∈ attempts, a.span.stop ≤ u) :
    x.resultsAt p t attempts = x.resultsAt p u attempts := by
  have hresults : attempts.map (x.resultAt p t) = attempts.map (x.resultAt p u) :=
    List.map_congr_left fun a ha => by
      rw [resultAt_of_over (ht a ha), resultAt_of_over (hu a ha)]
  exact congrArg (List.mergeSort · nameOrder) hresults

end Executor

/-- Two verdicts say the same of the winner: its value, how sure it is, and whether there is
    one at all. -/
structure Verdict.AgreesWith (v w : Verdict Float) : Prop where
  result : v.result.canonicalKey = w.result.canonicalKey
  reached : v.reached = w.reached
  confidence : v.confidence = w.confidence
  noData : v.noData = w.noData

/-- Among the results of a tier that ended early this one is what a patient tier has, or its
    agent was cancelled, and then somebody had succeeded before. -/
def AgentResult.IsOwnOrCancelled (early all : List AgentResult) (r : AgentResult) : Prop :=
  r ∈ all ∨ r.error = some stragglerText ∧ r.errorKind = some .cancelled ∧
    ∃ s ∈ early, s.succeeded = true ∧ s.completedAt.micros ≤ r.completedAt.micros

namespace Executor

variable {x : Executor} {p : TierPlan}

/-- How the results of a tier that closes with its first success compare with those of a tier
    that goes on. -/
theorem settled_agrees (hplaces : 1 ≤ x.places) (hnames : (p.agents.map Agent.name).Nodup)
    (hrules : p.rules.algorithm = .firstWins) (hapart : x.SuccessesApart p) {first : Attempt}
    (hmem : first ∈ x.attempts p) (hsucceeds : first.succeeds = true)
    (hearliest : ∀ a ∈ x.attempts p, a.succeeds = true → first.span.stop ≤ a.span.stop)
    {last : Instant} (hover : ∀ a ∈ x.attempts p, a.span.stop ≤ last) :
    let early := x.resultsAt p first.span.stop (x.attempts p)
    let all := x.resultsAt p last (x.attempts p)
    let verdict := Consensus.evaluate early p.weights p.rules
    verdict.AgreesWith (Consensus.evaluate all p.weights p.rules) ∧
      (verdict.reached = true ↔ ∃ r ∈ all, r.succeeded = true) ∧
      ∀ r ∈ early, r.IsOwnOrCancelled early all := by
  intro early all verdict
  obtain ⟨hkey, hreached, hconfidence, hdata⟩ := firstWins_verdict_at hplaces hnames hapart hmem
    hsucceeds hearliest hrules (le_refl first.span.stop)
  obtain ⟨hkey', hreached', hconfidence', hdata'⟩ := firstWins_verdict_at hplaces hnames hapart
    hmem hsucceeds hearliest hrules (hover first hmem)
  refine ⟨⟨?_, ?_, ?_, ?_⟩, ?_, ?_⟩
  · rw [hkey, hkey']
  · rw [hreached, hreached']
  · rw [hconfidence, hconfidence']
  · rw [hdata, hdata']
  · refine iff_of_true hreached ⟨x.resultAt p last first, ?_, ?_⟩
    · exact mem_resultsAt.mpr ⟨first, hmem, rfl⟩
    · exact resultAt_succeeded.mpr ⟨hover first hmem, hsucceeds⟩
  · intro r hr
    obtain ⟨a, ha, rfl⟩ := mem_resultsAt.mp hr
    by_cases hdone : a.span.stop ≤ first.span.stop
    · left
      rw [resultAt_of_over hdone, ← resultAt_of_over (hover a ha)]
      exact mem_resultsAt.mpr ⟨a, ha, rfl⟩
    · right
      rw [resultAt, if_neg hdone]
      refine ⟨rfl, rfl, x.resultAt p first.span.stop first, ?_, ?_, ?_⟩
      · exact mem_resultsAt.mpr ⟨first, hmem, rfl⟩
      · exact resultAt_succeeded.mpr ⟨le_refl _, hsucceeds⟩
      · rw [resultAt_of_over (le_refl _), resultOf_completedAt]
        exact le_refl _

end Executor

end Quorum

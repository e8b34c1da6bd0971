/-
  Quorum/Proofs/Run/Turns.lean
  ============================
  **What an agent comes to when it gets its turn.**

  In a tier of agents of different names an agent comes to the same whenever it gets its turn
  (`outcome_of_mem_attempts`), so nobody is cancelled from within in the tier if nobody is
  at its turn (`calmIn_of_outcomeFor`).  A tier waits for an agent unless the first success
  wins and is somebody else's (`stop_le_closing`), and then the agent has a result of its own
  (`exists_result`).
-/
import Quorum.Proofs.Run.FirstSuccess

namespace Quorum

theorem Attempt.isFatal_iff {a : Attempt} : a.isFatal = true ↔ a.outcome = .cancelled := by
  unfold isFatal
  split
  · rename_i hcancelled
    simp [hcancelled]
  · rename_i hcancelled
    simpa using hcancelled

namespace Executor

variable {x : Executor} {p : TierPlan} {a : Agent}

theorem resultOf_of_success {t : Attempt} {v : Value} (h : t.outcome = .success v)
    (x : Executor) (tier : Int) (weight : Float) :
    (x.resultOf tier weight t).error = none ∧ (x.resultOf tier weight t).errorKind = none ∧
      (x.resultOf tier weight t).output = v := by
  unfold resultOf
  rw [h]
  exact ⟨rfl, rfl, rfl⟩

theorem resultOf_of_failure {t : Attempt} {kind : FailureKind} {message : String}
    (h : t.outcome = .failure kind message) (x : Executor) (tier : Int) (weight : Float) :
    (x.resultOf tier weight t).succeeded = false ∧
      (x.resultOf tier weight t).errorKind = some kind := by
  unfold resultOf
  rw [h]
  exact ⟨rfl, rfl⟩

/-- What an agent comes to when it gets its turn in a tier. -/
def outcomeFor (x : Executor) (p : TierPlan) (a : Agent) : Outcome :=
  ((x.conduct a p.context 0).stay (x.timeoutFor a p.rules)).ending.outcome
    (x.timeoutFor a p.rules)

section Turns

variable (hplaces : 1 ≤ x.places) (hnames : (p.agents.map Agent.name).Nodup)
include hplaces hnames

theorem outcome_of_mem_attempts {t : Attempt} (ht : t ∈ x.attempts p) :
    t.outcome = x.outcomeFor p t.agent := by
  obtain ⟨-, hattempt, -⟩ := mem_attempts hplaces hnames ht
  rw [hattempt]
  rfl

/-- If nobody is cancelled from within when it gets its turn, nobody is in the tier. -/
theorem calmIn_of_outcomeFor (h : ∀ a ∈ p.agents, x.outcomeFor p a ≠ .cancelled) :
    x.CalmIn p := by
  intro t ht
  obtain ⟨hmem, -⟩ := mem_attempts hplaces hnames ht
  rw [Bool.eq_false_iff, ne_eq, Attempt.isFatal_iff, outcome_of_mem_attempts hplaces hnames ht]
  exact h t.agent hmem

/-- A tier that settles for the first success waits for an agent nonetheless if nobody else
    succeeds, and any other tier waits for everybody. -/
theorem stop_le_closing (hx : x.CalmIn p)
    (hrivals : p.rules.algorithm = .firstWins → ∀ other ∈ p.agents, other.name ≠ a.name →
      ∀ v, x.outcomeFor p other ≠ .success v)
    {t : Attempt} (ht : t ∈ x.attempts p) (hname : t.agent.name = a.name) :
    t.span.stop ≤ (closing p.rules p.start (x.attempts p)).instant := by
  have hwaits : t.span.stop ≤
      (Closing.complete (Instant.latestFrom p.start
        ((x.attempts p).map fun a => a.span.stop))).instant :=
    (Instant.latestFrom_spec _ _).2 _ (List.mem_map_of_mem ht)
  rw [closing_of_not_fatal p.rules p.start hx]
  by_cases hrules : p.rules.algorithm = .firstWins
  · have hresolves : p.rules.algorithm.resolvesEarly = true := by rw [hrules]; rfl
    rw [if_pos hresolves]
    cases hfirst : firstStop? (x.attempts p) Attempt.succeeds with
    | none => exact hwaits
    | some u =>
      -- the first success is the agent's own
      obtain ⟨⟨first, hmem, hsucceeds, rfl⟩, -⟩ := firstStop?_spec hfirst
      have hown : first.agent.name = a.name := by
        by_contra hother
        obtain ⟨hagent, -⟩ := mem_attempts hplaces hnames hmem
        have hrival := hrivals hrules first.agent hagent hother
        rw [← outcome_of_mem_attempts hplaces hnames hmem] at hrival
        unfold Attempt.succeeds at hsucceeds
        split at hsucceeds
        · rename_i v hsuccess
          exact hrival v hsuccess
        · cases hsucceeds
      cases attempt_eq_of_name_eq hplaces hnames ht hmem (hname.trans hown.symm)
      exact le_refl _
  · rw [if_neg (by simp [resolvesEarly_of_ne hrules])]
    exact hwaits

/-- An agent whom the tier waits for has a result of its own in the tier. -/
theorem exists_result (hx : x.CalmIn p) (hdeadline : p.deadline = none) (ha : a ∈ p.agents)
    (hrivals : p.rules.algorithm = .firstWins → ∀ other ∈ p.agents, other.name ≠ a.name →
      ∀ v, x.outcomeFor p other ≠ .success v) :
    ∃ e, (x.runTier p).ending = .evaluated e ∧ p.Answered e.results ∧
      ∃ t : Attempt, t.outcome = x.outcomeFor p a ∧ t.agent.name = a.name ∧
        x.resultOf p.tier (p.weightOf a.name) t ∈ e.results := by
  have hending := runTier_of_calmIn hx (by omega) hdeadline
  rw [← attempts_agents hplaces hnames] at ha
  obtain ⟨t, ht, rfl⟩ := List.mem_map.mp ha
  have hover := stop_le_closing hplaces hnames hx hrivals ht rfl
  refine ⟨_, hending, resultsAt_answered hplaces hnames _, t,
    outcome_of_mem_attempts hplaces hnames ht, rfl, ?_⟩
  rw [← resultAt_of_over hover]
  exact mem_resultsAt.mpr ⟨t, ht, rfl⟩

end Turns

end Executor

end Quorum

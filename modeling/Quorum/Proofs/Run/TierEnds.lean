/-
  Quorum/Proofs/Run/TierEnds.lean
  ===============================
  **How a tier ends.**

  A tier without a negative number of places ends in one of three ways: its deadline cuts
  it short, an invocation that was cancelled from within takes it along, or its results are
  evaluated (`runTier_ending`).  A time limit turns a cancellation into a timeout, so
  agents that never cancel themselves never do so under a limit, whatever they do once the
  limit has struck; a tier of such agents is not abandoned (`runTier_ending_of_calm`).
-/
import Mathlib.Data.List.Basic
import Quorum.Run.Tier

namespace Quorum

/-! ### Invocations that do not cancel themselves -/

/-- The three ways in which a limited behaviour ends. -/
theorem Behaviour.stay_ending (b : Behaviour) (limit : Number) :
    (b.stay limit).ending = b.ending ∨ (b.stay limit).ending = .raised (.timedOut "") ∨
      ∃ more e, b.lingering = some (more, e) ∧ (b.stay limit).ending = afterLimit e := by
  unfold stay
  split
  · exact Or.inl rfl
  · split
    · exact Or.inr (Or.inl rfl)
    · split
      · exact Or.inl rfl
      · split
        · exact Or.inr (Or.inl rfl)
        · rename_i more e hlingering
          exact Or.inr (Or.inr ⟨more, e, hlingering, rfl⟩)

theorem Behaviour.afterLimit_ne_cancelled (e : Ending) : afterLimit e ≠ .raised .cancelled := by
  unfold afterLimit
  split
  · intro h
    cases h
  · assumption

theorem Behaviour.stay_ending_ne_cancelled {b : Behaviour} (hb : b.ending ≠ .raised .cancelled)
    (limit : Number) : (b.stay limit).ending ≠ .raised .cancelled := by
  rcases b.stay_ending limit with h | h | ⟨more, e, -, h⟩
  · rwa [h]
  · rw [h]
    intro heq
    cases heq
  · rw [h]
    exact afterLimit_ne_cancelled e

theorem Ending.outcome_eq_cancelled {e : Ending} {limit : Number}
    (h : e.outcome limit = .cancelled) : e = .raised .cancelled := by
  unfold outcome at h
  split at h
  · split at h <;> cases h
  · cases h
  · rfl
  · split at h <;> cases h
  · cases h

/-! ### Attempts -/

namespace Executor

variable {x : Executor} {p : TierPlan}

/-- Every attempt of a tier is an invocation in the tier's context. -/
theorem behaviour_of_mem_attempts {a : Attempt} (ha : a ∈ x.attempts p) :
    ∃ agent turn, a.behaviour = x.conduct agent p.context turn := by
  obtain ⟨⟨agent, limit, behaviour, span⟩, hmem, rfl⟩ := List.mem_map.mp ha
  have hbehaviour := (List.of_mem_zip (List.of_mem_zip (List.of_mem_zip hmem).2).2).1
  obtain ⟨⟨agent', turn⟩, -, hconduct⟩ := List.mem_map.mp hbehaviour
  exact ⟨agent', turn, hconduct.symm⟩

/-- Agents that never cancel themselves. -/
def Calm (x : Executor) : Prop :=
  ∀ agent context turn, (x.conduct agent context turn).ending ≠ .raised .cancelled

theorem Calm.not_isFatal (hx : x.Calm) {a : Attempt} (ha : a ∈ x.attempts p) :
    a.isFatal = false := by
  obtain ⟨agent, turn, hbehaviour⟩ := behaviour_of_mem_attempts ha
  have hstay : a.stay.ending ≠ .raised .cancelled := by
    refine Behaviour.stay_ending_ne_cancelled ?_ a.limit
    rw [hbehaviour]
    exact hx agent p.context turn
  unfold Attempt.isFatal
  split
  · rename_i hcancelled
    exact absurd (Ending.outcome_eq_cancelled hcancelled) hstay
  · rfl

/-- Nobody is cancelled from within in a tier. -/
def CalmIn (x : Executor) (p : TierPlan) : Prop := ∀ a ∈ x.attempts p, a.isFatal = false

theorem Calm.calmIn (hx : x.Calm) (p : TierPlan) : x.CalmIn p := fun _ ha => hx.not_isFatal ha

end Executor

theorem resolvesEarly_of_ne {rules : VotingRules} (hrules : rules.algorithm ≠ .firstWins) :
    rules.algorithm.resolvesEarly = false := by
  simpa [Algorithm.resolvesEarly] using hrules

theorem firstStop?_eq_none {attempts : List Attempt} {q : Attempt → Bool}
    (h : ∀ a ∈ attempts, q a = false) : firstStop? attempts q = none := by
  have hnone : attempts.filter q = [] := List.filter_eq_nil_iff.mpr fun a ha => by simp [h a ha]
  rw [firstStop?, hnone]
  rfl

/-- A tier in which no attempt is fatal closes with its first success, if its rules settle for
    one and there is one, and with its last attempt otherwise. -/
theorem closing_of_not_fatal (rules : VotingRules) (start : Instant) {attempts : List Attempt}
    (h : ∀ a ∈ attempts, a.isFatal = false) :
    closing rules start attempts =
      match if rules.algorithm.resolvesEarly then firstStop? attempts Attempt.succeeds else none with
      | some t => .settled t
      | none => .complete (Instant.latestFrom start (attempts.map fun a => a.span.stop)) := by
  simp only [closing, firstStop?_eq_none h]
  generalize (if rules.algorithm.resolvesEarly then firstStop? attempts Attempt.succeeds
    else none) = success
  cases success <;> rfl

/-- A tier in which no attempt is fatal is not abandoned. -/
theorem closing_ne_abandoned {rules : VotingRules} {start : Instant} {attempts : List Attempt}
    (h : ∀ a ∈ attempts, a.isFatal = false) (t : Instant) :
    closing rules start attempts ≠ .abandoned t := by
  rw [closing_of_not_fatal rules start h]
  split <;> exact Closing.noConfusion

/-! ### Whole tiers -/

namespace Executor

variable {x : Executor} {p : TierPlan}

/-- The ways in which a tier ends. -/
theorem runTier_ending (x : Executor) (p : TierPlan) :
    (x.places < 0 ∧ (x.runTier p).ending = .escaped .negativePlaces) ∨
    (∃ d, p.deadline = some d ∧ (x.runTier p).ending = .expired) ∨
    (∃ t, closing p.rules p.start (x.attempts p) = .abandoned t ∧
      (x.runTier p).ending = .escaped .cancelled) ∨
    (∃ t, (x.runTier p).ending = .evaluated (x.executionAt p t (x.attempts p))) := by
  unfold runTier
  split
  · rename_i hplaces
    exact Or.inl ⟨hplaces, rfl⟩
  · simp only
    split
    · rename_i d hexpires
      obtain ⟨hd, -⟩ := Option.filter_eq_some_iff.mp hexpires
      exact Or.inr (Or.inl ⟨d, hd, rfl⟩)
    · split
      · rename_i t hclosing
        exact Or.inr (Or.inr (Or.inl ⟨t, hclosing, rfl⟩))
      · exact Or.inr (Or.inr (Or.inr ⟨_, rfl⟩))

theorem evaluated_execution {e : Execution} (hending : (x.runTier p).ending = .evaluated e) :
    ∃ t, e = x.executionAt p t (x.attempts p) := by
  rcases x.runTier_ending p with ⟨-, h⟩ | ⟨d, -, h⟩ | ⟨t, -, h⟩ | ⟨t, h⟩
  all_goals
    rw [h] at hending
    cases hending
  exact ⟨t, rfl⟩

/-- A tier of agents that do not cancel themselves is cut short by its deadline or
    evaluated. -/
theorem runTier_ending_of_calm (hx : x.Calm) (hplaces : 0 ≤ x.places) :
    (∃ d, p.deadline = some d ∧ (x.runTier p).ending = .expired) ∨
    (∃ t, (x.runTier p).ending = .evaluated (x.executionAt p t (x.attempts p))) := by
  rcases x.runTier_ending p with ⟨hnegative, -⟩ | hexpired | ⟨t, hclosing, -⟩ | hevaluated
  · exact absurd hnegative (Int.not_lt.mpr hplaces)
  · exact Or.inl hexpired
  · exact absurd hclosing (closing_ne_abandoned (fun a ha => hx.not_isFatal ha) t)
  · exact Or.inr hevaluated

theorem expiresBy_of_none (hdeadline : p.deadline = none) (t : Instant) :
    expiresBy p t = none := by
  rw [expiresBy, hdeadline]
  rfl

/-- A tier in which nobody is cancelled from within and that has no deadline is evaluated when
    it closes. -/
theorem runTier_of_calmIn (hx : x.CalmIn p) (hplaces : 0 ≤ x.places)
    (hdeadline : p.deadline = none) :
    (x.runTier p).ending = .evaluated (x.executionAt p
      (closing p.rules p.start (x.attempts p)).instant (x.attempts p)) := by
  have hexpires := expiresBy_of_none hdeadline
  have hclosing (t : Instant) : closing p.rules p.start (x.attempts p) ≠ .abandoned t :=
    closing_ne_abandoned hx t
  unfold runTier
  rw [if_neg (Int.not_lt.mpr hplaces)]
  cases hclose : closing p.rules p.start (x.attempts p) with
  | complete t => simp only [hclose, hexpires]
  | settled t => simp only [hclose, hexpires]
  | abandoned t => exact absurd hclose (hclosing t)

theorem runTier_undisturbed (hx : x.Calm) (hplaces : 0 ≤ x.places) (hdeadline : p.deadline = none) :
    (x.runTier p).ending = .evaluated (x.executionAt p
      (closing p.rules p.start (x.attempts p)).instant (x.attempts p)) :=
  runTier_of_calmIn (hx.calmIn p) hplaces hdeadline

end Executor

end Quorum

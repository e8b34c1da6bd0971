/-
  Quorum/Proofs/Run/Course.lean
  =============================
  **The course of a run follows the plan of its fleet.**

  Once its tiers are done, a run asks the manager or evaluates the entry of the last tier.
  Both have a branch for the case that there is nothing to ask or to evaluate, and in a valid
  fleet no run takes it: a fleet that synthesizes has a manager, and since somebody votes,
  a run that has passed its tiers has an entry (`runTiers_underway`).  So whatever becomes of
  a run, it is one of the four courses in `Mission.Course` (`run_planned`).
-/
import Quorum.Proofs.Fleet.Plan
import Quorum.Proofs.Run.Onward

namespace Quorum

namespace Mission

/-- The courses that a run takes from its start, and how far it gets with each: there is no
    time for any tier, a tier stops it, the manager is asked after all tiers, or the entry of
    the last tier is evaluated after them. -/
inductive Course (m : Mission) (given : Option Number) (j : Journey) :
    Journey → Option Halt → Prop
  | outOfTime : Course m given j j (some .expired)
  | stopped {k : Journey} {halt : Halt}
      (htiers : m.runTiers (m.strike? given) m.fleet.votingTiers j = (k, some halt)) :
      Course m given j k (some halt)
  | synthesis {k : Journey} {manager : Agent}
      (htiers : m.runTiers (m.strike? given) m.fleet.votingTiers j = (k, none))
      (hsynthesizes : m.fleet.synthesizes = true) (hmanager : m.fleet.manager? = some manager) :
      Course m given j (m.synthesize (m.strike? given) k).1 (m.synthesize (m.strike? given) k).2
  | votes {k : Journey} {last : ContextEntry}
      (htiers : m.runTiers (m.strike? given) m.fleet.votingTiers j = (k, none))
      (hsynthesizes : m.fleet.synthesizes = false) (hlast : k.context.latest? = some last) :
      Course m given j (m.aggregate k) none

variable {m : Mission} {j k : Journey} {given : Option Number}

/-- When all tiers are passed, each has left its report and its entry. -/
theorem runTiers_underway {deadline : Option Instant} (hj : j.ledger.Underway [])
    (hrun : m.runTiers deadline m.fleet.votingTiers j = (k, none)) :
    k.ledger.Underway m.fleet.votingTiers := by
  have hstep : ∀ {done : List Int} {tier : Int} {i : Journey},
      done ++ [tier] <+: m.fleet.votingTiers → i.ledger.Underway done →
      ∃ i' h, m.runTier deadline tier i = (i', h) ∧
        (h = none ∧ i'.ledger.Underway (done ++ [tier]) ∨ ∃ halt, h = some halt ∧ True) := by
    intro done tier i hfirst hi
    obtain ⟨i', h, hrun, hcase⟩ := next_is_step deadline hi hfirst
    refine ⟨i', h, hrun, ?_⟩
    cases h with
    | none => exact Or.inl ⟨rfl, hcase.underway_of_passed hi⟩
    | some halt => exact Or.inr ⟨halt, rfl, trivial⟩
  obtain ⟨k', h, hrun', hends⟩ := runTiers_induct deadline
    (P := fun done i => i.ledger.Underway done) (Q := fun _ _ => True) hstep
    (fun _ _ => trivial) hj
  rw [hrun'] at hrun
  cases hrun
  rcases hends with ⟨-, hpassed⟩ | ⟨halt, hhalt, -⟩
  · exact hpassed
  · cases hhalt

theorem executeWithin_course (hf : m.fleet.Valid) (given : Option Number)
    (hj : j.ledger.Underway []) :
    m.Course given j (m.executeWithin given j).1 (m.executeWithin given j).2 := by
  by_cases htime : ∀ d, expiryOf given = some d → 0 < d
  · rw [executeWithin_of_time htime, goOn]
    cases hrun : m.runTiers (m.strike? given) m.fleet.votingTiers j with
    | mk k h =>
      cases h with
      | some halt => exact .stopped hrun
      | none =>
        simp only [conclude]
        by_cases hsynthesizes : m.fleet.synthesizes = true
        · obtain ⟨manager, hmanager⟩ := hf.exists_manager hsynthesizes
          rw [if_pos hsynthesizes]
          exact .synthesis hrun hsynthesizes hmanager
        · obtain ⟨last, hlast⟩ :=
            latest?_of_underway (runTiers_underway hj hrun) hf.exists_votingTier
          rw [if_neg hsynthesizes]
          exact .votes hrun (Bool.not_eq_true _ ▸ hsynthesizes) hlast
  · simp only [not_forall, not_lt] at htime
    obtain ⟨d, hexpiry, hd⟩ := htime
    unfold executeWithin
    rw [hexpiry]
    simp only [if_pos hd]
    exact .outOfTime

/-- **Every agent has one place in the plan, and runs follow it.**  The voting tiers of a valid
    fleet are not empty and ascend, their voters are disjoint, and together they are all
    agents, except for a manager that synthesizes, which exists and is above them.  A run
    that gets past its tiers asks that manager or evaluates the entry of its last tier: it
    never finds nobody to ask and nothing to evaluate. -/
theorem run_planned (hf : m.fleet.Valid) :
    m.fleet.Planned ∧ ∀ task given, ∃ j h,
      m.Course given (m.announceStart given (Journey.atStart task m.start)) j h ∧
      m.RunEnds task given j h (m.run task given) := by
  refine ⟨hf.planned, fun task given => ?_⟩
  have hstart : (m.announceStart given (Journey.atStart task m.start)).ledger.Underway [] := by
    rw [ledger_announceStart]
    exact Journey.atStart_underway task m.start
  have hcourse := executeWithin_course hf given hstart
  obtain ⟨j, h, hexecuted, hends⟩ := run_ends m task given
  rw [hexecuted] at hcourse
  exact ⟨j, h, hcourse, hends⟩

end Mission

theorem briefing_planned : briefing.Valid ∧ briefing.Planned ∧ ∀ task given, ∃ j h,
    briefingMission.Course given
      (briefingMission.announceStart given (Journey.atStart task briefingMission.start)) j h ∧
    briefingMission.RunEnds task given j h (briefingMission.run task given) :=
  ⟨briefing_valid, Mission.run_planned (m := briefingMission) briefing_valid⟩

end Quorum

/-
  Quorum/Proofs/Run/Silent.lean
  =============================
  **What a run has told does not change what it does.**

  Two runs that differ in their notices only (`Journey.silent`) are planned alike, reviewed
  alike and recorded alike.  So all that is left of them comes to the same, but for what they
  tell (`goOn_silent`).
-/
import Quorum.Proofs.Run.Onward

namespace Quorum

/-! ### Runs apart from what they have told -/

namespace Journey

variable {α : Type} {j k : Journey}

/-- A run apart from what it has told. -/
def silent (j : Journey) : Journey := { j with notices := [] }

theorem silent_unnoticed : Unnoticed silent := ⟨fun _ _ => rfl, fun _ _ _ _ _ _ => rfl⟩

theorem eq_of_silent {g : Journey → α} (hg : ∀ i, g i.silent = g i) (h : j.silent = k.silent) :
    g j = g k := by
  rw [← hg j, h, hg k]

/-- Two runs have come to the same, whatever they have told. -/
def Alike (x y : Journey × α) : Prop := x.1.silent = y.1.silent ∧ x.2 = y.2

namespace Alike

variable {x y z : Journey × α}

theorem symm (h : Alike x y) : Alike y x := ⟨h.1.symm, h.2.symm⟩

theorem trans (h : Alike x y) (h' : Alike y z) : Alike x z := ⟨h.1.trans h'.1, h.2.trans h'.2⟩

/-- What does not depend on what a run has told does the same to runs that differ in that. -/
theorem of_silent {f : Journey → Journey × α} (hf : ∀ i, Alike (f i) (f i.silent))
    (h : j.silent = k.silent) : Alike (f j) (f k) := by
  have hk := (hf k).symm
  rw [← h] at hk
  exact (hf j).trans hk

end Alike

end Journey

namespace Mission

open Journey (Alike)

variable {m : Mission} {deadline : Option Instant} {p : TierPlan} {e : Execution}
  {pending : TierReport}

/-! ### Reviews -/

theorem review_of_unasked (hunasked : ∀ reviewer, ¬ m.Asks pending reviewer) (j : Journey) :
    m.review deadline pending j = (j, .ok ⟨pending.status, pending.error⟩) := by
  unfold review
  split
  · rename_i reviewer hstatus hreviewer
    exact absurd ⟨hstatus, hreviewer⟩ (hunasked reviewer)
  · rfl

theorem review_of_asks {reviewer : TierReport → Review} (hasks : m.Asks pending reviewer)
    (j : Journey) :
    m.review deadline pending j =
      match deadline.filter fun d => decide (d ≤ (afterAsking reviewer pending j).clock) with
      | some d => ({ j with clock := d, reviewed := j.reviewed ++ [pending] }, .error .expired)
      | none =>
        match judge pending.tier (reviewer pending).answer with
        | none => (afterAsking reviewer pending j, .error (.escaped .cancelled))
        | some reviewed =>
          ((reviewEntries pending.tier (reviewer pending).answer).foldl Journey.note
            (afterAsking reviewer pending j), .ok reviewed) := by
  obtain ⟨hstatus, hreviewer⟩ := hasks
  unfold review
  rw [hstatus, hreviewer]
  rfl

theorem review_silent (m : Mission) (deadline : Option Instant) (pending : TierReport)
    (j : Journey) : Alike (m.review deadline pending j) (m.review deadline pending j.silent) := by
  by_cases hasks : ∃ reviewer, m.Asks pending reviewer
  · obtain ⟨reviewer, hasks⟩ := hasks
    have hclock : (afterAsking reviewer pending j.silent).clock =
      (afterAsking reviewer pending j).clock := rfl
    rw [review_of_asks hasks, review_of_asks hasks, hclock]
    cases deadline.filter fun d => decide (d ≤ (afterAsking reviewer pending j).clock) with
    | some d => exact ⟨rfl, rfl⟩
    | none =>
      cases judge pending.tier (reviewer pending).answer with
      | none => exact ⟨rfl, rfl⟩
      | some reviewed =>
        refine ⟨?_, rfl⟩
        simp only [Journey.foldl_unnoticed Journey.silent_unnoticed.note]
        rfl
  · have hunasked := not_exists.mp hasks
    rw [review_of_unasked hunasked, review_of_unasked hunasked]
    exact ⟨rfl, rfl⟩

/-! ### Tiers -/

theorem settle_eq (j : Journey) :
    m.settle deadline p e j =
      match m.review deadline (pendingReport p e) (beforeReview p e j) with
      | (j, .error halt) => (j, some halt)
      | (j, .ok reviewed) =>
        let report := e.report p.rules reviewed.status reviewed.error
        match m.record e report j with
        | .error why => (j, some (.escaped why))
        | .ok j => (announceVerdict report j, m.haltAfter p report) := rfl

theorem record_silent {j k : Journey} (report : TierReport) (h : j.silent = k.silent) :
    Alike
      (match m.record e report j with
        | .error why => (j, some (.escaped why))
        | .ok j => (announceVerdict report j, m.haltAfter p report))
      (match m.record e report k with
        | .error why => (k, some (.escaped why))
        | .ok k => (announceVerdict report k, m.haltAfter p report)) := by
  have hcontext : j.context = k.context := Journey.eq_of_silent (fun _ => rfl) h
  unfold record
  rw [hcontext]
  cases k.context.append ⟨e.tier, e.verdict, e.results, m.fleet.coordination.passAllResults⟩ with
  | error conflict => exact ⟨h, rfl⟩
  | ok context =>
    have hrecorded (i : Journey) :
        { i with tiers := i.tiers ++ [report], context := context }.silent =
          { i.silent with tiers := i.silent.tiers ++ [report], context := context } := rfl
    refine ⟨?_, rfl⟩
    simp only [announceVerdict_unnoticed Journey.silent_unnoticed, hrecorded, h]

theorem settle_silent (m : Mission) (deadline : Option Instant) (p : TierPlan) (e : Execution)
    (j : Journey) : Alike (m.settle deadline p e j) (m.settle deadline p e j.silent) := by
  have hbefore : (beforeReview p e j).silent = (beforeReview p e j.silent).silent := by
    rw [beforeReview_unnoticed Journey.silent_unnoticed,
      beforeReview_unnoticed Journey.silent_unnoticed]
    rfl
  have hreview := Alike.of_silent (m.review_silent deadline (pendingReport p e)) hbefore
  rw [settle_eq, settle_eq]
  generalize m.review deadline (pendingReport p e) (beforeReview p e j) = x at hreview ⊢
  generalize m.review deadline (pendingReport p e) (beforeReview p e j.silent) = y at hreview ⊢
  obtain ⟨i, outcome⟩ := x
  obtain ⟨k, outcome'⟩ := y
  obtain ⟨hsilent, rfl : outcome = outcome'⟩ := hreview
  cases outcome with
  | error halt => exact ⟨hsilent, rfl⟩
  | ok reviewed => exact record_silent _ hsilent

theorem afterExecutor_silent (m : Mission) (deadline : Option Instant) (tier : Int) (j : Journey) :
    (m.afterExecutor deadline tier j).silent = (m.afterExecutor deadline tier j.silent).silent := by
  have hlogged (i : Journey) : (m.afterExecutor deadline tier i).silent =
      { ((m.executor.runTier (m.plan deadline tier i)).log.foldl Journey.note
          (announceTier (m.plan deadline tier i) i)).silent with
        clock := (m.executor.runTier (m.plan deadline tier i)).finished
        invocations := i.invocations ++ (m.executor.runTier (m.plan deadline tier i)).invocations
        calls := i.calls ++ (m.executor.runTier (m.plan deadline tier i)).calls } := rfl
  rw [hlogged, hlogged, Journey.foldl_unnoticed Journey.silent_unnoticed.note,
    Journey.foldl_unnoticed Journey.silent_unnoticed.note]
  rfl

theorem runTier_silent (m : Mission) (deadline : Option Instant) (tier : Int) (j : Journey) :
    Alike (m.runTier deadline tier j) (m.runTier deadline tier j.silent) := by
  have hexecuted := m.afterExecutor_silent deadline tier j
  have hplan : m.plan deadline tier j.silent = m.plan deadline tier j := rfl
  cases hending : (m.executor.runTier (m.plan deadline tier j)).ending with
  | expired =>
    rw [m.runTier_of_expired hending, m.runTier_of_expired (hplan ▸ hending)]
    exact ⟨hexecuted, rfl⟩
  | escaped why =>
    rw [m.runTier_of_escaped hending, m.runTier_of_escaped (hplan ▸ hending)]
    exact ⟨hexecuted, rfl⟩
  | evaluated e =>
    rw [m.runTier_of_evaluated hending, m.runTier_of_evaluated (hplan ▸ hending)]
    exact Alike.of_silent (m.settle_silent deadline _ e) hexecuted

theorem runTiers_silent (m : Mission) (deadline : Option Instant) (rest : List Int) (j : Journey) :
    Alike (m.runTiers deadline rest j) (m.runTiers deadline rest j.silent) := by
  suffices h : ∀ i k : Journey, i.silent = k.silent →
      Alike (m.runTiers deadline rest i) (m.runTiers deadline rest k) from h j j.silent rfl
  induction rest with
  | nil => exact fun i k h => ⟨h, rfl⟩
  | cons tier rest ih =>
    intro i k h
    have hfirst := Alike.of_silent (m.runTier_silent deadline tier) h
    cases hwritten : Value.hasNumeral tier with
    | false =>
      rw [runTiers_of_unwritten hwritten, runTiers_of_unwritten hwritten]
      exact ⟨h, rfl⟩
    | true =>
      cases hi : m.runTier deadline tier i with
      | mk i' halt =>
        cases hk : m.runTier deadline tier k with
        | mk k' halt' =>
          rw [hi, hk] at hfirst
          obtain ⟨hsilent, rfl : halt = halt'⟩ := hfirst
          cases halt with
          | some halt =>
            rw [runTiers_of_halt hwritten hi, runTiers_of_halt hwritten hk]
            exact ⟨hsilent, rfl⟩
          | none =>
            rw [runTiers_of_passed hwritten hi, runTiers_of_passed hwritten hk]
            exact ih _ _ hsilent

/-! ### The answer -/

theorem aggregate_silent (m : Mission) (j : Journey) :
    (m.aggregate j).silent = (m.aggregate j.silent).silent := by
  unfold aggregate
  have hcontext : j.silent.context = j.context := rfl
  rw [hcontext]
  cases j.context.latest? with
  | none => rfl
  | some last => rfl

/-- A run whose manager has been called. -/
def asked (m : Mission) (manager : Agent) (last : LastCall) (j : Journey) : Journey :=
  { j.tell .synthesisStarted s!"Manager {manager.name} synthesizing findings..."
      none (some manager.name) with
    invocations :=
      j.invocations ++ ((m.synthesisAttempt manager j).invocation? j.context last).toList
    calls := j.calls ++ ((m.synthesisAttempt manager j).call? j.context last).toList }

/-- What becomes of a run whose manager has come to an end. -/
def synthesized (m : Mission) (manager : Agent) (j : Journey) : Journey × Option Halt :=
  let attempt := m.synthesisAttempt manager j
  let j := { m.asked manager (.through attempt.span.stop) j with clock := attempt.span.stop }
  match synthesisOf manager.name attempt.limit attempt.stay.ending with
  | .error halt => (j, some halt)
  | .ok answer =>
    (Journey.note { j with answer := answer, synthesisAgent := some manager.name }
      ⟨.info, "synthesis_completed",
        [("fleet", .text m.fleet.name), ("manager", .text manager.name)]⟩, none)

theorem synthesize_of_manager {manager : Agent} (hmanager : m.fleet.manager? = some manager)
    (j : Journey) :
    m.synthesize deadline j =
      match deadline.filter fun d => decide (d ≤ (m.synthesisAttempt manager j).span.stop) with
      | some d => ({ m.asked manager (.before d) j with
          clock := (m.synthesisAttempt manager j).givenUpAt d }, some .expired)
      | none => m.synthesized manager j := by
  unfold synthesize
  rw [hmanager]
  rfl

theorem synthesized_silent (m : Mission) (manager : Agent) (j : Journey) :
    Alike (m.synthesized manager j) (m.synthesized manager j.silent) := by
  have hattempt : m.synthesisAttempt manager j.silent = m.synthesisAttempt manager j := rfl
  unfold synthesized
  rw [hattempt]
  simp only
  split
  · exact ⟨rfl, rfl⟩
  · exact ⟨rfl, rfl⟩

theorem synthesize_silent (m : Mission) (deadline : Option Instant) (j : Journey) :
    Alike (m.synthesize deadline j) (m.synthesize deadline j.silent) := by
  cases hmanager : m.fleet.manager? with
  | none =>
    unfold synthesize
    rw [hmanager]
    exact ⟨rfl, rfl⟩
  | some manager =>
    have hattempt : m.synthesisAttempt manager j.silent = m.synthesisAttempt manager j := rfl
    rw [synthesize_of_manager hmanager, synthesize_of_manager hmanager, hattempt]
    split
    · exact ⟨rfl, rfl⟩
    · exact m.synthesized_silent manager j

theorem conclude_silent (m : Mission) (deadline : Option Instant) (j : Journey) :
    Alike (m.conclude deadline j) (m.conclude deadline j.silent) := by
  unfold conclude
  split
  · exact m.synthesize_silent deadline j
  · exact ⟨m.aggregate_silent j, rfl⟩

/-- **What a run has told has no influence on what is left of it.** -/
theorem goOn_silent (m : Mission) (deadline : Option Instant) (rest : List Int) (j : Journey) :
    Alike (m.goOn deadline rest j) (m.goOn deadline rest j.silent) := by
  have htiers := m.runTiers_silent deadline rest j
  unfold goOn
  generalize m.runTiers deadline rest j = x at htiers ⊢
  generalize m.runTiers deadline rest j.silent = y at htiers ⊢
  obtain ⟨i, halt⟩ := x
  obtain ⟨k, halt'⟩ := y
  obtain ⟨hsilent, rfl : halt = halt'⟩ := htiers
  cases halt with
  | some halt => exact ⟨hsilent, rfl⟩
  | none => exact Alike.of_silent (m.conclude_silent deadline) hsilent

end Mission

end Quorum

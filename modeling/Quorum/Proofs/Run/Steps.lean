/-
  Quorum/Proofs/Run/Steps.lean
  ============================
  **The steps of a run, from its reviews to its report.**

  A review is not asked for, or it is judged, cancelled or cut short (`review_ends`).  A tier
  is cut short or broken off while its agents are at work, it is not settled because its
  review is, or it is passed: then it is recorded and the observers are told (`runTier_is_step`).
  Nothing else can happen, so what every tier keeps, a run keeps (`runTiers_induct`).  What is
  left when its tiers are done or one of them stops it becomes its report (`run_ends`).
-/
import Quorum.Proofs.Run.Sequence

namespace Quorum

/-! ### Events of a run -/

namespace Journey

/-- What the observers have been told so far. -/
def events (j : Journey) : List Event := j.notices.flatMap Observers.attentive.eventsOf

@[simp] theorem events_note (j : Journey) (entry : LogEntry) :
    (j.note entry).events = j.events := by
  simp [events, note, Observers.eventsOf]

@[simp] theorem events_tell (j : Journey) (type : EventType) (message : String)
    (tier : Option Int) (agent : Option String) (data : List (String × Value)) :
    (j.tell type message tier agent data).events =
      j.events ++ [⟨type, message, tier, agent, data, j.clock⟩] := by
  simp [events, tell, Observers.eventsOf]

@[simp] theorem events_foldl_note (entries : List LogEntry) (j : Journey) :
    (entries.foldl Journey.note j).events = j.events := by
  induction entries generalizing j with
  | nil => rfl
  | cons entry rest ih => rw [List.foldl_cons, ih, events_note]

end Journey

namespace Mission

variable (m : Mission) {deadline : Option Instant} {p : TierPlan} {e : Execution} {j k : Journey}

/-! ### Reviews -/

/-- A reviewer is asked about a pending report. -/
def Asks (pending : TierReport) (reviewer : TierReport → Review) : Prop :=
  pending.status = .awaitingReview ∧ m.reviewer = some reviewer

/-- A run whose reviewer has taken the time a pending report takes. -/
def afterAsking (reviewer : TierReport → Review) (pending : TierReport) (j : Journey) : Journey :=
  { j with
    clock := j.clock.after (reviewer pending).delay
    reviewed := j.reviewed ++ [pending] }

/-- The ways in which a review ends: it is not asked for, or the reviewer is asked and gives an
    answer, is cancelled, or runs into the deadline. -/
inductive ReviewEnds (deadline : Option Instant) (pending : TierReport) (j : Journey) :
    Journey → Except Halt Reviewed → Prop
  | unasked (hunasked : pending.status ≠ .awaitingReview ∨ m.reviewer = none) :
      ReviewEnds deadline pending j j (.ok ⟨pending.status, pending.error⟩)
  | judged {reviewer : TierReport → Review} {reviewed : Reviewed}
      (hasks : m.Asks pending reviewer)
      (hjudge : judge pending.tier (reviewer pending).answer = some reviewed)
      (hearly : ∀ d, deadline = some d → (afterAsking reviewer pending j).clock < d) :
      ReviewEnds deadline pending j
        ((reviewEntries pending.tier (reviewer pending).answer).foldl Journey.note
          (afterAsking reviewer pending j))
        (.ok reviewed)
  | cancelled {reviewer : TierReport → Review} (hasks : m.Asks pending reviewer)
      (hanswer : (reviewer pending).answer = .error .cancelled)
      (hearly : ∀ d, deadline = some d → (afterAsking reviewer pending j).clock < d) :
      ReviewEnds deadline pending j (afterAsking reviewer pending j) (.error (.escaped .cancelled))
  | expired {reviewer : TierReport → Review} {d : Instant} (hasks : m.Asks pending reviewer)
      (hdeadline : deadline = some d) (hlate : d ≤ (afterAsking reviewer pending j).clock) :
      ReviewEnds deadline pending j
        { j with clock := d, reviewed := j.reviewed ++ [pending] } (.error .expired)

theorem early_of_filter_eq_none {done : Instant}
    (h : deadline.filter (fun d => decide (d ≤ done)) = none) :
    ∀ d, deadline = some d → done < d := by
  rintro d rfl
  simpa using h

theorem review_ends (deadline : Option Instant) (pending : TierReport) (j : Journey) :
    m.ReviewEnds deadline pending j (m.review deadline pending j).1
      (m.review deadline pending j).2 := by
  unfold review
  split
  · rename_i reviewer hstatus hreviewer
    have hasks : m.Asks pending reviewer := ⟨hstatus, hreviewer⟩
    simp only
    split
    · rename_i d hexpires
      obtain ⟨hdeadline, hlate⟩ := Option.filter_eq_some_iff.mp hexpires
      exact .expired hasks hdeadline (of_decide_eq_true hlate)
    · rename_i hearly
      split
      · rename_i hjudge
        exact .cancelled hasks (judge_eq_none hjudge) (early_of_filter_eq_none hearly)
      · rename_i reviewed hjudge
        exact .judged hasks hjudge (early_of_filter_eq_none hearly)
  · rename_i hunreviewed
    refine .unasked ?_
    by_cases hstatus : pending.status = .awaitingReview
    · right
      cases hreviewer : m.reviewer with
      | none => rfl
      | some reviewer => exact absurd hreviewer (hunreviewed reviewer hstatus)
    · exact Or.inl hstatus

/-! ### Tiers -/

/-- The ways in which a run gets through a tier, or does not. -/
inductive Step (deadline : Option Instant) (tier : Int) (j : Journey) :
    Journey → Option Halt → Prop
  | expired (hending : (m.executor.runTier (m.plan deadline tier j)).ending = .expired) :
      Step deadline tier j (m.afterExecutor deadline tier j) (some .expired)
  | escaped {why : Escape}
      (hending : (m.executor.runTier (m.plan deadline tier j)).ending = .escaped why) :
      Step deadline tier j (m.afterExecutor deadline tier j) (some (.escaped why))
  | unsettled {e : Execution} {k : Journey} {halt : Halt}
      (hending : (m.executor.runTier (m.plan deadline tier j)).ending = .evaluated e)
      (hreview : m.ReviewEnds deadline (pendingReport (m.plan deadline tier j) e)
        (beforeReview (m.plan deadline tier j) e (m.afterExecutor deadline tier j)) k
        (.error halt)) :
      Step deadline tier j k (some halt)
  | passed {e : Execution} {k : Journey} {reviewed : Reviewed}
      (hending : (m.executor.runTier (m.plan deadline tier j)).ending = .evaluated e)
      (hreview : m.ReviewEnds deadline (pendingReport (m.plan deadline tier j) e)
        (beforeReview (m.plan deadline tier j) e (m.afterExecutor deadline tier j)) k
        (.ok reviewed)) :
      Step deadline tier j
        (announceVerdict (e.report (m.plan deadline tier j).rules reviewed.status reviewed.error)
          (m.recorded e
            (e.report (m.plan deadline tier j).rules reviewed.status reviewed.error) k))
        (m.haltAfter (m.plan deadline tier j)
          (e.report (m.plan deadline tier j).rules reviewed.status reviewed.error))

variable {m}

theorem ReviewEnds.ledger {pending : TierReport} {outcome : Except Halt Reviewed}
    (h : m.ReviewEnds deadline pending j k outcome) : k.ledger = j.ledger := by
  cases h with
  | unasked => rfl
  | judged => rw [Journey.ledger_foldl_note]; rfl
  | cancelled => rfl
  | expired => rfl

theorem ReviewEnds.ledger_before {tier : Int} {outcome : Except Halt Reviewed}
    (h : m.ReviewEnds deadline (pendingReport p e)
      (beforeReview p e (m.afterExecutor deadline tier j)) k outcome) : k.ledger = j.ledger := by
  rw [h.ledger, ledger_beforeReview, m.ledger_afterExecutor]

theorem ReviewEnds.events {pending : TierReport} {outcome : Except Halt Reviewed}
    (h : m.ReviewEnds deadline pending j k outcome) : k.events = j.events := by
  cases h with
  | unasked => rfl
  | judged => rw [Journey.events_foldl_note]; rfl
  | cancelled => rfl
  | expired => rfl

/-- A tier that is passed adds its report and its entry. -/
theorem ReviewEnds.ledger_recorded {tier : Int} {outcome : Except Halt Reviewed}
    (h : m.ReviewEnds deadline (pendingReport p e)
      (beforeReview p e (m.afterExecutor deadline tier j)) k outcome) (report : TierReport) :
    (announceVerdict report (m.recorded e report k)).ledger =
      j.ledger.add report (m.entryOf e) := by
  rw [ledger_announceVerdict, m.ledger_recorded, h.ledger_before]

theorem ReviewEnds.tiers_recorded {tier : Int} {outcome : Except Halt Reviewed}
    (h : m.ReviewEnds deadline (pendingReport p e)
      (beforeReview p e (m.afterExecutor deadline tier j)) k outcome) (report : TierReport) :
    (announceVerdict report (m.recorded e report k)).tiers = j.tiers ++ [report] :=
  congrArg Ledger.tiers (h.ledger_recorded report)

theorem ReviewEnds.underway_recorded {tier : Int} {outcome : Except Halt Reviewed}
    (h : m.ReviewEnds deadline (pendingReport p e)
      (beforeReview p e (m.afterExecutor deadline tier j)) k outcome) {done : List Int}
    (hj : j.ledger.Underway done) (hlevel : e.tier = tier) {report : TierReport}
    (hreport : report.tier = tier) :
    (announceVerdict report (m.recorded e report k)).ledger.Underway (done ++ [tier]) :=
  h.ledger_recorded report ▸ hj.add hreport hlevel

theorem evaluated_tier {x : Executor} (hending : (x.runTier p).ending = .evaluated e) :
    e.tier = p.tier := by
  obtain ⟨t, rfl⟩ := Executor.evaluated_execution hending
  rfl

/-- A tier above all that are done is one of these steps. -/
theorem runTier_is_step (deadline : Option Instant) {tier : Int}
    (habove : ∀ entry ∈ j.context.entries, entry.tier < tier) :
    ∃ j' h, m.runTier deadline tier j = (j', h) ∧ m.Step deadline tier j j' h := by
  cases hending : (m.executor.runTier (m.plan deadline tier j)).ending with
  | expired => exact ⟨_, _, m.runTier_of_expired hending, .expired hending⟩
  | escaped why => exact ⟨_, _, m.runTier_of_escaped hending, .escaped hending⟩
  | evaluated e =>
    have hends := m.review_ends deadline (pendingReport (m.plan deadline tier j) e)
      (beforeReview (m.plan deadline tier j) e (m.afterExecutor deadline tier j))
    rw [m.runTier_of_evaluated hending]
    cases hreview : m.review deadline (pendingReport (m.plan deadline tier j) e)
        (beforeReview (m.plan deadline tier j) e (m.afterExecutor deadline tier j)) with
    | mk k outcome =>
      rw [hreview] at hends
      cases outcome with
      | error halt => exact ⟨_, _, m.settle_of_halt hreview, .unsettled hending hends⟩
      | ok reviewed =>
        have hcontext : k.context = j.context := congrArg Ledger.context hends.ledger_before
        have hlevel : e.tier = tier := evaluated_tier hending
        exact ⟨_, _, m.settle_of_reviewed hreview (hcontext ▸ hlevel ▸ habove),
          .passed hending hends⟩

theorem Step.underway {tier : Int} {done : List Int} {h : Option Halt}
    (hstep : m.Step deadline tier j k h) (hj : j.ledger.Underway done) :
    k.ledger.Underway (done ++ [tier]) ∨ k.ledger.Underway done ∧ h ≠ none := by
  cases hstep with
  | expired _ => exact Or.inr ⟨m.ledger_afterExecutor deadline tier j ▸ hj, nofun⟩
  | escaped _ => exact Or.inr ⟨m.ledger_afterExecutor deadline tier j ▸ hj, nofun⟩
  | unsettled _ hreview => exact Or.inr ⟨hreview.ledger_before ▸ hj, nofun⟩
  | passed hending hreview =>
    have hlevel := evaluated_tier hending
    exact Or.inl (hreview.underway_recorded hj hlevel hlevel)

theorem Step.underway_of_passed {tier : Int} {done : List Int}
    (hstep : m.Step deadline tier j k none) (hj : j.ledger.Underway done) :
    k.ledger.Underway (done ++ [tier]) :=
  (hstep.underway hj).resolve_right fun h => h.2 rfl

/-- Where nobody reviews and the fleet puts up with everything, a tier that is evaluated is
    passed. -/
theorem runTier_passes {tier : Int} (habove : ∀ entry ∈ j.context.entries, entry.tier < tier)
    (hending : (m.executor.runTier (m.plan deadline tier j)).ending = .evaluated e)
    (hreviewer : m.reviewer = none) (hgoesOn : m.fleet.coordination.abortOnTierFailure = false) :
    ∃ k report, m.runTier deadline tier j = (k, none) ∧ m.Step deadline tier j k none ∧
      k.tiers = j.tiers ++ [report] ∧ report.verdict = e.verdict := by
  obtain ⟨k, h, hrun, hstep⟩ := runTier_is_step (m := m) deadline habove
  suffices hpassed : h = none ∧ ∃ report, k.tiers = j.tiers ++ [report] ∧
      report.verdict = e.verdict by
    obtain ⟨rfl, report, htiers, hverdict⟩ := hpassed
    exact ⟨k, report, hrun, hstep, htiers, hverdict⟩
  cases hstep with
  | expired hexpired => cases hending.symm.trans hexpired
  | escaped hescaped => cases hending.symm.trans hescaped
  | unsettled _ hreview =>
    cases hreview with
    | cancelled hasks => cases hreviewer.symm.trans hasks.2
    | expired hasks => cases hreviewer.symm.trans hasks.2
  | passed hevaluated hreview =>
    cases hending.symm.trans hevaluated
    refine ⟨?_, _, hreview.tiers_recorded _, rfl⟩
    cases hreview with
    | judged hasks => cases hreviewer.symm.trans hasks.2
    | unasked =>
      have hnotFailed : ((pendingReport (m.plan deadline tier j) e).status == .failed) = false :=
        beq_eq_false_iff_ne.mpr (status_ne_failed e.verdict)
      simp [haltAfter, Execution.report, hnotFailed, hgoesOn]

/-! ### One tier after the other -/

/-- The tiers that come before a voting tier are below it. -/
theorem lt_of_first_part {m : Mission} {done : List Int} {tier t : Int}
    (hfirst : done ++ [tier] <+: m.fleet.votingTiers) (ht : t ∈ done) : t < tier := by
  have hascending := m.fleet.votingTiers_ascending.sublist hfirst.sublist
  exact (List.pairwise_append.mp hascending).2.2 t ht tier (List.mem_singleton_self tier)

/-- The tiers of a fleet, taken apart before one of them, are taken apart behind it. -/
theorem parted_behind {m : Mission} {done rest : List Int} {tier : Int}
    (hsplit : done ++ tier :: rest = m.fleet.votingTiers) :
    (done ++ [tier]) ++ rest = m.fleet.votingTiers ∧ done ++ [tier] <+: m.fleet.votingTiers := by
  have hshift := (List.append_cons done tier rest).symm.trans hsplit
  exact ⟨hshift, hshift ▸ List.prefix_append _ _⟩

/-- A tier that is next for a run takes one of the steps of a tier. -/
theorem next_is_step {m : Mission} (deadline : Option Instant) {done : List Int} {tier : Int}
    {j : Journey} (hdone : j.ledger.Underway done)
    (hfirst : done ++ [tier] <+: m.fleet.votingTiers) :
    ∃ j' h, m.runTier deadline tier j = (j', h) ∧ m.Step deadline tier j j' h :=
  runTier_is_step deadline (hdone.above fun _ ht => lt_of_first_part hfirst ht)

/-- What holds at the start and is kept by every tier that is passed holds when all tiers are
    passed; what holds where a tier stops the run, or is not run at all, holds when the run
    stops. -/
theorem runTiers_induct (deadline : Option Instant) {tiers : List Int}
    {P : List Int → Journey → Prop} {Q : Journey → Halt → Prop}
    (hstep : ∀ {done : List Int} {tier : Int} {j : Journey}, done ++ [tier] <+: tiers → P done j →
      ∃ j' h, m.runTier deadline tier j = (j', h) ∧
        (h = none ∧ P (done ++ [tier]) j' ∨ ∃ halt, h = some halt ∧ Q j' halt))
    (hunwritten : ∀ {done : List Int} {tier : Int} {j : Journey}, done ++ [tier] <+: tiers →
      P done j → Q j (.escaped .noNumeral))
    (hj : P [] j) :
    ∃ j' h, m.runTiers deadline tiers j = (j', h) ∧
      (h = none ∧ P tiers j' ∨ ∃ halt, h = some halt ∧ Q j' halt) := by
  -- on the tiers that are left; the tiers that are done grow
  suffices hrest : ∀ (rest done : List Int) (j : Journey), done ++ rest = tiers → P done j →
      ∃ j' h, m.runTiers deadline rest j = (j', h) ∧
        (h = none ∧ P tiers j' ∨ ∃ halt, h = some halt ∧ Q j' halt) from
    hrest tiers [] j (List.nil_append _) hj
  intro rest
  induction rest with
  | nil =>
    intro done j htiers hj
    rw [List.append_nil] at htiers
    exact ⟨j, none, rfl, Or.inl ⟨rfl, htiers ▸ hj⟩⟩
  | cons tier rest ih =>
    intro done j htiers hj
    have hsplit : (done ++ [tier]) ++ rest = tiers := (List.append_cons _ _ _).symm.trans htiers
    have hfirst : done ++ [tier] <+: tiers := hsplit ▸ List.prefix_append _ _
    cases hwritten : Value.hasNumeral tier with
    | false =>
      rw [runTiers_of_unwritten hwritten]
      exact ⟨j, _, rfl, Or.inr ⟨_, rfl, hunwritten hfirst hj⟩⟩
    | true =>
      obtain ⟨j', h, hrun, ⟨rfl, hpassed⟩ | ⟨halt, rfl, hstopped⟩⟩ :=
        hstep hfirst hj
      · rw [runTiers_of_passed hwritten hrun]
        exact ih (done ++ [tier]) j' hsplit hpassed
      · rw [runTiers_of_halt hwritten hrun]
        exact ⟨j', some halt, rfl, Or.inr ⟨halt, rfl, hstopped⟩⟩

/-! ### From the tiers to the report -/

theorem execute_of_halt {halt : Halt}
    (hrun : m.runTiers deadline m.fleet.votingTiers j = (k, some halt)) :
    m.execute deadline j = (k, some halt) := by
  unfold execute
  rw [hrun]

/-- Whatever the answer is found to be, no tier is added. -/
theorem execute_tiers (hrun : m.runTiers deadline m.fleet.votingTiers j = (k, none)) :
    (m.execute deadline j).1.tiers = k.tiers := by
  unfold execute
  rw [hrun]
  simp only
  split
  · cases hmanager : m.fleet.manager? with
    | none =>
      unfold synthesize
      rw [hmanager]
    | some manager =>
      obtain ⟨j', h, t, hasked, -, htiers, -⟩ := synthesize_asks (j := k) deadline hmanager
      rw [hasked]
      exact htiers
  · exact (aggregate_keeps k).2

/-- The fault that is reported of a run that stopped, if there is a report. -/
def reportedFault? (given : Option Number) : Halt → Option Fault
  | .failed f => some f
  | .expired => given.map deadlineFault
  | .escaped _ => none

/-- What a run raises that stopped without a report. -/
def raisedEscape : Halt → Escape
  | .escaped why => why
  | _ => .cancelled

/-- The ways in which a run ends once its tiers are done or one of them stopped it. -/
inductive RunEnds (m : Mission) (task : Value) (given : Option Number) (j : Journey) :
    Option Halt → FleetRun → Prop
  | done : RunEnds m task given j none
      ⟨.ok (m.report task .done none (m.announceDone j)), m.announceDone j⟩
  | failed {halt : Halt} {f : Fault} (hfault : reportedFault? given halt = some f) :
      RunEnds m task given j (some halt)
        ⟨.ok (m.report task .failed (some f.message) (m.announceFailure f j)),
          m.announceFailure f j⟩
  | brokenOff {halt : Halt} (hfault : reportedFault? given halt = none) :
      RunEnds m task given j (some halt) ⟨.error (raisedEscape halt), j⟩

theorem run_ends (m : Mission) (task : Value) (given : Option Number) :
    ∃ j h, m.executeWithin given (m.announceStart given (Journey.atStart task m.start)) = (j, h) ∧
      m.RunEnds task given j h (m.run task given) := by
  unfold run
  simp only
  generalize m.executeWithin given (m.announceStart given (Journey.atStart task m.start)) = stopped
  obtain ⟨j, h⟩ := stopped
  refine ⟨j, h, rfl, ?_⟩
  cases h with
  | none => exact .done
  | some halt =>
    cases halt with
    | failed f => exact .failed rfl
    | expired =>
      cases given with
      | none => exact .brokenOff rfl
      | some d => exact .failed rfl
    | escaped why => exact .brokenOff rfl

end Mission

end Quorum

/-
  Quorum/Proofs/Run/Ledger.lean
  =============================
  **What one tier adds to a run.**

  The ledger of a run is what its report will be made of.  Announcements and log entries
  leave it as it is; a tier that is cut short or broken off leaves it as it is too; a tier
  that is settled adds its report and its entry of the context, both at once
  (`settle_spec`, `runTier_spec`).  Which of these happens is read off the tier's
  executor and the reviewer.  Only the executor calls agents.
-/
import Quorum.Proofs.Run.Progress
import Quorum.Proofs.Run.TierEnds
import Quorum.Proofs.Settings.Accepted

namespace Quorum

/-! ### Ledgers -/

/-- What the report of a run is made of. -/
structure Ledger where
  tiers : List TierReport
  context : Context
  finalVerdict : Option (Verdict Float)
  answer : Value
  synthesisAgent : Option String

/-- The ledger with one more tier. -/
def Ledger.add (l : Ledger) (report : TierReport) (entry : ContextEntry) : Ledger :=
  { l with
    tiers := l.tiers ++ [report]
    context := { l.context with entries := l.context.entries ++ [entry] } }

namespace Journey

/-- The ledger of a run so far. -/
def ledger (j : Journey) : Ledger :=
  ⟨j.tiers, j.context, j.finalVerdict, j.answer, j.synthesisAgent⟩

@[simp] theorem ledger_note (j : Journey) (entry : LogEntry) :
    (j.note entry).ledger = j.ledger := rfl

@[simp] theorem ledger_tell (j : Journey) (type : EventType) (message : String)
    (tier : Option Int) (agent : Option String) (data : List (String × Value)) :
    (j.tell type message tier agent data).ledger = j.ledger := rfl

@[simp] theorem ledger_foldl_note (entries : List LogEntry) (j : Journey) :
    (entries.foldl Journey.note j).ledger = j.ledger := by
  induction entries generalizing j with
  | nil => rfl
  | cons entry rest ih => rw [List.foldl_cons, ih, ledger_note]

end Journey

/-- A tier above all tiers of a context may be appended to it. -/
theorem Context.append_of_above {c : Context} {entry : ContextEntry}
    (habove : ∀ e ∈ c.entries, e.tier < entry.tier) :
    c.append entry = .ok { c with entries := c.entries ++ [entry] } := by
  unfold Context.append Context.latest?
  split
  · rename_i last hlast
    rw [if_neg (Int.not_le.mpr (habove last (List.mem_of_getLast? hlast)))]
  · rfl

namespace Mission

variable (m : Mission) {deadline : Option Instant} {p : TierPlan} {e : Execution} {j : Journey}

/-! ### Announcements -/

@[simp] theorem ledger_announceTier (p : TierPlan) (j : Journey) :
    (announceTier p j).ledger = j.ledger := rfl

@[simp] theorem ledger_announceFailures (e : Execution) (j : Journey) :
    (announceFailures e j).ledger = j.ledger := by
  unfold announceFailures
  generalize e.results.filter (fun r => !r.succeeded) = failures
  induction failures generalizing j with
  | nil => rfl
  | cons r rest ih => rw [List.foldl_cons, ih, Journey.ledger_tell]

@[simp] theorem ledger_noteExhaustion (p : TierPlan) (status : TierStatus) (j : Journey) :
    (noteExhaustion p status j).ledger = j.ledger := by
  unfold noteExhaustion
  split <;> rfl

@[simp] theorem ledger_announceVerdict (report : TierReport) (j : Journey) :
    (announceVerdict report j).ledger = j.ledger := by
  unfold announceVerdict
  simp only [Journey.ledger_tell]
  split <;> rfl

@[simp] theorem ledger_announceStart (given : Option Number) (j : Journey) :
    (m.announceStart given j).ledger = j.ledger := rfl

/-! ### Reviews -/

/-- The report of an execution before any review. -/
def pendingReport (p : TierPlan) (e : Execution) : TierReport :=
  e.report p.rules e.verdict.status
    (if e.verdict.status == .noData then some (exhaustedFault p.tier p.agents.length).message
      else none)

/-- What becomes of a pending report: a reviewer judges it, or it stays as it is. -/
def Reviews (pending : TierReport) (reviewed : Reviewed) : Prop :=
  ((pending.status ≠ .awaitingReview ∨ m.reviewer = none) ∧
    reviewed = ⟨pending.status, pending.error⟩) ∨
  ∃ reviewer, pending.status = .awaitingReview ∧ m.reviewer = some reviewer ∧
    judge pending.tier (reviewer pending).answer = some reviewed

theorem judge_eq_none {tier : Int} {answer : Except Problem Bool} (h : judge tier answer = none) :
    answer = .error .cancelled := by
  unfold judge at h
  split at h
  · cases h
  · cases h
  · rfl
  · cases h

/-- A review gives a result, runs out of time or is cancelled.  It leaves the ledger alone and
    calls nobody. -/
theorem review_spec (deadline : Option Instant) (pending : TierReport) (j : Journey) :
    (∃ reviewed j', m.Reviews pending reviewed ∧
      m.review deadline pending j = (j', .ok reviewed) ∧
      j.Continues j' ∧ j'.ledger = j.ledger) ∨
    (∃ d j', deadline = some d ∧
      m.review deadline pending j = (j', .error .expired) ∧
      j.Keeps j' ∧ j'.ledger = j.ledger) ∨
    (∃ reviewer j', m.reviewer = some reviewer ∧ (reviewer pending).answer = .error .cancelled ∧
      m.review deadline pending j = (j', .error (.escaped .cancelled)) ∧
      j.Keeps j' ∧ j'.ledger = j.ledger) := by
  unfold review
  split
  · rename_i reviewer hstatus hreviewer
    simp only
    split
    · rename_i d hexpires
      obtain ⟨hd, -⟩ := Option.filter_eq_some_iff.mp hexpires
      refine Or.inr (Or.inl ⟨d, _, hd, rfl, ?_, rfl⟩)
      exact ⟨⟨List.prefix_rfl, List.prefix_rfl⟩, rfl, rfl⟩
    · have hwaits : j.Continues { j with
          clock := j.clock.after (reviewer pending).delay, reviewed := j.reviewed ++ [pending] } :=
        ⟨⟨⟨List.prefix_rfl, List.prefix_rfl⟩, rfl, rfl⟩, Instant.le_after _ _⟩
      split
      · rename_i hjudge
        exact Or.inr (Or.inr ⟨reviewer, _, hreviewer, judge_eq_none hjudge, rfl,
          hwaits.toKeeps, rfl⟩)
      · rename_i reviewed hjudge
        refine Or.inl ⟨reviewed, _, Or.inr ⟨reviewer, hstatus, hreviewer, hjudge⟩, rfl, ?_, ?_⟩
        · exact hwaits.trans (Journey.foldl_continues Journey.note_continues _ _)
        · rw [Journey.ledger_foldl_note]
          rfl
  · rename_i hunreviewed
    refine Or.inl ⟨_, j, Or.inl ⟨?_, rfl⟩, rfl, Journey.Continues.refl j, rfl⟩
    by_cases hstatus : pending.status = .awaitingReview
    · right
      cases hreviewer : m.reviewer with
      | none => rfl
      | some reviewer => exact absurd hreviewer (hunreviewed reviewer hstatus)
    · exact Or.inl hstatus

/-! ### Settling -/

/-- The entry an execution leaves in the context. -/
def entryOf (e : Execution) : ContextEntry :=
  ⟨e.tier, e.verdict, e.results, m.fleet.coordination.passAllResults⟩

/-- A run with one more tier. -/
def recorded (e : Execution) (report : TierReport) (j : Journey) : Journey :=
  { j with
    tiers := j.tiers ++ [report]
    context := { j.context with entries := j.context.entries ++ [m.entryOf e] } }

theorem record_of_above (habove : ∀ entry ∈ j.context.entries, entry.tier < e.tier)
    (report : TierReport) : m.record e report j = .ok (m.recorded e report j) := by
  have happend : j.context.append (m.entryOf e) =
      .ok { j.context with entries := j.context.entries ++ [m.entryOf e] } :=
    Context.append_of_above habove
  unfold record
  rw [← entryOf, happend]
  rfl

theorem recorded_continues (e : Execution) (report : TierReport) (j : Journey) :
    j.Continues (m.recorded e report j) :=
  ⟨⟨⟨List.prefix_append _ _, List.prefix_rfl⟩, rfl, rfl⟩, le_rfl⟩

theorem ledger_recorded (e : Execution) (report : TierReport) (j : Journey) :
    (m.recorded e report j).ledger = j.ledger.add report (m.entryOf e) := rfl

/-- A run that has told of the failures of an execution and goes on to its review. -/
def beforeReview (p : TierPlan) (e : Execution) (j : Journey) : Journey :=
  noteExhaustion p e.verdict.status (announceFailures e j)

theorem ledger_beforeReview (p : TierPlan) (e : Execution) (j : Journey) :
    (beforeReview p e j).ledger = j.ledger := by
  simp only [beforeReview, ledger_noteExhaustion, ledger_announceFailures]

theorem beforeReview_continues (p : TierPlan) (e : Execution) (j : Journey) :
    j.Continues (beforeReview p e j) :=
  (announceFailures_continues e j).trans (noteExhaustion_continues _ _ _)

theorem settle_of_halt {halt : Halt} {j' : Journey}
    (hreview : m.review deadline (pendingReport p e) (beforeReview p e j) = (j', .error halt)) :
    m.settle deadline p e j = (j', some halt) := by
  rw [pendingReport, beforeReview] at hreview
  simp only [settle, hreview]

theorem settle_of_reviewed {reviewed : Reviewed} {j' : Journey}
    (hreview : m.review deadline (pendingReport p e) (beforeReview p e j) = (j', .ok reviewed))
    (habove : ∀ entry ∈ j'.context.entries, entry.tier < e.tier) :
    m.settle deadline p e j =
      (announceVerdict (e.report p.rules reviewed.status reviewed.error)
        (m.recorded e (e.report p.rules reviewed.status reviewed.error) j'),
       m.haltAfter p (e.report p.rules reviewed.status reviewed.error)) := by
  rw [pendingReport, beforeReview] at hreview
  simp only [settle, hreview, m.record_of_above habove]

/-- An execution above all tiers of the context is recorded and the observers are told, unless
    its review runs out of time or is cancelled.  Nobody is called. -/
theorem settle_spec (deadline : Option Instant) (p : TierPlan)
    (habove : ∀ entry ∈ j.context.entries, entry.tier < e.tier) :
    (∃ reviewed j', let report := e.report p.rules reviewed.status reviewed.error
      m.Reviews (pendingReport p e) reviewed ∧
      m.settle deadline p e j = (j', m.haltAfter p report) ∧
      j.Continues j' ∧ j'.ledger = j.ledger.add report (m.entryOf e) ∧
      j'.Told e.tier j'.clock) ∨
    (∃ d j', deadline = some d ∧ m.settle deadline p e j = (j', some .expired) ∧
      j.Keeps j' ∧ j'.ledger = j.ledger) ∨
    (∃ reviewer j', m.reviewer = some reviewer ∧
      (reviewer (pendingReport p e)).answer = .error .cancelled ∧
      m.settle deadline p e j = (j', some (.escaped .cancelled)) ∧
      j.Keeps j' ∧ j'.ledger = j.ledger) := by
  have hbefore := ledger_beforeReview p e j
  have hreached := beforeReview_continues p e j
  rcases m.review_spec deadline (pendingReport p e) (beforeReview p e j) with
    ⟨reviewed, j', hreviews, hreview, hcontinues, hledger⟩ |
    ⟨d, j', hd, hreview, hkeeps, hledger⟩ |
    ⟨reviewer, j', hreviewer, hanswer, hreview, hkeeps, hledger⟩
  · rw [hbefore] at hledger
    have hcontext : j'.context = j.context := congrArg Ledger.context hledger
    rw [← hcontext] at habove
    let report := e.report p.rules reviewed.status reviewed.error
    have hrecorded := hreached.trans (hcontinues.trans (m.recorded_continues e report j'))
    have htold := announceVerdict_continues report (m.recorded e report j')
    refine Or.inl ⟨reviewed, _, hreviews, m.settle_of_reviewed hreview habove,
      hrecorded.trans htold, ?_, ?_⟩
    · rw [ledger_announceVerdict, ledger_recorded, hledger]
    · exact (announceVerdict_told report _).mono ⟨List.prefix_rfl, List.prefix_rfl⟩ htold.clock
  · exact Or.inr (Or.inl ⟨d, j', hd, m.settle_of_halt hreview, hreached.toKeeps.trans hkeeps,
      hledger.trans hbefore⟩)
  · exact Or.inr (Or.inr ⟨reviewer, j', hreviewer, hanswer, m.settle_of_halt hreview,
      hreached.toKeeps.trans hkeeps, hledger.trans hbefore⟩)

/-! ### Running a tier -/

/-- A mission that nobody breaks off: agents and reviewers do not cancel themselves, the number
    of places is not negative, and the numbers of the tiers can be written out. -/
structure Orderly (m : Mission) : Prop where
  agents : m.executor.Calm
  places : 0 ≤ m.executor.places
  tiers : ∀ tier ∈ m.fleet.votingTiers, Value.hasNumeral tier = true
  reviewer : ∀ reviewer, m.reviewer = some reviewer →
    ∀ pending, (reviewer pending).answer ≠ .error .cancelled

/-- Under accepted settings there are places for agents. -/
theorem places_of_settings {m : Mission} {sources : Sources} {settings : Settings}
    {conduct : Agent → Context → Nat → Behaviour} {timeout : Option Number} {epoch : Timestamp}
    (hsettings : Settings.ofSources sources = .ok settings)
    (hexecutor : m.executor = Executor.configured conduct settings timeout none epoch) :
    0 ≤ m.executor.places := by
  rw [hexecutor]
  exact Int.le_of_lt (Settings.ofSources_counts hsettings).1

/-- Whatever number of places is asked for, zero counts as not given, so an executor under
    accepted settings does not wait forever for a place. -/
theorem places_ne_zero_of_settings {sources : Sources} {settings : Settings}
    (conduct : Agent → Context → Nat → Behaviour) (timeout : Option Number)
    (places : Option Int) (epoch : Timestamp)
    (hsettings : Settings.ofSources sources = .ok settings) :
    (Executor.configured conduct settings timeout places epoch).places ≠ 0 := by
  have hcount := (Settings.ofSources_counts hsettings).1
  cases hgiven : places.filter fun n => n != 0 with
  | none =>
    simp only [Executor.configured, hgiven, Option.getD_none]
    omega
  | some n =>
    obtain ⟨-, hn⟩ := Option.filter_eq_some_iff.mp hgiven
    simp only [Executor.configured, hgiven, Option.getD_some]
    simpa using hn

/-- A run whose executor has come back from a tier. -/
def afterExecutor (deadline : Option Instant) (tier : Int) (j : Journey) : Journey :=
  let run := m.executor.runTier (m.plan deadline tier j)
  let announced := announceTier (m.plan deadline tier j) j
  { run.log.foldl Journey.note announced with
    clock := run.finished
    invocations := announced.invocations ++ run.invocations
    calls := announced.calls ++ run.calls }

theorem ledger_afterExecutor (deadline : Option Instant) (tier : Int) (j : Journey) :
    (m.afterExecutor deadline tier j).ledger = j.ledger := by
  show (List.foldl Journey.note (announceTier (m.plan deadline tier j) j) _).ledger = j.ledger
  rw [Journey.ledger_foldl_note, ledger_announceTier]

theorem afterExecutor_calls (deadline : Option Instant) (tier : Int) (j : Journey) :
    (m.afterExecutor deadline tier j).calls =
      j.calls ++ (m.executor.runTier (m.plan deadline tier j)).calls := rfl

theorem afterExecutor_grows (deadline : Option Instant) (tier : Int) (j : Journey) :
    j.Grows (m.afterExecutor deadline tier j) := by
  have hlogged := (announceTier_continues (m.plan deadline tier j) j).trans
    (Journey.foldl_continues Journey.note_continues
      (m.executor.runTier (m.plan deadline tier j)).log _)
  exact ⟨hlogged.tiers, hlogged.notices⟩

theorem runTier_of_expired {tier : Int}
    (hending : (m.executor.runTier (m.plan deadline tier j)).ending = .expired) :
    m.runTier deadline tier j = (m.afterExecutor deadline tier j, some .expired) := by
  simp only [runTier, hending, afterExecutor]

theorem runTier_of_escaped {tier : Int} {why : Escape}
    (hending : (m.executor.runTier (m.plan deadline tier j)).ending = .escaped why) :
    m.runTier deadline tier j = (m.afterExecutor deadline tier j, some (.escaped why)) := by
  simp only [runTier, hending, afterExecutor]

theorem runTier_of_evaluated {tier : Int}
    (hending : (m.executor.runTier (m.plan deadline tier j)).ending = .evaluated e) :
    m.runTier deadline tier j =
      m.settle deadline (m.plan deadline tier j) e (m.afterExecutor deadline tier j) := by
  simp only [runTier, hending, afterExecutor]

/-- A tier above all tiers of the context is evaluated, reviewed and recorded, unless the
    deadline cuts it short. -/
theorem runTier_spec {m : Mission} (deadline : Option Instant) (hm : m.Orderly) {tier : Int}
    (habove : ∀ entry ∈ j.context.entries, entry.tier < tier) :
    (∃ t reviewed j', let p := m.plan deadline tier j
      let e := m.executor.executionAt p t (m.executor.attempts p)
      let report := e.report p.rules reviewed.status reviewed.error
      m.Reviews (pendingReport p e) reviewed ∧
      m.runTier deadline tier j = (j', m.haltAfter p report) ∧
      j'.ledger = j.ledger.add report (m.entryOf e)) ∨
    (∃ d j', deadline = some d ∧ m.runTier deadline tier j = (j', some .expired) ∧
      j'.ledger = j.ledger) := by
  have hafter := m.ledger_afterExecutor deadline tier j
  rcases Executor.runTier_ending_of_calm (p := m.plan deadline tier j) hm.agents hm.places with
    ⟨d, hd, hending⟩ | ⟨t, hending⟩
  · exact Or.inr ⟨d, _, hd, m.runTier_of_expired hending, hafter⟩
  · have hcontext : (m.afterExecutor deadline tier j).context = j.context :=
      congrArg Ledger.context hafter
    rw [m.runTier_of_evaluated hending]
    rw [← hcontext] at habove
    let e := m.executor.executionAt (m.plan deadline tier j) t
      (m.executor.attempts (m.plan deadline tier j))
    rcases m.settle_spec (e := e) deadline (m.plan deadline tier j) habove with
      ⟨reviewed, j', hreviews, hsettle, -, hledger, -⟩ | ⟨d, j', hd, hsettle, -, hledger⟩ |
      ⟨reviewer, j', hreviewer, hanswer, -⟩
    · rw [hafter] at hledger
      exact Or.inl ⟨t, reviewed, j', hreviews, hsettle, hledger⟩
    · exact Or.inr ⟨d, j', hd, hsettle, hledger.trans hafter⟩
    · exact absurd hanswer (hm.reviewer reviewer hreviewer _)

/-! ### One tier after the other -/

variable {m} {k : Journey} {tier : Int}

theorem runTiers_of_halt {halt : Halt} (hwritten : Value.hasNumeral tier = true)
    (hrun : m.runTier deadline tier j = (k, some halt)) (rest : List Int) :
    m.runTiers deadline (tier :: rest) j = (k, some halt) := by
  rw [runTiers, if_pos hwritten, hrun]

theorem runTiers_of_passed (hwritten : Value.hasNumeral tier = true)
    (hrun : m.runTier deadline tier j = (k, none)) (rest : List Int) :
    m.runTiers deadline (tier :: rest) j = m.runTiers deadline rest k := by
  rw [runTiers, if_pos hwritten, hrun]

/-- A tier whose number is not written out is not run. -/
theorem runTiers_of_unwritten (hunwritten : Value.hasNumeral tier = false)
    (deadline : Option Instant) (rest : List Int) (j : Journey) :
    m.runTiers deadline (tier :: rest) j = (j, some (.escaped .noNumeral)) := by
  rw [runTiers, if_neg (Bool.eq_false_iff.mp hunwritten)]

end Mission

end Quorum

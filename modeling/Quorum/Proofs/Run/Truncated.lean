/-
  Quorum/Proofs/Run/Truncated.lean
  ================================
  **A deadline only truncates a run.**

  The tiers that a run has recorded by some time are those that it has told, before that, to
  be completed (`Journey.recordedBefore`).  With a deadline a run reports the tiers that it
  would have recorded before the deadline without one (`run_truncated`).  If that run is over
  before the deadline, both end alike; if not, the run with the deadline has failed without an
  answer, and nobody is called or begins in it who would not have been called or begun before
  the deadline.
-/
import Quorum.Proofs.Run.Abreast

namespace Quorum

/-! ### Tiers as they are completed -/

namespace Journey

variable {j k : Journey} {d : Instant} {deadline : Option Instant} {tiers : List Int}

/-- What a run has told about the completion of tiers. -/
def completions (j : Journey) : List Event := j.events.filter fun e => e.type == .tierCompleted

/-- The tiers that a run had recorded before a deadline, told by when they were completed. -/
def recordedBefore (j : Journey) (deadline : Option Instant) : List TierReport :=
  j.tiers.filter fun t => j.completions.any fun e =>
    e.tier == some t.tier && deadline.all fun d => decide (e.time < d)

/-- A run has told that each of its tiers is completed, and nothing in it is still to come. -/
structure Timely (j : Journey) : Prop where
  tiers : j.completions.map Event.tier = j.tiers.map fun t => some t.tier
  past : ∀ e ∈ j.completions, e.time ≤ j.clock
  begun : j.Begun

theorem completions_of_events (h : j.events = k.events) : j.completions = k.completions := by
  unfold completions
  rw [h]

theorem completions_note (j : Journey) (entry : LogEntry) :
    (j.note entry).completions = j.completions := completions_of_events (j.events_note entry)

theorem completions_tell (j : Journey) {type : EventType} (htype : type ≠ .tierCompleted)
    (message : String) (tier : Option Int) (agent : Option String) (data : List (String × Value)) :
    (j.tell type message tier agent data).completions = j.completions := by
  simp [completions, htype]

theorem completions_tell_completed (j : Journey) (message : String) (tier : Option Int)
    (agent : Option String) (data : List (String × Value)) :
    (j.tell .tierCompleted message tier agent data).completions =
      j.completions ++ [⟨.tierCompleted, message, tier, agent, data, j.clock⟩] := by
  simp [completions]

theorem Proceeds.completions (h : j.Proceeds tiers k) (hlate : d ≤ j.clock) :
    Continued (fun e : Event => d ≤ e.time) j.completions k.completions := by
  obtain ⟨later, hlater, htimes⟩ := h.events
  refine ⟨later.filter fun e => e.type == .tierCompleted, ?_, ?_⟩
  · rw [Journey.completions, hlater, List.filter_append]
    rfl
  · intro e he
    exact hlate.trans (htimes e (List.mem_filter.mp he).1)

theorem Timely.proceeds (hj : j.Timely) (h : j.Proceeds tiers k) (htiers : k.tiers = j.tiers)
    (hcompletions : k.completions = j.completions) : k.Timely where
  tiers := by rw [htiers, hcompletions, hj.tiers]
  past := by
    rw [hcompletions]
    exact fun e he => (hj.past e he).trans h.clock
  begun := hj.begun.proceeds h

theorem Timely.exists_completion (hj : j.Timely) {t : TierReport} (ht : t ∈ j.tiers) :
    ∃ e ∈ j.completions, e.tier = some t.tier := by
  have hmem : some t.tier ∈ j.completions.map Event.tier := by
    rw [hj.tiers]
    exact List.mem_map_of_mem ht
  exact List.mem_map.mp hmem

theorem Timely.tier_of_completion (hj : j.Timely) {e : Event} (he : e ∈ j.completions) :
    ∃ t ∈ j.tiers, some t.tier = e.tier := by
  have hmem := List.mem_map_of_mem (f := Event.tier) he
  rw [hj.tiers] at hmem
  exact List.mem_map.mp hmem

theorem recordedBefore_of_onTime (hj : j.Timely) (hontime : Mission.OnTime deadline j) :
    j.recordedBefore deadline = j.tiers := by
  refine List.filter_eq_self.mpr ?_
  intro t ht
  obtain ⟨e, he, htier⟩ := hj.exists_completion ht
  refine List.any_eq_true.mpr ⟨e, he, ?_⟩
  rw [Bool.and_eq_true, beq_iff_eq]
  refine ⟨htier, ?_⟩
  cases deadline with
  | none => rfl
  | some d => exact decide_eq_true ((hj.past e he).trans_lt (hontime d rfl))

/-- What a run has recorded before a time does not become more when it goes on after that. -/
theorem recordedBefore_of_late (hj : j.Timely) (hontime : j.clock < d)
    (htiers : Continued (fun t : TierReport => t.tier ∈ tiers) j.tiers k.tiers)
    (hcompletions : Continued (fun e : Event => d ≤ e.time) j.completions k.completions)
    (hnew : ∀ t ∈ j.tiers, t.tier ∉ tiers) : k.recordedBefore (some d) = j.tiers := by
  obtain ⟨later, hlater, hleft⟩ := htiers
  obtain ⟨more, hmore, hlate⟩ := hcompletions
  have hknown (t : TierReport) : (k.completions.any fun e =>
      e.tier == some t.tier && (some d).all fun d => decide (e.time < d)) = true ↔
        ∃ e ∈ j.completions, e.tier = some t.tier := by
    rw [List.any_eq_true, hmore]
    constructor
    · rintro ⟨e, he, htest⟩
      rw [Bool.and_eq_true, beq_iff_eq] at htest
      rcases List.mem_append.mp he with he | he
      · exact ⟨e, he, htest.1⟩
      · exact absurd (of_decide_eq_true htest.2) (not_lt.mpr (hlate e he))
    · rintro ⟨e, he, htier⟩
      refine ⟨e, List.mem_append_left _ he, ?_⟩
      rw [Bool.and_eq_true, beq_iff_eq]
      exact ⟨htier, decide_eq_true ((hj.past e he).trans_lt hontime)⟩
  unfold recordedBefore
  rw [hlater, List.filter_append]
  have hkept := List.filter_eq_self.mpr fun t ht => (hknown t).mpr (hj.exists_completion ht)
  have hdropped : later.filter (fun t => k.completions.any fun e =>
      e.tier == some t.tier && (some d).all fun d => decide (e.time < d)) = [] := by
    refine List.filter_eq_nil_iff.mpr ?_
    intro t ht hcompleted
    obtain ⟨e, he, htier⟩ := (hknown t).mp hcompleted
    obtain ⟨t', ht', hsame⟩ := hj.tier_of_completion he
    have htier' : t'.tier = t.tier := Option.some.inj (hsame.trans htier)
    exact hnew t' ht' (htier' ▸ hleft t ht)
  rw [hkept, hdropped, List.append_nil]

end Journey

namespace Mission

variable {m : Mission} {task : Value} {deadline : Option Instant} {p : TierPlan} {e : Execution}
  {j k : Journey} {done rest : List Int} {tier : Int}

/-! ### What a tier completes -/

theorem announceFailures_completions (e : Execution) (j : Journey) :
    (announceFailures e j).completions = j.completions :=
  Journey.foldl_unnoticed (fun j _ => j.completions_tell (by decide) _ _ _ _) _ j

theorem beforeReview_completions (p : TierPlan) (e : Execution) (j : Journey) :
    (beforeReview p e j).completions = j.completions := by
  unfold beforeReview noteExhaustion
  split
  · rw [Journey.completions_note, announceFailures_completions]
  · exact announceFailures_completions e j

theorem afterExecutor_completions (deadline : Option Instant) (tier : Int) (j : Journey) :
    (m.afterExecutor deadline tier j).completions = j.completions := by
  have hlogged := Journey.foldl_unnoticed Journey.completions_note
    (m.executor.runTier (m.plan deadline tier j)).log (announceTier (m.plan deadline tier j) j)
  exact hlogged.trans (j.completions_tell (by decide) _ _ _ _)

theorem announceVerdict_completions (report : TierReport) (j : Journey) :
    ∃ e, (announceVerdict report j).completions = j.completions ++ [e] ∧
      e.tier = some report.tier ∧ e.time = (announceVerdict report j).clock := by
  have htold (i : Journey) (hi : i.completions = j.completions) (message : String)
      (data : List (String × Value)) :
      ∃ e, (i.tell .tierCompleted message (some report.tier) none data).completions =
          j.completions ++ [e] ∧ e.tier = some report.tier ∧ e.time = i.clock := by
    rw [Journey.completions_tell_completed, hi]
    exact ⟨_, rfl, rfl, rfl⟩
  unfold announceVerdict
  simp only
  split
  · exact htold _ (j.completions_tell (by decide) _ _ _ _) _ _
  · exact htold j rfl _ _

theorem ReviewEnds.completions {outcome : Except Halt Reviewed}
    (h : m.ReviewEnds deadline (pendingReport p e)
      (beforeReview p e (m.afterExecutor deadline tier j)) k outcome) :
    k.completions = j.completions := by
  rw [Journey.completions_of_events h.events, beforeReview_completions, afterExecutor_completions]

/-- A tier is told to be completed when it has been recorded, and at once. -/
theorem Step.completes {h : Option Halt} (hstep : m.Step deadline tier j k h) :
    k.tiers = j.tiers ∧ k.completions = j.completions ∨
      ∃ report e, k.tiers = j.tiers ++ [report] ∧ k.completions = j.completions ++ [e] ∧
        e.tier = some report.tier ∧ e.time = k.clock := by
  cases hstep with
  | expired _ =>
    exact Or.inl ⟨congrArg Ledger.tiers (m.ledger_afterExecutor deadline tier j),
      afterExecutor_completions deadline tier j⟩
  | escaped _ =>
    exact Or.inl ⟨congrArg Ledger.tiers (m.ledger_afterExecutor deadline tier j),
      afterExecutor_completions deadline tier j⟩
  | unsettled _ hreview =>
    exact Or.inl ⟨congrArg Ledger.tiers hreview.ledger_before, hreview.completions⟩
  | @passed e i reviewed hending hreview =>
    right
    generalize Execution.report _ _ _ _ = report
    obtain ⟨x, hcompletions, htier, htime⟩ :=
      announceVerdict_completions report (m.recorded e report i)
    refine ⟨report, x, hreview.tiers_recorded report, ?_, htier, htime⟩
    rw [hcompletions]
    exact congrArg (· ++ [x]) hreview.completions

theorem Step.timely (hf : m.fleet.Valid) (hplaces : m.executor.places ≠ 0)
    (hontime : OnTime deadline j) (hj : j.Timely) {h : Option Halt}
    (hstep : m.Step deadline tier j k h) : k.Timely := by
  obtain ⟨hproceeds, -⟩ := hstep.proceeds hf hplaces hontime (List.mem_singleton_self tier)
  rcases hstep.completes with
    ⟨htiers, hcompletions⟩ | ⟨report, e, htiers, hcompletions, htier, htime⟩
  · exact hj.proceeds hproceeds htiers hcompletions
  · refine ⟨?_, ?_, hj.begun.proceeds hproceeds⟩
    · rw [htiers, hcompletions, List.map_append, List.map_append, hj.tiers]
      simp [htier]
    · intro x hx
      rw [hcompletions] at hx
      rcases List.mem_append.mp hx with hx | hx
      · exact (hj.past x hx).trans hproceeds.clock
      · rw [List.mem_singleton.mp hx, htime]

theorem Step.completes_late {d : Instant} {h : Option Halt} (hstep : m.Step deadline tier j k h)
    (hlate : d ≤ k.clock) :
    Continued (fun e : Event => d ≤ e.time) j.completions k.completions := by
  rcases hstep.completes with ⟨-, hcompletions⟩ | ⟨report, e, -, hcompletions, -, htime⟩
  · exact .of_eq hcompletions
  · rw [hcompletions]
    exact .concat (htime ▸ hlate)

/-- The answer adds no tier. -/
theorem conclude_completes (deadline : Option Instant) (j : Journey) :
    (m.conclude deadline j).1.tiers = j.tiers ∧
      (m.conclude deadline j).1.completions = j.completions := by
  unfold conclude
  split
  · cases hmanager : m.fleet.manager? with
    | none =>
      unfold synthesize
      rw [hmanager]
      exact ⟨rfl, rfl⟩
    | some manager =>
      have hasked (last : LastCall) : (m.asked manager last j).completions = j.completions :=
        j.completions_tell (by decide) _ _ _ _
      rw [synthesize_of_manager hmanager]
      split
      · rename_i d _
        exact ⟨rfl, hasked (.before d)⟩
      · have hstopped := hasked (.through (m.synthesisAttempt manager j).span.stop)
        unfold synthesized
        simp only
        split
        · exact ⟨rfl, hstopped⟩
        · exact ⟨rfl, (Journey.completions_note _ _).trans hstopped⟩
  · unfold aggregate
    split
    · exact ⟨rfl, rfl⟩
    · exact ⟨rfl, Journey.completions_note _ _⟩

end Mission

/-! ### The run -/

/-- A run that a deadline has cut short, and the same run without the deadline. -/
structure Journey.CutShort (d : Instant) (cut free : Journey) : Prop where
  late : d ≤ free.clock
  tiers : cut.tiers = free.recordedBefore (some d)
  answer : cut.answer = .null
  finalVerdict : cut.finalVerdict = none
  synthesisAgent : cut.synthesisAgent = none
  made : Precedes d cut.calls cut.invocations free.calls free.invocations

namespace Mission

variable {m : Mission} {task : Value} {deadline : Option Instant} {j k : Journey}
  {done rest : List Int}

theorem cutShort_of_overtaken {d : Instant} {cut free : Journey} (hj : j.Timely)
    (hontime : j.clock < d) (hdone : j.ledger.Underway done)
    (hascending : (done ++ rest).Pairwise (· < ·))
    (hovertaken : Journey.Overtaken d j.ledger cut free) (hproceeds : j.Proceeds rest free)
    (hcompletions : Continued (fun e : Event => d ≤ e.time) j.completions free.completions) :
    Journey.CutShort d cut free := by
  have hcut : cut.ledger.Underway done := hovertaken.ledger ▸ hdone
  have hnew : ∀ t ∈ j.tiers, t.tier ∉ rest := by
    intro t ht hrest
    have hbefore : t.tier ∈ done := hdone.tiers ▸ List.mem_map_of_mem ht
    exact lt_irrefl _ ((List.pairwise_append.mp hascending).2.2 _ hbefore _ hrest)
  refine ⟨hovertaken.late, ?_, hcut.answer, hcut.finalVerdict, hcut.synthesisAgent,
    hovertaken.made⟩
  rw [Journey.recordedBefore_of_late hj hontime hproceeds.tiers hcompletions hnew]
  exact congrArg Ledger.tiers hovertaken.ledger

/-- Where two runs part in a tier, the one without a deadline goes on alone. -/
theorem cutShort_of_parted (hf : m.fleet.Valid) (hplaces : m.executor.places ≠ 0) {d : Instant}
    {cut : Journey} {tier : Int} {h : Option Halt} (hj : j.Timely) (hontime : j.clock < d)
    (hdone : j.ledger.Underway done) (hsplit : done ++ tier :: rest = m.fleet.votingTiers)
    (hwritten : Value.hasNumeral tier = true) (hrun : m.runTier none tier j = (k, h))
    (hstep : m.Step none tier j k h)
    (hovertaken : Journey.Overtaken d j.ledger cut k) :
    Journey.CutShort d cut (m.goOn none (tier :: rest) j).1 := by
  have hascending : (done ++ tier :: rest).Pairwise (· < ·) :=
    hsplit ▸ m.fleet.votingTiers_ascending
  have hwhole : done ++ tier :: rest <+: m.fleet.votingTiers := hsplit ▸ List.prefix_rfl
  have hproceeds := goOn_proceeds hf hplaces (onTime_of_none j) hdone hwhole
  obtain ⟨tiers, halone⟩ :=
    goOn_proceeds_after hf hplaces (onTime_of_none j) hdone hwhole hwritten hrun hstep
  have hlater := (hstep.completes_late hovertaken.late).trans (halone.completions hovertaken.late)
  exact cutShort_of_overtaken hj hontime hdone hascending (hovertaken.proceeds halone) hproceeds
    hlater

/-- From any of its tiers on, a run with a deadline comes to what it comes to without one, if
    that is in time; if not, the deadline has cut it short. -/
theorem goOn_until (hf : m.fleet.Valid) (hplaces : m.executor.places ≠ 0)
    (hontime : OnTime deadline j) (hj : j.Timely) (hdone : j.ledger.Underway done)
    (hsplit : done ++ rest = m.fleet.votingTiers) :
    (m.goOn deadline rest j = m.goOn none rest j ∧ OnTime deadline (m.goOn none rest j).1 ∧
        (m.goOn none rest j).1.Timely ∧ (m.goOn none rest j).2 ≠ some .expired) ∨
      ∃ d, deadline = some d ∧ (m.goOn deadline rest j).2 = some .expired ∧
        Journey.CutShort d (m.goOn deadline rest j).1 (m.goOn none rest j).1 := by
  -- on the tiers that are left, as long as the two runs have not parted
  induction rest generalizing j done with
  | nil =>
    have hproceeds := conclude_proceeds (m := m) (onTime_of_none j) []
    obtain ⟨htiers, hcompletions⟩ := m.conclude_completes none j
    rcases conclude_follows (m := m) hontime hj.begun with
      ⟨hsame, hintime, hhalt⟩ | ⟨hdeadline, hhalt, hovertaken⟩
    · exact Or.inl ⟨hsame, hintime, hj.proceeds hproceeds htiers hcompletions, hhalt⟩
    · have hascending : (done ++ []).Pairwise (· < ·) := hsplit ▸ m.fleet.votingTiers_ascending
      exact Or.inr ⟨_, hdeadline, hhalt, cutShort_of_overtaken hj (hontime _ hdeadline) hdone
        hascending hovertaken hproceeds (.of_eq hcompletions)⟩
  | cons tier rest ih =>
    obtain ⟨hshift, hfirst⟩ := parted_behind hsplit
    cases hwritten : Value.hasNumeral tier with
    | false =>
      -- both break off here
      rw [goOn_of_unwritten hwritten, goOn_of_unwritten hwritten]
      exact Or.inl ⟨rfl, hontime, hj, by simp⟩
    | true =>
      obtain ⟨k, h, hrun, hstep⟩ := next_is_step none hdone hfirst
      have hfollows := runTier_follows hf hplaces hontime hj.begun tier
      rw [hrun] at hfollows
      rcases hfollows with ⟨hsame, hintime, hhalt⟩ | ⟨hdeadline, hhalt, hovertaken⟩
      · have htimely := hstep.timely hf hplaces (onTime_of_none j) hj
        cases h with
        | some halt =>
          rw [goOn_of_halt hwritten hsame, goOn_of_halt hwritten hrun]
          exact Or.inl ⟨rfl, hintime, htimely, hhalt⟩
        | none =>
          have hdone' := hstep.underway_of_passed hdone
          rw [goOn_of_passed hwritten hsame, goOn_of_passed hwritten hrun]
          exact ih hintime htimely hdone' hshift
      · right
        have hcut : m.runTier deadline tier j =
            ((m.runTier deadline tier j).1, some .expired) := by rw [← hhalt]
        rw [goOn_of_halt hwritten hcut]
        exact ⟨_, hdeadline, rfl, cutShort_of_parted hf hplaces hj (hontime _ hdeadline) hdone
          hsplit hwritten hrun hstep hovertaken⟩

/-! ### At the end -/

/-- The end of a run adds nothing but what there is to tell. -/
theorem RunEnds.closing {given : Option Number} {h : Option Halt} {run : FleetRun}
    (hends : m.RunEnds task given j h run) :
    run.journey.silent = j.silent ∧ run.journey.completions = j.completions ∧
      ∀ report, run.ending = .ok report → report.tiers = j.tiers := by
  cases hends with
  | done =>
    refine ⟨rfl, ?_, ?_⟩
    · unfold announceDone
      rw [Journey.completions_tell _ (by decide), Journey.completions_note]
    · intro report hreport
      cases hreport
      rfl
  | failed _ =>
    refine ⟨rfl, ?_, ?_⟩
    · unfold announceFailure
      rw [Journey.completions_tell _ (by decide), Journey.completions_note]
    · intro report hreport
      cases hreport
      rfl
  | brokenOff _ =>
    refine ⟨rfl, rfl, ?_⟩
    intro report hreport
    cases hreport

theorem report_silent (m : Mission) (task : Value) (status : FleetStatus) (error : Option String)
    {j k : Journey} (h : j.silent = k.silent) :
    m.report task status error j = m.report task status error k :=
  Journey.eq_of_silent (fun _ => rfl) h

/-- Runs that have come to the same and have not expired end alike. -/
theorem RunEnds.ending_eq {given given' : Option Number} {h : Option Halt} {run run' : FleetRun}
    (hends : m.RunEnds task given j h run) (hends' : m.RunEnds task given' k h run')
    (hsilent : j.silent = k.silent) (hhalt : h ≠ some .expired) : run.ending = run'.ending := by
  cases hends with
  | done =>
    cases hends' with
    | done => exact congrArg Except.ok (m.report_silent task .done none hsilent)
  | @failed halt f hfault =>
    cases halt with
    | expired => exact absurd rfl hhalt
    | escaped why => cases hfault
    | failed g =>
      cases hends' with
      | failed hfault' =>
        cases hfault.symm.trans hfault'
        exact congrArg Except.ok (m.report_silent task .failed _ hsilent)
      | brokenOff hfault' => cases hfault'
  | @brokenOff halt hfault =>
    cases halt with
    | expired => exact absurd rfl hhalt
    | failed g => cases hfault
    | escaped why =>
      cases hends' with
      | failed hfault' => cases hfault'
      | brokenOff _ => rfl

theorem RunEnds.expired {given : Number} {run : FleetRun}
    (hends : m.RunEnds task (some given) j (some .expired) run) :
    run.ending = .ok (m.report task .failed (some (deadlineFault given).message)
      (m.announceFailure (deadlineFault given) j)) := by
  cases hends with
  | failed hfault =>
    cases hfault
    rfl
  | brokenOff hfault => cases hfault

theorem timely_at_start (m : Mission) (task : Value) (given : Option Number) :
    (m.announceStart given (Journey.atStart task m.start)).Timely := by
  have hnothing : (m.announceStart given (Journey.atStart task m.start)).completions = [] := by
    unfold announceStart
    rw [Journey.completions_tell _ (by decide), Journey.completions_note]
    rfl
  refine ⟨?_, ?_, ⟨nofun, nofun⟩⟩
  · rw [hnothing]
    rfl
  · rw [hnothing]
    simp

end Mission

/-- What a run with a deadline has of the same run without one. -/
structure FleetRun.Truncates (m : Mission) (given : Number) (cut free : FleetRun) : Prop where
  tiers : cut.journey.tiers = free.journey.recordedBefore (m.strike? (some given))
  reported : ∀ report, cut.ending = .ok report → report.tiers = cut.journey.tiers
  inTime : Mission.OnTime (m.strike? (some given)) free.journey → cut.ending = free.ending
  late : ∀ d, m.strike? (some given) = some d → d ≤ free.journey.clock →
    ∃ report, cut.ending = .ok report ∧ report.status = .failed ∧
      report.error = some (Mission.deadlineFault given).message ∧ report.answer = .null ∧
      report.finalVerdict = none ∧ report.synthesisAgent = none
  calls : ∀ c ∈ cut.journey.calls,
    (∀ d, m.strike? (some given) = some d → c.time < d) ∧ c ∈ free.journey.calls
  invocations : ∀ i ∈ cut.journey.invocations,
    (∀ d, m.strike? (some given) = some d → i.span.start < d) ∧
      ∃ i' ∈ free.journey.invocations, i'.call = i.call
  returned : m.Orderly → (∃ report, cut.ending = .ok report) ∧ ∃ report, free.ending = .ok report

namespace Mission

variable {m : Mission} {task : Value} {given : Number} {j k : Journey} {h h' : Option Halt}

/-- A run that has come to its end with a deadline, and the same run without one: they have come
    to the same, or the deadline has cut the first one short. -/
inductive Compares (deadline : Option Instant) (j k : Journey) (h h' : Option Halt) : Prop
  | inTime (hsilent : j.silent = k.silent) (hhalt : h = h') (hontime : OnTime deadline k)
      (htimely : k.Timely) (hnever : h' ≠ some .expired)
  | late {d : Instant} (hdeadline : deadline = some d) (hhalt : h = some .expired)
      (hshort : Journey.CutShort d j k)

/-- What is told at the end does not matter for the comparison. -/
theorem Compares.closed {deadline : Option Instant} {j' k' : Journey}
    (hcompares : Compares deadline j k h h') (hj : j'.silent = j.silent)
    (hk : k'.silent = k.silent) (hcompletions : k'.completions = k.completions) :
    Compares deadline j' k' h h' := by
  have hclock : k'.clock = k.clock := Journey.eq_of_silent (fun _ => rfl) hk
  have htiers : k'.tiers = k.tiers := Journey.eq_of_silent (fun _ => rfl) hk
  have hcalls : k'.calls = k.calls := Journey.eq_of_silent (fun _ => rfl) hk
  have hinvocations : k'.invocations = k.invocations := Journey.eq_of_silent (fun _ => rfl) hk
  cases hcompares with
  | inTime hsilent hhalt hontime htimely hnever =>
    refine .inTime (hj.trans (hsilent.trans hk.symm)) hhalt ?_ ⟨?_, ?_, ?_, ?_⟩ hnever
    · intro d hd
      exact hclock ▸ hontime d hd
    · rw [htiers, hcompletions, htimely.tiers]
    · rw [hcompletions, hclock]
      exact htimely.past
    · rw [hcalls, hclock]
      exact htimely.begun.calls
    · rw [hinvocations, hclock]
      exact htimely.begun.invocations
  | late hdeadline hhalt hshort =>
    refine .late hdeadline hhalt ⟨hclock ▸ hshort.late, ?_, ?_, ?_, ?_, ?_⟩
    · unfold Journey.recordedBefore
      rw [htiers, hcompletions]
      exact (Journey.eq_of_silent (fun _ => rfl) hj).trans hshort.tiers
    · exact (Journey.eq_of_silent (fun _ => rfl) hj).trans hshort.answer
    · exact (Journey.eq_of_silent (fun _ => rfl) hj).trans hshort.finalVerdict
    · exact (Journey.eq_of_silent (fun _ => rfl) hj).trans hshort.synthesisAgent
    · have hcut : j'.calls = j.calls := Journey.eq_of_silent (fun _ => rfl) hj
      have hcut' : j'.invocations = j.invocations := Journey.eq_of_silent (fun _ => rfl) hj
      rw [hcut, hcut', hcalls, hinvocations]
      exact hshort.made

theorem executeWithin_compares (hf : m.fleet.Valid) (hplaces : m.executor.places ≠ 0)
    (htime : ∀ d, expiryOf (some given) = some d → 0 < d)
    (hcut : m.executeWithin (some given)
      (m.announceStart (some given) (Journey.atStart task m.start)) = (j, h))
    (hfree : m.executeWithin none (m.announceStart none (Journey.atStart task m.start)) = (k, h')) :
    Compares (m.strike? (some given)) j k h h' := by
  have hnone : m.executeWithin none (m.announceStart none (Journey.atStart task m.start)) =
    m.goOn none m.fleet.votingTiers (m.announceStart none (Journey.atStart task m.start)) := rfl
  rw [executeWithin_of_time htime] at hcut
  rw [hnone] at hfree
  -- the deadline is told at the start, so the runs are compared from a start that is told alike
  have hstart : (m.announceStart (some given) (Journey.atStart task m.start)).silent =
    (m.announceStart none (Journey.atStart task m.start)).silent := rfl
  obtain ⟨hsilent, hhalt⟩ := Journey.Alike.of_silent
    (m.goOn_silent (m.strike? (some given)) m.fleet.votingTiers) hstart
  have huntil := goOn_until hf hplaces (m.onTime_at_start task none (some given))
    (m.timely_at_start task none) (Journey.atStart_underway task m.start) (List.nil_append _)
  rw [hcut] at hsilent hhalt
  rw [hfree] at huntil
  rcases huntil with ⟨hsame, hontime, htimely, hnever⟩ | ⟨d, hdeadline, hexpired, hshort⟩
  · rw [hsame] at hsilent hhalt
    exact .inTime hsilent hhalt hontime htimely hnever
  · have hcompares : Compares (m.strike? (some given)) _ k h h' :=
      .late hdeadline (hhalt.trans hexpired) hshort
    exact hcompares.closed hsilent rfl rfl

/-- **A deadline only truncates.**  The run with a deadline reports the tiers that the run
    without one has recorded before the deadline.  If that run is over by then, both end
    alike; otherwise the deadline has failed the run, which has no answer, and whoever was
    called or invoked in it was so in the other run before the deadline. -/
theorem run_truncated (hf : m.fleet.Valid) (hplaces : m.executor.places ≠ 0) (task : Value)
    (htime : ∀ d, expiryOf (some given) = some d → 0 < d) :
    FleetRun.Truncates m given (m.run task (some given)) (m.run task none) := by
  have hreturned (hm : m.Orderly) : (∃ report, (m.run task (some given)).ending = .ok report) ∧
      ∃ report, (m.run task none).ending = .ok report :=
    ⟨run_returns hf hm task (some given), run_returns hf hm task none⟩
  obtain ⟨j, h, hcut, hcutEnds⟩ := m.run_ends task (some given)
  obtain ⟨k, h', hfree, hfreeEnds⟩ := m.run_ends task none
  have hcompares := executeWithin_compares hf hplaces htime hcut hfree
  generalize m.run task (some given) = cut at hcutEnds hreturned ⊢
  generalize m.run task none = free at hfreeEnds hreturned ⊢
  obtain ⟨hcutSilent, -, hreported⟩ := hcutEnds.closing
  obtain ⟨hfreeSilent, hcompletions, -⟩ := hfreeEnds.closing
  have hcutTiers : cut.journey.tiers = j.tiers := Journey.eq_of_silent (fun _ => rfl) hcutSilent
  have hall (report : FleetReport) (hreport : cut.ending = .ok report) :
      report.tiers = cut.journey.tiers := (hreported report hreport).trans hcutTiers.symm
  cases hcompares.closed hcutSilent hfreeSilent hcompletions with
  | inTime hsilent hhalt hontime htimely hnever =>
    have hsame : j.silent = k.silent := hcutSilent.symm.trans (hsilent.trans hfreeSilent)
    refine ⟨?_, hall, ?_, ?_, ?_, ?_, hreturned⟩
    · rw [Journey.recordedBefore_of_onTime htimely hontime]
      exact Journey.eq_of_silent (fun _ => rfl) hsilent
    · subst hhalt
      exact fun _ => hcutEnds.ending_eq hfreeEnds hsame hnever
    · intro d hd hlate
      exact absurd (hontime d hd) (not_lt.mpr hlate)
    · intro c hc
      have hcalls : cut.journey.calls = free.journey.calls :=
        Journey.eq_of_silent (fun _ => rfl) hsilent
      rw [hcalls] at hc
      exact ⟨fun d hd => (htimely.begun.calls c hc).trans_lt (hontime d hd), hc⟩
    · intro i hi
      have hinvocations : cut.journey.invocations = free.journey.invocations :=
        Journey.eq_of_silent (fun _ => rfl) hsilent
      rw [hinvocations] at hi
      exact ⟨fun d hd => (htimely.begun.invocations i hi).trans_lt (hontime d hd), i, hi, rfl⟩
  | @late d hdeadline hhalt hshort =>
    subst hhalt
    have hstrikes {t : Instant} (ht : t < d) :
        ∀ d', m.strike? (some given) = some d' → t < d' := by
      intro d' hd'
      cases hdeadline.symm.trans hd'
      exact ht
    refine ⟨?_, hall, ?_, ?_, ?_, ?_, hreturned⟩
    · rw [hdeadline]
      exact hshort.tiers
    · intro hontime
      exact absurd (hontime d hdeadline) (not_lt.mpr hshort.late)
    · intro _ _ _
      have hreport := m.report_silent task .failed (some (deadlineFault given).message) hcutSilent
      exact ⟨_, hcutEnds.expired.trans (congrArg Except.ok hreport.symm), rfl, rfl, hshort.answer,
        hshort.finalVerdict, hshort.synthesisAgent⟩
    · intro c hc
      obtain ⟨htime, hfree⟩ := hshort.made.calls c hc
      exact ⟨hstrikes htime, hfree⟩
    · intro i hi
      obtain ⟨hstart, hfree⟩ := hshort.made.invocations i hi
      exact ⟨hstrikes hstart, hfree⟩

end Mission

/-- A briefing in which everybody answers after two seconds. -/
def slowBriefing : Mission :=
  { briefingMission with
    executor :=
      { briefingMission.executor with
        conduct := fun a _ _ => ⟨2, .output (.text a.name), none⟩ } }

/-- A deadline of three seconds falls into the time of the manager. -/
theorem slowBriefing_truncated : briefing.Valid ∧ slowBriefing.executor.places ≠ 0 ∧
    (∀ d, Mission.expiryOf (some (.whole 3)) = some d → 0 < d) ∧
    FleetRun.Truncates slowBriefing (.whole 3)
      (slowBriefing.run (.text "weather") (some (.whole 3)))
      (slowBriefing.run (.text "weather") none) := by
  have hplaces : slowBriefing.executor.places ≠ 0 := Int.one_ne_zero
  have htime : ∀ d, Mission.expiryOf (some (.whole 3)) = some d → 0 < d := by
    intro d hd
    cases hd
    decide
  exact ⟨briefing_valid, hplaces, htime,
    Mission.run_truncated (m := slowBriefing) briefing_valid hplaces (.text "weather") htime⟩

end Quorum

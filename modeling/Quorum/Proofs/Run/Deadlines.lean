/-
  Quorum/Proofs/Run/Deadlines.lean
  ================================
  **A sooner deadline lets no more of a run take place.**

  Two runs of one mission differ in their deadlines.  As long as both go the way they would go
  without any deadline they are one run; where the sooner one leaves it, it has expired, and
  the later one only gets further (`Mission.Behind`).  So it is in a tier
  (`runTier_behind`), with the answer (`conclude_behind`), and from any tier to the end
  (`goOn_behind`).

  A deadline of zero seconds is no deadline.  It stands before every other in the order of
  numbers and yet lets everything take place, so it is left out of the comparison
  (`FleetRun.NoFurther`), and `slowBriefing_overtaken` shows what it does.
-/
import Quorum.Proofs.Run.Truncated
import Quorum.Proofs.Service.Answers

namespace Quorum

/-! ### Calls up to a last one -/

/-- Whoever is called up to a last call is called up to any later one. -/
theorem calls_sublist_of_within {context : Context} {last last' : LastCall}
    (hlater : last.Within last') (attempts : List Attempt) :
    (attempts.filterMap (Attempt.call? context last)).Sublist
      (attempts.filterMap (Attempt.call? context last')) := by
  induction attempts with
  | nil => exact List.Sublist.slnil
  | cons a rest ih =>
    cases hmade : a.call? context last with
    | none =>
      rw [List.filterMap_cons_none hmade]
      exact ih.trans (List.Sublist.filterMap _ (List.sublist_cons_self a rest))
    | some c =>
      rw [List.filterMap_cons_some hmade,
        List.filterMap_cons_some (Attempt.call?_within hlater hmade)]
      exact ih.cons_cons c

/-- Of two deadlines the first is there if the second is, and is not after it. -/
def Sooner (sooner later : Option Instant) : Prop :=
  ∀ d, later = some d → ∃ s, sooner = some s ∧ s ≤ d

theorem Sooner.onTime {sooner later : Option Instant} {j : Journey} (h : Sooner sooner later)
    (hj : Mission.OnTime sooner j) : Mission.OnTime later j := by
  intro d hd
  obtain ⟨s, hs, hle⟩ := h d hd
  exact (hj s hs).trans_le hle

namespace Executor

variable {x : Executor} {p : TierPlan}

/-- A tier with a sooner deadline does not go on calling any longer. -/
theorem lastCall_sooner {later : Option Instant} (hsooner : Sooner p.deadline later) :
    (x.lastCall p).Within (x.lastCall { p with deadline := later }) := by
  have hattempts : x.attempts { p with deadline := later } = x.attempts p := rfl
  unfold lastCall
  simp only [hattempts]
  cases hlater : expiresBy { p with deadline := later }
      (closing p.rules p.start (x.attempts p)).instant with
  | none =>
    -- the tier closes in time for the later deadline
    cases hexpires : expiresBy p (closing p.rules p.start (x.attempts p)).instant with
    | none => exact fun _ hs => hs
    | some s =>
      obtain ⟨-, hs⟩ := Option.filter_eq_some_iff.mp hexpires
      exact LastCall.before_within_through (of_decide_eq_true hs)
  | some d =>
    obtain ⟨hd, hlate⟩ := Option.filter_eq_some_iff.mp hlater
    obtain ⟨s, hs, hle⟩ := hsooner d hd
    have hexpires : expiresBy p (closing p.rules p.start (x.attempts p)).instant = some s :=
      Option.filter_eq_some_iff.mpr
        ⟨hs, decide_eq_true (hle.trans (of_decide_eq_true hlate))⟩
    rw [hexpires]
    exact LastCall.before_within_before hle

theorem runTier_calls_sooner {later : Option Instant} (hsooner : Sooner p.deadline later) :
    (x.runTier p).calls.Sublist (x.runTier { p with deadline := later }).calls := by
  by_cases hplaces : x.places < 0
  · unfold runTier
    rw [if_pos hplaces]
    exact List.nil_sublist _
  · have hopen := Int.not_lt.mp hplaces
    have hattempts : x.attempts { p with deadline := later } = x.attempts p := rfl
    rw [(runTier_until_lastCall hopen).1, (runTier_until_lastCall hopen).1, hattempts]
    exact calls_sublist_of_within (lastCall_sooner hsooner) _

end Executor

namespace Mission

variable {m : Mission} {task : Value} {deadline sooner later : Option Instant} {j k : Journey}
  {tier : Int} {done rest : List Int}

/-- A manager is called at once, so no deadline that is still ahead prevents it. -/
theorem conclude_calls (hj : OnTime deadline j) :
    (m.conclude deadline j).1.calls = (m.conclude none j).1.calls := by
  unfold conclude
  split
  · cases hmanager : m.fleet.manager? with
    | none =>
      unfold synthesize
      rw [hmanager]
    | some manager =>
      have hcalled (last : LastCall) (hahead : j.clock < last.instant) :
          (m.synthesisAttempt manager j).call? j.context last =
            some ⟨manager.name, j.context, j.clock⟩ :=
        Attempt.call?_eq_some.mpr ⟨LastCall.allows_of_lt hahead, rfl⟩
      have hfree : m.synthesize none j = m.synthesized manager j :=
        synthesize_of_manager hmanager j
      have hanswered : (m.synthesized manager j).1.calls =
          j.calls ++ [⟨manager.name, j.context, j.clock⟩] := by
        have hstop := hcalled (.through (m.synthesisAttempt manager j).span.stop)
          (Instant.lt_after _ _)
        unfold synthesized
        simp only
        split <;> exact congrArg (fun c => j.calls ++ Option.toList c) hstop
      rw [hfree, synthesize_of_manager hmanager]
      split
      · rename_i d hexpires
        obtain ⟨hdeadline, -⟩ := Option.filter_eq_some_iff.mp hexpires
        rw [hanswered]
        exact congrArg (fun c => j.calls ++ Option.toList c)
          (hcalled (.before d) (hj d hdeadline))
      · rfl
  · rfl

/-! ### Two runs side by side -/

/-- A run with a sooner deadline and one with a later deadline: they have come to the same in
    time for both, or the first has expired and the second has got at least as far. -/
inductive Behind (sooner : Option Instant) (first second : Journey × Option Halt) : Prop
  | abreast (hsame : first = second) (hontime : OnTime sooner second.1)
      (hnever : second.2 ≠ some .expired)
  | expired (hhalt : first.2 = some .expired) (htiers : first.1.tiers <+: second.1.tiers)
      (hcalls : first.1.calls.Sublist second.1.calls)

/-- Both deadlines are compared with the run that has none. -/
theorem Behind.of_follows {parted : Ledger} {first second free : Journey × Option Halt}
    (hsooner : Sooner sooner later) (hfirst : Follows sooner parted first free)
    (hsecond : Follows later parted second free) (htiers : parted.tiers <+: second.1.tiers)
    (hcalls : first.1.calls.Sublist second.1.calls) : Behind sooner first second := by
  cases hfirst with
  | inTime hsame hontime hnever =>
    cases hsecond with
    | inTime hsame' _ _ =>
      subst hsame hsame'
      exact .abreast rfl hontime hnever
    | expired hdeadline _ hovertaken =>
      obtain ⟨s, hs, hle⟩ := hsooner _ hdeadline
      exact absurd (hontime s hs) (not_lt.mpr (hle.trans hovertaken.late))
  | expired _ hhalt hovertaken =>
    refine .expired hhalt ?_ hcalls
    have hkept : first.1.tiers = parted.tiers := congrArg Ledger.tiers hovertaken.ledger
    rw [hkept]
    exact htiers

theorem runTier_behind (hf : m.fleet.Valid) (hplaces : m.executor.places ≠ 0)
    (hsooner : Sooner sooner later) (hontime : OnTime sooner j) (hbegun : j.Begun)
    {h : Option Halt} (hrun : m.runTier later tier j = (k, h)) (hstep : m.Step later tier j k h) :
    Behind sooner (m.runTier sooner tier j) (k, h) := by
  have hlater := hsooner.onTime hontime
  obtain ⟨hproceeds, -⟩ := hstep.proceeds hf hplaces hlater (List.mem_singleton_self tier)
  have hsecond := runTier_follows hf hplaces hlater hbegun tier
  have hcalls := runTier_calls (m := m) later tier j
  rw [hrun] at hsecond hcalls
  refine .of_follows hsooner (runTier_follows hf hplaces hontime hbegun tier) hsecond
    hproceeds.tiers.begins ?_
  rw [runTier_calls, hcalls]
  exact (Executor.runTier_calls_sooner (p := m.plan sooner tier j) hsooner).append_left _

theorem conclude_behind (hsooner : Sooner sooner later) (hontime : OnTime sooner j)
    (hbegun : j.Begun) : Behind sooner (m.conclude sooner j) (m.conclude later j) := by
  have hlater := hsooner.onTime hontime
  refine .of_follows hsooner (conclude_follows hontime hbegun) (conclude_follows hlater hbegun)
    ?_ ?_
  · exact (conclude_proceeds hlater []).tiers.begins
  · rw [conclude_calls hontime, conclude_calls hlater]

/-- From any tier to the end the run with the sooner deadline comes to what the other comes to,
    or has expired no further on. -/
theorem goOn_behind (hf : m.fleet.Valid) (hplaces : m.executor.places ≠ 0)
    (hsooner : Sooner sooner later) (hontime : OnTime sooner j) (hbegun : j.Begun)
    (hdone : j.ledger.Underway done) (hsplit : done ++ rest = m.fleet.votingTiers) :
    Behind sooner (m.goOn sooner rest j) (m.goOn later rest j) := by
  -- on the tiers that are left, as long as both runs are one
  induction rest generalizing j done with
  | nil => exact conclude_behind hsooner hontime hbegun
  | cons tier rest ih =>
    obtain ⟨hshift, hfirst⟩ := parted_behind hsplit
    have hlater := hsooner.onTime hontime
    cases hwritten : Value.hasNumeral tier with
    | false =>
      -- both break off here
      rw [goOn_of_unwritten hwritten, goOn_of_unwritten hwritten]
      exact .abreast rfl hontime (by simp)
    | true =>
      obtain ⟨k, h, hrun, hstep⟩ := next_is_step later hdone hfirst
      rcases runTier_behind hf hplaces hsooner hontime hbegun hrun hstep with
        ⟨hsame, hintime, hnever⟩ | ⟨hhalt, htiers, hcalls⟩
      · cases h with
        | some halt =>
          rw [goOn_of_halt hwritten hsame, goOn_of_halt hwritten hrun]
          exact .abreast rfl hintime hnever
        | none =>
          have hproceeds := (hstep.proceeds hf hplaces hlater (List.mem_singleton_self tier)).1
          rw [goOn_of_passed hwritten hsame, goOn_of_passed hwritten hrun]
          exact ih hintime (hbegun.proceeds hproceeds) (hstep.underway_of_passed hdone) hshift
      · have hstopped : m.runTier sooner tier j =
            ((m.runTier sooner tier j).1, some .expired) := by rw [← hhalt]
        have hwhole : done ++ tier :: rest <+: m.fleet.votingTiers := hsplit ▸ List.prefix_rfl
        obtain ⟨tiers, hmore⟩ :=
          goOn_proceeds_after hf hplaces hlater hdone hwhole hwritten hrun hstep
        rw [goOn_of_halt hwritten hstopped]
        refine .expired rfl (htiers.trans hmore.tiers.begins) ?_
        exact hcalls.trans hmore.calls.begins.sublist

end Mission

/-! ### Faults of a run's own work -/

/-- A halt that the work of a run comes to.  Its fault is not the one of a deadline. -/
def Halt.OfWork (halt : Halt) : Prop := ∀ f, halt = .failed f → f.kind ≠ .deadlineExceeded

namespace Mission

variable {m : Mission} {task : Value} {deadline : Option Instant} {p : TierPlan} {j k : Journey}
  {tier : Int} {done rest : List Int}

theorem haltAfter_ofWork {report : TierReport} {halt : Halt}
    (h : m.haltAfter p report = some halt) : halt.OfWork := by
  unfold haltAfter at h
  split at h
  · cases h
    simp [Halt.OfWork, rejectedFault, Fault.make]
  · split at h
    · cases h
      simp [Halt.OfWork, exhaustedFault, Fault.make]
    · cases h

theorem Step.ofWork {h : Option Halt} (hstep : m.Step deadline tier j k h) :
    ∀ halt ∈ h, halt.OfWork := by
  cases hstep with
  | expired => simp [Halt.OfWork]
  | escaped => simp [Halt.OfWork]
  | unsettled _ hreview =>
    cases hreview with
    | cancelled => simp [Halt.OfWork]
    | expired => simp [Halt.OfWork]
  | passed => exact fun halt hhalt => haltAfter_ofWork (Option.mem_def.mp hhalt)

theorem synthesisOf_ofWork {name : String} {limit : Number} {ending : Ending} {halt : Halt}
    (h : synthesisOf name limit ending = .error halt) : halt.OfWork := by
  unfold synthesisOf at h
  split at h
  · split at h <;> cases h
    simp [Halt.OfWork, synthesisFault, Fault.make]
  all_goals
    cases h
    simp [Halt.OfWork, synthesisFault, Fault.make]

theorem conclude_ofWork (deadline : Option Instant) (j : Journey) :
    ∀ halt ∈ (m.conclude deadline j).2, halt.OfWork := by
  unfold conclude
  split
  · unfold synthesize
    cases m.fleet.manager? with
    | none => simp [Halt.OfWork, Fault.make]
    | some manager =>
      simp only
      split
      · simp [Halt.OfWork]
      · split
        · rename_i halt hsynthesis
          simpa using synthesisOf_ofWork hsynthesis
        · simp
  · simp

theorem goOn_ofWork (deadline : Option Instant) (hdone : j.ledger.Underway done)
    (hsplit : done ++ rest = m.fleet.votingTiers) :
    ∀ halt ∈ (m.goOn deadline rest j).2, halt.OfWork := by
  induction rest generalizing j done with
  | nil => exact conclude_ofWork deadline j
  | cons tier rest ih =>
    obtain ⟨hshift, hfirst⟩ := parted_behind hsplit
    cases hwritten : Value.hasNumeral tier with
    | false =>
      rw [goOn_of_unwritten hwritten]
      simp [Halt.OfWork]
    | true =>
      obtain ⟨k, h, hrun, hstep⟩ := next_is_step deadline hdone hfirst
      cases h with
      | some halt =>
        rw [goOn_of_halt hwritten hrun]
        exact hstep.ofWork
      | none =>
        rw [goOn_of_passed hwritten hrun]
        exact ih (hstep.underway_of_passed hdone) hshift

theorem executeWithin_ofWork (given : Option Number) (hj : j.ledger.Underway []) :
    ∀ halt ∈ (m.executeWithin given j).2, halt.OfWork := by
  unfold executeWithin
  split
  · exact goOn_ofWork none hj (List.nil_append _)
  · split
    · simp [Halt.OfWork]
    · exact goOn_ofWork _ hj (List.nil_append _)

end Mission

/-! ### Runs that their deadlines fail -/

/-- A run that its deadline has failed, by its report and by the last that was told of it. -/
structure FleetRun.Expired (run : FleetRun) (given : Number) : Prop where
  reported : ∃ report, run.ending = .ok report ∧ report.status = .failed ∧
    report.error = some (Mission.deadlineFault given).message
  told : ∃ e, run.journey.events.getLast? = some e ∧ e.type = .fleetFailed ∧
    e.data = [("error_type", .named FaultKind.deadlineExceeded)]

namespace Mission

variable {m : Mission} {task : Value} {j : Journey}

theorem RunEnds.is_expired {given : Number} {run : FleetRun}
    (hends : m.RunEnds task (some given) j (some .expired) run) : run.Expired given := by
  cases hends with
  | brokenOff hfault => cases hfault
  | failed hfault =>
    cases hfault
    refine ⟨⟨_, rfl, rfl, rfl⟩, ?_⟩
    unfold announceFailure
    rw [Journey.events_tell]
    exact ⟨_, List.getLast?_concat, rfl, rfl⟩

/-- A run that has stopped for another reason does not look as if its deadline had failed it. -/
theorem RunEnds.not_expired {given : Option Number} {limit : Number} {h : Option Halt}
    {run : FleetRun} (hends : m.RunEnds task given j h run) (hnever : h ≠ some .expired)
    (hwork : ∀ halt ∈ h, halt.OfWork) : ¬ run.Expired limit := by
  rintro ⟨⟨report, hreport, hstatus, -⟩, e, hlast, -, hdata⟩
  cases hends with
  | done =>
    cases hreport
    cases hstatus
  | brokenOff => cases hreport
  | @failed halt f hfault =>
    cases halt with
    | expired => exact hnever rfl
    | escaped why => cases hfault
    | failed g =>
      cases hfault
      unfold announceFailure at hlast
      rw [Journey.events_tell, List.getLast?_concat] at hlast
      cases hlast
      have hkind := hwork (.failed f) (Option.mem_some_self _) f rfl
      simp only [Value.named] at hdata
      revert hkind hdata
      cases f.kind <;> simp [Named.name]

end Mission

/-! ### Two deadlines of one mission -/

theorem Instant.after_mono (t : Instant) {s d : Rat} (hs : 0 < s) (hle : s ≤ d) :
    t.after s ≤ t.after d := by
  unfold after
  rw [if_pos hs, if_pos (hs.trans_le hle)]
  rcases hle.lt_or_eq with hlt | rfl
  · exact Or.inl (by simpa using hlt)
  · exact le_rfl

theorem Number.limit?_of_toRat? {n : Number} {r : Rat} (h : n.toRat? = some r) :
    n.limit? = some r := by
  cases n with
  | whole n => exact h
  | double x =>
    simp only [toRat?] at h
    simp [limit?, h]

namespace Mission

variable {m : Mission} {task : Value} {sooner later : Number}

/-- Of two finite deadlines the smaller one strikes sooner, unless it is zero and the other is
    not. -/
theorem expiryOf_sooner {s l : Rat} (hsooner : sooner.toRat? = some s)
    (hlater : later.toRat? = some l) (hle : s ≤ l)
    (hzero : sooner.isZero = true → later.isZero = true) :
    ∀ d, expiryOf (some later) = some d → ∃ s, expiryOf (some sooner) = some s ∧ s ≤ d := by
  intro d hd
  simp only [expiryOf, Option.bind_some] at hd ⊢
  by_cases hnone : later.isZero = true
  · rw [if_pos hnone] at hd
    cases hd
  · rw [if_neg hnone, Number.limit?_of_toRat? hlater] at hd
    cases hd
    rw [if_neg fun h => hnone (hzero h), Number.limit?_of_toRat? hsooner]
    exact ⟨s, rfl, hle⟩

/-- A run with a sooner deadline when it stops, and one with a later deadline. -/
inductive Trails (first second : Journey × Option Halt) : Prop
  | alike (halike : Journey.Alike first second) (hnever : second.2 ≠ some .expired)
  | expired (hhalt : first.2 = some .expired) (htiers : first.1.tiers <+: second.1.tiers)
      (hcalls : first.1.calls.Sublist second.1.calls)

theorem Trails.no_more {first second : Journey × Option Halt} (h : Trails first second) :
    first.1.tiers <+: second.1.tiers ∧ first.1.calls.Sublist second.1.calls := by
  cases h with
  | alike halike _ =>
    have htiers := Journey.eq_of_silent (g := Journey.tiers) (fun _ => rfl) halike.1
    have hcalls := Journey.eq_of_silent (g := Journey.calls) (fun _ => rfl) halike.1
    exact ⟨htiers ▸ List.prefix_rfl, hcalls ▸ List.Sublist.refl _⟩
  | expired _ htiers hcalls => exact ⟨htiers, hcalls⟩

/-- A deadline that is used up at the start ends the run before anything else. -/
theorem executeWithin_of_usedUp {given : Option Number} {d : Rat}
    (hexpiry : expiryOf given = some d) (hd : d ≤ 0) (j : Journey) :
    m.executeWithin given j = (j, some .expired) := by
  unfold executeWithin
  rw [hexpiry]
  exact if_pos hd

theorem executeWithin_trails (hf : m.fleet.Valid) (hplaces : m.executor.places ≠ 0) (task : Value)
    (hexpiry : ∀ d, expiryOf (some later) = some d →
      ∃ s, expiryOf (some sooner) = some s ∧ s ≤ d) :
    Trails
      (m.executeWithin (some sooner)
        (m.announceStart (some sooner) (Journey.atStart task m.start)))
      (m.executeWithin (some later)
        (m.announceStart (some later) (Journey.atStart task m.start))) := by
  by_cases htime : ∀ d, expiryOf (some sooner) = some d → 0 < d
  · have htime' : ∀ d, expiryOf (some later) = some d → 0 < d := by
      intro d hd
      obtain ⟨s, hs, hle⟩ := hexpiry d hd
      exact (htime s hs).trans_le hle
    have hsooner : Sooner (m.strike? (some sooner)) (m.strike? (some later)) := by
      intro t ht
      obtain ⟨d, hd, rfl⟩ := Option.map_eq_some_iff.mp ht
      obtain ⟨s, hs, hle⟩ := hexpiry d hd
      exact ⟨m.start.after s, congrArg (Option.map m.start.after) hs,
        m.start.after_mono (htime s hs) hle⟩
    rw [executeWithin_of_time htime, executeWithin_of_time htime']
    -- the deadline is told at the start, so both are compared from a start that is told alike
    have hstart : (m.announceStart (some sooner) (Journey.atStart task m.start)).silent =
      (m.announceStart (some later) (Journey.atStart task m.start)).silent := rfl
    have halike := Journey.Alike.of_silent
      (m.goOn_silent (m.strike? (some later)) m.fleet.votingTiers) hstart
    have hbehind := goOn_behind hf hplaces hsooner
      (m.onTime_at_start task (some sooner) (some sooner))
      (m.timely_at_start task (some sooner)).begun (Journey.atStart_underway task m.start)
      (List.nil_append _)
    rcases hbehind with ⟨hsame, -, hnever⟩ | ⟨hhalt, htiers, hcalls⟩
    · rw [hsame]
      exact .alike halike (halike.2 ▸ hnever)
    · have hreached := Journey.eq_of_silent (g := Journey.tiers) (fun _ => rfl) halike.1
      have hmade := Journey.eq_of_silent (g := Journey.calls) (fun _ => rfl) halike.1
      exact .expired hhalt (hreached ▸ htiers) (hmade ▸ hcalls)
  · simp only [not_forall, not_lt] at htime
    obtain ⟨d, hd, hpassed⟩ := htime
    rw [executeWithin_of_usedUp hd hpassed]
    exact .expired rfl List.nil_prefix (List.nil_sublist _)

end Mission

/-- What a run with a sooner deadline has of the run with a later one. -/
structure FleetRun.NoFurther (sooner later : Number) (first second : FleetRun) : Prop where
  tiers : first.journey.tiers <+: second.journey.tiers
  reported : ∀ report report', first.ending = .ok report → second.ending = .ok report' →
    report.tiers <+: report'.tiers
  calls : first.journey.calls.Sublist second.journey.calls
  expired : second.Expired later → first.Expired sooner
  alike : first.Expired sooner ∨ first.ending = second.ending
  /-- A deadline that has passed at the start lets nothing take place. -/
  usedUp : ∀ d, Mission.expiryOf (some sooner) = some d → d ≤ 0 →
    first.Expired sooner ∧ first.journey.tiers = [] ∧ first.journey.calls = []

namespace Mission

variable {m : Mission} {task : Value} {sooner later : Number}

/-- **A sooner deadline lets no more of a run take place.**  Of two finite deadlines that a
    run is given, whatever its settings say, the smaller one lets it report no tier and call
    nobody that the other does not, and a run that the other one fails is failed by the
    smaller one too.  This leaves out the deadline of zero before one that is not. -/
theorem run_no_further (hf : m.fleet.Valid) (hplaces : m.executor.places ≠ 0) (task : Value)
    (settings : Settings) {s l : Rat} (hsooner : sooner.toRat? = some s)
    (hlater : later.toRat? = some l) (hle : s ≤ l)
    (hzero : sooner.isZero = true → later.isZero = true) :
    FleetRun.NoFurther sooner later (m.run task (deadlineOr settings (some sooner)))
      (m.run task (deadlineOr settings (some later))) := by
  have htrails := executeWithin_trails hf hplaces task
    (expiryOf_sooner hsooner hlater hle hzero)
  have hwork := executeWithin_ofWork (m := m) (some later)
    (j := m.announceStart (some later) (Journey.atStart task m.start))
    (Journey.atStart_underway task m.start)
  have hstart {d : Rat} (hd : expiryOf (some sooner) = some d) (hpassed : d ≤ 0) :=
    executeWithin_of_usedUp (m := m) hd hpassed
      (m.announceStart (some sooner) (Journey.atStart task m.start))
  obtain ⟨j, h, hfirst, hends⟩ := m.run_ends task (some sooner)
  obtain ⟨k, h', hsecond, hends'⟩ := m.run_ends task (some later)
  rw [hfirst, hsecond] at htrails
  rw [hsecond] at hwork
  rw [hfirst] at hstart
  obtain ⟨hsilent, -, hreported⟩ := hends.closing
  obtain ⟨hsilent', -, hreported'⟩ := hends'.closing
  have htiers := Journey.eq_of_silent (g := Journey.tiers) (fun _ => rfl) hsilent
  have htiers' := Journey.eq_of_silent (g := Journey.tiers) (fun _ => rfl) hsilent'
  have hcalls := Journey.eq_of_silent (g := Journey.calls) (fun _ => rfl) hsilent
  have hcalls' := Journey.eq_of_silent (g := Journey.calls) (fun _ => rfl) hsilent'
  have husedUp (d : Rat) (hd : expiryOf (some sooner) = some d) (hpassed : d ≤ 0) :
      FleetRun.Expired (m.run task (some sooner)) sooner ∧
        (m.run task (some sooner)).journey.tiers = [] ∧
        (m.run task (some sooner)).journey.calls = [] := by
    cases hstart hd hpassed
    exact ⟨hends.is_expired, htiers, hcalls⟩
  show FleetRun.NoFurther sooner later (m.run task (some sooner)) (m.run task (some later))
  obtain ⟨hbefore, hmade⟩ := htrails.no_more
  refine ⟨htiers ▸ htiers' ▸ hbefore, ?_, hcalls ▸ hcalls' ▸ hmade, ?_, ?_, husedUp⟩
  · intro report report' hreport hreport'
    rw [hreported report hreport, hreported' report' hreport']
    exact hbefore
  · intro hexpired
    cases htrails with
    | alike _ hnever => exact absurd hexpired (hends'.not_expired hnever hwork)
    | expired hhalt _ _ =>
      cases hhalt
      exact hends.is_expired
  · cases htrails with
    | alike halike hnever =>
      obtain ⟨hsame, rfl⟩ := halike
      exact Or.inr (hends.ending_eq hends' hsame hnever)
    | expired hhalt _ _ =>
      cases hhalt
      exact Or.inl hends.is_expired

end Mission

/-! ### A slow briefing -/

/-- Settings that give every run half a minute. -/
def hurriedSettings : Settings := { patientSettings with fleetDeadline := some 30.0 }

/-- The slow briefing with a deadline of some whole seconds. -/
def slowBriefingWithin (seconds : Int) : FleetRun :=
  slowBriefing.run (.text "weather")
    (Mission.deadlineOr hurriedSettings (some (.whole seconds)))

/-- After one second the scout is still at work, after three the chief is. -/
theorem slowBriefing_no_further : briefing.Valid ∧ slowBriefing.executor.places ≠ 0 ∧
    (Number.whole 1).toRat? = some 1 ∧ (Number.whole 3).toRat? = some 3 ∧ (1 : Rat) ≤ 3 ∧
    ((Number.whole 1).isZero = true → (Number.whole 3).isZero = true) ∧
    FleetRun.NoFurther (.whole 1) (.whole 3) (slowBriefingWithin 1) (slowBriefingWithin 3) := by
  have hplaces : slowBriefing.executor.places ≠ 0 := Int.one_ne_zero
  have hzero : (Number.whole 1).isZero = true → (Number.whole 3).isZero = true := by decide
  have hle : (1 : Rat) ≤ 3 := by norm_num
  exact ⟨briefing_valid, hplaces, rfl, rfl, hle, hzero,
    Mission.run_no_further (m := slowBriefing) briefing_valid hplaces (.text "weather")
      hurriedSettings rfl rfl hle hzero⟩

theorem briefing_votingTiers : briefing.votingTiers = [1] := by
  rw [Fleet.votingTiers, briefing_tiers]
  rfl

/-- The slow briefing when it has been told of its deadline. -/
def slowBriefingStarted (seconds : Int) : Journey :=
  slowBriefing.announceStart (some (.whole seconds)) (Journey.atStart (.text "weather") .zero)

/-- With a deadline of zero seconds the scout's tier is recorded. -/
theorem slowBriefing_records :
    (slowBriefing.executeWithin (some (.whole 0)) (slowBriefingStarted 0)).1.tiers ≠ [] := by
  have hplaces : slowBriefing.executor.places ≠ 0 := Int.one_ne_zero
  have hcalm : slowBriefing.executor.Calm := fun _ _ _ => Ending.noConfusion
  obtain ⟨t, hending⟩ := (Executor.runTier_ending_of_calm hcalm (by decide)
    (p := slowBriefing.plan none 1 (slowBriefingStarted 0))).resolve_left nofun
  have hunderway : (slowBriefingStarted 0).ledger.Underway [] :=
    Journey.atStart_underway (.text "weather") .zero
  have habove : ∀ entry ∈ (slowBriefingStarted 0).context.entries, entry.tier < 1 :=
    hunderway.above nofun
  have hwhole : [] ++ 1 :: [] <+: slowBriefing.fleet.votingTiers :=
    briefing_votingTiers ▸ List.prefix_rfl
  obtain ⟨k, report, hrun, hstep, hrecorded, -⟩ :=
    Mission.runTier_passes (m := slowBriefing) habove hending rfl rfl
  obtain ⟨tiers, hmore⟩ := Mission.goOn_proceeds_after briefing_valid hplaces
    (Mission.onTime_of_none _) hunderway hwhole (by decide +kernel) hrun hstep
  show (slowBriefing.goOn none briefing.votingTiers (slowBriefingStarted 0)).1.tiers ≠ []
  rw [briefing_votingTiers]
  intro hnothing
  have hbefore := hmore.tiers.begins
  rw [hnothing, hrecorded] at hbefore
  exact List.append_ne_nil_of_right_ne_nil _ (List.cons_ne_nil _ _) (List.prefix_nil.mp hbefore)

/-- With a deadline of one second the scout's tier is cut short. -/
theorem slowBriefing_cut :
    slowBriefing.executeWithin (some (.whole 1)) (slowBriefingStarted 1) =
      (slowBriefing.afterExecutor (some ⟨1, 0⟩) 1 (slowBriefingStarted 1), some .expired) := by
  have htime : ∀ d, Mission.expiryOf (some (.whole 1)) = some d → 0 < d := by
    intro d hd
    cases hd
    decide
  have hexpires : Executor.expiresBy (slowBriefing.plan (some ⟨1, 0⟩) 1 (slowBriefingStarted 1))
      (closing (slowBriefing.plan (some ⟨1, 0⟩) 1 (slowBriefingStarted 1)).rules .zero
        (slowBriefing.executor.attempts
          (slowBriefing.plan (some ⟨1, 0⟩) 1 (slowBriefingStarted 1)))).instant =
      some ⟨1, 0⟩ := by decide +kernel
  have hending := (Executor.runTier_cut (by decide) hexpires).1
  have hstrike : slowBriefing.strike? (some (.whole 1)) = some ⟨1, 0⟩ := by decide +kernel
  have htiers : slowBriefing.fleet.votingTiers = [1] := briefing_votingTiers
  rw [Mission.executeWithin_of_time htime, hstrike, htiers]
  exact Mission.goOn_of_halt (by decide +kernel) (slowBriefing.runTier_of_expired hending) []

/-- With a deadline of zero seconds a tier is reported, with one of a second none is, though
    only that run is failed by its deadline. -/
theorem slowBriefing_overtaken :
    (Number.whole 0).toRat? = some 0 ∧ (Number.whole 1).toRat? = some 1 ∧ (0 : Rat) ≤ 1 ∧
    (∃ report report', (slowBriefingWithin 0).ending = .ok report ∧
      (slowBriefingWithin 1).ending = .ok report' ∧ ¬ report.tiers <+: report'.tiers) ∧
    (slowBriefingWithin 1).Expired (.whole 1) ∧ ¬ (slowBriefingWithin 0).Expired (.whole 0) := by
  have hplaces : slowBriefing.executor.places ≠ 0 := Int.one_ne_zero
  have horderly : slowBriefing.Orderly :=
    ⟨fun _ _ _ => Ending.noConfusion, by decide, fun _ => hasNumeral_of_mem_briefing, nofun⟩
  have hreturns (seconds : Int) : ∃ report, (slowBriefingWithin seconds).ending = .ok report :=
    Mission.run_returns briefing_valid horderly _ _
  obtain ⟨report, hreport⟩ := hreturns 0
  obtain ⟨report', hreport'⟩ := hreturns 1
  obtain ⟨j, h, hrun, hends⟩ := slowBriefing.run_ends (.text "weather") (some (.whole 0))
  obtain ⟨k, h', hrun', hends'⟩ := slowBriefing.run_ends (.text "weather") (some (.whole 1))
  have hunlimited : slowBriefing.executeWithin (some (.whole 0)) (slowBriefingStarted 0) =
    (j, h) := hrun
  have hrecords := slowBriefing_records
  have hwork := Mission.executeWithin_ofWork (m := slowBriefing) (some (.whole 0))
    (j := slowBriefingStarted 0) (Journey.atStart_underway (.text "weather") .zero)
  rw [hunlimited] at hrecords hwork
  cases slowBriefing_cut.symm.trans hrun'
  refine ⟨rfl, rfl, by norm_num, ⟨report, report', hreport, hreport', ?_⟩, hends'.is_expired, ?_⟩
  · rw [hends.closing.2.2 report hreport, hends'.closing.2.2 report' hreport']
    have hnothing :
        (slowBriefing.afterExecutor (some ⟨1, 0⟩) 1 (slowBriefingStarted 1)).tiers = [] :=
      congrArg Ledger.tiers (slowBriefing.ledger_afterExecutor _ _ _)
    rw [hnothing]
    exact fun hbefore => hrecords (List.prefix_nil.mp hbefore)
  · refine hends.not_expired ?_ hwork
    -- a run without a deadline does not expire
    rcases Mission.goOn_until (m := slowBriefing) briefing_valid hplaces
      (Mission.onTime_of_none _) (slowBriefing.timely_at_start (.text "weather") (some (.whole 0)))
      (Journey.atStart_underway (.text "weather") .zero) (List.nil_append _) with
      ⟨-, -, -, hnever⟩ | ⟨d, hd, -⟩
    · have hsame : (slowBriefing.goOn none slowBriefing.fleet.votingTiers
        (slowBriefingStarted 0)).2 = h := congrArg Prod.snd hunlimited
      exact hsame ▸ hnever
    · cases hd

end Quorum

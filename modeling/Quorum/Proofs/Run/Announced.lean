/-
  Quorum/Proofs/Run/Announced.lean
  ================================
  **What observers are told in a run.**

  The events of a run follow a grammar.  A run starts; every tier that is recorded has a
  block of its own, in the order of the report; a tier that the deadline cuts off has the
  first part of a block; the manager is announced if its turn comes; and the run is completed
  or has failed (`run_announced`).  A tier that is passed adds its block, and a tier that is
  not leaves a first part at most (`runTier_announced`).
-/
import Quorum.Proofs.Run.Steps

namespace Quorum

/-! ### Signals -/

/-- What an event says apart from its wording: its type, the tier and the agent it is about,
    and the status it carries. -/
structure Signal where
  type : EventType
  tier : Option Int
  agent : Option String
  status : Option Value

/-- The signal of an event. -/
def Event.signal (e : Event) : Signal := ⟨e.type, e.tier, e.agent, e.data.lookup "status"⟩

namespace Signal

def ofRun (type : EventType) : Signal := ⟨type, none, none, none⟩

def ofTier (type : EventType) (tier : Int) : Signal := ⟨type, some tier, none, none⟩

def ofFailure (tier : Int) (agent : String) : Signal := ⟨.agentFailed, some tier, some agent, none⟩

def ofStatus (tier : Int) (status : TierStatus) : Signal :=
  ⟨.tierCompleted, some tier, none, some (.named status)⟩

/-- The first part of a block: a tier starts, and agents fail. -/
def opening (tier : Int) (failed : List String) : List Signal :=
  ofTier .tierStarted tier :: failed.map (ofFailure tier)

end Signal

/-- The agents of a tier that failed, in the order of its results. -/
def TierReport.failedAgents (t : TierReport) : List String :=
  (t.results.filter fun r => !r.succeeded).map AgentResult.agentName

/-- The block of a tier that is recorded. -/
def TierReport.block (t : TierReport) : List Signal :=
  Signal.opening t.tier t.failedAgents ++
    (if t.verdict.reached then [.ofTier .consensusReached t.tier] else []) ++
    [.ofStatus t.tier t.status]

/-- The signals of a run so far. -/
def Journey.signals (j : Journey) : List Signal := j.events.map Event.signal

/-- A tier stops its run: it was rejected, or it is exhausted and the fleet does not put up
    with that. -/
def Mission.stopsAfter (m : Mission) (t : TierReport) : Bool :=
  t.status == .failed || t.status == .noData && m.fleet.coordination.abortOnTierFailure

/-- A run has got past its last tier with these reports. -/
def Mission.PastLastTier (m : Mission) (tiers : List TierReport) : Prop :=
  tiers.map TierReport.tier = m.fleet.votingTiers ∧ ∀ t ∈ tiers, m.stopsAfter t = false

instance (m : Mission) (tiers : List TierReport) : Decidable (m.PastLastTier tiers) :=
  inferInstanceAs (Decidable (_ ∧ ∀ t ∈ tiers, _))

/-- What is told about the manager in a run with these reports. -/
def Mission.synthesisSignals (m : Mission) (tiers : List TierReport) : List Signal :=
  if m.fleet.synthesizes = true ∧ m.PastLastTier tiers then
    [⟨.synthesisStarted, none, m.fleet.manager?.map Agent.name, none⟩]
  else []

/-! ### Traces -/

/-- The first part of a block that a deadline leaves: the tier is the one after those that are
    reported. -/
structure FleetReport.CutOff (r : FleetReport) (m : Mission) (deadline : Option Number)
    (signals : List Signal) : Prop where
  expired : ∃ d, deadline = some d ∧ r.status = .failed ∧
    r.error = some (Mission.deadlineFault d).message
  opening : ∃ tier failed, r.tiers.map TierReport.tier ++ [tier] <+: m.fleet.votingTiers ∧
    signals = Signal.opening tier failed

/-- What the observers of a run have been told that ended in a report. -/
structure FleetReport.Announced (r : FleetReport) (m : Mission) (deadline : Option Number)
    (emissions : List Emission) : Prop where
  trace : ∃ cut last, (cut = [] ∨ r.CutOff m deadline cut) ∧
    (r.status = .done ∧ last = .fleetCompleted ∨ r.status = .failed ∧ last = .fleetFailed) ∧
    emissions.map (fun x => x.event.signal) =
      .ofRun .fleetStarted :: r.tiers.flatMap TierReport.block ++ cut ++
        m.synthesisSignals r.tiers ++ [.ofRun last]
  ordered : ∀ t ∈ r.tiers, t.failedAgents.Pairwise (· ≤ ·)
  origin : ∀ x ∈ emissions, x.fleet = r.fleetName ∧ x.runId = r.runId

namespace Journey

@[simp] theorem signals_note (j : Journey) (entry : LogEntry) :
    (j.note entry).signals = j.signals := by
  simp [signals]

@[simp] theorem signals_tell (j : Journey) (type : EventType) (message : String)
    (tier : Option Int) (agent : Option String) (data : List (String × Value)) :
    (j.tell type message tier agent data).signals =
      j.signals ++ [⟨type, tier, agent, data.lookup "status"⟩] := by
  simp [signals, Event.signal]

@[simp] theorem signals_foldl_note (entries : List LogEntry) (j : Journey) :
    (entries.foldl Journey.note j).signals = j.signals := by
  simp [signals]

end Journey

namespace Mission

variable {m : Mission} {deadline : Option Instant} {p : TierPlan} {e : Execution} {j : Journey}

theorem signals_announceTier (p : TierPlan) (j : Journey) :
    (announceTier p j).signals = j.signals ++ [.ofTier .tierStarted p.tier] := by
  simp [announceTier, Signal.ofTier, List.lookup_cons]

theorem signals_announceFailures (e : Execution) (j : Journey) :
    (announceFailures e j).signals = j.signals ++
      ((e.results.filter fun r => !r.succeeded).map AgentResult.agentName).map
        (Signal.ofFailure e.tier) := by
  unfold announceFailures
  generalize e.results.filter (fun r => !r.succeeded) = failures
  induction failures generalizing j with
  | nil => simp
  | cons r rest ih =>
    rw [List.foldl_cons, ih]
    simp [Signal.ofFailure, List.lookup_cons]

theorem signals_noteExhaustion (p : TierPlan) (status : TierStatus) (j : Journey) :
    (noteExhaustion p status j).signals = j.signals := by
  unfold noteExhaustion
  split
  · exact j.signals_note _
  · rfl

theorem signals_announceVerdict (report : TierReport) (j : Journey) :
    (announceVerdict report j).signals = j.signals ++
      (if report.verdict.reached then [.ofTier .consensusReached report.tier] else []) ++
      [.ofStatus report.tier report.status] := by
  unfold announceVerdict
  simp only
  split <;> simp [Signal.ofTier, Signal.ofStatus, List.lookup_cons]

theorem signals_afterExecutor (deadline : Option Instant) (tier : Int) (j : Journey) :
    (m.afterExecutor deadline tier j).signals = j.signals ++ Signal.opening tier [] := by
  have hnotes : (m.afterExecutor deadline tier j).signals =
      ((m.executor.runTier (m.plan deadline tier j)).log.foldl Journey.note
        (announceTier (m.plan deadline tier j) j)).signals := rfl
  rw [hnotes, Journey.signals_foldl_note, signals_announceTier]
  rfl

theorem signals_beforeReview (deadline : Option Instant) {tier : Int} (hlevel : e.tier = tier) :
    (beforeReview p e (m.afterExecutor deadline tier j)).signals =
      j.signals ++ Signal.opening tier
        ((e.results.filter fun r => !r.succeeded).map AgentResult.agentName) := by
  rw [beforeReview, signals_noteExhaustion, signals_announceFailures, signals_afterExecutor,
    hlevel, List.append_assoc]
  rfl

/-! ### One tier after the other -/

theorem haltAfter_of_stops {report : TierReport} (hstops : m.stopsAfter report = true) :
    ∃ f, m.haltAfter p report = some (.failed f) := by
  unfold haltAfter
  unfold stopsAfter at hstops
  split
  · exact ⟨_, rfl⟩
  · rename_i hpassed
    rw [Bool.not_eq_true] at hpassed
    rw [hpassed, Bool.false_or] at hstops
    rw [if_pos hstops]
    exact ⟨_, rfl⟩

theorem haltAfter_of_goesOn {report : TierReport} (hgoesOn : m.stopsAfter report = false) :
    m.haltAfter p report = none := by
  unfold stopsAfter at hgoesOn
  obtain ⟨hpassed, hdata⟩ := Bool.or_eq_false_iff.mp hgoesOn
  unfold haltAfter
  rw [hpassed, hdata]
  rfl

/-- A run has told of every tier that it has recorded and of nothing else. -/
structure InBlocks (j : Journey) : Prop where
  signals : j.signals = .ofRun .fleetStarted :: j.tiers.flatMap TierReport.block
  ordered : ∀ t ∈ j.tiers, t.failedAgents.Pairwise (· ≤ ·)

theorem InBlocks.add (hj : InBlocks j) {j' : Journey} {report : TierReport}
    (htiers : j'.tiers = j.tiers ++ [report]) (hsignals : j'.signals = j.signals ++ report.block)
    (hordered : report.failedAgents.Pairwise (· ≤ ·)) : InBlocks j' where
  signals := by
    rw [hsignals, hj.signals, htiers, List.flatMap_append, List.flatMap_singleton, List.cons_append]
  ordered := by
    rw [htiers]
    intro t ht
    rcases List.mem_append.mp ht with ht | ht
    · exact hj.ordered t ht
    · exact List.mem_singleton.mp ht ▸ hordered

/-- A run has passed some tiers, and told of them. -/
structure Announces (m : Mission) (done : List Int) (j : Journey) : Prop where
  blocks : InBlocks j
  underway : j.ledger.Underway done
  goesOn : ∀ t ∈ j.tiers, m.stopsAfter t = false

/-- What has been told in a run that is over, but for how it ended. -/
structure Announced (m : Mission) (j : Journey) (h : Option Halt) : Prop where
  trace : ∃ cut, j.signals = .ofRun .fleetStarted :: j.tiers.flatMap TierReport.block ++ cut ++
      m.synthesisSignals j.tiers ∧
    (cut = [] ∨ (∃ halt, h = some halt ∧ ∀ f, halt ≠ .failed f) ∧
      ∃ tier failed, j.tiers.map TierReport.tier ++ [tier] <+: m.fleet.votingTiers ∧
        cut = Signal.opening tier failed)
  ordered : ∀ t ∈ j.tiers, t.failedAgents.Pairwise (· ≤ ·)

theorem synthesisSignals_of_early {tiers : List TierReport} (hearly : ¬ m.PastLastTier tiers) :
    m.synthesisSignals tiers = [] := if_neg fun h => hearly h.2

/-- A run that still has a tier before it is not past its last one. -/
theorem Announces.early {done : List Int} {tier : Int} (hj : m.Announces done j)
    (hfirst : done ++ [tier] <+: m.fleet.votingTiers) : ¬ m.PastLastTier j.tiers := by
  rintro ⟨hall, -⟩
  rw [show j.tiers.map TierReport.tier = done from hj.underway.tiers] at hall
  have hlength := hfirst.length_le
  rw [hall, List.length_append, List.length_singleton] at hlength
  omega

/-- A run that breaks off between two tiers has told of the whole tiers only. -/
theorem Announces.announced {done : List Int} (hj : m.Announces done j)
    (hearly : ¬ m.PastLastTier j.tiers) (h : Option Halt) : m.Announced j h := by
  refine ⟨⟨[], ?_, Or.inl rfl⟩, hj.blocks.ordered⟩
  rw [synthesisSignals_of_early hearly, List.append_nil, List.append_nil, hj.blocks.signals]

/-- A run that breaks off in a tier has told that the tier has started, and perhaps who
    failed. -/
theorem Announces.cutOff {done : List Int} {tier : Int} {failed : List String} {j' : Journey}
    {halt : Halt} (hj : m.Announces done j) (hfirst : done ++ [tier] <+: m.fleet.votingTiers)
    (hledger : j'.ledger = j.ledger)
    (hsignals : j'.signals = j.signals ++ Signal.opening tier failed)
    (hhalt : ∀ f, halt ≠ .failed f) : m.Announced j' (some halt) := by
  have htiers : j'.tiers = j.tiers := congrArg Ledger.tiers hledger
  have hearly := hj.early hfirst
  refine ⟨⟨Signal.opening tier failed, ?_, Or.inr ⟨⟨halt, rfl, hhalt⟩, tier, failed, ?_, rfl⟩⟩, ?_⟩
  · rw [htiers, synthesisSignals_of_early hearly, List.append_nil, hsignals, hj.blocks.signals]
  · rwa [htiers, show j.tiers.map TierReport.tier = done from hj.underway.tiers]
  · exact htiers ▸ hj.blocks.ordered

/-- A run that stops after a tier has told of the whole tier. -/
theorem InBlocks.stopped (hj : InBlocks j) {report : TierReport} (hreport : report ∈ j.tiers)
    (hstops : m.stopsAfter report = true) (h : Option Halt) : m.Announced j h := by
  have hearly : ¬ m.PastLastTier j.tiers := by
    rintro ⟨-, hgoesOn⟩
    rw [hgoesOn report hreport] at hstops
    cases hstops
  refine ⟨⟨[], ?_, Or.inl rfl⟩, hj.ordered⟩
  rw [synthesisSignals_of_early hearly, List.append_nil, List.append_nil, hj.signals]

theorem failedAgents_ordered {x : Executor} (hending : (x.runTier p).ending = .evaluated e)
    (status : TierStatus) (error : Option String) :
    (e.report p.rules status error).failedAgents.Pairwise (· ≤ ·) := by
  obtain ⟨t, rfl⟩ := Executor.evaluated_execution hending
  have hall := Executor.resultsAt_sorted (x := x) (p := p) (t := t) (x.attempts p)
  exact hall.sublist (List.filter_sublist.map _)

/-- What has been told before a review is the first part of a block, and the verdict is the
    rest of it. -/
theorem signals_recorded {tier : Int} {k : Journey} {reviewed : Reviewed}
    (hlevel : e.tier = tier)
    (hreview : m.ReviewEnds deadline (pendingReport p e)
      (beforeReview p e (m.afterExecutor deadline tier j)) k (.ok reviewed)) :
    (announceVerdict (e.report p.rules reviewed.status reviewed.error)
        (m.recorded e (e.report p.rules reviewed.status reviewed.error) k)).signals =
      j.signals ++ (e.report p.rules reviewed.status reviewed.error).block := by
  have hrecorded (report : TierReport) : (m.recorded e report k).signals = k.signals := rfl
  have hbefore : k.signals = (beforeReview p e (m.afterExecutor deadline tier j)).signals :=
    congrArg (List.map Event.signal) hreview.events
  rw [signals_announceVerdict, hrecorded, hbefore, signals_beforeReview deadline hlevel, ← hlevel]
  simp only [TierReport.block, List.append_assoc]
  rfl

/-- A tier that is passed adds its block; one that is not stops the run with its block or with
    the first part of one. -/
theorem runTier_announced {done : List Int} {tier : Int}
    (hfirst : done ++ [tier] <+: m.fleet.votingTiers) (hj : m.Announces done j) :
    ∃ j' h, m.runTier deadline tier j = (j', h) ∧
      (h = none ∧ m.Announces (done ++ [tier]) j' ∨
        ∃ halt, h = some halt ∧ m.Announced j' (some halt)) := by
  obtain ⟨j', h, hrun, hstep⟩ := next_is_step deadline hj.underway hfirst
  refine ⟨j', h, hrun, ?_⟩
  cases hstep with
  | expired _ =>
    exact Or.inr ⟨_, rfl, hj.cutOff hfirst (m.ledger_afterExecutor _ _ _)
      (signals_afterExecutor _ _ _) (by simp)⟩
  | escaped _ =>
    exact Or.inr ⟨_, rfl, hj.cutOff hfirst (m.ledger_afterExecutor _ _ _)
      (signals_afterExecutor _ _ _) (by simp)⟩
  | unsettled hending hreview =>
    have hsignals := congrArg (List.map Event.signal) hreview.events
    have hbefore := hsignals.trans (signals_beforeReview deadline (evaluated_tier hending))
    refine Or.inr ⟨_, rfl, hj.cutOff hfirst hreview.ledger_before hbefore ?_⟩
    cases hreview with
    | cancelled => simp
    | expired => simp
  | passed hending hreview =>
    have hlevel := evaluated_tier hending
    have hordered := failedAgents_ordered hending
    have hsignals := signals_recorded hlevel hreview
    generalize hreport : Execution.report _ _ _ _ = report at hsignals ⊢
    have hsame : report.tier = tier := by
      rw [← hreport]
      exact hlevel
    have hunderway := hreview.underway_recorded hj.underway hlevel hsame
    have htiers := hreview.tiers_recorded report
    have hblocks := hj.blocks.add htiers hsignals (hreport ▸ hordered _ _)
    cases hstops : m.stopsAfter report with
    | true =>
      obtain ⟨f, hhalt⟩ := haltAfter_of_stops (p := m.plan deadline tier j) hstops
      exact Or.inr ⟨_, hhalt, hblocks.stopped (by simp [htiers]) hstops _⟩
    | false =>
      refine Or.inl ⟨haltAfter_of_goesOn hstops, hblocks, hunderway, ?_⟩
      intro t ht
      rcases List.mem_append.mp (htiers ▸ ht) with ht | ht
      · exact hj.goesOn t ht
      · exact List.mem_singleton.mp ht ▸ hstops

/-! ### At the end -/

theorem signals_aggregate (j : Journey) : (m.aggregate j).signals = j.signals := by
  unfold aggregate
  split
  · rfl
  · exact Journey.signals_note _ _

theorem synthesize_signals (deadline : Option Instant) {manager : Agent}
    (hmanager : m.fleet.manager? = some manager) (j : Journey) :
    (m.synthesize deadline j).1.signals =
        j.signals ++ [⟨.synthesisStarted, none, some manager.name, none⟩] ∧
      (m.synthesize deadline j).1.tiers = j.tiers := by
  have htold (message : String) :
      (j.tell .synthesisStarted message none (some manager.name)).signals =
        j.signals ++ [⟨.synthesisStarted, none, some manager.name, none⟩] :=
    j.signals_tell _ _ _ _ _
  unfold synthesize
  rw [hmanager]
  simp only
  split
  · exact ⟨htold _, rfl⟩
  · split
    · exact ⟨htold _, rfl⟩
    · exact ⟨(Journey.signals_note _ _).trans (htold _), rfl⟩

theorem execute_announced (deadline : Option Instant) (hf : m.fleet.Valid)
    (hj : m.Announces [] j) :
    m.Announced (m.execute deadline j).1 (m.execute deadline j).2 := by
  obtain ⟨j', h, hrun, ⟨rfl, hpassed⟩ | ⟨halt, rfl, hstopped⟩⟩ :=
    runTiers_induct deadline (P := m.Announces) (Q := fun j halt => m.Announced j (some halt))
      runTier_announced (fun hfirst hj => hj.announced (hj.early hfirst) _) hj
  · have hlast : m.PastLastTier j'.tiers := ⟨hpassed.underway.tiers, hpassed.goesOn⟩
    unfold execute
    rw [hrun]
    simp only
    split
    · rename_i hsynthesizes
      obtain ⟨manager, hmanager⟩ := hf.exists_manager hsynthesizes
      obtain ⟨hsignals, htiers⟩ := synthesize_signals deadline hmanager j'
      refine ⟨⟨[], ?_, Or.inl rfl⟩, htiers ▸ hpassed.blocks.ordered⟩
      rw [hsignals, htiers, hpassed.blocks.signals, synthesisSignals,
        if_pos ⟨hsynthesizes, hlast⟩, hmanager, List.append_nil]
      rfl
    · rename_i hsynthesizes
      have htiers := (aggregate_keeps (m := m) j').2
      refine ⟨⟨[], ?_, Or.inl rfl⟩, htiers ▸ hpassed.blocks.ordered⟩
      rw [signals_aggregate, htiers, hpassed.blocks.signals, synthesisSignals,
        if_neg fun h => hsynthesizes h.1, List.append_nil, List.append_nil]
  · rw [execute_of_halt hrun]
    exact hstopped

theorem executeWithin_announced (given : Option Number) (hf : m.fleet.Valid)
    (hj : m.Announces [] j) :
    m.Announced (m.executeWithin given j).1 (m.executeWithin given j).2 := by
  unfold executeWithin
  split
  · exact execute_announced none hf hj
  · split
    · -- no time is left
      have hnothing : j.tiers = [] := List.map_eq_nil_iff.mp hj.underway.tiers
      have hearly : ¬ m.PastLastTier j.tiers := by
        rintro ⟨hall, -⟩
        rw [hnothing] at hall
        exact hf.exists_votingTier hall.symm
      exact hj.announced hearly _
    · exact execute_announced _ hf hj

/-! ### Whole runs -/

theorem signals_announceStart (given : Option Number) (j : Journey) :
    (m.announceStart given j).signals = j.signals ++ [.ofRun .fleetStarted] := by
  simp [announceStart, Signal.ofRun, List.lookup_cons]

theorem signals_announceDone (j : Journey) :
    (m.announceDone j).signals = j.signals ++ [.ofRun .fleetCompleted] := by
  simp [announceDone, Signal.ofRun]

theorem signals_announceFailure (f : Fault) (j : Journey) :
    (m.announceFailure f j).signals = j.signals ++ [.ofRun .fleetFailed] := by
  simp [announceFailure, Signal.ofRun, List.lookup_cons]

theorem announceStart_announces (m : Mission) (given : Option Number) (task : Value) :
    m.Announces [] (m.announceStart given (Journey.atStart task m.start)) := by
  have htiers : (m.announceStart given (Journey.atStart task m.start)).tiers = [] := rfl
  refine ⟨⟨?_, ?_⟩, Journey.atStart_underway task m.start, ?_⟩
  · rw [signals_announceStart, htiers]
    rfl
  · simp [htiers]
  · simp [htiers]

theorem emissions_signals {observers : Observers} (hpresent : observers ≠ .absent)
    (run : FleetRun) :
    (m.emissions observers run).map (fun x => x.event.signal) = run.journey.signals := by
  have hsame : observers.eventsOf = Observers.attentive.eventsOf := by
    funext notice
    cases notice with
    | log entry => rfl
    | event e =>
      cases observers with
      | attentive => rfl
      | failing text => rfl
      | absent => exact absurd rfl hpresent
  simp only [emissions, Observers.emissions, Observers.watch, hsame, List.map_map]
  rfl

/-- What has been told in a run that is over, with how it ended, is what its report says. -/
theorem Announced.finish {h : Option Halt} (hj : m.Announced j h) {j' : Journey}
    {given : Option Number} {observers : Observers} (hpresent : observers ≠ .absent)
    {status : FleetStatus} {error : Option String} {last : EventType}
    (hsignals : j'.signals = j.signals ++ [.ofRun last]) (htiers : j'.tiers = j.tiers)
    (hlast : status = .done ∧ last = .fleetCompleted ∨ status = .failed ∧ last = .fleetFailed)
    (hcut : ∀ halt, h = some halt → (∀ f, halt ≠ .failed f) → ∃ d, given = some d ∧
      status = .failed ∧ error = some (deadlineFault d).message) (task : Value) :
    (m.report task status error j').Announced m given
      (m.emissions observers ⟨.ok (m.report task status error j'), j'⟩) := by
  obtain ⟨cut, htrace, hcuts⟩ := hj.trace
  have hreported : (m.report task status error j').tiers = j.tiers := htiers
  refine ⟨⟨cut, last, ?_, hlast, ?_⟩, hreported ▸ hj.ordered, ?_⟩
  · rcases hcuts with hnone | ⟨⟨halt, hhalt, hbroken⟩, tier, failed, hfirst, hopening⟩
    · exact Or.inl hnone
    · exact Or.inr ⟨hcut halt hhalt hbroken, tier, failed, hreported ▸ hfirst, hopening⟩
  · rw [emissions_signals hpresent, hsignals, htrace, hreported]
  · intro x hx
    obtain ⟨e, -, rfl⟩ := List.mem_map.mp hx
    exact ⟨rfl, rfl⟩

/-- **What observers are told follows a grammar.**  However a run went that returns a report,
    its observers were told that it starts, then of each reported tier in turn, then, only if
    the deadline cut it off, of the beginning of one more, then of the manager if its turn
    came, and last of the end the report has. -/
theorem run_announced (hf : m.fleet.Valid) {observers : Observers} (hpresent : observers ≠ .absent)
    (task : Value) (deadline : Option Number) {report : FleetReport}
    (hreport : (m.run task deadline).ending = .ok report) :
    report.Announced m deadline (m.emissions observers (m.run task deadline)) := by
  obtain ⟨j, h, hrun, hends⟩ := m.run_ends task deadline
  have htold : m.Announced j h := by
    have hwithin := executeWithin_announced deadline hf (m.announceStart_announces deadline task)
    rwa [hrun] at hwithin
  generalize m.run task deadline = run at hreport hends ⊢
  cases hends with
  | done =>
    cases hreport
    exact htold.finish hpresent (signals_announceDone j) rfl (Or.inl ⟨rfl, rfl⟩) nofun task
  | failed hfault =>
    rename_i halt f
    cases hreport
    refine htold.finish hpresent (signals_announceFailure f j) rfl (Or.inr ⟨rfl, rfl⟩) ?_ task
    intro stopped hstopped hbroken
    cases hstopped
    cases halt with
    | failed f => exact absurd rfl (hbroken f)
    | expired =>
      obtain ⟨d, hd, rfl⟩ := Option.map_eq_some_iff.mp hfault
      exact ⟨d, hd, rfl, rfl⟩
    | escaped why => cases hfault
  | brokenOff _ => cases hreport

end Mission

theorem briefing_announced : briefing.Valid ∧ Observers.attentive ≠ .absent ∧
    ∃ report, (briefingMission.run (.text "weather") (some (.whole 30))).ending = .ok report ∧
      report.Announced briefingMission (some (.whole 30)) (briefingMission.emissions .attentive
        (briefingMission.run (.text "weather") (some (.whole 30)))) := by
  have hpresent : Observers.attentive ≠ .absent := nofun
  obtain ⟨report, hreport⟩ := Mission.run_returns briefing_valid briefingMission_orderly
    (.text "weather") (some (.whole 30))
  exact ⟨briefing_valid, hpresent, report, hreport,
    Mission.run_announced briefing_valid hpresent (.text "weather") (some (.whole 30)) hreport⟩

end Quorum

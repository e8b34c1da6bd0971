/-
  Quorum/Proofs/Run/Onward.lean
  =============================
  **A run goes on in time.**

  While a run is on, its clock has not reached its deadline (`Mission.OnTime`).  Whatever it
  does next, its clock does not go back, and what is added to its calls and events is not
  older than the clock was (`Journey.Proceeds`).  A tier keeps this (`Step.proceeds`), and so
  does all that is left of a run (`goOn_proceeds`).
-/
import Quorum.Proofs.Run.Steps

namespace Quorum

/-! ### Lists that grow -/

/-- A list is continued by items with a property. -/
def Continued {α : Type} (q : α → Prop) (old new : List α) : Prop :=
  ∃ later, new = old ++ later ∧ ∀ x ∈ later, q x

namespace Continued

variable {α : Type} {q r : α → Prop} {old new last : List α}

theorem refl (q : α → Prop) (old : List α) : Continued q old old :=
  ⟨[], (List.append_nil old).symm, by simp⟩

theorem of_eq (h : new = old) : Continued q old new := h ▸ refl q old

theorem append {later : List α} (h : ∀ x ∈ later, q x) : Continued q old (old ++ later) :=
  ⟨later, rfl, h⟩

theorem concat {x : α} (h : q x) : Continued q old (old ++ [x]) :=
  append fun _ hy => List.mem_singleton.mp hy ▸ h

theorem imp (h : Continued q old new) (hqr : ∀ x, q x → r x) : Continued r old new := by
  obtain ⟨later, hnew, hlater⟩ := h
  exact ⟨later, hnew, fun x hx => hqr x (hlater x hx)⟩

theorem trans (h : Continued q old new) (h' : Continued q new last) : Continued q old last := by
  obtain ⟨later, rfl, hlater⟩ := h
  obtain ⟨more, rfl, hmore⟩ := h'
  refine ⟨later ++ more, List.append_assoc .., ?_⟩
  intro x hx
  rcases List.mem_append.mp hx with hx | hx
  · exact hlater x hx
  · exact hmore x hx

theorem begins (h : Continued q old new) : old <+: new := by
  obtain ⟨later, rfl, -⟩ := h
  exact List.prefix_append old later

end Continued

/-! ### Journeys that proceed -/

namespace Journey

/-- A run has got further with some tiers: what there was stays, and what has been added is
    about these tiers, is not older than the clock was and is not still to come. -/
structure Proceeds (tiers : List Int) (j k : Journey) : Prop where
  clock : j.clock ≤ k.clock
  calls : Continued (fun c : Call => j.clock ≤ c.time ∧ c.time ≤ k.clock) j.calls k.calls
  events : Continued (fun e : Event => j.clock ≤ e.time) j.events k.events
  reviewed : Continued (fun t : TierReport => t.tier ∈ tiers) j.reviewed k.reviewed
  tiers : Continued (fun t : TierReport => t.tier ∈ tiers) j.tiers k.tiers
  invocations : Continued (fun i : Invocation => i.span.start ≤ k.clock) j.invocations k.invocations

variable {j k l : Journey} {tiers more : List Int}

theorem Proceeds.refl (tiers : List Int) (j : Journey) : j.Proceeds tiers j :=
  ⟨le_rfl, .refl _ _, .refl _ _, .refl _ _, .refl _ _, .refl _ _⟩

theorem Proceeds.trans (h : j.Proceeds tiers k) (h' : k.Proceeds tiers l) : j.Proceeds tiers l where
  clock := h.clock.trans h'.clock
  calls := (h.calls.imp fun _ hc => ⟨hc.1, hc.2.trans h'.clock⟩).trans
    (h'.calls.imp fun _ hc => ⟨h.clock.trans hc.1, hc.2⟩)
  events := h.events.trans (h'.events.imp fun _ => h.clock.trans)
  reviewed := h.reviewed.trans h'.reviewed
  tiers := h.tiers.trans h'.tiers
  invocations := (h.invocations.imp fun _ hi => hi.trans h'.clock).trans h'.invocations

theorem Proceeds.mono (h : j.Proceeds tiers k) (hmore : tiers ⊆ more) : j.Proceeds more k :=
  ⟨h.clock, h.calls, h.events, h.reviewed.imp fun _ ht => hmore ht,
    h.tiers.imp fun _ ht => hmore ht, h.invocations⟩

theorem note_proceeds (tiers : List Int) (j : Journey) (entry : LogEntry) :
    j.Proceeds tiers (j.note entry) :=
  ⟨le_rfl, .refl _ _, .of_eq (j.events_note entry), .refl _ _, .refl _ _, .refl _ _⟩

theorem tell_proceeds (tiers : List Int) (j : Journey) (type : EventType) (message : String)
    (tier : Option Int) (agent : Option String) (data : List (String × Value)) :
    j.Proceeds tiers (j.tell type message tier agent data) := by
  refine ⟨le_rfl, .refl _ _, ?_, .refl _ _, .refl _ _, .refl _ _⟩
  rw [events_tell]
  exact .concat le_rfl

theorem foldl_proceeds {α : Type} {f : Journey → α → Journey}
    (hf : ∀ j a, Proceeds tiers j (f j a)) (items : List α) (j : Journey) :
    j.Proceeds tiers (items.foldl f j) := by
  induction items generalizing j with
  | nil => exact Proceeds.refl tiers j
  | cons a rest ih => exact (hf j a).trans (ih (f j a))

/-- Something about a run that does not change when there is something to tell. -/
structure Unnoticed {α : Type} (g : Journey → α) : Prop where
  note : ∀ j entry, g (note j entry) = g j
  tell : ∀ j type message tier agent data, g (tell j type message tier agent data) = g j

theorem clock_unnoticed : Unnoticed Journey.clock := ⟨fun _ _ => rfl, fun _ _ _ _ _ _ => rfl⟩

theorem calls_unnoticed : Unnoticed Journey.calls := ⟨fun _ _ => rfl, fun _ _ _ _ _ _ => rfl⟩

theorem reviewed_unnoticed : Unnoticed Journey.reviewed := ⟨fun _ _ => rfl, fun _ _ _ _ _ _ => rfl⟩

theorem foldl_unnoticed {α β : Type} {f : Journey → α → Journey} {g : Journey → β}
    (hf : ∀ j a, g (f j a) = g j) (items : List α) (j : Journey) : g (items.foldl f j) = g j := by
  induction items generalizing j with
  | nil => rfl
  | cons a rest ih => rw [List.foldl_cons, ih, hf]

end Journey

/-! ### The time of a tier -/

theorem le_givenUpAt (d : Instant) (a : Attempt) : d ≤ a.givenUpAt d := by
  unfold Attempt.givenUpAt
  split
  · exact le_rfl
  · unfold Attempt.stopAfterCancel
    split
    · exact Instant.le_after _ _
    · exact le_rfl

theorem le_expiry (rules : VotingRules) (d : Instant) (attempts : List Attempt) :
    d ≤ expiry rules d attempts := by
  unfold expiry
  split
  · exact le_refl d
  · simp only
    cases hfirst : Instant.earliest? ((attempts.filter fun a => decide (d < a.span.stop)).map
        fun a => a.givenUpAt d) with
    | none => exact le_refl d
    | some t =>
      obtain ⟨a, -, rfl⟩ := List.mem_map.mp (Instant.earliest?_spec hfirst).1
      exact le_givenUpAt d a

namespace Executor

variable {x : Executor} {p : TierPlan}

/-- A tier ends no earlier than it begins, and before its deadline unless that cuts it short. -/
theorem runTier_time (hplaces : x.places ≠ 0) (hnames : (p.agents.map Agent.name).Nodup)
    (hearly : ∀ d, p.deadline = some d → p.start < d) :
    p.start ≤ (x.runTier p).finished ∧
      ((x.runTier p).ending ≠ .expired →
        ∀ d, p.deadline = some d → (x.runTier p).finished < d) := by
  unfold runTier
  split
  · exact ⟨le_rfl, fun _ => hearly⟩
  · rename_i hpositive
    have hplaces' : 1 ≤ x.places := by omega
    have hclosing : p.start ≤ (closing p.rules p.start (x.attempts p)).instant :=
      start_le_closing fun a ha => (start_le_of_mem_attempts hplaces' hnames ha).trans
        (start_lt_stop_of_mem_attempts hplaces' hnames ha).le
    simp only
    split
    · rename_i d hexpires
      obtain ⟨hdeadline, -⟩ := Option.filter_eq_some_iff.mp hexpires
      exact ⟨(hearly d hdeadline).le.trans (le_expiry _ _ _), fun h => absurd rfl h⟩
    · rename_i hnever
      have hontime := Mission.early_of_filter_eq_none hnever
      split
      · exact ⟨hclosing, fun _ => hontime⟩
      · exact ⟨hclosing, fun _ => hontime⟩

/-- Whoever is called in a tier has been called when the tier ends. -/
theorem runTier_called : ∀ c ∈ (x.runTier p).calls, c.time ≤ (x.runTier p).finished := by
  have hmade {last : LastCall} {t : Instant} (ht : last.instant ≤ t) :
      ∀ c ∈ (x.attempts p).filterMap (Attempt.call? p.context last), c.time ≤ t := by
    intro c hc
    obtain ⟨a, -, hcall⟩ := List.mem_filterMap.mp hc
    obtain ⟨hallowed, rfl⟩ := Attempt.call?_eq_some.mp hcall
    exact (LastCall.le_of_allows hallowed).trans ht
  unfold runTier
  split
  · exact nofun
  · simp only
    split
    · exact hmade (le_expiry _ _ _)
    · split
      · exact hmade le_rfl
      · exact hmade le_rfl

theorem runTier_begun : ∀ i ∈ (x.runTier p).invocations,
    i.span.start ≤ (x.runTier p).finished := fun _ hi =>
  runTier_called _ (runTier_placed.subset (List.mem_map_of_mem hi))

end Executor

/-! ### Steps -/

namespace Mission

variable {m : Mission} {deadline : Option Instant} {p : TierPlan} {e : Execution} {j k : Journey}
  {done rest tiers : List Int} {tier : Int}

/-- A run whose deadline is still ahead. -/
def OnTime (deadline : Option Instant) (j : Journey) : Prop := ∀ d, deadline = some d → j.clock < d

theorem announceTier_proceeds (tiers : List Int) (p : TierPlan) (j : Journey) :
    j.Proceeds tiers (announceTier p j) := j.tell_proceeds _ _ _ _ _ _

theorem beforeReview_proceeds (tiers : List Int) (p : TierPlan) (e : Execution) (j : Journey) :
    j.Proceeds tiers (beforeReview p e j) := by
  have hfailures : j.Proceeds tiers (announceFailures e j) :=
    Journey.foldl_proceeds (fun j _ => j.tell_proceeds _ _ _ _ _ _) _ j
  refine hfailures.trans ?_
  unfold beforeReview noteExhaustion
  split
  · exact Journey.note_proceeds _ _ _
  · exact Journey.Proceeds.refl _ _

theorem beforeReview_unnoticed {α : Type} {g : Journey → α} (hg : Journey.Unnoticed g)
    (p : TierPlan) (e : Execution) (j : Journey) : g (beforeReview p e j) = g j := by
  have hfailures : g (announceFailures e j) = g j :=
    Journey.foldl_unnoticed (fun j _ => hg.tell j _ _ _ _ _) _ j
  unfold beforeReview noteExhaustion
  split
  · rw [hg.note, hfailures]
  · exact hfailures

theorem announceVerdict_unnoticed {α : Type} {g : Journey → α} (hg : Journey.Unnoticed g)
    (report : TierReport) (j : Journey) : g (announceVerdict report j) = g j := by
  unfold announceVerdict
  simp only
  rw [hg.tell]
  split
  · exact hg.tell _ _ _ _ _ _
  · rfl

theorem announceVerdict_proceeds (tiers : List Int) (report : TierReport) (j : Journey) :
    j.Proceeds tiers (announceVerdict report j) := by
  unfold announceVerdict
  simp only
  split
  · exact (j.tell_proceeds _ _ _ _ _ _).trans (Journey.tell_proceeds _ _ _ _ _ _ _)
  · exact j.tell_proceeds _ _ _ _ _ _

theorem afterExecutor_proceeds (hf : m.fleet.Valid) (hplaces : m.executor.places ≠ 0)
    (hj : OnTime deadline j) (tiers : List Int) (tier : Int) :
    j.Proceeds tiers (m.afterExecutor deadline tier j) := by
  have hnames : ((m.plan deadline tier j).agents.map Agent.name).Nodup := hf.voters_nodup tier
  obtain ⟨-, hcalls, -⟩ := Executor.runTier_calls (p := m.plan deadline tier j) hplaces hnames
  obtain ⟨htime, -⟩ := Executor.runTier_time (p := m.plan deadline tier j) hplaces hnames hj
  have hlogged := (announceTier_proceeds tiers (m.plan deadline tier j) j).trans
    (Journey.foldl_proceeds (Journey.note_proceeds tiers)
      (m.executor.runTier (m.plan deadline tier j)).log _)
  exact ⟨htime, .append fun c hc => ⟨(hcalls c hc).2, Executor.runTier_called c hc⟩,
    hlogged.events, hlogged.reviewed, hlogged.tiers, .append Executor.runTier_begun⟩

theorem afterExecutor_onTime (hf : m.fleet.Valid) (hplaces : m.executor.places ≠ 0)
    (hj : OnTime deadline j)
    (hending : (m.executor.runTier (m.plan deadline tier j)).ending ≠ .expired) :
    OnTime deadline (m.afterExecutor deadline tier j) :=
  (Executor.runTier_time (p := m.plan deadline tier j) hplaces (hf.voters_nodup tier) hj).2 hending

theorem beforeReview_onTime (hf : m.fleet.Valid) (hplaces : m.executor.places ≠ 0)
    (hj : OnTime deadline j)
    (hending : (m.executor.runTier (m.plan deadline tier j)).ending = .evaluated e) :
    OnTime deadline (beforeReview p e (m.afterExecutor deadline tier j)) := by
  intro d hd
  have hevaluated : (m.executor.runTier (m.plan deadline tier j)).ending ≠ .expired := by
    rw [hending]
    exact TierEnd.noConfusion
  rw [beforeReview_unnoticed Journey.clock_unnoticed]
  exact afterExecutor_onTime hf hplaces hj hevaluated d hd

theorem afterAsking_proceeds {reviewer : TierReport → Review} {pending : TierReport}
    (hpending : pending.tier ∈ tiers) (j : Journey) :
    j.Proceeds tiers (afterAsking reviewer pending j) := by
  exact ⟨Instant.le_after _ _, .refl _ _, .refl _ _, .concat hpending, .refl _ _, .refl _ _⟩

/-- A review takes its time, and one that gives a result is over before the deadline. -/
theorem ReviewEnds.proceeds {pending : TierReport} {outcome : Except Halt Reviewed}
    (h : m.ReviewEnds deadline pending j k outcome) (hj : OnTime deadline j)
    (hpending : pending.tier ∈ tiers) :
    j.Proceeds tiers k ∧ (∀ reviewed, outcome = .ok reviewed → OnTime deadline k) := by
  cases h with
  | unasked => exact ⟨Journey.Proceeds.refl _ _, fun _ _ => hj⟩
  | judged _ _ hearly =>
    have hnoted := Journey.foldl_proceeds (Journey.note_proceeds tiers)
    refine ⟨(afterAsking_proceeds hpending j).trans (hnoted _ _), fun _ _ => ?_⟩
    intro d hd
    rw [Journey.foldl_unnoticed Journey.clock_unnoticed.note]
    exact hearly d hd
  | cancelled => exact ⟨afterAsking_proceeds hpending j, nofun⟩
  | expired _ hdeadline _ =>
    exact ⟨⟨(hj _ hdeadline).le, .refl _ _, .refl _ _, .concat hpending, .refl _ _, .refl _ _⟩,
      nofun⟩

theorem recorded_proceeds {report : TierReport} (hreport : report.tier ∈ tiers) (e : Execution)
    (j : Journey) : j.Proceeds tiers (m.recorded e report j) :=
  ⟨le_rfl, .refl _ _, .refl _ _, .refl _ _, .concat hreport, .refl _ _⟩

/-- From the start of a tier to the end of its review. -/
theorem ReviewEnds.proceeds_from (hf : m.fleet.Valid) (hplaces : m.executor.places ≠ 0)
    (hj : OnTime deadline j) (htier : tier ∈ tiers)
    (hending : (m.executor.runTier (m.plan deadline tier j)).ending = .evaluated e)
    {outcome : Except Halt Reviewed}
    (hreview : m.ReviewEnds deadline (pendingReport p e)
      (beforeReview p e (m.afterExecutor deadline tier j)) k outcome) :
    j.Proceeds tiers k ∧ (∀ reviewed, outcome = .ok reviewed → OnTime deadline k) := by
  have hbefore := (afterExecutor_proceeds hf hplaces hj tiers tier).trans
    (beforeReview_proceeds tiers p e _)
  have hlevel : (pendingReport p e).tier = tier := evaluated_tier hending
  obtain ⟨hreviewed, hsettled⟩ :=
    hreview.proceeds (beforeReview_onTime hf hplaces hj hending) (hlevel.symm ▸ htier)
  exact ⟨hbefore.trans hreviewed, hsettled⟩

/-- A tier goes on in time, and one that is passed is over before the deadline. -/
theorem Step.proceeds (hf : m.fleet.Valid) (hplaces : m.executor.places ≠ 0)
    (hj : OnTime deadline j) (htier : tier ∈ tiers) {h : Option Halt}
    (hstep : m.Step deadline tier j k h) :
    j.Proceeds tiers k ∧ (h = none → OnTime deadline k) := by
  cases hstep with
  | expired _ => exact ⟨afterExecutor_proceeds hf hplaces hj tiers tier, nofun⟩
  | escaped _ => exact ⟨afterExecutor_proceeds hf hplaces hj tiers tier, nofun⟩
  | unsettled hending hreview =>
    exact ⟨(hreview.proceeds_from hf hplaces hj htier hending).1, nofun⟩
  | @passed e _ _ hending hreview =>
    obtain ⟨hreviewed, hsettled⟩ := hreview.proceeds_from hf hplaces hj htier hending
    have hlevel : e.tier = tier := evaluated_tier hending
    refine ⟨hreviewed.trans ((recorded_proceeds (hlevel.symm ▸ htier) _ _).trans
      (announceVerdict_proceeds tiers _ _)), fun _ d hd => ?_⟩
    rw [announceVerdict_unnoticed Journey.clock_unnoticed]
    exact hsettled _ rfl d hd

/-- Tiers go on in time, one after the other. -/
theorem runTiers_proceeds (hf : m.fleet.Valid) (hplaces : m.executor.places ≠ 0)
    (hj : OnTime deadline j) (hdone : j.ledger.Underway done)
    (hsplit : done ++ rest <+: m.fleet.votingTiers) :
    ∃ k h, m.runTiers deadline rest j = (k, h) ∧ j.Proceeds rest k ∧
      (h = none → OnTime deadline k ∧ k.ledger.Underway (done ++ rest)) := by
  -- on the tiers that are left; the tiers that are done grow
  induction rest generalizing j done with
  | nil =>
    rw [List.append_nil]
    exact ⟨j, none, rfl, Journey.Proceeds.refl _ _, fun _ => ⟨hj, hdone⟩⟩
  | cons tier rest ih =>
    rw [List.append_cons] at hsplit ⊢
    have hfirst : done ++ [tier] <+: m.fleet.votingTiers := (List.prefix_append _ _).trans hsplit
    cases hwritten : Value.hasNumeral tier with
    | false =>
      rw [runTiers_of_unwritten hwritten]
      exact ⟨j, _, rfl, Journey.Proceeds.refl _ _, nofun⟩
    | true =>
      obtain ⟨k, h, hrun, hstep⟩ := next_is_step deadline hdone hfirst
      obtain ⟨hproceeds, hontime⟩ := hstep.proceeds hf hplaces hj List.mem_cons_self
      cases h with
      | some halt =>
        rw [runTiers_of_halt hwritten hrun]
        exact ⟨k, some halt, rfl, hproceeds, nofun⟩
      | none =>
        have hdone' := hstep.underway_of_passed hdone
        obtain ⟨l, h, hrest, hmore, hlast⟩ := ih (hontime rfl) hdone' hsplit
        rw [runTiers_of_passed hwritten hrun]
        exact ⟨l, h, hrest, hproceeds.trans (hmore.mono (List.subset_cons_self _ _)), hlast⟩

/-! ### What is left of a run -/

/-- All of a run that comes after its tiers. -/
def conclude (m : Mission) (deadline : Option Instant) (j : Journey) : Journey × Option Halt :=
  if m.fleet.synthesizes then m.synthesize deadline j else (m.aggregate j, none)

/-- All of a run from some tier on. -/
def goOn (m : Mission) (deadline : Option Instant) (rest : List Int) (j : Journey) :
    Journey × Option Halt :=
  match m.runTiers deadline rest j with
  | (k, some halt) => (k, some halt)
  | (k, none) => m.conclude deadline k

theorem execute_eq_goOn (deadline : Option Instant) (j : Journey) :
    m.execute deadline j = m.goOn deadline m.fleet.votingTiers j := rfl

theorem goOn_of_halt {halt : Halt} (hwritten : Value.hasNumeral tier = true)
    (hrun : m.runTier deadline tier j = (k, some halt)) (rest : List Int) :
    m.goOn deadline (tier :: rest) j = (k, some halt) := by
  rw [goOn, runTiers_of_halt hwritten hrun]

theorem goOn_of_passed (hwritten : Value.hasNumeral tier = true)
    (hrun : m.runTier deadline tier j = (k, none)) (rest : List Int) :
    m.goOn deadline (tier :: rest) j = m.goOn deadline rest k := by
  rw [goOn, runTiers_of_passed hwritten hrun, goOn]

theorem goOn_of_unwritten (hunwritten : Value.hasNumeral tier = false)
    (deadline : Option Instant) (rest : List Int) (j : Journey) :
    m.goOn deadline (tier :: rest) j = (j, some (.escaped .noNumeral)) := by
  rw [goOn, runTiers_of_unwritten hunwritten]

/-- A tier that is passed is one whose number is written out. -/
theorem passed_of_runTiers {before : List Int}
    (hrun : m.runTiers deadline (tier :: before) j = (k, none)) :
    Value.hasNumeral tier = true ∧
      ∃ i, m.runTier deadline tier j = (i, none) ∧ m.runTiers deadline before i = (k, none) := by
  cases hwritten : Value.hasNumeral tier with
  | false =>
    rw [runTiers_of_unwritten hwritten] at hrun
    cases hrun
  | true =>
    refine ⟨rfl, ?_⟩
    cases htier : m.runTier deadline tier j with
    | mk i h =>
      cases h with
      | some halt =>
        rw [runTiers_of_halt hwritten htier] at hrun
        cases hrun
      | none =>
        rw [runTiers_of_passed hwritten htier] at hrun
        exact ⟨i, rfl, hrun⟩

theorem goOn_of_runTiers {before : List Int} (hrun : m.runTiers deadline before j = (k, none))
    (rest : List Int) : m.goOn deadline (before ++ rest) j = m.goOn deadline rest k := by
  induction before generalizing j with
  | nil =>
    cases hrun
    rfl
  | cons tier before ih =>
    obtain ⟨hwritten, i, hpassed, hlater⟩ := passed_of_runTiers hrun
    rw [List.cons_append, goOn_of_passed hwritten hpassed]
    exact ih hlater

theorem aggregate_proceeds (tiers : List Int) (j : Journey) : j.Proceeds tiers (m.aggregate j) := by
  unfold aggregate
  split
  · exact Journey.Proceeds.refl _ _
  · exact ⟨le_rfl, .refl _ _, .of_eq (Journey.events_note _ _), .refl _ _, .refl _ _, .refl _ _⟩

theorem synthesize_proceeds (hj : OnTime deadline j) (tiers : List Int) :
    j.Proceeds tiers (m.synthesize deadline j).1 := by
  unfold synthesize
  cases m.fleet.manager? with
  | none => exact Journey.Proceeds.refl _ _
  | some manager =>
    have htold (message : String) :=
      (j.tell_proceeds tiers .synthesisStarted message none (some manager.name) []).events
    have hcalled {a : Attempt} {last : LastCall} {t : Instant} (hstart : a.span.start = j.clock)
        (ht : last.instant ≤ t) :
        ∀ c ∈ (a.call? j.context last).toList, j.clock ≤ c.time ∧ c.time ≤ t := by
      intro c hc
      obtain ⟨hallowed, rfl⟩ := Attempt.call?_eq_some.mp (Option.mem_toList.mp hc)
      exact ⟨hstart.ge, (LastCall.le_of_allows hallowed).trans ht⟩
    have hbegun {a : Attempt} {last : LastCall} {t : Instant} (ht : last.instant ≤ t) :
        ∀ i ∈ (a.invocation? j.context last).toList, i.span.start ≤ t := by
      intro i hi
      obtain ⟨-, hallowed⟩ := Attempt.call_of_invocation? (Option.mem_toList.mp hi)
      exact (LastCall.le_of_allows hallowed).trans ht
    have hspan (length : Rat) : j.clock ≤ j.clock.after length := Instant.le_after _ _
    simp only
    split
    · rename_i d hexpires
      obtain ⟨hdeadline, -⟩ := Option.filter_eq_some_iff.mp hexpires
      have hgivenUp (a : Attempt) : (LastCall.before d).instant ≤ a.givenUpAt d := le_givenUpAt d a
      exact ⟨(hj d hdeadline).le.trans (le_givenUpAt d _), .append (hcalled rfl (hgivenUp _)),
        htold _, .refl _ _, .refl _ _, .append (hbegun (hgivenUp _))⟩
    · have hstopped (t : Instant) : (LastCall.through t).instant ≤ t := le_rfl
      split
      · exact ⟨hspan _, .append (hcalled rfl (hstopped _)), htold _, .refl _ _, .refl _ _,
          .append (hbegun (hstopped _))⟩
      · exact ⟨hspan _, .append (hcalled rfl (hstopped _)),
          (htold _).trans (.of_eq (Journey.events_note _ _)), .refl _ _, .refl _ _,
          .append (hbegun (hstopped _))⟩

theorem conclude_proceeds (hj : OnTime deadline j) (tiers : List Int) :
    j.Proceeds tiers (m.conclude deadline j).1 := by
  unfold conclude
  split
  · exact synthesize_proceeds hj tiers
  · exact aggregate_proceeds tiers j

/-- **A run goes on in time.**  From any of its tiers on, the clock does not go back, nothing
    that there was is lost, and whatever is called or told is called or told after that. -/
theorem goOn_proceeds (hf : m.fleet.Valid) (hplaces : m.executor.places ≠ 0)
    (hj : OnTime deadline j) (hdone : j.ledger.Underway done)
    (hsplit : done ++ rest <+: m.fleet.votingTiers) :
    j.Proceeds rest (m.goOn deadline rest j).1 := by
  obtain ⟨k, h, hrun, hproceeds, hlast⟩ := runTiers_proceeds hf hplaces hj hdone hsplit
  unfold goOn
  rw [hrun]
  cases h with
  | some halt => exact hproceeds
  | none => exact hproceeds.trans (conclude_proceeds (hlast rfl).1 rest)

/-- What is left of a run after a tier goes on from where the tier has come to. -/
theorem goOn_proceeds_after (hf : m.fleet.Valid) (hplaces : m.executor.places ≠ 0)
    {h : Option Halt} (hontime : OnTime deadline j) (hdone : j.ledger.Underway done)
    (hsplit : done ++ tier :: rest <+: m.fleet.votingTiers)
    (hwritten : Value.hasNumeral tier = true)
    (hrun : m.runTier deadline tier j = (k, h)) (hstep : m.Step deadline tier j k h) :
    ∃ tiers, k.Proceeds tiers (m.goOn deadline (tier :: rest) j).1 := by
  obtain ⟨-, hpassed⟩ := hstep.proceeds hf hplaces hontime (List.mem_singleton_self tier)
  cases h with
  | some halt =>
    rw [goOn_of_halt hwritten hrun]
    exact ⟨[], Journey.Proceeds.refl _ _⟩
  | none =>
    have hdone' := hstep.underway_of_passed hdone
    rw [List.append_cons] at hsplit
    rw [goOn_of_passed hwritten hrun]
    exact ⟨rest, goOn_proceeds hf hplaces (hpassed rfl) hdone' hsplit⟩

/-! ### From the start to the end -/

/-- When the deadline of a run strikes, if it does. -/
def strike? (m : Mission) (given : Option Number) : Option Instant :=
  (expiryOf given).map m.start.after

theorem onTime_at_start (m : Mission) (task : Value) (given limit : Option Number) :
    OnTime (m.strike? limit) (m.announceStart given (Journey.atStart task m.start)) := by
  intro d hd
  obtain ⟨length, -, rfl⟩ := Option.map_eq_some_iff.mp hd
  exact Instant.lt_after _ _

/-- A run that is left some time goes through its tiers. -/
theorem executeWithin_of_time {given : Option Number}
    (htime : ∀ d, expiryOf given = some d → 0 < d) (j : Journey) :
    m.executeWithin given j = m.goOn (m.strike? given) m.fleet.votingTiers j := by
  unfold executeWithin strike?
  cases hexpiry : expiryOf given with
  | none => rfl
  | some d =>
    simp only [Option.map_some]
    rw [if_neg (not_le.mpr (htime d hexpiry)), execute_eq_goOn]

end Mission

end Quorum

/-
  Quorum/Proofs/Run/ScheduleFree.lean
  ===================================
  **Schedules leave no trace.**

  The number of places and the order of declaration decide when an agent gets its turn, and
  nothing else.  What an agent comes to depends on its behaviour and its time limit, and the
  limit counts from its turn.  So two schedules of one tier give results that differ in
  their times at most, and unless the first success wins, one and the same verdict
  (`runTier_schedule_free`).
-/
import Quorum.Proofs.Run.Results

namespace Quorum

namespace Executor

variable {x : Executor} {p : TierPlan}

/-! ### What an agent comes to -/

/-- What an agent comes to in a tier, whenever it gets its turn. -/
def answerOf (x : Executor) (p : TierPlan) (a : Agent) : AgentResult :=
  (x.resultOf p.tier (p.weightOf a.name) (x.attempt p a ⟨p.start, p.start⟩)).untimed

theorem untimed_resultOf_attempt (a : Agent) (span : Span) :
    (x.resultOf p.tier (p.weightOf a.name) (x.attempt p a span)).untimed = x.answerOf p a := by
  have houtcome : (x.attempt p a ⟨p.start, p.start⟩).outcome = (x.attempt p a span).outcome := rfl
  unfold answerOf resultOf
  rw [houtcome]
  cases (x.attempt p a span).outcome <;> rfl

@[simp] theorem answerOf_agentName (a : Agent) : (x.answerOf p a).agentName = a.name :=
  resultOf_agentName ..

/-- A success is the output that its agent came to. -/
theorem answerOf_output {a : Agent} (h : (x.answerOf p a).succeeded = true) :
    (x.attempt p a ⟨p.start, p.start⟩).outcome = .success (x.answerOf p a).output := by
  unfold answerOf resultOf at h ⊢
  cases houtcome : (x.attempt p a ⟨p.start, p.start⟩).outcome with
  | success output => rfl
  | failure kind text =>
    rw [houtcome] at h
    cases h
  | cancelled =>
    rw [houtcome] at h
    cases h

/-- The order of names, in which results stand. -/
def nameOrder (r s : AgentResult) : Bool := decide (r.agentName ≤ s.agentName)

section Results

variable (hplaces : 1 ≤ x.places) (hnames : (p.agents.map Agent.name).Nodup)
include hplaces hnames

/-- In a tier that waits for everybody, a view of the results that keeps their names is a view
    of the agents, if that is so for each attempt. -/
theorem map_resultsAt {t : Instant} (hover : ∀ a ∈ x.attempts p, a.span.stop ≤ t)
    {view : AgentResult → AgentResult} {answer : Agent → AgentResult}
    (hname : ∀ r, (view r).agentName = r.agentName)
    (hview : ∀ a ∈ x.attempts p,
      view (x.resultOf p.tier (p.weightOf a.agent.name) a) = answer a.agent) :
    (x.resultsAt p t (x.attempts p)).map view = (p.agents.map answer).mergeSort nameOrder := by
  have hresults : (x.attempts p).map (view ∘ x.resultAt p t) =
      (x.attempts p).map (answer ∘ Attempt.agent) := by
    refine List.map_congr_left fun a ha => ?_
    rw [Function.comp_apply, resultAt, if_pos (hover a ha)]
    exact hview a ha
  calc (x.resultsAt p t (x.attempts p)).map view
      = (((x.attempts p).map (x.resultAt p t)).mergeSort nameOrder).map view := rfl
    _ = ((x.attempts p).map (view ∘ x.resultAt p t)).mergeSort nameOrder := by
        rw [← List.map_map]
        refine List.map_mergeSort fun r _ s _ => ?_
        unfold nameOrder
        rw [hname, hname]
    _ = (p.agents.map answer).mergeSort nameOrder := by
        rw [hresults, ← List.map_map, attempts_agents hplaces hnames]

/-- In a tier that waits for everybody, the results are what its agents come to. -/
theorem untimed_resultsAt {t : Instant} (hover : ∀ a ∈ x.attempts p, a.span.stop ≤ t) :
    (x.resultsAt p t (x.attempts p)).map AgentResult.untimed =
      (p.agents.map (x.answerOf p)).mergeSort nameOrder := by
  refine map_resultsAt hplaces hnames hover (fun _ => rfl) fun a ha => ?_
  obtain ⟨-, hattempt, -⟩ := mem_attempts hplaces hnames ha
  rw [hattempt]
  exact untimed_resultOf_attempt _ _

omit hnames in
/-- A tier that does not settle for the first success waits for everybody. -/
theorem waits_of_calmIn (hx : x.CalmIn p) (hdeadline : p.deadline = none)
    (hrules : p.rules.algorithm ≠ .firstWins) :
    ∃ t, (∀ a ∈ x.attempts p, a.span.stop ≤ t) ∧
      (x.runTier p).ending = .evaluated (x.executionAt p t (x.attempts p)) := by
  have hclosing := closing_of_not_fatal p.rules p.start hx
  have hresolves := resolvesEarly_of_ne hrules
  simp only [hresolves, Bool.false_eq_true, if_false] at hclosing
  refine ⟨_, ?_, runTier_of_calmIn hx (by omega) hdeadline⟩
  rw [hclosing]
  intro a ha
  exact (Instant.latestFrom_spec _ _).2 _ (List.mem_map_of_mem ha)

omit hnames in
theorem runTier_waits (hx : x.Calm) (hdeadline : p.deadline = none)
    (hrules : p.rules.algorithm ≠ .firstWins) :
    ∃ t, (∀ a ∈ x.attempts p, a.span.stop ≤ t) ∧
      (x.runTier p).ending = .evaluated (x.executionAt p t (x.attempts p)) :=
  waits_of_calmIn hplaces (hx.calmIn p) hdeadline hrules

/-- Such a tier comes to what its agents come to, with the verdict on that. -/
theorem comes_to_of_calmIn (hx : x.CalmIn p) (hdeadline : p.deadline = none)
    (hrules : p.rules.algorithm ≠ .firstWins) :
    ∃ e, (x.runTier p).ending = .evaluated e ∧
      e.results.map AgentResult.untimed = (p.agents.map (x.answerOf p)).mergeSort nameOrder ∧
      e.verdict = Consensus.evaluate ((p.agents.map (x.answerOf p)).mergeSort nameOrder)
        p.weights p.rules := by
  obtain ⟨t, hover, hending⟩ := waits_of_calmIn hplaces hx hdeadline hrules
  have huntimed := untimed_resultsAt hplaces hnames hover
  refine ⟨_, hending, huntimed, ?_⟩
  have hsorted := (resultsAt_answered hplaces hnames t).sorted
  rw [← huntimed, Consensus.evaluate_untimed hrules hsorted]
  rfl

theorem runTier_comes_to (hx : x.Calm) (hdeadline : p.deadline = none)
    (hrules : p.rules.algorithm ≠ .firstWins) :
    ∃ e, (x.runTier p).ending = .evaluated e ∧
      e.results.map AgentResult.untimed = (p.agents.map (x.answerOf p)).mergeSort nameOrder ∧
      e.verdict = Consensus.evaluate ((p.agents.map (x.answerOf p)).mergeSort nameOrder)
        p.weights p.rules :=
  comes_to_of_calmIn hplaces hnames (hx.calmIn p) hdeadline hrules

end Results

/-! ### Two schedules -/

/-- Agents of different names come to the same whatever the order of declaration. -/
theorem sorted_answers_of_perm (hnames : (p.agents.map Agent.name).Nodup) {agents : List Agent}
    (hagents : agents.Perm p.agents) :
    (agents.map (x.answerOf p)).mergeSort nameOrder =
      (p.agents.map (x.answerOf p)).mergeSort nameOrder := by
  refine Order.mergeSort_eq_of_perm ?_ ?_ ?_ (hagents.map _)
  · intro r s u hrs hsu
    exact decide_eq_true ((of_decide_eq_true hrs).trans (of_decide_eq_true hsu))
  · intro r s
    simpa [nameOrder] using le_total r.agentName s.agentName
  · intro r hr s hs hrs hsr
    obtain ⟨a, ha, rfl⟩ := List.mem_map.mp hr
    obtain ⟨b, hb, rfl⟩ := List.mem_map.mp hs
    have hname := le_antisymm (of_decide_eq_true hrs) (of_decide_eq_true hsr)
    rw [answerOf_agentName, answerOf_agentName] at hname
    rw [List.inj_on_of_nodup_map hnames (hagents.mem_iff.mp ha) (hagents.mem_iff.mp hb) hname]

/-- **Schedules leave no trace.**  Unless the first success wins, a tier has the same verdict
    and, up to their times, the same results with any number of places and in any order of
    declaration.  Each agent comes to what it comes to when nobody else is there, so the time
    in which it waits for a place is not held against it. -/
theorem runTier_schedule_free (hx : x.Calm) (hnames : (p.agents.map Agent.name).Nodup)
    (hdeadline : p.deadline = none) (hrules : p.rules.algorithm ≠ .firstWins) {m n : Int}
    (hm : 1 ≤ m) (hn : 1 ≤ n) {agents : List Agent} (hagents : agents.Perm p.agents) :
    ∃ e e', ({ x with places := m }.runTier p).ending = .evaluated e ∧
      ({ x with places := n }.runTier { p with agents := agents }).ending = .evaluated e' ∧
      e.verdict = e'.verdict ∧
      e.results.map AgentResult.untimed = e'.results.map AgentResult.untimed ∧
      ∀ a ∈ p.agents, ∃ r ∈ e.results, ∃ alone,
        ({ x with places := m }.runTier { p with agents := [a] }).ending = .evaluated alone ∧
        alone.results.map AgentResult.untimed = [r.untimed] := by
  have hnames' : (agents.map Agent.name).Nodup := (hagents.map _).nodup_iff.mpr hnames
  obtain ⟨e, hending, hresults, hverdict⟩ :=
    runTier_comes_to (x := { x with places := m }) hm hnames hx hdeadline hrules
  obtain ⟨e', hending', hresults', hverdict'⟩ :=
    runTier_comes_to (x := { x with places := n }) (p := { p with agents := agents }) hn hnames' hx
      hdeadline hrules
  have hsame : (agents.map (x.answerOf p)).mergeSort nameOrder =
      (p.agents.map (x.answerOf p)).mergeSort nameOrder := sorted_answers_of_perm hnames hagents
  refine ⟨e, e', hending, hending', ?_, ?_, ?_⟩
  · exact hverdict.trans (hverdict'.trans (congrArg (Consensus.evaluate · p.weights p.rules)
      hsame)).symm
  · exact hresults.trans (hresults'.trans hsame).symm
  · intro a ha
    obtain ⟨alone, haloneEnding, haloneResults, -⟩ :=
      runTier_comes_to (x := { x with places := m }) (p := { p with agents := [a] }) hm
        (List.nodup_singleton _) hx hdeadline hrules
    have hmem : x.answerOf p a ∈ e.results.map AgentResult.untimed := by
      rw [hresults, List.mem_mergeSort]
      exact List.mem_map_of_mem ha
    obtain ⟨r, hr, huntimed⟩ := List.mem_map.mp hmem
    refine ⟨r, hr, alone, haloneEnding, ?_⟩
    rw [haloneResults, huntimed]
    exact List.mergeSort_singleton _

end Executor

/-- The surveyors are asked one at a time, or all at once and in another order. -/
theorem survey_schedule_free : surveyors.Calm ∧ (survey.agents.map Agent.name).Nodup ∧
    survey.deadline = none ∧ survey.rules.algorithm ≠ .firstWins ∧
    survey.agents.reverse.Perm survey.agents ∧
    ∃ e e', ({ surveyors with places := 1 }.runTier survey).ending = .evaluated e ∧
      ({ surveyors with places := 3 }.runTier
        { survey with agents := survey.agents.reverse }).ending = .evaluated e' ∧
      e.verdict = e'.verdict ∧
      e.results.map AgentResult.untimed = e'.results.map AgentResult.untimed ∧
      ∀ a ∈ survey.agents, ∃ r ∈ e.results, ∃ alone,
        ({ surveyors with places := 1 }.runTier { survey with agents := [a] }).ending =
          .evaluated alone ∧
        alone.results.map AgentResult.untimed = [r.untimed] :=
  ⟨surveyors_calm, by decide, rfl, by decide, List.reverse_perm _,
    Executor.runTier_schedule_free surveyors_calm (by decide) rfl (by decide) (by decide)
      (by decide) (List.reverse_perm _)⟩

end Quorum

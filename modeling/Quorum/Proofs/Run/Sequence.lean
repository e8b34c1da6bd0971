/-
  Quorum/Proofs/Run/Sequence.lean
  ===============================
  **Who is called in a run, when, and what they are told.**

  However a run ends, it has called each agent at most once, in the order of the tiers, and
  everybody it called was told what the report says about the tiers before
  (`run_sequenced`).  The tiers are run in lockstep; then the manager is called, if it
  synthesizes, and nobody else (`synthesize_concludes`).
-/
import Quorum.Proofs.Run.Lockstep
import Quorum.Proofs.Run.Reported

namespace Quorum

/-! ### Who may be called -/

namespace Fleet

variable {f : Fleet}

/-- The agents of a fleet in the order in which a run calls them. -/
def consulted (f : Fleet) : List Agent :=
  f.voters ++ if f.synthesizes then f.manager?.toList else []

theorem mem_voters {a : Agent} :
    a ∈ f.voters ↔ a ∈ f.agents ∧ (f.synthesizes && a.isManager) = false := by
  rw [voters, List.mem_flatMap]
  constructor
  · rintro ⟨tier, -, ha⟩
    obtain ⟨hmem, -, hvotes⟩ := mem_votingAgents.mp ha
    exact ⟨hmem, hvotes⟩
  · rintro ⟨hmem, hvotes⟩
    exact ⟨a.tier, mem_votingTiers.mpr ⟨a, hmem, rfl, hvotes⟩,
      mem_votingAgents.mpr ⟨hmem, rfl, hvotes⟩⟩

theorem mem_agents_of_consulted {a : Agent} (ha : a ∈ f.consulted) : a ∈ f.agents := by
  rcases List.mem_append.mp ha with ha | ha
  · exact (mem_voters.mp ha).1
  · split at ha
    · exact List.mem_of_find?_eq_some (Option.mem_toList.mp ha)
    · cases ha

theorem Valid.voters_distinct (hf : f.Valid) : f.voters.Nodup := by
  rw [voters, List.nodup_flatMap]
  constructor
  · intro tier _
    exact (hf.voters_nodup tier).of_map
  · refine f.votingTiers_ascending.imp fun {s t} hlt a hs ht => ?_
    have hs := (mem_votingAgents.mp hs).2.1
    have ht := (mem_votingAgents.mp ht).2.1
    exact absurd (hs.symm.trans ht) hlt.ne

theorem Valid.consulted_nodup (hf : f.Valid) : (f.consulted.map Agent.name).Nodup := by
  have hdistinct : f.consulted.Nodup := by
    rw [consulted, List.nodup_append]
    refine ⟨hf.voters_distinct, ?_, ?_⟩
    · split
      · cases f.manager? <;> simp
      · exact List.nodup_nil
    · intro a ha b hb
      split at hb
      · -- a manager that synthesizes does not vote
        rename_i hsynthesizes
        have hmanager := List.find?_some (Option.mem_toList.mp hb)
        rintro rfl
        have hvotes := (mem_voters.mp ha).2
        rw [hsynthesizes, hmanager] at hvotes
        cases hvotes
      · cases hb
  refine List.Nodup.map_on ?_ hdistinct
  intro a ha b hb hname
  exact hf.eq_of_name_eq (mem_agents_of_consulted ha) (mem_agents_of_consulted hb) hname

end Fleet

/-! ### After the tiers -/

namespace Mission

variable {m : Mission} {task : Value} {deadline : Option Instant} {j j' : Journey}

/-- What is known of the calls of a run when it stops. -/
structure Concludes (m : Mission) (task : Value) (j : Journey) (h : Option Halt) : Prop where
  consulted : m.Consulted task m.fleet.consulted j
  everybody : h = none →
    (∀ t ∈ m.fleet.votingTiers, (m.fleet.coordination.rulesFor t).algorithm ≠ .firstWins) →
    ∀ a ∈ m.fleet.voters, a.name ∈ j.calls.map Call.agent
  inOrder : ∀ halt ∈ h, halt.InOrder

theorem Consulted.ask {agents : List Agent} {a : Attempt} {last : LastCall}
    (h : m.Consulted task agents j) (hj : j.Grows j') (htiers : j'.tiers = j.tiers)
    (hcalls : j'.calls = j.calls ++ (a.call? j.context last).toList)
    (hinvocations : j'.invocations = j.invocations ++ (a.invocation? j.context last).toList)
    (hinformed : m.Informed task j a.agent ⟨a.agent.name, j.context, a.span.start⟩) :
    m.Consulted task (agents ++ [a.agent]) j' := by
  refine h.append hj hcalls hinvocations htiers ?_ ?_ ?_
  · cases hmade : a.call? j.context last with
    | none => exact List.nil_sublist _
    | some c =>
      obtain ⟨-, rfl⟩ := Attempt.call?_eq_some.mp hmade
      exact List.Sublist.refl _
  · cases hplaced : a.invocation? j.context last with
    | none => exact List.nil_sublist _
    | some i =>
      rw [Attempt.call?_of_invocation? hplaced]
      exact List.Sublist.refl _
  · intro c hc
    obtain ⟨-, rfl⟩ := Attempt.call?_eq_some.mp (Option.mem_toList.mp hc)
    exact ⟨a.agent, List.mem_singleton_self _, rfl, hinformed⟩

theorem synthesisOf_inOrder {name : String} {limit : Number} {ending : Ending} {halt : Halt}
    (h : synthesisOf name limit ending = .error halt) : halt.InOrder := by
  unfold synthesisOf at h
  split at h
  · split at h <;> cases h
    simp [Halt.InOrder]
  all_goals
    cases h
    simp [Halt.InOrder]

/-- The manager's attempt at an answer. -/
def synthesisAttempt (m : Mission) (manager : Agent) (j : Journey) : Attempt :=
  let limit := m.executor.timeoutFor manager (m.fleet.coordination.rulesFor manager.tier)
  let behaviour := m.executor.conduct manager j.context 0
  ⟨manager, limit, behaviour, ⟨j.clock, j.clock.after (behaviour.stay limit).length⟩⟩

/-- Asking the manager adds nothing to a run but its call and what there is to tell. -/
theorem synthesize_asks (deadline : Option Instant) {manager : Agent}
    (hmanager : m.fleet.manager? = some manager) :
    ∃ j' h last, m.synthesize deadline j = (j', h) ∧ j.Grows j' ∧ j'.tiers = j.tiers ∧
      j'.calls = j.calls ++ ((m.synthesisAttempt manager j).call? j.context last).toList ∧
      j'.invocations =
        j.invocations ++ ((m.synthesisAttempt manager j).invocation? j.context last).toList ∧
      ∀ halt ∈ h, halt.InOrder := by
  unfold synthesize
  rw [hmanager]
  simp only
  split
  · rename_i d hexpires
    refine ⟨_, _, .before d, rfl, ⟨List.prefix_rfl, ?_⟩, rfl, rfl, rfl, by simp [Halt.InOrder]⟩
    exact List.prefix_append _ _
  · split
    · rename_i halt hsynthesis
      refine ⟨_, _, _, rfl, ⟨List.prefix_rfl, ?_⟩, rfl, rfl, rfl, ?_⟩
      · exact List.prefix_append _ _
      · simpa using synthesisOf_inOrder hsynthesis
    · refine ⟨_, _, _, rfl, ⟨List.prefix_rfl, ?_⟩, rfl, rfl, rfl, by simp⟩
      exact (List.prefix_append _ _).trans (List.prefix_append _ _)

/-- After all tiers the manager is called, and it is told about each of them. -/
theorem synthesize_concludes (deadline : Option Instant)
    (hsynthesizes : m.fleet.synthesizes = true)
    (hj : m.Lockstep task m.fleet.votingTiers j) (hcalls : m.Consulted task m.fleet.voters j) :
    m.Concludes task (m.synthesize deadline j).1 (m.synthesize deadline j).2 := by
  cases hmanager : m.fleet.manager? with
  | none =>
    have hagents : m.fleet.consulted = m.fleet.voters := by
      simp [Fleet.consulted, hsynthesizes, hmanager]
    unfold synthesize
    rw [hmanager]
    exact ⟨hagents ▸ hcalls, nofun, by simp [Halt.InOrder]⟩
  | some manager =>
    have hagents : m.fleet.consulted = m.fleet.voters ++ [manager] := by
      simp [Fleet.consulted, hsynthesizes, hmanager]
    have hbefore : m.tiersBefore manager = m.fleet.votingTiers := by
      rw [tiersBefore, hsynthesizes, List.find?_some hmanager]
      rfl
    have hinformed : m.Informed task j manager ⟨manager.name, j.context, j.clock⟩ :=
      hj.informed rfl le_rfl hbefore m.fleet.votingTiers_ascending
    obtain ⟨j', h, last, hrun, hgrows, htiers, hasked, hplaced, hhalt⟩ :=
      synthesize_asks deadline hmanager
    rw [hrun]
    refine ⟨?_, fun _ hrules a ha => ?_, hhalt⟩
    · rw [hagents]
      exact hcalls.ask hgrows htiers hasked hplaced hinformed
    · rw [hasked, List.map_append, hj.everybody hrules]
      exact List.mem_append_left _ (List.mem_map_of_mem ha)

theorem aggregate_keeps (j : Journey) :
    j.Keeps (m.aggregate j) ∧ (m.aggregate j).tiers = j.tiers := by
  unfold aggregate
  split
  · exact ⟨(Journey.Continues.refl j).toKeeps, rfl⟩
  · exact ⟨⟨⟨List.prefix_rfl, List.prefix_append _ _⟩, rfl, rfl⟩, rfl⟩

theorem execute_concludes (deadline : Option Instant) (hf : m.fleet.Valid)
    (hplaces : m.executor.places ≠ 0) (hj : m.Lockstep task [] j)
    (hcalls : m.Consulted task [] j) :
    m.Concludes task (m.execute deadline j).1 (m.execute deadline j).2 := by
  have hagents : m.fleet.voters.Sublist m.fleet.consulted := List.sublist_append_left _ _
  obtain ⟨j', h, hrun, hcalls', hj', hhalt⟩ :=
    runTiers_lockstep hf hplaces deadline hj hcalls (List.nil_append _)
  unfold execute
  rw [hrun]
  cases h with
  | some halt => exact ⟨hcalls'.sublist hagents, nofun, hhalt⟩
  | none =>
    simp only
    split
    · rename_i hsynthesizes
      exact synthesize_concludes deadline hsynthesizes (hj' rfl) hcalls'
    · obtain ⟨hkeeps, htiers⟩ := aggregate_keeps (m := m) j'
      refine ⟨?_, fun _ hrules a ha => ?_, by simp⟩
      · exact (hcalls'.sublist hagents).keeps_of_tiers hkeeps htiers
      · rw [hkeeps.calls, (hj' rfl).everybody hrules]
        exact List.mem_map_of_mem ha

theorem executeWithin_concludes (given : Option Number) (hf : m.fleet.Valid)
    (hplaces : m.executor.places ≠ 0) (hj : m.Lockstep task [] j)
    (hcalls : m.Consulted task [] j) :
    m.Concludes task (m.executeWithin given j).1 (m.executeWithin given j).2 := by
  unfold executeWithin
  split
  · exact execute_concludes none hf hplaces hj hcalls
  · split
    · -- no time is left
      exact ⟨hcalls.sublist (List.nil_sublist _), nofun, by simp [Halt.InOrder]⟩
    · exact execute_concludes _ hf hplaces hj hcalls

end Mission

/-! ### Whole runs -/

/-- What holds of the calls of a run, however it ended. -/
structure FleetRun.Sequenced (run : FleetRun) (m : Mission) (task : Value) : Prop where
  once : (run.journey.calls.map Call.agent).Nodup
  placed : (run.journey.invocations.map Invocation.call).Sublist run.journey.calls
  informed : ∀ c ∈ run.journey.calls, ∃ a ∈ m.fleet.agents, a.name = c.agent ∧
    m.Informed task run.journey a c
  /-- A manager that synthesizes does not vote. -/
  aside : ∀ a ∈ m.fleet.agents, (m.fleet.synthesizes && a.isManager) = true →
    ∀ report ∈ run.journey.tiers, a.name ∉ report.results.map AgentResult.agentName
  accepted : ∀ conflict, run.ending ≠ .error (.outOfOrder conflict)
  reported : ∀ report, run.ending = .ok report → report.tiers = run.journey.tiers
  everybody : ∀ report, run.ending = .ok report → report.status = .done →
    (∀ t ∈ m.fleet.votingTiers, (m.fleet.coordination.rulesFor t).algorithm ≠ .firstWins) →
    ∀ a ∈ m.fleet.voters, (run.journey.calls.map Call.agent).count a.name = 1

namespace Mission

variable {m : Mission} {task : Value} {deadline : Option Instant} {j : Journey}

/-- A run is over once its tiers and its answer are: the rest calls nobody, and what is
    reported is what was recorded. -/
structure Closed (run : FleetRun) (j : Journey) (h : Option Halt) : Prop where
  keeps : j.Keeps run.journey
  tiers : run.journey.tiers = j.tiers
  report : ∀ report, run.ending = .ok report →
    report.tiers = j.tiers ∧ (report.status = .done → h = none)
  escape : ∀ why, run.ending = .error why → why = .cancelled ∨ h = some (.escaped why)

theorem closed_of_failed (f : Fault) (h : Halt) (j : Journey) :
    Closed ⟨.ok (m.report task .failed (some f.message) (m.announceFailure f j)),
      m.announceFailure f j⟩ j (some h) where
  keeps := (m.announceFailure_continues f j).toKeeps
  tiers := rfl
  report := by
    intro report hreport
    cases hreport
    exact ⟨rfl, fun hdone => FleetStatus.noConfusion hdone⟩
  escape := by
    intro why hwhy
    cases hwhy

theorem run_closed (m : Mission) (task : Value) (given : Option Number) :
    Closed (m.run task given)
      (m.executeWithin given (m.announceStart given (Journey.atStart task m.start))).1
      (m.executeWithin given (m.announceStart given (Journey.atStart task m.start))).2 := by
  unfold run
  simp only
  generalize m.executeWithin given (m.announceStart given (Journey.atStart task m.start)) = stopped
  obtain ⟨j, h⟩ := stopped
  cases h with
  | none =>
    refine ⟨(m.announceDone_continues j).toKeeps, rfl, ?_, ?_⟩
    · intro report hreport
      cases hreport
      exact ⟨rfl, fun _ => rfl⟩
    · intro why hwhy
      cases hwhy
  | some halt =>
    cases halt with
    | failed f => exact closed_of_failed f _ j
    | expired =>
      cases given with
      | some d => exact closed_of_failed (deadlineFault d) _ j
      | none =>
        refine ⟨(Journey.Continues.refl j).toKeeps, rfl, ?_, ?_⟩
        · intro report hreport
          cases hreport
        · intro why hwhy
          cases hwhy
          exact Or.inl rfl
    | escaped why =>
      refine ⟨(Journey.Continues.refl j).toKeeps, rfl, ?_, ?_⟩
      · intro report hreport
        cases hreport
      · intro why hwhy
        cases hwhy
        exact Or.inr rfl

theorem lockstep_at_start (m : Mission) (task : Value) (deadline : Option Number) :
    m.Lockstep task [] (m.announceStart deadline (Journey.atStart task m.start)) :=
  ⟨rfl, rfl, .nil, by simp, fun _ => rfl⟩

theorem consulted_at_start (m : Mission) (task : Value) (deadline : Option Number) :
    m.Consulted task [] (m.announceStart deadline (Journey.atStart task m.start)) := by
  have hnobody : (m.announceStart deadline (Journey.atStart task m.start)).calls = [] := rfl
  have hnothing : (m.announceStart deadline (Journey.atStart task m.start)).tiers = [] := rfl
  exact ⟨List.nil_sublist _, List.nil_sublist _, by simp [hnobody], by simp [hnothing]⟩

theorem run_consulted (hf : m.fleet.Valid) (hplaces : m.executor.places ≠ 0) (task : Value)
    (deadline : Option Number) :
    m.Consulted task m.fleet.consulted (m.run task deadline).journey := by
  have hconcludes := executeWithin_concludes deadline hf hplaces
    (m.lockstep_at_start task deadline) (m.consulted_at_start task deadline)
  have hclosed := m.run_closed task deadline
  exact hconcludes.consulted.keeps_of_tiers hclosed.keeps hclosed.tiers

/-- **Everybody is called at most once and knows what came before.**  Whatever agents and
    reviewers of a valid fleet do, and however the run ends, it has called no agent twice;
    an agent was called when all tiers below its own were done, a manager that synthesizes
    when all tiers were, in a context with one entry for each of them that says what the
    report says; and a run that is done has called everybody who votes, unless a tier
    settled for its first success. -/
theorem run_sequenced (hf : m.fleet.Valid) (hplaces : m.executor.places ≠ 0) (task : Value)
    (deadline : Option Number) : (m.run task deadline).Sequenced m task := by
  have hconcludes := executeWithin_concludes deadline hf hplaces
    (m.lockstep_at_start task deadline) (m.consulted_at_start task deadline)
  have hclosed := m.run_closed task deadline
  have hconsulted := run_consulted hf hplaces task deadline
  have honce : ((m.run task deadline).journey.calls.map Call.agent).Nodup :=
    hf.consulted_nodup.sublist hconsulted.order
  refine ⟨honce, hconsulted.placed, ?_, ?_, ?_, ?_, ?_⟩
  · intro c hc
    obtain ⟨a, ha, hname, hinformed⟩ := hconsulted.informed c hc
    exact ⟨a, Fleet.mem_agents_of_consulted ha, hname, hinformed⟩
  · intro a ha hmanager report hmem hresult
    obtain ⟨b, hb, hname⟩ := List.mem_map.mp ((hconsulted.voters report hmem).subset hresult)
    obtain ⟨hb, -, hvotes⟩ := Fleet.mem_votingAgents.mp hb
    rw [hf.eq_of_name_eq hb ha hname, hmanager] at hvotes
    cases hvotes
  · intro conflict hending
    rcases hclosed.escape _ hending with hcancelled | hhalt
    · cases hcancelled
    · exact hconcludes.inOrder _ (Option.mem_def.mpr hhalt) conflict rfl
  · intro report hending
    rw [hclosed.tiers]
    exact (hclosed.report report hending).1
  · intro report hending hdone hrules a ha
    have hmem := hconcludes.everybody ((hclosed.report report hending).2 hdone) hrules a ha
    rw [← hclosed.keeps.calls] at hmem
    exact List.count_eq_one_of_mem honce hmem

end Mission

theorem briefing_sequenced : briefing.Valid ∧ briefingMission.executor.places ≠ 0 ∧
    (briefingMission.run (.text "weather") (some (.whole 30))).Sequenced briefingMission
      (.text "weather") :=
  ⟨briefing_valid, by decide,
    Mission.run_sequenced briefing_valid (by decide) (.text "weather") (some (.whole 30))⟩

end Quorum

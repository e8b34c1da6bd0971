/-
  Quorum/Proofs/Run/Forwarded.lean
  ================================
  **Workers are told what is forwarded, and nothing else.**

  The prompt of a worker is made of the task and of what each entry forwards: the value of a
  verdict, or who answered what.  Contexts that forward alike give one prompt
  (`worker_eq_of_forwardsLike`), whatever else they hold.  A run gives its workers contexts
  that forward as the fleet says (`run_tellsAsSaid`); so where a fleet does not pass on all
  results, two runs whose tiers came to the same values tell their workers the same
  (`workers_told_alike`).
-/
import Quorum.Proofs.Run.Abreast
import Quorum.Proofs.Run.ScheduleFree
import Quorum.Proofs.Value.CanonicalKey
import Quorum.Service.Content

namespace Quorum

open Value (Same)

/-! ### What is printed -/

theorem Value.render_eq_of_same {v w : Value} (hsame : Same v w) : v.render = w.render := by
  have htext : v.write .rendered = w.write .rendered :=
    congrArg String.ofList (chars_eq_of_same rfl rfl hsame 0)
  cases hsame with
  | null => rfl
  | text s => rfl
  | bool b => exact htext
  | int i => exact htext
  | float _ => exact htext
  | list _ _ => exact htext
  | object _ _ => exact htext

/-! ### Contexts that forward alike -/

/-- Two results of one agent with one error, or with outputs that are the same. -/
structure AgentResult.TellsLike (r s : AgentResult) : Prop where
  agentName : r.agentName = s.agentName
  succeeded : r.succeeded = s.succeeded
  output : r.succeeded = true → Same r.output s.output
  error : r.succeeded = false → r.error = s.error

/-- Two entries that agree on what they forward, and maybe on nothing else. -/
structure ContextEntry.ForwardsLike (e f : ContextEntry) : Prop where
  tier : e.tier = f.tier
  passAllResults : e.passAllResults = f.passAllResults
  value : e.passAllResults = false → Same e.verdict.result f.verdict.result
  results : e.passAllResults = true → List.Forall₂ AgentResult.TellsLike e.results f.results

/-- Two contexts of one task whose entries agree one by one on what they forward. -/
structure Context.ForwardsLike (c d : Context) : Prop where
  task : c.task = d.task
  entries : List.Forall₂ ContextEntry.ForwardsLike c.entries d.entries

namespace Prompt

theorem finding_eq_of_tellsLike {r s : AgentResult} (h : r.TellsLike s) :
    finding r = finding s := by
  obtain ⟨hname, hsucceeded, houtput, herror⟩ := h
  unfold finding
  rw [hname]
  cases hr : r.error with
  | none =>
    have hanswered : r.succeeded = true := by rw [AgentResult.succeeded, hr]; rfl
    have hs : s.error = none := by
      rw [hanswered] at hsucceeded
      exact Option.isNone_iff_eq_none.mp hsucceeded.symm
    rw [hs]
    simp only [Value.render_eq_of_same (houtput hanswered)]
  | some error =>
    have hfailed : r.succeeded = false := by rw [AgentResult.succeeded, hr]; rfl
    rw [← herror hfailed, hr]

theorem findings_value_eq {v w : Value} (hsame : Same v w) :
    findings (.value v) = findings (.value w) := by
  have htext := congrArg (· ++ "\n") (Value.render_eq_of_same hsame)
  cases hsame with
  | null => rfl
  | text s => rfl
  | bool b => exact htext
  | int i => exact htext
  | float _ => exact htext
  | list _ _ => exact htext
  | object _ _ => exact htext

theorem findings_results_eq {rs ss : List AgentResult}
    (h : List.Forall₂ AgentResult.TellsLike rs ss) :
    findings (.results rs) = findings (.results ss) := by
  have hlines : rs.map finding = ss.map finding := by
    rw [← List.forall₂_eq_eq_eq, List.forall₂_map_left_iff, List.forall₂_map_right_iff]
    exact h.imp fun _ _ hr => finding_eq_of_tellsLike hr
  simp only [findings, hlines]

theorem findings_forwarded_eq {e f : ContextEntry} (h : e.ForwardsLike f) :
    findings e.forwarded = findings f.forwarded := by
  unfold ContextEntry.forwarded
  rw [← h.passAllResults]
  cases hpass : e.passAllResults with
  | false => exact findings_value_eq (h.value hpass)
  | true =>
    have hresults := h.results hpass
    rw [if_pos rfl, if_pos rfl]
    cases hrs : e.results with
    | nil =>
      rw [hrs, List.forall₂_nil_left_iff] at hresults
      rw [hresults]
    | cons r rest =>
      cases hss : f.results with
      | nil =>
        rw [hrs, hss] at hresults
        cases hresults
      | cons s more =>
        rw [hrs, hss] at hresults
        exact findings_results_eq hresults

/-- What a worker is told depends on nothing but what is forwarded. -/
theorem worker_eq_of_forwardsLike {c d : Context} (h : c.ForwardsLike d) :
    worker c = worker d := by
  obtain ⟨task, es⟩ := c
  obtain ⟨task', fs⟩ := d
  obtain ⟨rfl : task = task', hentries : List.Forall₂ ContextEntry.ForwardsLike es fs⟩ := h
  have hsections : (es.map fun e => tierFindings e.tier e.forwarded) =
      fs.map fun f => tierFindings f.tier f.forwarded := by
    rw [← List.forall₂_eq_eq_eq, List.forall₂_map_left_iff, List.forall₂_map_right_iff]
    refine hentries.imp ?_
    intro e f hef
    rw [tierFindings, tierFindings, hef.tier, findings_forwarded_eq hef]
  have hempty : es.isEmpty = fs.isEmpty := by cases hentries <;> rfl
  simp only [worker, priorFindings, Context.forwarded, List.map_map, List.isEmpty_map,
    Function.comp_def, hsections, hempty]

end Prompt

/-! ### What a run forwards -/

namespace Mission

variable {m : Mission} {task : Value} {deadline : Option Instant} {j k : Journey}
  {done : List Int} {tier : Int}

/-- A call that was told what forwards as the fleet says. -/
def TellsAsSaid (m : Mission) (c : Call) : Prop :=
  ∀ e ∈ c.context.entries, e.passAllResults = m.fleet.coordination.passAllResults

/-- What a run has recorded, and what it has told those it called, forwards as its fleet says. -/
structure Forwards (m : Mission) (j : Journey) : Prop where
  entries : ∀ e ∈ j.context.entries, e.passAllResults = m.fleet.coordination.passAllResults
  calls : ∀ c ∈ j.calls, m.TellsAsSaid c

theorem Forwards.calls_of_append (hj : m.Forwards j) {more : List Call}
    (hmore : ∀ c ∈ more, c.context = j.context) : ∀ c ∈ j.calls ++ more, m.TellsAsSaid c := by
  intro c hc
  rcases List.mem_append.mp hc with hc | hc
  · exact hj.calls c hc
  · intro e he
    rw [hmore c hc] at he
    exact hj.entries e he

/-- A tier leaves the context as it was or adds its own entry. -/
theorem Step.context {h : Option Halt} (hstep : m.Step deadline tier j k h) :
    k.context = j.context ∨ ∃ e, k.context.entries = j.context.entries ++ [m.entryOf e] := by
  cases hstep with
  | expired => exact Or.inl (congrArg Ledger.context (m.ledger_afterExecutor deadline tier j))
  | escaped => exact Or.inl (congrArg Ledger.context (m.ledger_afterExecutor deadline tier j))
  | unsettled _ hreview => exact Or.inl (congrArg Ledger.context hreview.ledger_before)
  | @passed e _ reviewed _ hreview =>
    generalize e.report _ _ _ = report
    have hcontext := congrArg Ledger.context (hreview.ledger_recorded report)
    exact Or.inr ⟨e, congrArg Context.entries hcontext⟩

theorem runTier_forwards (hf : m.fleet.Valid) (hplaces : m.executor.places ≠ 0)
    (hj : m.Forwards j) {h : Option Halt} (hrun : m.runTier deadline tier j = (k, h))
    (hstep : m.Step deadline tier j k h) : m.Forwards k := by
  have hmade := runTier_calls (m := m) deadline tier j
  rw [hrun] at hmade
  obtain ⟨-, hcontexts, -⟩ := Executor.runTier_calls (p := m.plan deadline tier j) hplaces
    (hf.voters_nodup tier)
  have hcalls : ∀ c ∈ k.calls, m.TellsAsSaid c :=
    hmade ▸ hj.calls_of_append fun c hc => (hcontexts c hc).1
  rcases hstep.context with hcontext | ⟨e, hentries⟩
  · exact ⟨hcontext ▸ hj.entries, hcalls⟩
  · refine ⟨?_, hcalls⟩
    intro entry hentry
    rw [hentries] at hentry
    rcases List.mem_append.mp hentry with hentry | hentry
    · exact hj.entries entry hentry
    · rw [List.mem_singleton.mp hentry]
      rfl

theorem conclude_tellsAsSaid (deadline : Option Instant) (hj : m.Forwards j) :
    ∀ c ∈ (m.conclude deadline j).1.calls, m.TellsAsSaid c := by
  unfold conclude
  split
  · cases hmanager : m.fleet.manager? with
    | none =>
      unfold synthesize
      rw [hmanager]
      exact hj.calls
    | some manager =>
      obtain ⟨k, h, t, hrun, -, -, hcalls, -⟩ := synthesize_asks (j := j) deadline hmanager
      rw [hrun]
      show ∀ c ∈ k.calls, m.TellsAsSaid c
      rw [hcalls]
      refine hj.calls_of_append ?_
      intro c hc
      obtain ⟨-, rfl⟩ := Attempt.call?_eq_some.mp (Option.mem_toList.mp hc)
      rfl
  · rw [(aggregate_keeps j).1.calls]
    exact hj.calls

theorem goOn_tellsAsSaid (hf : m.fleet.Valid) (hplaces : m.executor.places ≠ 0)
    (deadline : Option Instant) (hj : m.Forwards j) (hstart : j.ledger.Underway []) :
    ∀ c ∈ (m.goOn deadline m.fleet.votingTiers j).1.calls, m.TellsAsSaid c := by
  have hstep : ∀ {done : List Int} {tier : Int} {i : Journey},
      done ++ [tier] <+: m.fleet.votingTiers → i.ledger.Underway done ∧ m.Forwards i →
      ∃ k h, m.runTier deadline tier i = (k, h) ∧
        (h = none ∧ k.ledger.Underway (done ++ [tier]) ∧ m.Forwards k ∨
          ∃ halt, h = some halt ∧ m.Forwards k) := by
    rintro done tier i hfirst ⟨hdone, hi⟩
    obtain ⟨k, h, hrun, hstep⟩ := next_is_step deadline hdone hfirst
    have hk := runTier_forwards hf hplaces hi hrun hstep
    refine ⟨k, h, hrun, ?_⟩
    cases h with
    | none => exact Or.inl ⟨rfl, hstep.underway_of_passed hdone, hk⟩
    | some halt => exact Or.inr ⟨halt, rfl, hk⟩
  obtain ⟨k, h, hrun, hends⟩ := runTiers_induct deadline
    (P := fun done i => i.ledger.Underway done ∧ m.Forwards i) (Q := fun i _ => m.Forwards i)
    hstep (fun _ hi => hi.2) ⟨hstart, hj⟩
  unfold goOn
  rw [hrun]
  rcases hends with ⟨rfl, -, hk⟩ | ⟨halt, rfl, hk⟩
  · exact conclude_tellsAsSaid deadline hk
  · exact hk.calls

/-- Whoever is called in a run is told what forwards as the fleet says. -/
theorem run_tellsAsSaid (hf : m.fleet.Valid) (hplaces : m.executor.places ≠ 0) (task : Value)
    (given : Option Number) : ∀ c ∈ (m.run task given).journey.calls, m.TellsAsSaid c := by
  have hunderway := Journey.atStart_underway task m.start
  have hstart : m.Forwards (m.announceStart given (Journey.atStart task m.start)) :=
    ⟨nofun, nofun⟩
  rw [(m.run_closed task given).keeps.calls]
  unfold executeWithin
  split
  · exact goOn_tellsAsSaid hf hplaces none hstart hunderway
  · split
    · exact hstart.calls
    · exact goOn_tellsAsSaid hf hplaces _ hstart hunderway

end Mission

/-! ### Two runs of one fleet -/

/-- Two runs whose tiers below some tier have come to the same values. -/
def FleetRun.AgreeBelow (tier : Int) (run run' : FleetRun) : Prop :=
  ∀ report ∈ run.journey.tiers, ∀ report' ∈ run'.journey.tiers, report.tier = report'.tier →
    report.tier < tier → Same report.verdict.result report'.verdict.result

theorem forall₂_of_map_eq {α β γ : Type} {f : α → γ} {g : β → γ} {R : α → β → Prop} {xs : List α}
    {ys : List β} (hmaps : xs.map f = ys.map g)
    (hrelated : ∀ x ∈ xs, ∀ y ∈ ys, f x = g y → R x y) : List.Forall₂ R xs ys := by
  rw [← List.forall₂_eq_eq_eq, List.forall₂_map_left_iff, List.forall₂_map_right_iff,
    List.forall₂_iff_zip] at hmaps
  refine List.forall₂_iff_zip.mpr ⟨hmaps.1, ?_⟩
  intro x y hxy
  obtain ⟨hx, hy⟩ := List.of_mem_zip hxy
  exact hrelated x hx y hy (hmaps.2 hxy)

namespace Mission

variable {m m' : Mission} {task : Value} {a : Agent}

/-- Every entry that an agent is told of comes from a report of the run. -/
theorem Informed.exists_report {j : Journey} {c : Call} (h : m.Informed task j a c)
    {e : ContextEntry} (he : e ∈ c.context.entries) : ∃ report ∈ j.tiers, e.Matches report := by
  obtain ⟨earlier, hfirst, hmatches⟩ := h.recorded
  obtain ⟨report, hreport, hmatch⟩ := Value.exists_partner hmatches he
  exact ⟨report, hfirst.subset hreport, hmatch⟩

theorem Consulted.informed_of_voter (hf : m.fleet.Valid) {j : Journey}
    (h : m.Consulted task m.fleet.consulted j) (ha : a ∈ m.fleet.voters) {c : Call}
    (hc : c ∈ j.calls) (hname : c.agent = a.name) : m.Informed task j a c := by
  obtain ⟨b, hb, hname', hinformed⟩ := h.informed c hc
  have hsame : b = a := hf.eq_of_name_eq (Fleet.mem_agents_of_consulted hb)
    (Fleet.mem_voters.mp ha).1 (hname'.trans hname)
  exact hsame ▸ hinformed

theorem lt_of_mem_tiersBefore (ha : a ∈ m.fleet.voters) {t : Int} (ht : t ∈ m.tiersBefore a) :
    t < a.tier := by
  rw [tiersBefore, (Fleet.mem_voters.mp ha).2] at ht
  exact of_decide_eq_true (List.mem_filter.mp ht).2

/-- In two runs of one fleet that forwards verdicts, a voter is called in contexts that forward
    alike if the tiers below its own have come to the same values. -/
theorem contexts_forwardLike (hf : m.fleet.Valid)
    (hverdicts : m.fleet.coordination.passAllResults = false) (hfleet : m'.fleet = m.fleet)
    (hplaces : m.executor.places ≠ 0) (hplaces' : m'.executor.places ≠ 0) (task : Value)
    (given given' : Option Number) (ha : a ∈ m.fleet.voters)
    (hagree : FleetRun.AgreeBelow a.tier (m.run task given) (m'.run task given'))
    {c c' : Call} (hc : c ∈ (m.run task given).journey.calls)
    (hc' : c' ∈ (m'.run task given').journey.calls) (hname : c.agent = a.name)
    (hname' : c'.agent = a.name) : c.context.ForwardsLike c'.context := by
  have hf' : m'.fleet.Valid := hfleet ▸ hf
  have ha' : a ∈ m'.fleet.voters := hfleet ▸ ha
  have hinformed := (run_consulted hf hplaces task given).informed_of_voter hf ha hc hname
  have hinformed' := (run_consulted hf' hplaces' task given').informed_of_voter hf' ha' hc' hname'
  have hbefore : m'.tiersBefore a = m.tiersBefore a := by rw [tiersBefore, tiersBefore, hfleet]
  refine ⟨hinformed.task.trans hinformed'.task.symm, ?_⟩
  refine forall₂_of_map_eq (hinformed.entries.trans (hbefore ▸ hinformed'.entries.symm)) ?_
  intro e he e' he' htier
  have hpass := (run_tellsAsSaid hf hplaces task given c hc e he).trans hverdicts
  have hpass' := (run_tellsAsSaid hf' hplaces' task given' c' hc' e' he').trans
    (hfleet ▸ hverdicts)
  refine ⟨htier, hpass.trans hpass'.symm, ?_, ?_⟩
  · intro _
    obtain ⟨report, hreport, hmatch⟩ := hinformed.exists_report he
    obtain ⟨report', hreport', hmatch'⟩ := hinformed'.exists_report he'
    have hbelow : e.tier < a.tier :=
      lt_of_mem_tiersBefore ha (hinformed.entries ▸ List.mem_map_of_mem he)
    have hsame := hagree report hreport report' hreport'
      (hmatch.tier.symm.trans (htier.trans hmatch'.tier)) (hmatch.tier ▸ hbelow)
    rwa [← hmatch.verdict, ← hmatch'.verdict] at hsame
  · intro hall
    rw [hpass] at hall
    cases hall

/-- **Workers are told what is forwarded, and nothing else.**  Contexts that agree on their task
    and, entry by entry, on what is forwarded give an agent that does not synthesize one
    prompt.  So, where a fleet does not pass on all results, a voter is told the same in any
    two runs of a task whose tiers below its own have come to the same values: by whatever
    agents, failures, weights and times they came to them. -/
theorem workers_told_alike {synthesize : Bool}
    (hworker : Prompt.synthesizes a synthesize = false) :
    (∀ c c' : Context, c.ForwardsLike c' →
      Service.askOf a c synthesize = Service.askOf a c' synthesize) ∧
    ∀ m m' : Mission, m.fleet.Valid → m.fleet.coordination.passAllResults = false →
      m'.fleet = m.fleet → m.executor.places ≠ 0 → m'.executor.places ≠ 0 →
      ∀ task given given', a ∈ m.fleet.voters →
        FleetRun.AgreeBelow a.tier (m.run task given) (m'.run task given') →
        ∀ c ∈ (m.run task given).journey.calls, ∀ c' ∈ (m'.run task given').journey.calls,
          c.agent = a.name → c'.agent = a.name →
          Service.askOf a c.context synthesize = Service.askOf a c'.context synthesize := by
  have htold (c c' : Context) (h : c.ForwardsLike c') :
      Service.askOf a c synthesize = Service.askOf a c' synthesize := by
    have hprompt : Prompt.user a c synthesize = Prompt.user a c' synthesize := by
      unfold Prompt.user
      rw [hworker]
      exact Prompt.worker_eq_of_forwardsLike h
    unfold Service.askOf
    rw [hprompt]
  refine ⟨htold, ?_⟩
  intro m m' hf hverdicts hfleet hplaces hplaces' task given given' ha hagree c hc c' hc' hname
    hname'
  exact htold _ _ (contexts_forwardLike hf hverdicts hfleet hplaces hplaces' task given given' ha
    hagree hc hc' hname hname')

end Mission

/-! ### A relay -/

/-- Two look into a question, and a third goes on from what they have found. -/
def relay : Fleet where
  name := "relay"
  apiVersion := "concord.dev/v1"
  kind := "AgentFleet"
  labels := []
  agents := [
    .bare "ann" 1,
    .bare "bob" 1,
    .bare "cyd" 2]
  coordination := .default

theorem relay_tiers : relay.tiers = [1, 2] := by
  have hsorted : ([1, 1, 2] : List Int).mergeSort (fun a b => decide (a ≤ b)) = [1, 1, 2] :=
    List.mergeSort_of_pairwise (by decide)
  show (([1, 1, 2] : List Int).mergeSort fun a b => decide (a ≤ b)).eraseDups = [1, 2]
  rw [hsorted]
  rfl

theorem relay_votingTiers : relay.votingTiers = [1, 2] := by
  rw [Fleet.votingTiers, relay_tiers]
  rfl

theorem relay_valid : relay.Valid := by
  refine ⟨List.cons_ne_nil _ _, Fleet.validate_eq_ok.mpr ⟨rfl, ?_, rfl, rfl, rfl, rfl, ?_⟩⟩
  · rw [Fleet.checkTiers, relay_tiers]
    rfl
  · show (do
      Fleet.conflictIf (!(Fleet.sortedNames []).isEmpty) _
      Except.ok ()) = Except.ok ()
    rw [Fleet.sortedNames, List.mergeSort_nil]
    rfl

/-- Everybody writes after a second that it was ink, but for the second one. -/
def relayMission (bob : Behaviour) : Mission where
  fleet := relay
  executor :=
    { conduct := fun a _ _ => if a.name = "bob" then bob else ⟨1, .output (.text "ink"), none⟩
      places := 2
      defaultTimeout := .whole 60
      epoch := ⟨0, none⟩ }
  reviewer := none
  runId := "relay-1"
  start := .zero

section Relay

variable {b : Behaviour} (hcalm : b.ending ≠ .raised .cancelled)
  (hink : ∀ v, (b.stay (.whole 60)).ending.outcome (.whole 60) = .success v → v = .text "ink")
include hcalm

theorem relayMission_calm : (relayMission b).executor.Calm := by
  intro a context turn
  show (if a.name = "bob" then b else ⟨1, .output (.text "ink"), none⟩ : Behaviour).ending ≠ _
  split
  · exact hcalm
  · exact Ending.noConfusion

include hink

/-- The first tier comes to ink, unless the second one of it has found something else. -/
theorem relay_first_tier {j : Journey} :
    ∃ e, ((relayMission b).executor.runTier ((relayMission b).plan none 1 j)).ending =
        .evaluated e ∧ e.verdict.result = .text "ink" := by
  let x := (relayMission b).executor
  let p := (relayMission b).plan none 1 j
  let ann : Agent := .bare "ann" 1
  have hrules : p.rules.algorithm ≠ .firstWins := by
    show Algorithm.majority ≠ .firstWins
    decide
  have hnames : (p.agents.map Agent.name).Nodup := relay_valid.voters_nodup 1
  obtain ⟨e, hending, -, hverdict⟩ := Executor.runTier_comes_to (x := x) (p := p)
    (by show (1 : Int) ≤ 2; decide) hnames (relayMission_calm hcalm) rfl hrules
  refine ⟨e, hending, ?_⟩
  have hann : x.answerOf p ann ∈ (p.agents.map (x.answerOf p)).mergeSort Executor.nameOrder :=
    List.mem_mergeSort.mpr (List.mem_map_of_mem List.mem_cons_self)
  obtain ⟨s, hs, hsucceeded, hresult⟩ :=
    Consensus.evaluate_result hann rfl p.weights p.rules
  rw [hverdict, hresult]
  obtain ⟨a, ha, rfl⟩ := List.mem_map.mp (List.mem_mergeSort.mp hs)
  have houtcome := Executor.answerOf_output hsucceeded
  have hagents : p.agents =
    [ann, .bare "bob" 1] := rfl
  rw [hagents, List.mem_pair] at ha
  rcases ha with rfl | rfl
  · rfl
  · exact hink _ houtcome

/-- The third one is called, and below its tier the run has come to ink. -/
theorem relay_comes_to_ink :
    (∀ report ∈ ((relayMission b).run (.text "go") none).journey.tiers, report.tier < 2 →
      report.verdict.result = .text "ink") ∧
    ∃ c ∈ ((relayMission b).run (.text "go") none).journey.calls, c.agent = "cyd" := by
  let m := relayMission b
  let j := m.announceStart none (Journey.atStart (.text "go") .zero)
  have hplaces : m.executor.places ≠ 0 := by
    show (2 : Int) ≠ 0
    decide
  have hunderway : j.ledger.Underway [] := Journey.atStart_underway (.text "go") .zero
  have hwhole : ([] ++ [1]) ++ 2 :: [] <+: m.fleet.votingTiers :=
    relay_votingTiers ▸ List.prefix_rfl
  obtain ⟨e, hending, hresult⟩ := relay_first_tier (j := j) hcalm hink
  obtain ⟨k, report, hrun, hstep, hrecorded, hverdict⟩ :=
    Mission.runTier_passes (m := m) (hunderway.above nofun) hending rfl rfl
  have hunderway' : k.ledger.Underway ([] ++ [1]) := hstep.underway_of_passed hunderway
  have hexecuted : (m.executeWithin none j).1 = (m.goOn none [2] k).1 := by
    show (m.goOn none relay.votingTiers j).1 = _
    rw [relay_votingTiers, Mission.goOn_of_passed (by decide +kernel) hrun]
  have hclosed := m.run_closed (.text "go") none
  rw [hclosed.tiers, hclosed.keeps.calls]
  show (∀ report ∈ (m.executeWithin none j).1.tiers, _) ∧
    ∃ c ∈ (m.executeWithin none j).1.calls, _
  rw [hexecuted]
  constructor
  · obtain ⟨later, htiers, hlater⟩ := (Mission.goOn_proceeds relay_valid hplaces
      (Mission.onTime_of_none k) hunderway' hwhole).tiers
    intro t ht hbelow
    rw [htiers, hrecorded] at ht
    rcases List.mem_append.mp ht with ht | ht
    · rw [List.mem_singleton.mp ht, hverdict, hresult]
    · rw [List.mem_singleton.mp (hlater t ht)] at hbelow
      exact absurd hbelow (lt_irrefl 2)
  · obtain ⟨l, h, hrun', hstep'⟩ := Mission.next_is_step (m := m) none hunderway' hwhole
    obtain ⟨tiers, hmore⟩ := Mission.goOn_proceeds_after relay_valid hplaces
      (Mission.onTime_of_none k) hunderway' hwhole (by decide +kernel) hrun' hstep'
    have hcalls := Mission.runTier_calls (m := m) none 2 k
    rw [hrun'] at hcalls
    have hcalled : "cyd" ∈ (m.executor.runTier (m.plan none 2 k)).calls.map Call.agent := by
      obtain ⟨t, hending'⟩ := (Executor.runTier_ending_of_calm (p := m.plan none 2 k)
        (relayMission_calm hcalm) (by show (0 : Int) ≤ 2; decide)).resolve_left nofun
      obtain ⟨-, -, -, heverybody⟩ :=
        Executor.runTier_evaluated hplaces (relay_valid.voters_nodup 2) hending'
      have hrules : (m.plan none 2 k).rules.algorithm ≠ .firstWins := by
        show Algorithm.majority ≠ .firstWins
        decide
      rw [heverybody hrules]
      exact List.mem_singleton_self "cyd"
    obtain ⟨c, hc, hname⟩ := List.mem_map.mp hcalled
    refine ⟨c, hmore.calls.begins.subset ?_, hname⟩
    rw [hcalls]
    exact List.mem_append_right _ hc

end Relay

/-- The second one of the relay fails. -/
def relayAlone : FleetRun :=
  (relayMission ⟨1, .raised (.other "OSError" "gone"), none⟩).run (.text "go") none

/-- The second one of the relay takes its time and agrees. -/
def relayTogether : FleetRun :=
  (relayMission ⟨5, .output (.text "ink"), none⟩).run (.text "go") none

/-- The third one of the relay. -/
def lastRelay : Agent := .bare "cyd" 2

theorem relay_told_alike : Prompt.synthesizes lastRelay relay.synthesizes = false ∧
    relay.Valid ∧ relay.coordination.passAllResults = false ∧ lastRelay ∈ relay.voters ∧
    FleetRun.AgreeBelow lastRelay.tier relayAlone relayTogether ∧
    ∃ c ∈ relayAlone.journey.calls, ∃ c' ∈ relayTogether.journey.calls,
      c.agent = lastRelay.name ∧ c'.agent = lastRelay.name ∧
      Service.askOf lastRelay c.context relay.synthesizes =
        Service.askOf lastRelay c'.context relay.synthesizes := by
  have halone := relay_comes_to_ink (b := ⟨1, .raised (.other "OSError" "gone"), none⟩)
    (by simp) nofun
  have htogether := relay_comes_to_ink (b := ⟨5, .output (.text "ink"), none⟩)
    (by simp) (by rintro v ⟨⟩; rfl)
  obtain ⟨hink, c, hc, hname⟩ := halone
  obtain ⟨hink', c', hc', hname'⟩ := htogether
  have hworker : Prompt.synthesizes lastRelay relay.synthesizes = false := rfl
  have hvoter : lastRelay ∈ relay.voters :=
    Fleet.mem_voters.mpr ⟨by simp [relay, lastRelay], rfl⟩
  have hplaces (b : Behaviour) : (relayMission b).executor.places ≠ 0 := by
    show (2 : Int) ≠ 0
    decide
  have hagree : FleetRun.AgreeBelow lastRelay.tier relayAlone relayTogether := by
    intro report hreport report' hreport' htier hbelow
    rw [hink report hreport hbelow, hink' report' hreport' (htier ▸ hbelow)]
    exact .text "ink"
  refine ⟨hworker, relay_valid, rfl, hvoter, hagree, c, hc, c', hc', hname, hname', ?_⟩
  exact (Mission.workers_told_alike hworker).2
    (relayMission ⟨1, .raised (.other "OSError" "gone"), none⟩)
    (relayMission ⟨5, .output (.text "ink"), none⟩) relay_valid rfl rfl (hplaces _) (hplaces _)
    (.text "go") none none hvoter hagree c hc c' hc' hname hname'

end Quorum

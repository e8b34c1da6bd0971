/-
  Quorum/Proofs/Run/Lockstep.lean
  ===============================
  **Report, context and calls in lockstep.**

  After each tier the context holds what the report says about every tier so far, and the
  observers have been told (`Mission.Lockstep`).  So those who are called next know all of it
  (`Mission.Informed`), and the calls follow the order of the tiers (`Mission.Consulted`).
  One tier keeps both (`runTier_lockstep`), and so do all tiers one after the other
  (`runTiers_lockstep`).
-/
import Mathlib.Data.List.Flatten
import Quorum.Proofs.Fleet.Valid
import Quorum.Proofs.Run.Calls
import Quorum.Proofs.Run.Ledger

namespace Quorum

/-- The agents that vote, in the order of their tiers. -/
def Fleet.voters (f : Fleet) : List Agent := f.votingTiers.flatMap f.votingAgents

/-- An entry of the context says what the report of its tier says. -/
structure ContextEntry.Matches (entry : ContextEntry) (report : TierReport) : Prop where
  tier : entry.tier = report.tier
  results : entry.results = report.results
  verdict : entry.verdict = report.verdict

theorem map_tier_of_matches {entries : List ContextEntry} {reports : List TierReport}
    (h : List.Forall₂ ContextEntry.Matches entries reports) :
    entries.map ContextEntry.tier = reports.map TierReport.tier := by
  induction h with
  | nil => rfl
  | cons hfirst _ ih => rw [List.map_cons, List.map_cons, hfirst.tier, ih]

/-- A halt for another reason than an entry out of order. -/
def Halt.InOrder (halt : Halt) : Prop := ∀ conflict, halt ≠ .escaped (.outOfOrder conflict)

namespace Mission

variable (m : Mission) {deadline : Option Instant} {p : TierPlan} {e : Execution} {j : Journey}

theorem haltAfter_inOrder {report : TierReport} {halt : Halt}
    (h : m.haltAfter p report = some halt) : halt.InOrder := by
  unfold haltAfter at h
  split at h
  · cases h
    simp [Halt.InOrder]
  · split at h
    · cases h
      simp [Halt.InOrder]
    · cases h

end Mission

/-! ### What those who are called know -/

namespace Mission

variable (m : Mission) (task : Value)

/-- The tiers an agent hears from: all below its own, or all there are if it synthesizes. -/
def tiersBefore (a : Agent) : List Int :=
  if m.fleet.synthesizes && a.isManager then m.fleet.votingTiers
  else m.fleet.votingTiers.filter fun t => decide (t < a.tier)

/-- An agent is called in the context of its task, with one entry for each tier before it, in
    ascending order; these tiers are the first that the run reports, with the same results
    and verdicts, and they were done when the call was made. -/
structure Informed (j : Journey) (a : Agent) (c : Call) : Prop where
  task : c.context.task = task
  entries : c.context.entries.map ContextEntry.tier = m.tiersBefore a
  ascending : (c.context.entries.map ContextEntry.tier).Pairwise (· < ·)
  recorded : ∃ earlier, earlier <+: j.tiers ∧
    List.Forall₂ ContextEntry.Matches c.context.entries earlier
  told : ∀ t ∈ m.tiersBefore a, j.Told t c.time

/-- The results of a tier are those of the agents that vote in it. -/
def VotersOnly (report : TierReport) : Prop :=
  (report.results.map AgentResult.agentName).Perm
    ((m.fleet.votingAgents report.tier).map Agent.name)

/-- A run that has called none but these agents, in this order and each at most once, has told
    everybody it called what there was to know, and has let none but voters vote. -/
structure Consulted (agents : List Agent) (j : Journey) : Prop where
  order : (j.calls.map Call.agent).Sublist (agents.map Agent.name)
  placed : (j.invocations.map Invocation.call).Sublist j.calls
  informed : ∀ c ∈ j.calls, ∃ a ∈ agents, a.name = c.agent ∧ m.Informed task j a c
  voters : ∀ report ∈ j.tiers, m.VotersOnly report

/-- A run of a task after some tiers: it has a report and an entry of each of them, the
    observers know, and unless one of them settled for the first success, all their agents
    have been called. -/
structure Lockstep (done : List Int) (j : Journey) : Prop where
  task : j.context.task = task
  tiers : j.tiers.map TierReport.tier = done
  entries : List.Forall₂ ContextEntry.Matches j.context.entries j.tiers
  told : ∀ t ∈ done, j.Told t j.clock
  everybody : (∀ t ∈ done, (m.fleet.coordination.rulesFor t).algorithm ≠ .firstWins) →
    j.calls.map Call.agent = (done.flatMap m.fleet.votingAgents).map Agent.name

variable {m task} {j j' : Journey} {done : List Int}

theorem Informed.mono {a : Agent} {c : Call} (h : m.Informed task j a c) (hj : j.Grows j') :
    m.Informed task j' a c := by
  obtain ⟨earlier, hfirst, hmatches⟩ := h.recorded
  exact ⟨h.task, h.entries, h.ascending, ⟨earlier, hfirst.trans hj.tiers, hmatches⟩,
    fun t ht => (h.told t ht).mono hj le_rfl⟩

theorem Consulted.keeps {agents : List Agent} (h : m.Consulted task agents j) (hj : j.Keeps j')
    (hvoters : ∀ report ∈ j'.tiers, m.VotersOnly report) : m.Consulted task agents j' where
  order := hj.calls ▸ h.order
  placed := by
    rw [hj.calls, hj.invocations]
    exact h.placed
  informed := by
    intro c hc
    rw [hj.calls] at hc
    obtain ⟨a, ha, hname, hinformed⟩ := h.informed c hc
    exact ⟨a, ha, hname, hinformed.mono hj.toGrows⟩
  voters := hvoters

theorem Consulted.keeps_of_tiers {agents : List Agent} (h : m.Consulted task agents j)
    (hj : j.Keeps j') (htiers : j'.tiers = j.tiers) : m.Consulted task agents j' :=
  h.keeps hj (htiers ▸ h.voters)

theorem Consulted.append {agents more : List Agent} {calls : List Call}
    {invocations : List Invocation} (h : m.Consulted task agents j) (hj : j.Grows j')
    (hcalls : j'.calls = j.calls ++ calls)
    (hinvocations : j'.invocations = j.invocations ++ invocations) (htiers : j'.tiers = j.tiers)
    (horder : (calls.map Call.agent).Sublist (more.map Agent.name))
    (hplaced : (invocations.map Invocation.call).Sublist calls)
    (hinformed : ∀ c ∈ calls, ∃ a ∈ more, a.name = c.agent ∧ m.Informed task j a c) :
    m.Consulted task (agents ++ more) j' where
  order := by
    rw [hcalls, List.map_append, List.map_append]
    exact h.order.append horder
  placed := by
    rw [hcalls, hinvocations, List.map_append]
    exact h.placed.append hplaced
  informed := by
    intro c hc
    rw [hcalls] at hc
    rcases List.mem_append.mp hc with hc | hc
    · obtain ⟨a, ha, hname, hknows⟩ := h.informed c hc
      exact ⟨a, List.mem_append_left _ ha, hname, hknows.mono hj⟩
    · obtain ⟨a, ha, hname, hknows⟩ := hinformed c hc
      exact ⟨a, List.mem_append_right _ ha, hname, hknows.mono hj⟩
  voters := htiers ▸ h.voters

/-- Whoever is called with the context of a run that is in lockstep is informed. -/
theorem Lockstep.informed (hj : m.Lockstep task done j) {a : Agent} {c : Call}
    (hcontext : c.context = j.context) (htime : j.clock ≤ c.time)
    (hbefore : m.tiersBefore a = done) (hascending : done.Pairwise (· < ·)) :
    m.Informed task j a c := by
  have hentries : c.context.entries.map ContextEntry.tier = done := by
    rw [hcontext, map_tier_of_matches hj.entries, hj.tiers]
  refine ⟨hcontext ▸ hj.task, hbefore ▸ hentries, hentries ▸ hascending, ?_, ?_⟩
  · exact ⟨j.tiers, List.prefix_rfl, hcontext ▸ hj.entries⟩
  · intro t ht
    exact (hj.told t (hbefore ▸ ht)).mono ⟨List.prefix_rfl, List.prefix_rfl⟩ htime

/-- A tier is done when its report and its entry are added and the observers are told. -/
theorem Lockstep.add {tier : Int} {report : TierReport} {entry : ContextEntry}
    (hj : m.Lockstep task done j) (hgrows : j.Grows j') (hclock : j.clock ≤ j'.clock)
    (hadded : j'.ledger = j.ledger.add report entry) (hmatches : entry.Matches report)
    (htier : entry.tier = tier) (htold : j'.Told tier j'.clock)
    (heverybody : (m.fleet.coordination.rulesFor tier).algorithm ≠ .firstWins →
      j'.calls.map Call.agent =
        j.calls.map Call.agent ++ (m.fleet.votingAgents tier).map Agent.name) :
    m.Lockstep task (done ++ [tier]) j' := by
  have htiers : j'.tiers = j.tiers ++ [report] := congrArg Ledger.tiers hadded
  have hcontext : j'.context = ⟨j.context.task, j.context.entries ++ [entry]⟩ :=
    congrArg Ledger.context hadded
  refine ⟨?_, ?_, ?_, ?_, ?_⟩
  · rw [hcontext]
    exact hj.task
  · rw [htiers, List.map_append, hj.tiers, List.map_singleton, ← hmatches.tier, htier]
  · rw [hcontext, htiers]
    exact List.rel_append hj.entries (.cons hmatches .nil)
  · intro t ht
    rcases List.mem_append.mp ht with ht | ht
    · exact (hj.told t ht).mono hgrows hclock
    · rw [List.mem_singleton.mp ht]
      exact htold
  · intro hrules
    have hdone := hj.everybody fun t ht => hrules t (List.mem_append_left _ ht)
    have hlast := heverybody (hrules tier (List.mem_append_right _ (List.mem_singleton_self _)))
    rw [hlast, hdone, List.flatMap_append, List.flatMap_singleton, List.map_append]

theorem Consulted.sublist {agents agents' : List Agent} (h : m.Consulted task agents j)
    (hagents : agents.Sublist agents') : m.Consulted task agents' j where
  order := h.order.trans (hagents.map Agent.name)
  placed := h.placed
  informed := by
    intro c hc
    obtain ⟨a, ha, hname, hinformed⟩ := h.informed c hc
    exact ⟨a, hagents.subset ha, hname, hinformed⟩
  voters := h.voters

/-! ### Tier by tier -/

section Step

variable (hf : m.fleet.Valid) (hplaces : m.executor.places ≠ 0) {tier : Int}
  (htier : m.fleet.votingTiers.filter (fun t => decide (t < tier)) = done)
include hf hplaces htier

/-- The calls of a tier are made in the context of the tiers before it. -/
theorem afterExecutor_consulted (deadline : Option Instant) (hj : m.Lockstep task done j)
    (hcalls : m.Consulted task (done.flatMap m.fleet.votingAgents) j) :
    m.Consulted task ((done ++ [tier]).flatMap m.fleet.votingAgents)
      (m.afterExecutor deadline tier j) := by
  have hnames := hf.voters_nodup tier
  obtain ⟨horder, hcontext, hplaced⟩ :=
    Executor.runTier_calls (p := m.plan deadline tier j) hplaces hnames
  have hledger := m.ledger_afterExecutor deadline tier j
  have hascending : done.Pairwise (· < ·) :=
    htier ▸ m.fleet.votingTiers_ascending.sublist List.filter_sublist
  rw [List.flatMap_append, List.flatMap_singleton]
  refine hcalls.append (m.afterExecutor_grows deadline tier j) rfl rfl
    (congrArg Ledger.tiers hledger) horder hplaced ?_
  intro c hc
  obtain ⟨a, ha, hname⟩ := List.mem_map.mp (horder.subset (List.mem_map_of_mem hc))
  obtain ⟨-, hlevel, hvotes⟩ := Fleet.mem_votingAgents.mp ha
  have hbefore : m.tiersBefore a = done := by
    rw [tiersBefore, hvotes, hlevel]
    exact htier
  exact ⟨a, ha, hname, hj.informed (hcontext c hc).1 (hcontext c hc).2 hbefore hascending⟩

/-- One tier more: report, context and calls are still in lockstep, or the run stops there. -/
theorem runTier_lockstep (deadline : Option Instant) (hj : m.Lockstep task done j)
    (hcalls : m.Consulted task (done.flatMap m.fleet.votingAgents) j) :
    ∃ j' h, m.runTier deadline tier j = (j', h) ∧
      m.Consulted task ((done ++ [tier]).flatMap m.fleet.votingAgents) j' ∧
      (h = none → m.Lockstep task (done ++ [tier]) j') ∧ ∀ halt ∈ h, halt.InOrder := by
  have hledger := m.ledger_afterExecutor deadline tier j
  have hafter := afterExecutor_consulted hf hplaces htier deadline hj hcalls
  cases hending : (m.executor.runTier (m.plan deadline tier j)).ending with
  | expired =>
    refine ⟨_, _, m.runTier_of_expired hending, hafter, by simp, ?_⟩
    simp [Halt.InOrder]
  | escaped why =>
    refine ⟨_, _, m.runTier_of_escaped hending, hafter, by simp, ?_⟩
    rcases Executor.runTier_escaped hending with rfl | rfl <;> simp [Halt.InOrder]
  | evaluated e =>
    obtain ⟨htime, hlevel, hanswered, heverybody⟩ :=
      Executor.runTier_evaluated hplaces (hf.voters_nodup tier) hending
    replace hlevel : e.tier = tier := hlevel
    have hentries : (m.afterExecutor deadline tier j).context = j.context :=
      congrArg Ledger.context hledger
    have habove : ∀ entry ∈ (m.afterExecutor deadline tier j).context.entries,
        entry.tier < e.tier := by
      intro entry hentry
      rw [hentries] at hentry
      have hdone : entry.tier ∈ done := by
        rw [← hj.tiers, ← map_tier_of_matches hj.entries]
        exact List.mem_map_of_mem hentry
      rw [← htier, List.mem_filter, decide_eq_true_eq] at hdone
      rw [hlevel]
      exact hdone.2
    rw [m.runTier_of_evaluated hending]
    rcases m.settle_spec deadline (m.plan deadline tier j) habove with
      ⟨reviewed, j', -, hsettle, hcontinues, hadded, htold⟩ |
      ⟨d, j', -, hsettle, hkeeps, hkept⟩ | ⟨reviewer, j', -, -, hsettle, hkeeps, hkept⟩
    · rw [hledger] at hadded
      let report := e.report (m.plan deadline tier j).rules reviewed.status reviewed.error
      have hmatches : (m.entryOf e).Matches report := ⟨rfl, rfl, rfl⟩
      have htiers : j'.tiers = j.tiers ++ [report] := congrArg Ledger.tiers hadded
      have hreport : report.tier = tier := hmatches.tier.symm.trans hlevel
      have hgrows := (m.afterExecutor_grows deadline tier j).trans hcontinues.toGrows
      refine ⟨j', _, hsettle, hafter.keeps hcontinues.toKeeps ?_, fun _ => ?_, ?_⟩
      · intro other hother
        rw [htiers, List.mem_append, List.mem_singleton] at hother
        rcases hother with hother | rfl
        · exact hcalls.voters other hother
        · rw [VotersOnly, ← hmatches.results, hreport]
          exact hanswered.agents
      · refine hj.add hgrows (htime.trans hcontinues.clock) hadded hmatches hlevel
          (hlevel ▸ htold) fun hrules => ?_
        have hasked := heverybody hrules
        rw [hcontinues.calls, afterExecutor_calls, List.map_append, hasked]
        rfl
      · intro halt hhalt
        exact m.haltAfter_inOrder hhalt
    · refine ⟨j', _, hsettle, hafter.keeps_of_tiers hkeeps (congrArg Ledger.tiers hkept),
        by simp, ?_⟩
      simp [Halt.InOrder]
    · refine ⟨j', _, hsettle, hafter.keeps_of_tiers hkeeps (congrArg Ledger.tiers hkept),
        by simp, ?_⟩
      simp [Halt.InOrder]

end Step

theorem filter_lt_of_ascending {before after : List Int} {tier : Int}
    (h : (before ++ tier :: after).Pairwise (· < ·)) :
    (before ++ tier :: after).filter (fun t => decide (t < tier)) = before := by
  obtain ⟨-, hafter, hbefore⟩ := List.pairwise_append.mp h
  have hlow : before.filter (fun t => decide (t < tier)) = before :=
    List.filter_eq_self.mpr fun t ht => decide_eq_true (hbefore t ht tier List.mem_cons_self)
  have hhigh : (tier :: after).filter (fun t => decide (t < tier)) = [] := by
    rw [List.filter_eq_nil_iff]
    intro t ht
    rcases List.mem_cons.mp ht with rfl | ht
    · simp
    · have hlt := (List.pairwise_cons.mp hafter).1 t ht
      simp [hlt.le]
  rw [List.filter_append, hlow, hhigh, List.append_nil]

/-- The voting tiers, one after the other: none is left out, and the calls are in order even if
    the run stops on the way. -/
theorem runTiers_lockstep (hf : m.fleet.Valid) (hplaces : m.executor.places ≠ 0)
    (deadline : Option Instant) {rest : List Int} (hj : m.Lockstep task done j)
    (hcalls : m.Consulted task (done.flatMap m.fleet.votingAgents) j)
    (htiers : done ++ rest = m.fleet.votingTiers) :
    ∃ j' h, m.runTiers deadline rest j = (j', h) ∧ m.Consulted task m.fleet.voters j' ∧
      (h = none → m.Lockstep task m.fleet.votingTiers j') ∧ ∀ halt ∈ h, halt.InOrder := by
  -- on the tiers that are left; the tiers that are done grow
  induction rest generalizing j done with
  | nil =>
    rw [List.append_nil] at htiers
    subst htiers
    exact ⟨j, none, rfl, hcalls, fun _ => hj, by simp⟩
  | cons tier rest ih =>
    have hbefore : m.fleet.votingTiers.filter (fun t => decide (t < tier)) = done := by
      have hascending := m.fleet.votingTiers_ascending
      rw [← htiers] at hascending ⊢
      exact filter_lt_of_ascending hascending
    have hsplit : (done ++ [tier]) ++ rest = m.fleet.votingTiers := by
      rw [List.append_assoc, List.singleton_append, htiers]
    cases hwritten : Value.hasNumeral tier with
    | false =>
      rw [runTiers_of_unwritten hwritten]
      refine ⟨j, _, rfl, hcalls.sublist ?_, by simp, by simp [Halt.InOrder]⟩
      rw [Fleet.voters, ← htiers]
      exact (List.sublist_append_left done (tier :: rest)).flatMap _
    | true =>
      obtain ⟨j', h, hrun, hcalls', hj', hhalt⟩ :=
        runTier_lockstep hf hplaces hbefore deadline hj hcalls
      cases h with
      | none =>
        rw [runTiers_of_passed hwritten hrun]
        exact ih (hj' rfl) hcalls' hsplit
      | some halt =>
        rw [runTiers_of_halt hwritten hrun]
        refine ⟨j', some halt, rfl, hcalls'.sublist ?_, by simp, hhalt⟩
        rw [Fleet.voters, ← hsplit]
        exact (List.sublist_append_left (done ++ [tier]) rest).flatMap _

end Mission

end Quorum

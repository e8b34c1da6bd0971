/-
  Quorum/Proofs/Run/Recounted.lean
  ================================
  **The verdicts of a report follow from the report.**

  The weight of an agent travels twice: with its result, and in the map that the verdict is
  counted with.  Both come from the weights in force in the tier (`weights_recorded`), so
  every verdict can be counted again from what is recorded (`TierReport.Recounted`).  The
  final verdict is counted from the results of the last tier, which the context holds as the
  report does, and where no rules of its own are set for that tier it is the tier's verdict
  once more (`run_recounted`).
-/
import Quorum.Proofs.Consensus.Weights
import Quorum.Proofs.Fleet.Weights
import Quorum.Proofs.Run.Approved

namespace Quorum

open Consensus

/-! ### Reports that can be counted again -/

/-- A tier is counted under its own rules with the weights in force, and these are recorded
    with its results. -/
structure TierReport.Accounted (m : Mission) (t : TierReport) : Prop where
  rules : t.rules = m.fleet.coordination.rulesFor t.tier
  weights : ∀ r ∈ t.results, (m.fleet.weightsFor t.tier).lookup r.agentName = some r.weight
  verdict : t.verdict = evaluate t.results (m.fleet.weightsFor t.tier) t.rules

/-- The weights in force are recorded with the results of a tier, and its verdict can be counted
    again from them: without a map of weights, or for a review with the recorded ones. -/
structure TierReport.Recounted (m : Mission) (t : TierReport) : Prop where
  weights : ∀ r ∈ t.results, (m.fleet.weightsFor t.tier).lookup r.agentName = some r.weight
  alone : t.rules.algorithm ≠ .humanReview → evaluate t.results [] t.rules = t.verdict
  recorded : evaluate t.results (recordedWeights t.results) t.rules = t.verdict

/-- A final verdict can be counted again from the results of the last tier, under the default
    rules; where that tier has no rules of its own, it is the verdict of the tier. -/
structure FleetReport.FinallyRecounted (m : Mission) (r : FleetReport) (v : Verdict Float)
    (last : TierReport) : Prop where
  atEnd : r.tiers.getLast? = some last
  tier : m.fleet.votingTiers.getLast? = some last.tier
  alone : m.fleet.coordination.defaultRules.algorithm ≠ .humanReview →
    evaluate last.results [] m.fleet.coordination.defaultRules = v
  recorded : evaluate last.results (recordedWeights last.results)
    m.fleet.coordination.defaultRules = v
  same : m.fleet.coordination.tierRules.lookup last.tier = none → v = last.verdict

/-- Every verdict of a report can be counted again from what the report records. -/
structure FleetReport.Recounted (m : Mission) (r : FleetReport) : Prop where
  tiers : ∀ t ∈ r.tiers, t.Recounted m
  final : ∀ v, r.finalVerdict = some v → ∃ last, r.FinallyRecounted m v last

theorem TierReport.Accounted.recounted {m : Mission} {t : TierReport} (h : t.Accounted m) :
    t.Recounted m := by
  obtain ⟨halone, hrecorded⟩ := evaluate_recounted t.rules h.weights
  rw [← h.verdict] at halone hrecorded
  exact ⟨h.weights, halone, hrecorded⟩

namespace Mission

variable {m : Mission} {deadline : Option Instant} {tier : Int} {done : List Int}
  {e : Execution} {j k : Journey}

/-! ### One tier -/

/-- Whatever becomes of an agent, its result carries the weight in force. -/
theorem weights_recorded (hf : m.fleet.Valid) (hplaces : m.executor.places ≠ 0)
    (hending : (m.executor.runTier (m.plan deadline tier j)).ending = .evaluated e) :
    ∀ r ∈ e.results, (m.fleet.weightsFor tier).lookup r.agentName = some r.weight := by
  intro r hr
  obtain ⟨-, -, hanswered, -⟩ :=
    Executor.runTier_evaluated hplaces (hf.voters_nodup tier) hending
  have hname := hanswered.agents.mem_iff.mp (List.mem_map_of_mem hr)
  obtain ⟨a, ha, hname⟩ := List.mem_map.mp hname
  have hagent := (Fleet.mem_votingAgents.mp ha).1
  obtain ⟨w, hlookup⟩ :=
    (Fleet.validate_eq_ok_iff_coherent.mp hf.rules).exists_weightFor hagent tier
  rw [hname] at hlookup
  have hweight : r.weight = ((m.fleet.weightsFor tier).lookup r.agentName).getD 1.0 :=
    hanswered.weight r hr
  rw [hlookup, Option.getD_some] at hweight
  rw [hlookup, hweight]

theorem report_accounted (hf : m.fleet.Valid) (hplaces : m.executor.places ≠ 0)
    (hending : (m.executor.runTier (m.plan deadline tier j)).ending = .evaluated e)
    (status : TierStatus) (error : Option String) :
    (e.report (m.plan deadline tier j).rules status error).Accounted m := by
  have hlevel : e.tier = tier := evaluated_tier hending
  have hweights := weights_recorded hf hplaces hending
  obtain ⟨t, rfl⟩ := Executor.evaluated_execution hending
  exact ⟨rfl, hweights, rfl⟩

/-! ### One tier after the other -/

/-- A run that has passed some tiers, with an entry for each report, all of them accounted
    for. -/
structure Accounts (m : Mission) (done : List Int) (j : Journey) : Prop where
  underway : j.ledger.Underway done
  entries : List.Forall₂ ContextEntry.Matches j.context.entries j.tiers
  tiers : ∀ t ∈ j.tiers, t.Accounted m

/-- A run that has stopped on its way. -/
structure Breaks (m : Mission) (j : Journey) : Prop where
  verdict : j.finalVerdict = none
  tiers : ∀ t ∈ j.tiers, t.Accounted m

theorem Accounts.breaks (hj : m.Accounts done j) (hledger : k.ledger = j.ledger) :
    m.Breaks k where
  verdict := (congrArg Ledger.finalVerdict hledger).trans hj.underway.finalVerdict
  tiers := by
    have htiers : k.tiers = j.tiers := congrArg Ledger.tiers hledger
    rw [htiers]
    exact hj.tiers

theorem runTier_accounts (hf : m.fleet.Valid) (hplaces : m.executor.places ≠ 0)
    (hfirst : done ++ [tier] <+: m.fleet.votingTiers) (hj : m.Accounts done j) :
    ∃ j' h, m.runTier deadline tier j = (j', h) ∧
      (h = none ∧ m.Accounts (done ++ [tier]) j' ∨ ∃ halt, h = some halt ∧ m.Breaks j') := by
  obtain ⟨j', h, hrun, hstep⟩ := next_is_step deadline hj.underway hfirst
  refine ⟨j', h, hrun, ?_⟩
  cases hstep with
  | expired _ => exact .inr ⟨_, rfl, hj.breaks (m.ledger_afterExecutor deadline tier j)⟩
  | escaped _ => exact .inr ⟨_, rfl, hj.breaks (m.ledger_afterExecutor deadline tier j)⟩
  | unsettled _ hreview => exact .inr ⟨_, rfl, hj.breaks hreview.ledger_before⟩
  | passed hending hreview =>
    rename_i e k reviewed
    have haccounted := report_accounted hf hplaces hending reviewed.status reviewed.error
    have hlevel := evaluated_tier hending
    have hmatches : (m.entryOf e).Matches
        (e.report (m.plan deadline tier j).rules reviewed.status reviewed.error) :=
      ⟨rfl, rfl, rfl⟩
    have hsame : (e.report (m.plan deadline tier j).rules reviewed.status reviewed.error).tier =
        tier := hlevel
    generalize e.report (m.plan deadline tier j).rules reviewed.status reviewed.error = report
      at haccounted hmatches hsame ⊢
    have hledger := hreview.ledger_recorded report
    have hunderway := hreview.underway_recorded hj.underway hlevel hsame
    have htiers : (announceVerdict report (m.recorded e report k)).tiers = j.tiers ++ [report] :=
      congrArg Ledger.tiers hledger
    have hcontext : (announceVerdict report (m.recorded e report k)).context.entries =
        j.context.entries ++ [m.entryOf e] :=
      congrArg (fun l : Ledger => l.context.entries) hledger
    have haccounts : m.Accounts (done ++ [tier])
        (announceVerdict report (m.recorded e report k)) := by
      refine ⟨hunderway, ?_, ?_⟩
      · rw [htiers, hcontext]
        exact List.rel_append hj.entries (.cons hmatches .nil)
      · rw [htiers]
        intro t ht
        rcases List.mem_append.mp ht with ht | ht
        · exact hj.tiers t ht
        · exact List.mem_singleton.mp ht ▸ haccounted
    cases hhalt : m.haltAfter (m.plan deadline tier j) report with
    | none => exact .inl ⟨rfl, haccounts⟩
    | some halt =>
      exact .inr ⟨halt, rfl, haccounts.underway.finalVerdict, haccounts.tiers⟩

/-! ### The final verdict -/

/-- A run that is over: its tiers are accounted for, and so is its final verdict, if it has
    one. -/
structure Tallied (m : Mission) (j : Journey) : Prop where
  tiers : ∀ t ∈ j.tiers, t.Accounted m
  final : ∀ v, j.finalVerdict = some v → ∃ last, j.tiers.getLast? = some last ∧
    m.fleet.votingTiers.getLast? = some last.tier ∧
    v = evaluate last.results (m.fleet.weightsFor last.tier) m.fleet.coordination.defaultRules

theorem Breaks.tallied (hj : m.Breaks j) : m.Tallied j where
  tiers := hj.tiers
  final := by
    intro v hv
    rw [hj.verdict] at hv
    cases hv

/-- The last entry of the context says what the last report says. -/
theorem getLast?_of_matches {entries : List ContextEntry} {reports : List TierReport}
    (h : List.Forall₂ ContextEntry.Matches entries reports) {entry : ContextEntry}
    (hlast : entries.getLast? = some entry) :
    ∃ report, reports.getLast? = some report ∧ entry.Matches report := by
  have hreversed := List.forall₂_reverse_iff.mpr h
  rw [← List.head?_reverse] at hlast
  simp only [← List.head?_reverse]
  generalize entries.reverse = entries, reports.reverse = reports at hreversed hlast ⊢
  cases hreversed with
  | nil => cases hlast
  | cons hfirst _ =>
    cases hlast
    exact ⟨_, rfl, hfirst⟩

theorem synthesize_finalVerdict (deadline : Option Instant) (j : Journey) :
    (m.synthesize deadline j).1.finalVerdict = j.finalVerdict := by
  unfold synthesize
  split
  · rfl
  · dsimp only
    split
    · rfl
    · split <;> rfl

theorem aggregate_tallied (hj : m.Accounts m.fleet.votingTiers j) : m.Tallied (m.aggregate j) := by
  have hkeeps := (aggregate_keeps (m := m) j).2
  refine ⟨hkeeps.symm ▸ hj.tiers, ?_⟩
  rw [hkeeps]
  intro v hv
  unfold aggregate at hv
  split at hv
  · rw [show j.finalVerdict = none from hj.underway.finalVerdict] at hv
    cases hv
  · rename_i entry hlatest
    obtain ⟨last, hlast, hmatches⟩ := getLast?_of_matches hj.entries hlatest
    refine ⟨last, hlast, ?_, ?_⟩
    · have htiers : j.tiers.map TierReport.tier = m.fleet.votingTiers := hj.underway.tiers
      rw [← htiers, List.getLast?_map, hlast]
      rfl
    · rw [← hmatches.tier, ← hmatches.results]
      exact (Option.some.inj hv).symm

theorem execute_tallied (deadline : Option Instant) (hf : m.fleet.Valid)
    (hplaces : m.executor.places ≠ 0) (hj : m.Accounts [] j) :
    m.Tallied (m.execute deadline j).1 := by
  obtain ⟨j', h, hrun, ⟨rfl, hpassed⟩ | ⟨halt, rfl, hstopped⟩⟩ :=
    runTiers_induct deadline (P := m.Accounts) (Q := fun j _ => m.Breaks j)
      (runTier_accounts hf hplaces) (fun _ hj => hj.breaks rfl) hj
  · have htiers := execute_tiers hrun
    unfold execute at htiers ⊢
    rw [hrun] at htiers ⊢
    simp only at htiers ⊢
    by_cases hsynthesizes : m.fleet.synthesizes = true
    · rw [if_pos hsynthesizes] at htiers ⊢
      apply Breaks.tallied
      refine ⟨?_, ?_⟩
      · rw [synthesize_finalVerdict]
        exact hpassed.underway.finalVerdict
      · rw [htiers]
        exact hpassed.tiers
    · rw [if_neg hsynthesizes]
      exact aggregate_tallied hpassed
  · rw [execute_of_halt hrun]
    exact hstopped.tallied

theorem executeWithin_tallied (given : Option Number) (hf : m.fleet.Valid)
    (hplaces : m.executor.places ≠ 0) (hj : m.Accounts [] j) :
    m.Tallied (m.executeWithin given j).1 := by
  unfold executeWithin
  split
  · exact execute_tallied none hf hplaces hj
  · split
    · -- no time is left
      exact (hj.breaks rfl).tallied
    · exact execute_tallied _ hf hplaces hj

/-! ### Whole runs -/

theorem Tallied.recounted (hj : m.Tallied j) {r : FleetReport} (htiers : r.tiers = j.tiers)
    (hfinal : r.finalVerdict = j.finalVerdict) : r.Recounted m := by
  refine ⟨?_, ?_⟩
  · rw [htiers]
    intro t ht
    exact (hj.tiers t ht).recounted
  · rw [hfinal]
    intro v hv
    obtain ⟨last, hlast, hvoting, rfl⟩ := hj.final v hv
    have haccounted := hj.tiers last (List.mem_of_getLast? hlast)
    obtain ⟨halone, hrecorded⟩ :=
      evaluate_recounted m.fleet.coordination.defaultRules haccounted.weights
    refine ⟨last, htiers ▸ hlast, hvoting, halone, hrecorded, ?_⟩
    intro hnone
    have hdefault : m.fleet.coordination.rulesFor last.tier =
        m.fleet.coordination.defaultRules := by
      rw [Coordination.rulesFor, hnone]
      rfl
    rw [haccounted.verdict, haccounted.rules, hdefault]

/-- **The verdicts of a report can be counted again from the report alone.**  In every run of a
    valid fleet each result carries the weight in force, and the verdict of each tier follows
    from the recorded results, whether the run returns a report or is broken off.  In a report
    the final verdict follows from the results of the last tier. -/
theorem run_recounted (hf : m.fleet.Valid) (hplaces : m.executor.places ≠ 0) (task : Value)
    (deadline : Option Number) :
    (∀ t ∈ (m.run task deadline).journey.tiers, t.Recounted m) ∧
      ∀ report, (m.run task deadline).ending = .ok report → report.Recounted m := by
  obtain ⟨j, h, hrun, hends⟩ := m.run_ends task deadline
  have htallied : m.Tallied j := by
    have hstart : m.Accounts [] (m.announceStart deadline (Journey.atStart task m.start)) :=
      ⟨Journey.atStart_underway task m.start, .nil, List.forall_mem_nil _⟩
    have hwithin := executeWithin_tallied deadline hf hplaces hstart
    rwa [hrun] at hwithin
  have hrecounted : ∀ t ∈ j.tiers, t.Recounted m := fun t ht => (htallied.tiers t ht).recounted
  generalize m.run task deadline = run at hends
  cases hends with
  | done =>
    refine ⟨hrecounted, ?_⟩
    intro report hreport
    cases hreport
    exact htallied.recounted rfl rfl
  | failed _ =>
    refine ⟨hrecounted, ?_⟩
    intro report hreport
    cases hreport
    exact htallied.recounted rfl rfl
  | brokenOff _ =>
    refine ⟨hrecounted, ?_⟩
    intro report hreport
    cases hreport

end Mission

/-- The draft without a reviewer: one tier under rules of its own, one under the default rules. -/
def unreadDraft : Mission := { draftMission (.output (.text "ink")) with reviewer := none }

theorem unreadDraft_orderly : unreadDraft.Orderly where
  agents := by
    intro a _ _
    show (if a.tier = 1 then Ending.output (.text "ink") else .output (.text a.name)) ≠ _
    split <;> exact Ending.noConfusion
  places := by decide
  reviewer := fun _ h => nomatch h
  tiers := by
    show ∀ tier ∈ draft.votingTiers, Value.hasNumeral tier = true
    rw [draft_votingTiers]
    decide +kernel

theorem unreadDraft_recounted : draft.Valid ∧ unreadDraft.executor.places ≠ 0 ∧
    ∃ report, (unreadDraft.run (.text "go") none).ending = .ok report ∧
      report.Recounted unreadDraft := by
  have hplaces : unreadDraft.executor.places ≠ 0 := by decide
  obtain ⟨report, hreport⟩ := Mission.run_returns (m := unreadDraft) draft_valid
    unreadDraft_orderly (.text "go") none
  exact ⟨draft_valid, hplaces, report, hreport,
    (Mission.run_recounted (m := unreadDraft) draft_valid hplaces (.text "go") none).2 report
      hreport⟩

end Quorum

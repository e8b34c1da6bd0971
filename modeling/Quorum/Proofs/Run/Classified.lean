/-
  Quorum/Proofs/Run/Classified.lean
  =================================
  **What the status of a tier says.**

  The verdict gives a tier its status, and a reviewer may overwrite it together with the
  error.  The status still says what became of the tier: nobody succeeded, the votes decided,
  nobody was there to review it, or the reviewer judged it (`TierReport.Classified`).  A tier
  that was rejected is the last one of a failed run (`run_classified`).
-/
import Quorum.Proofs.Consensus.Groups
import Quorum.Proofs.Run.Steps

namespace Quorum

/-! ### Counts and statuses of verdicts -/

namespace Consensus

theorem evaluate_votes (results : List AgentResult) (weights : List (String × Float))
    (rules : VotingRules) :
    (evaluate results weights rules).votes = results.countP AgentResult.succeeded := by
  have hcount : (results.filterMap AgentResult.ballot?).length =
      results.countP AgentResult.succeeded := by
    rw [ballots_eq_map, List.length_map, ← List.countP_eq_length_filter]
  by_cases hvotes : results.filterMap AgentResult.ballot? = []
  · rw [evaluate, ← hcount, hvotes, evaluateBallots_nil]
    rfl
  · obtain ⟨first, decision, winner, rest, -, -, -, hverdict⟩ :=
      evaluateBallots_of_votes weights rules hvotes
    have hcounted := (counted_perm (results.filterMap AgentResult.ballot?)).length_eq
    rw [evaluate, hverdict, ← hcount, ← hcounted]

theorem evaluate_algorithm (results : List AgentResult) (weights : List (String × Float))
    (rules : VotingRules) : (evaluate results weights rules).algorithm = rules.algorithm := by
  by_cases hvotes : results.filterMap AgentResult.ballot? = []
  · rw [evaluate, hvotes, evaluateBallots_nil]
    rfl
  · obtain ⟨first, decision, winner, rest, -, -, -, hverdict⟩ :=
      evaluateBallots_of_votes weights rules hvotes
    rw [evaluate, hverdict]

end Consensus

namespace Verdict

variable {v : Verdict Float}

theorem status_of_no_votes (hvotes : v.votes = 0) : v.status = .noData := by
  simp [status, noData, hvotes]

theorem status_of_review (hvotes : v.votes ≠ 0) (hreview : v.algorithm = .humanReview) :
    v.status = .awaitingReview := by
  simp [status, noData, hvotes, hreview, Algorithm.autoAdvances]

theorem status_of_advance (hvotes : v.votes ≠ 0) (hadvance : v.algorithm ≠ .humanReview) :
    v.status = if v.reached then .completed else .degraded := by
  simp [status, noData, hvotes, hadvance, Algorithm.autoAdvances]

theorem status_eq_awaitingReview :
    v.status = .awaitingReview ↔ v.votes ≠ 0 ∧ v.algorithm = .humanReview := by
  constructor
  · intro hstatus
    by_cases hvotes : v.votes = 0
    · rw [status_of_no_votes hvotes] at hstatus
      cases hstatus
    · by_cases hreview : v.algorithm = .humanReview
      · exact ⟨hvotes, hreview⟩
      · rw [status_of_advance hvotes hreview] at hstatus
        split at hstatus <;> cases hstatus
  · rintro ⟨hvotes, hreview⟩
    exact status_of_review hvotes hreview

end Verdict

/-! ### Classified tiers -/

/-- The report of a tier as its reviewer sees it. -/
def TierReport.asPending (t : TierReport) : TierReport :=
  { t with status := .awaitingReview, error := none }

/-- What the status of a tier says about its votes and its review. -/
structure TierReport.Classified (t : TierReport) (m : Mission) : Prop where
  voters : (t.results.map AgentResult.agentName).Perm
    ((m.fleet.votingAgents t.tier).map Agent.name)
  rules : t.rules = m.fleet.coordination.rulesFor t.tier
  votes : (t.successCount : Int) = t.verdict.votes
  noData : t.status = .noData ↔ t.verdict.votes = 0
  advanced : 0 < t.verdict.votes → t.rules.algorithm ≠ .humanReview →
    t.status = if t.verdict.reached then .completed else .degraded
  unreviewed : 0 < t.verdict.votes → t.rules.algorithm = .humanReview → m.reviewer = none →
    t.status = .awaitingReview
  reviewed : 0 < t.verdict.votes → t.rules.algorithm = .humanReview →
    ∀ reviewer, m.reviewer = some reviewer →
      ((reviewer t.asPending).answer = .ok true ∧ t.status = .completed) ∨
      (((reviewer t.asPending).answer = .ok false ∨
        ∃ problem, (reviewer t.asPending).answer = .error problem ∧ problem ≠ .cancelled) ∧
        t.status = .failed)
  error : t.error = none ↔
    t.status = .completed ∨ t.status = .degraded ∨ t.status = .awaitingReview

/-- What the statuses in a report say about its run. -/
structure FleetReport.Classified (r : FleetReport) (m : Mission) : Prop where
  tiers : ∀ t ∈ r.tiers, t.Classified m
  rejected : ∀ t ∈ r.tiers, t.status = .failed → r.tiers.getLast? = some t ∧ r.status = .failed
  degraded : ∀ tier, tier ∈ r.degradedTiers ↔
    ∃ t ∈ r.tiers, t.tier = tier ∧ (t.status = .degraded ∨ t.status = .noData)
  exhausted : ∀ tier, tier ∈ r.failedTiers ↔ ∃ t ∈ r.tiers, t.tier = tier ∧ t.status = .noData
  degradedAscending : r.degradedTiers.Pairwise (· < ·)
  exhaustedAscending : r.failedTiers.Pairwise (· < ·)

namespace Mission

variable {m : Mission} {deadline : Option Instant} {p : TierPlan} {e : Execution} {j k : Journey}
  {done : List Int} {tier : Int}

/-- The verdict of a tier that was evaluated. -/
structure Evaluated (p : TierPlan) (e : Execution) : Prop where
  tier : e.tier = p.tier
  voters : (e.results.map AgentResult.agentName).Perm (p.agents.map Agent.name)
  votes : e.verdict.votes = e.results.countP AgentResult.succeeded
  algorithm : e.verdict.algorithm = p.rules.algorithm

theorem evaluated_of_ending {x : Executor} (hplaces : x.places ≠ 0)
    (hnames : (p.agents.map Agent.name).Nodup) (hending : (x.runTier p).ending = .evaluated e) :
    Evaluated p e := by
  obtain ⟨-, htier, hanswered, -⟩ := Executor.runTier_evaluated hplaces hnames hending
  obtain ⟨t, rfl⟩ := Executor.evaluated_execution hending
  exact ⟨htier, hanswered.agents, Consensus.evaluate_votes _ _ _,
    Consensus.evaluate_algorithm _ _ _⟩

/-- What the votes and the reviewer make of a tier. -/
inductive Ruling (m : Mission) (p : TierPlan) (e : Execution) : Reviewed → Prop
  | exhausted {message : String} (hvotes : e.verdict.votes = 0) :
      Ruling m p e ⟨.noData, some message⟩
  | decided (hvotes : e.verdict.votes ≠ 0) (hadvance : p.rules.algorithm ≠ .humanReview) :
      Ruling m p e ⟨if e.verdict.reached then .completed else .degraded, none⟩
  | waiting (hvotes : e.verdict.votes ≠ 0) (hreview : p.rules.algorithm = .humanReview)
      (hnobody : m.reviewer = none) : Ruling m p e ⟨.awaitingReview, none⟩
  | approved {reviewer : TierReport → Review} (hvotes : e.verdict.votes ≠ 0)
      (hreview : p.rules.algorithm = .humanReview) (hreviewer : m.reviewer = some reviewer)
      (hanswer : (reviewer (e.report p.rules .awaitingReview none)).answer = .ok true) :
      Ruling m p e ⟨.completed, none⟩
  | rejected {reviewer : TierReport → Review} {message : String} (hvotes : e.verdict.votes ≠ 0)
      (hreview : p.rules.algorithm = .humanReview) (hreviewer : m.reviewer = some reviewer)
      (hanswer : (reviewer (e.report p.rules .awaitingReview none)).answer = .ok false ∨
        ∃ problem, (reviewer (e.report p.rules .awaitingReview none)).answer = .error problem ∧
          problem ≠ .cancelled) :
      Ruling m p e ⟨.failed, some message⟩

theorem pendingReport_of_awaiting (hstatus : e.verdict.status = .awaitingReview) :
    pendingReport p e = e.report p.rules .awaitingReview none := by
  simp [pendingReport, hstatus]

theorem judge_eq_some {answer : Except Problem Bool} {reviewed : Reviewed}
    (hjudge : judge tier answer = some reviewed) :
    (answer = .ok true ∧ reviewed = ⟨.completed, none⟩) ∨
      (answer = .ok false ∨ ∃ problem, answer = .error problem ∧ problem ≠ .cancelled) ∧
        ∃ message, reviewed = ⟨.failed, some message⟩ := by
  unfold judge at hjudge
  split at hjudge
  · cases hjudge
    exact Or.inl ⟨rfl, rfl⟩
  · cases hjudge
    exact Or.inr ⟨Or.inl rfl, _, rfl⟩
  · cases hjudge
  · rename_i problem hcancelled
    cases hjudge
    exact Or.inr ⟨Or.inr ⟨problem, rfl, fun h => hcancelled (h ▸ rfl)⟩, _, rfl⟩

theorem ReviewEnds.ruling (hevaluated : Evaluated p e) {reviewed : Reviewed}
    (h : m.ReviewEnds deadline (pendingReport p e) j k (.ok reviewed)) : m.Ruling p e reviewed := by
  have halgorithm := hevaluated.algorithm
  cases h with
  | unasked hunasked =>
    have hstatus : (pendingReport p e).status = e.verdict.status := rfl
    by_cases hvotes : e.verdict.votes = 0
    · have hnone := Verdict.status_of_no_votes hvotes
      simp only [pendingReport, Execution.report, hnone]
      exact .exhausted hvotes
    · by_cases hreview : e.verdict.algorithm = .humanReview
      · have hwaits := Verdict.status_of_review hvotes hreview
        rw [pendingReport_of_awaiting hwaits] at hunasked ⊢
        exact .waiting hvotes (halgorithm ▸ hreview) (hunasked.resolve_left fun h => h rfl)
      · have hdecided := Verdict.status_of_advance hvotes hreview
        have hdata : e.verdict.status ≠ .noData := by
          rw [hdecided]
          split <;> simp
        rw [hdecided] at hdata
        simp only [pendingReport, Execution.report, beq_iff_eq, hdecided, if_neg hdata]
        exact .decided hvotes (halgorithm ▸ hreview)
  | judged hasks hjudge _ =>
    obtain ⟨hstatus, hreviewer⟩ := hasks
    obtain ⟨hvotes, hreview⟩ := Verdict.status_eq_awaitingReview.mp hstatus
    rw [halgorithm] at hreview
    rw [pendingReport_of_awaiting hstatus] at hjudge
    rcases judge_eq_some hjudge with ⟨hanswer, rfl⟩ | ⟨hanswer, message, rfl⟩
    · exact .approved hvotes hreview hreviewer hanswer
    · exact .rejected hvotes hreview hreviewer hanswer

theorem Ruling.classified (hevaluated : Evaluated p e) (hlevel : p.tier = tier)
    (hagents : p.agents = m.fleet.votingAgents tier)
    (hrules : p.rules = m.fleet.coordination.rulesFor tier) {reviewed : Reviewed}
    (h : m.Ruling p e reviewed) :
    (e.report p.rules reviewed.status reviewed.error).Classified m := by
  have htier : e.tier = tier := hevaluated.tier.trans hlevel
  have hvoters := hevaluated.voters
  rw [hagents, ← htier] at hvoters
  rw [← htier] at hrules
  have hcount : (e.results.countP AgentResult.succeeded : Int) = e.verdict.votes :=
    hevaluated.votes.symm
  cases h with
  | exhausted hvotes =>
    refine ⟨hvoters, hrules, hcount, iff_of_true rfl hvotes, ?_, ?_, ?_, ?_⟩
    all_goals simp [Execution.report, hvotes]
  | decided hvotes hadvance =>
    refine ⟨hvoters, hrules, hcount, ?_, ?_, ?_, ?_, ?_⟩
    all_goals
      cases hreached : e.verdict.reached
      all_goals simp [Execution.report, hvotes, hadvance, hreached]
  | waiting hvotes hreview hnobody =>
    refine ⟨hvoters, hrules, hcount, ?_, ?_, ?_, ?_, ?_⟩
    all_goals simp [Execution.report, hvotes, hreview, hnobody]
  | approved hvotes hreview hreviewer hanswer =>
    refine ⟨hvoters, hrules, hcount, ?_, ?_, ?_, ?_, ?_⟩
    · simp [Execution.report, hvotes]
    · simp [Execution.report, hreview]
    · simp [hreviewer]
    · intro _ _ asked hasked
      rw [hreviewer] at hasked
      cases hasked
      exact Or.inl ⟨hanswer, rfl⟩
    · simp [Execution.report]
  | rejected hvotes hreview hreviewer hanswer =>
    refine ⟨hvoters, hrules, hcount, ?_, ?_, ?_, ?_, ?_⟩
    · simp [Execution.report, hvotes]
    · simp [Execution.report, hreview]
    · simp [hreviewer]
    · intro _ _ asked hasked
      rw [hreviewer] at hasked
      cases hasked
      exact Or.inr ⟨hanswer, rfl⟩
    · simp [Execution.report]

/-! ### One tier after the other -/

/-- A run has passed some tiers, and none of them was rejected. -/
structure Accepts (m : Mission) (done : List Int) (j : Journey) : Prop where
  underway : j.ledger.Underway done
  tiers : ∀ t ∈ j.tiers, t.Classified m
  accepted : ∀ t ∈ j.tiers, t.status ≠ .failed

/-- A run that is over, perhaps because its last tier was rejected. -/
structure Settles (m : Mission) (j : Journey) (h : Option Halt) : Prop where
  ascending : (j.tiers.map TierReport.tier).Pairwise (· < ·)
  tiers : ∀ t ∈ j.tiers, t.Classified m
  rejected : ∀ t ∈ j.tiers, t.status = .failed → j.tiers.getLast? = some t ∧ h ≠ none

theorem Accepts.settles (hj : m.Accepts done j) (hfirst : done <+: m.fleet.votingTiers)
    (htiers : k.tiers = j.tiers) (h : Option Halt) : m.Settles k h where
  ascending := by
    have hdone : k.tiers.map TierReport.tier = done := htiers ▸ hj.underway.tiers
    rw [hdone]
    exact m.fleet.votingTiers_ascending.sublist hfirst.sublist
  tiers := htiers ▸ hj.tiers
  rejected := by
    rw [htiers]
    intro t ht hfailed
    exact absurd hfailed (hj.accepted t ht)

theorem Accepts.add (hj : m.Accepts done j) {report : TierReport}
    (hunderway : k.ledger.Underway (done ++ [tier])) (htiers : k.tiers = j.tiers ++ [report])
    (hclassified : report.Classified m) (haccepted : report.status ≠ .failed) :
    m.Accepts (done ++ [tier]) k where
  underway := hunderway
  tiers := by
    rw [htiers]
    intro t ht
    rcases List.mem_append.mp ht with ht | ht
    · exact hj.tiers t ht
    · exact List.mem_singleton.mp ht ▸ hclassified
  accepted := by
    rw [htiers]
    intro t ht
    rcases List.mem_append.mp ht with ht | ht
    · exact hj.accepted t ht
    · exact List.mem_singleton.mp ht ▸ haccepted

theorem runTier_classified (hf : m.fleet.Valid) (hplaces : m.executor.places ≠ 0)
    (hfirst : done ++ [tier] <+: m.fleet.votingTiers) (hj : m.Accepts done j) :
    ∃ j' h, m.runTier deadline tier j = (j', h) ∧
      (h = none ∧ m.Accepts (done ++ [tier]) j' ∨
        ∃ halt, h = some halt ∧ m.Settles j' (some halt)) := by
  have hbefore : done <+: m.fleet.votingTiers := (List.prefix_append _ _).trans hfirst
  obtain ⟨j', h, hrun, hstep⟩ := next_is_step deadline hj.underway hfirst
  refine ⟨j', h, hrun, ?_⟩
  cases hstep with
  | expired _ =>
    have htiers := congrArg Ledger.tiers (m.ledger_afterExecutor deadline tier j)
    exact Or.inr ⟨_, rfl, hj.settles hbefore htiers _⟩
  | escaped _ =>
    have htiers := congrArg Ledger.tiers (m.ledger_afterExecutor deadline tier j)
    exact Or.inr ⟨_, rfl, hj.settles hbefore htiers _⟩
  | unsettled _ hreview =>
    have htiers := congrArg Ledger.tiers hreview.ledger_before
    exact Or.inr ⟨_, rfl, hj.settles hbefore htiers _⟩
  | passed hending hreview =>
    have hevaluated := evaluated_of_ending hplaces (hf.voters_nodup tier) hending
    have hclassified := (hreview.ruling hevaluated).classified hevaluated rfl rfl rfl
    have hlevel := evaluated_tier hending
    generalize hreport : Execution.report _ _ _ _ = report at hclassified ⊢
    have hsame : report.tier = tier := by
      rw [← hreport]
      exact hlevel
    have hunderway := hreview.underway_recorded hj.underway hlevel hsame
    have htiers := hreview.tiers_recorded report
    by_cases hfailed : report.status = .failed
    · have hhalt : ∃ halt, m.haltAfter (m.plan deadline tier j) report = some halt :=
        ⟨_, if_pos (beq_iff_eq.mpr hfailed)⟩
      obtain ⟨halt, hhalt⟩ := hhalt
      refine Or.inr ⟨halt, hhalt, ?_, ?_, ?_⟩
      · exact hunderway.tiers.symm ▸ m.fleet.votingTiers_ascending.sublist hfirst.sublist
      · rw [htiers]
        intro t ht
        rcases List.mem_append.mp ht with ht | ht
        · exact hj.tiers t ht
        · exact List.mem_singleton.mp ht ▸ hclassified
      · rw [htiers]
        intro t ht hrejected
        rcases List.mem_append.mp ht with ht | ht
        · exact absurd hrejected (hj.accepted t ht)
        · rw [List.mem_singleton.mp ht]
          exact ⟨List.getLast?_concat, nofun⟩
    · have haccepts := hj.add hunderway htiers hclassified hfailed
      cases hhalt : m.haltAfter (m.plan deadline tier j) report with
      | none => exact Or.inl ⟨rfl, haccepts⟩
      | some halt => exact Or.inr ⟨halt, rfl, haccepts.settles hfirst rfl _⟩

/-! ### Whole runs -/

theorem execute_settles (deadline : Option Instant) (hf : m.fleet.Valid)
    (hplaces : m.executor.places ≠ 0) (hj : m.Accepts [] j) :
    m.Settles (m.execute deadline j).1 (m.execute deadline j).2 := by
  obtain ⟨j', h, hrun, ⟨rfl, hpassed⟩ | ⟨halt, rfl, hstopped⟩⟩ :=
    runTiers_induct deadline (P := m.Accepts) (Q := fun j halt => m.Settles j (some halt))
      (runTier_classified hf hplaces)
      (fun hfirst hj => hj.settles ((List.prefix_append _ _).trans hfirst) rfl _) hj
  · exact hpassed.settles List.prefix_rfl (execute_tiers hrun) _
  · rw [execute_of_halt hrun]
    exact hstopped

theorem executeWithin_settles (given : Option Number) (hf : m.fleet.Valid)
    (hplaces : m.executor.places ≠ 0) (hj : m.Accepts [] j) :
    m.Settles (m.executeWithin given j).1 (m.executeWithin given j).2 := by
  unfold executeWithin
  split
  · exact execute_settles none hf hplaces hj
  · split
    · -- no time is left
      exact hj.settles List.nil_prefix rfl _
    · exact execute_settles _ hf hplaces hj

end Mission

theorem FleetReport.mem_tiers_with {r : FleetReport} {q : TierReport → Bool} {tier : Int} :
    tier ∈ (r.tiers.filter q).map TierReport.tier ↔ ∃ t ∈ r.tiers, t.tier = tier ∧ q t = true := by
  simp only [List.mem_map, List.mem_filter]
  constructor
  · rintro ⟨t, ⟨ht, hq⟩, htier⟩
    exact ⟨t, ht, htier, hq⟩
  · rintro ⟨t, ht, htier, hq⟩
    exact ⟨t, ⟨ht, hq⟩, htier⟩

theorem FleetReport.tiers_with_ascending {r : FleetReport} (q : TierReport → Bool)
    (h : (r.tiers.map TierReport.tier).Pairwise (· < ·)) :
    ((r.tiers.filter q).map TierReport.tier).Pairwise (· < ·) :=
  h.sublist (List.filter_sublist.map _)

namespace Mission

variable {m : Mission} {j : Journey}

theorem Settles.classified {h : Option Halt} (hj : m.Settles j h) {r : FleetReport}
    (htiers : r.tiers = j.tiers) (hstatus : h ≠ none → r.status = .failed) : r.Classified m where
  tiers := htiers ▸ hj.tiers
  rejected := by
    rw [htiers]
    intro t ht hfailed
    obtain ⟨hlast, hstopped⟩ := hj.rejected t ht hfailed
    exact ⟨hlast, hstatus hstopped⟩
  degraded := by
    intro tier
    rw [FleetReport.degradedTiers, FleetReport.mem_tiers_with]
    simp only [TierStatus.isDegraded, Bool.or_eq_true, beq_iff_eq]
  exhausted := by
    intro tier
    rw [FleetReport.failedTiers, FleetReport.mem_tiers_with]
    simp only [beq_iff_eq]
  degradedAscending := FleetReport.tiers_with_ascending _ (htiers ▸ hj.ascending)
  exhaustedAscending := FleetReport.tiers_with_ascending _ (htiers ▸ hj.ascending)

/-- **The status of a tier says what became of it.**  In every report of a run of a valid
    fleet each tier has the results of its voters under its own rules, its status follows from
    their votes and from what the reviewer answered, and only a tier that gave the next one
    nothing to go by has an error. -/
theorem run_classified (hf : m.fleet.Valid) (hplaces : m.executor.places ≠ 0) (task : Value)
    (deadline : Option Number) {report : FleetReport}
    (hreport : (m.run task deadline).ending = .ok report) : report.Classified m := by
  obtain ⟨j, h, hrun, hends⟩ := m.run_ends task deadline
  have hsettles : m.Settles j h := by
    have hnothing : (m.announceStart deadline (Journey.atStart task m.start)).tiers = [] := rfl
    have hstart : m.Accepts [] (m.announceStart deadline (Journey.atStart task m.start)) :=
      ⟨Journey.atStart_underway task m.start, by simp [hnothing], by simp [hnothing]⟩
    have hwithin := executeWithin_settles deadline hf hplaces hstart
    rwa [hrun] at hwithin
  generalize m.run task deadline = run at hreport hends
  cases hends with
  | done =>
    cases hreport
    exact hsettles.classified rfl fun h => absurd rfl h
  | failed _ =>
    cases hreport
    exact hsettles.classified rfl fun _ => rfl
  | brokenOff _ => cases hreport

end Mission

theorem briefing_classified : briefing.Valid ∧ briefingMission.executor.places ≠ 0 ∧
    ∃ report, (briefingMission.run (.text "weather") (some (.whole 30))).ending = .ok report ∧
      report.Classified briefingMission := by
  have hplaces : briefingMission.executor.places ≠ 0 := by decide
  obtain ⟨report, hreport⟩ := Mission.run_returns briefing_valid briefingMission_orderly
    (.text "weather") (some (.whole 30))
  exact ⟨briefing_valid, hplaces, report, hreport,
    Mission.run_classified briefing_valid hplaces (.text "weather") (some (.whole 30)) hreport⟩

end Quorum

/-
  Quorum/Proofs/Run/Reported.lean
  ===============================
  **Every run ends in a report.**

  As long as nobody breaks a run off, whatever agents and reviewers do ends up in the
  report.  While the tiers of a valid fleet are run, the ledger has one report and one entry
  of the context for every tier that is done and nothing else (`Ledger.Underway`): a tier
  adds its own or, if it is cut short, nothing (`runTier_step`), and so a run has done a
  first part of its tiers when it stops (`runTiers_first_part`).  Only at the end is there an
  answer, from the manager or from the votes, and never a part of one (`run_reported`).

  What is written out on the way has to fit: a tier is announced by its number, and votes are
  grouped by their keys (`Executor.Writes`).  A tier with a number that is too long is neither
  run nor reported, and the run breaks off (`skyscraper_unreported`).
-/
import Quorum.Proofs.Fleet.Valid
import Quorum.Proofs.Run.Ledger
import Quorum.Proofs.Run.Results

namespace Quorum

/-! ### Reports of runs -/

/-- The manager's invocation in a context, under its time limit. -/
def Mission.synthesisStay (m : Mission) (manager : Agent) (context : Context) : Stay :=
  (m.executor.conduct manager context 0).stay
    (m.executor.timeoutFor manager (m.fleet.coordination.rulesFor manager.tier))

/-- The ways in which a run gets its answer: from the manager, whose output it is, or from a
    verdict on the votes of the last tier. -/
inductive Mission.Answers (m : Mission) (context : Context) :
    Option (Verdict Float) → Value → Option String → Prop
  | manager {manager : Agent} {output : Value} (hsynthesizes : m.fleet.synthesizes = true)
      (hmanager : m.fleet.manager? = some manager) (hformed : output.isWellFormed = true)
      (houtput : (m.synthesisStay manager context).ending = .output output) :
      m.Answers context none output (some manager.name)
  | votes (hsynthesizes : m.fleet.synthesizes = false) (verdict : Verdict Float) :
      m.Answers context (some verdict) verdict.result none

/-- The report of a run that went through all tiers of its mission and found its answer in
    the context of the whole run. -/
structure FleetReport.IsDone (r : FleetReport) (m : Mission) (context : Context) : Prop where
  status : r.status = .done
  error : r.error = none
  tiers : r.tiers.map TierReport.tier = m.fleet.votingTiers
  answer : m.Answers context r.finalVerdict r.answer r.synthesisAgent

/-- The report of a run that stopped on the way. -/
structure FleetReport.IsFailed (r : FleetReport) (m : Mission) : Prop where
  status : r.status = .failed
  error : ∃ message, r.error = some message ∧ message ≠ ""
  tiers : r.tiers.map TierReport.tier <+: m.fleet.votingTiers
  answer : r.answer = .null
  finalVerdict : r.finalVerdict = none
  synthesisAgent : r.synthesisAgent = none

/-! ### Keys of outputs -/

/-- Whatever agents give to vote on has a key, with so many levels of nesting left. -/
def Executor.Writes (x : Executor) (levels : Nat) : Prop :=
  ∀ agent context turn limit output,
    ((x.conduct agent context turn).stay limit).ending.outcome limit = .success output →
      ∃ key, output.key? levels = .ok key

theorem Value.key?_eq_ok {levels : Nat} {v : Value} {key : String} (h : v.key? levels = .ok key) :
    key = v.canonicalKey := by
  unfold key? at h
  split at h
  · cases h
  · cases h
    rfl

theorem Executor.output_of_succeeded {x : Executor} {p : TierPlan} {t : Instant} {a : Attempt}
    (h : (x.resultAt p t a).succeeded = true) :
    a.outcome = .success (x.resultAt p t a).output := by
  unfold resultAt at h ⊢
  split at h
  · rename_i hover
    rw [if_pos hover]
    rw [resultOf_succeeded] at h
    unfold Attempt.succeeds at h
    unfold resultOf
    split at h
    · rename_i output houtcome
      rw [houtcome]
    · cases h
  · cases h

/-- The votes of a tier are grouped by keys that are all written out. -/
theorem Executor.Writes.keys {x : Executor} {levels : Nat} (hx : x.Writes levels) {p : TierPlan}
    {e : Execution} (hending : (x.runTier p).ending = .evaluated e) {r : AgentResult}
    (hr : r ∈ e.results) (hsucceeded : r.succeeded = true) :
    r.output.key? levels = .ok r.output.canonicalKey := by
  obtain ⟨t, rfl⟩ := evaluated_execution hending
  obtain ⟨a, ha, rfl⟩ := mem_resultsAt.mp hr
  have houtcome := output_of_succeeded hsucceeded
  obtain ⟨agent, turn, hbehaviour⟩ := behaviour_of_mem_attempts ha
  unfold Attempt.outcome Attempt.stay at houtcome
  rw [hbehaviour] at houtcome
  obtain ⟨key, hkey⟩ := hx agent p.context turn a.limit _ houtcome
  rw [hkey, Value.key?_eq_ok hkey]

/-! ### Why runs stop -/

theorem append_ne_empty {a b : String} (ha : a ≠ "") : a ++ b ≠ "" := by
  intro h
  have hchars := congrArg String.toList h
  rw [String.toList_append] at hchars
  exact ha (String.toList_inj.mp (List.append_eq_nil_iff.mp hchars).1)

/-- A halt that ends in a report: a fault that says something, or a deadline that was set. -/
def Halt.Reported {α : Type} (deadline : Option α) : Halt → Prop
  | .failed f => f.message ≠ ""
  | .expired => deadline ≠ none
  | .escaped _ => False

theorem Halt.Reported.imp {α β : Type} {deadline : Option α} {given : Option β}
    (hset : deadline ≠ none → given ≠ none) {halt : Halt} (hhalt : halt.Reported deadline) :
    halt.Reported given := by
  cases halt with
  | failed f => exact hhalt
  | expired => exact hset hhalt
  | escaped why => exact hhalt

namespace Mission

variable {m : Mission} {deadline : Option Instant} {p : TierPlan} {e : Execution}

theorem status_ne_failed (v : Verdict Float) : v.status ≠ .failed := by
  unfold Verdict.status
  intro h
  split at h
  · cases h
  · split at h
    · cases h
    · split at h <;> cases h

theorem judge_failed {tier : Int} {answer : Except Problem Bool} {reviewed : Reviewed}
    (hjudge : judge tier answer = some reviewed) (hfailed : reviewed.status = .failed) :
    ∃ message, reviewed.error = some message ∧ message ≠ "" := by
  unfold judge at hjudge
  split at hjudge
  · cases hjudge
    cases hfailed
  · cases hjudge
    exact ⟨_, rfl, append_ne_empty (append_ne_empty (by decide))⟩
  · cases hjudge
  · cases hjudge
    exact ⟨_, rfl, append_ne_empty (append_ne_empty (append_ne_empty (by decide)))⟩

/-- A tier fails only if a reviewer says so, and then for a reason. -/
theorem Reviews.error_of_failed {reviewed : Reviewed}
    (hreviews : m.Reviews (pendingReport p e) reviewed) (hfailed : reviewed.status = .failed) :
    ∃ message, reviewed.error = some message ∧ message ≠ "" := by
  rcases hreviews with ⟨-, rfl⟩ | ⟨reviewer, -, -, hjudge⟩
  · exact absurd hfailed (status_ne_failed e.verdict)
  · exact judge_failed hjudge hfailed

theorem haltAfter_reported {report : TierReport} {halt : Halt}
    (herror : report.status = .failed → ∃ message, report.error = some message ∧ message ≠ "")
    (hhalt : m.haltAfter p report = some halt) : halt.Reported deadline := by
  unfold haltAfter at hhalt
  split at hhalt
  · rename_i hfailed
    obtain ⟨message, hmessage, hne⟩ := herror (beq_iff_eq.mp hfailed)
    cases hhalt
    rw [hmessage]
    exact hne
  · split at hhalt
    · cases hhalt
      exact append_ne_empty (append_ne_empty (append_ne_empty (append_ne_empty (by decide))))
    · cases hhalt

end Mission

/-! ### On the way -/

/-- The ledger of a run of a task after some tiers: their reports and entries, and no answer
    yet. -/
structure Ledger.Underway (l : Ledger) (done : List Int) : Prop where
  tiers : l.tiers.map TierReport.tier = done
  entries : l.context.entries.map ContextEntry.tier = done
  finalVerdict : l.finalVerdict = none
  answer : l.answer = .null
  synthesisAgent : l.synthesisAgent = none

namespace Ledger.Underway

variable {l : Ledger} {done : List Int}

theorem add (hl : l.Underway done) {report : TierReport} {entry : ContextEntry} {tier : Int}
    (hreport : report.tier = tier) (hentry : entry.tier = tier) :
    (l.add report entry).Underway (done ++ [tier]) where
  tiers := by rw [Ledger.add, List.map_append, hl.tiers, List.map_singleton, hreport]
  entries := by rw [Ledger.add, List.map_append, hl.entries, List.map_singleton, hentry]
  finalVerdict := hl.finalVerdict
  answer := hl.answer
  synthesisAgent := hl.synthesisAgent

theorem above (hl : l.Underway done) {tier : Int} (habove : ∀ t ∈ done, t < tier) :
    ∀ entry ∈ l.context.entries, entry.tier < tier := fun entry hentry =>
  habove entry.tier (hl.entries ▸ List.mem_map_of_mem hentry)

end Ledger.Underway

namespace Mission

variable {m : Mission} {deadline : Option Instant} {j : Journey} {done : List Int}

/-- One tier more: it is done, or the run stops with it or without it. -/
theorem runTier_step (deadline : Option Instant) (hm : m.Orderly) (hj : j.ledger.Underway done) {tier : Int}
    (habove : ∀ t ∈ done, t < tier) :
    ∃ j' h, m.runTier deadline tier j = (j', h) ∧
      ((j'.ledger.Underway (done ++ [tier]) ∧ ∀ halt, h = some halt → halt.Reported deadline) ∨
       (j'.ledger.Underway done ∧ ∃ halt, h = some halt ∧ halt.Reported deadline)) := by
  rcases runTier_spec deadline hm (hj.above habove) with
    ⟨t, reviewed, j', hreviews, hrun, hledger⟩ | ⟨d, j', hd, hrun, hledger⟩
  · refine ⟨j', _, hrun, Or.inl ⟨hledger ▸ hj.add rfl rfl, fun halt hhalt => ?_⟩⟩
    exact haltAfter_reported hreviews.error_of_failed hhalt
  · refine ⟨j', _, hrun, Or.inr ⟨hledger ▸ hj, .expired, rfl, ?_⟩⟩
    rw [hd]
    exact Option.some_ne_none d

/-- Running ascending tiers does all of them, or a first part of them if the run stops. -/
theorem runTiers_first_part (deadline : Option Instant) (hm : m.Orderly) {rest : List Int}
    (hwritten : ∀ tier ∈ rest, Value.hasNumeral tier = true) (hj : j.ledger.Underway done)
    (hascending : (done ++ rest).Pairwise (· < ·)) :
    ∃ j' h, m.runTiers deadline rest j = (j', h) ∧
      ((h = none ∧ j'.ledger.Underway (done ++ rest)) ∨
       ∃ halt reached, h = some halt ∧ halt.Reported deadline ∧
        j'.ledger.Underway reached ∧ reached <+: done ++ rest) := by
  -- on the tiers that are left; the tiers that are done grow
  induction rest generalizing j done with
  | nil => exact ⟨j, none, rfl, Or.inl ⟨rfl, by rwa [List.append_nil]⟩⟩
  | cons tier rest ih =>
    have habove : ∀ t ∈ done, t < tier := fun t ht =>
      (List.pairwise_append.mp hascending).2.2 t ht tier List.mem_cons_self
    have hsplit : done ++ tier :: rest = (done ++ [tier]) ++ rest := by
      rw [List.append_assoc, List.singleton_append]
    rw [hsplit] at hascending ⊢
    obtain ⟨hfirst, hlater⟩ := List.forall_mem_cons.mp hwritten
    obtain ⟨j', h, hrun, ⟨hj', hreported⟩ | ⟨hj', halt, rfl, hreported⟩⟩ :=
      runTier_step deadline hm hj habove
    · cases h with
      | none =>
        rw [runTiers_of_passed hfirst hrun]
        exact ih hlater hj' hascending
      | some halt =>
        rw [runTiers_of_halt hfirst hrun]
        exact ⟨j', some halt, rfl, Or.inr ⟨halt, done ++ [tier], rfl, hreported halt rfl, hj',
          List.prefix_append _ _⟩⟩
    · rw [runTiers_of_halt hfirst hrun]
      exact ⟨j', some halt, rfl, Or.inr ⟨halt, done, rfl, hreported, hj',
        (List.prefix_append _ _).trans (List.prefix_append _ _)⟩⟩

/-! ### At the end -/

theorem synthesisOf_eq_ok {name : String} {limit : Number} {ending : Ending} {v : Value}
    (h : synthesisOf name limit ending = .ok v) : ending = .output v ∧ v.isWellFormed = true := by
  unfold synthesisOf at h
  split at h
  · split at h
    · rename_i hformed
      cases h
      exact ⟨rfl, hformed⟩
    · cases h
  · cases h
  · cases h
  · cases h

theorem synthesisOf_reported {name : String} {limit : Number} {ending : Ending} {halt : Halt}
    (hending : ending ≠ .raised .cancelled) (h : synthesisOf name limit ending = .error halt) :
    halt.Reported deadline := by
  unfold synthesisOf at h
  split at h
  · split at h
    · cases h
    · cases h
      exact append_ne_empty (append_ne_empty (by decide))
  · cases h
    exact append_ne_empty (append_ne_empty (append_ne_empty (by decide)))
  · exact absurd rfl hending
  · cases h
    exact append_ne_empty (append_ne_empty (append_ne_empty (by decide)))

/-- The manager's well-formed output becomes the answer; otherwise the run stops as it is. -/
theorem synthesize_spec (deadline : Option Instant) (hm : m.Orderly) {manager : Agent}
    (hmanager : m.fleet.manager? = some manager) :
    (∃ j' output, m.synthesize deadline j = (j', none) ∧ output.isWellFormed = true ∧
      (m.synthesisStay manager j.context).ending = .output output ∧
      j'.ledger = { j.ledger with answer := output, synthesisAgent := some manager.name }) ∨
    (∃ j' halt, m.synthesize deadline j = (j', some halt) ∧ halt.Reported deadline ∧
      j'.ledger = j.ledger) := by
  have hending : (m.synthesisStay manager j.context).ending ≠ .raised .cancelled :=
    Behaviour.stay_ending_ne_cancelled (hm.agents manager j.context 0) _
  unfold synthesize
  rw [hmanager]
  simp only
  split
  · rename_i d hexpires
    obtain ⟨hd, -⟩ := Option.filter_eq_some_iff.mp hexpires
    refine Or.inr ⟨_, .expired, rfl, ?_, rfl⟩
    rw [hd]
    exact Option.some_ne_none d
  · split
    · rename_i halt hsynthesis
      exact Or.inr ⟨_, halt, rfl, synthesisOf_reported hending hsynthesis, rfl⟩
    · rename_i output hsynthesis
      obtain ⟨houtput, hformed⟩ := synthesisOf_eq_ok hsynthesis
      exact Or.inl ⟨_, output, rfl, hformed, houtput, rfl⟩

theorem latest?_of_underway {done : List Int} (hj : j.ledger.Underway done) (hdone : done ≠ []) :
    ∃ last, j.context.latest? = some last := by
  have hentries : j.context.entries ≠ [] := by
    intro hnone
    have hmap := hj.entries
    rw [show j.ledger.context.entries = [] from hnone] at hmap
    exact hdone hmap.symm
  exact ⟨_, List.getLast?_eq_some_getLast hentries⟩

/-- After at least one tier the votes of the last one give the answer. -/
theorem aggregate_spec (hj : j.ledger.Underway done) (hdone : done ≠ []) :
    ∃ verdict, (m.aggregate j).ledger =
      { j.ledger with finalVerdict := some verdict, answer := verdict.result } := by
  obtain ⟨last, hlatest⟩ := latest?_of_underway hj hdone
  unfold aggregate
  rw [hlatest]
  exact ⟨_, rfl⟩

/-- The ledger of a run that found its answer. -/
structure Closes (m : Mission) (l : Ledger) : Prop where
  tiers : l.tiers.map TierReport.tier = m.fleet.votingTiers
  answer : m.Answers l.context l.finalVerdict l.answer l.synthesisAgent

/-- A run has found its answer, or it stopped after a first part of its tiers. -/
def Ends {α : Type} (m : Mission) (deadline : Option α) (j : Journey) (h : Option Halt) : Prop :=
  (h = none ∧ m.Closes j.ledger) ∨
  ∃ halt reached, h = some halt ∧ halt.Reported deadline ∧ j.ledger.Underway reached ∧
    reached <+: m.fleet.votingTiers

theorem execute_ends (deadline : Option Instant) (hf : m.fleet.Valid) (hm : m.Orderly)
    (hj : j.ledger.Underway []) : m.Ends deadline (m.execute deadline j).1 (m.execute deadline j).2 := by
  have hascending : ([] ++ m.fleet.votingTiers).Pairwise (· < ·) := m.fleet.votingTiers_ascending
  obtain ⟨j', h, hrun, ⟨rfl, hj'⟩ | ⟨halt, reached, rfl, hreported, hj', hfirst⟩⟩ :=
    runTiers_first_part deadline hm hm.tiers hj hascending
  · rw [List.nil_append] at hj'
    unfold execute
    rw [hrun]
    simp only
    split
    · -- the manager is asked
      rename_i hsynthesizes
      obtain ⟨manager, hmanager⟩ := hf.exists_manager hsynthesizes
      rcases synthesize_spec (j := j') deadline hm hmanager with
        ⟨k, output, hsynthesize, hformed, houtput, hledger⟩ |
        ⟨k, halt, hsynthesize, hreported, hledger⟩
      · rw [hsynthesize]
        refine Or.inl ⟨rfl, ?_⟩
        rw [hledger]
        refine ⟨hj'.tiers, ?_⟩
        rw [hj'.finalVerdict]
        exact .manager hsynthesizes hmanager hformed houtput
      · rw [hsynthesize]
        exact Or.inr ⟨halt, m.fleet.votingTiers, rfl, hreported, hledger ▸ hj', List.prefix_rfl⟩
    · -- the votes are asked
      rename_i hsynthesizes
      rw [Bool.not_eq_true] at hsynthesizes
      obtain ⟨verdict, hledger⟩ :=
        aggregate_spec (m := m) hj' (hf.votingTiers_ne_nil hsynthesizes)
      refine Or.inl ⟨rfl, ?_⟩
      rw [hledger]
      refine ⟨hj'.tiers, ?_⟩
      rw [hj'.synthesisAgent]
      exact .votes hsynthesizes verdict
  · unfold execute
    rw [hrun]
    exact Or.inr ⟨halt, reached, rfl, hreported, hj', hfirst⟩

theorem Ends.imp {α β : Type} {limit : Option α} {given : Option β} {h : Option Halt}
    (hset : limit ≠ none → given ≠ none) (hends : m.Ends limit j h) : m.Ends given j h := by
  rcases hends with hclosed | ⟨halt, reached, hhalt, hreported, hj, hfirst⟩
  · exact Or.inl hclosed
  · exact Or.inr ⟨halt, reached, hhalt, hreported.imp hset, hj, hfirst⟩

theorem executeWithin_ends (hf : m.fleet.Valid) (hm : m.Orderly) (given : Option Number)
    (hj : j.ledger.Underway []) :
    m.Ends given (m.executeWithin given j).1 (m.executeWithin given j).2 := by
  unfold executeWithin
  cases hexpiry : expiryOf given with
  | none => exact (execute_ends none hf hm hj).imp fun hnone => absurd rfl hnone
  | some d =>
    have hgiven : given ≠ none := by
      rintro rfl
      cases hexpiry
    simp only
    split
    · -- no time is left
      exact Or.inr ⟨.expired, [], rfl, hgiven, hj, List.nil_prefix⟩
    · exact (execute_ends (some (m.start.after d)) hf hm hj).imp fun _ => hgiven

end Mission

/-! ### Whole runs -/

theorem Journey.atStart_underway (task : Value) (start : Instant) :
    (Journey.atStart task start).ledger.Underway [] :=
  ⟨rfl, rfl, rfl, rfl, rfl⟩

namespace Mission

variable {m : Mission} {j : Journey} {task : Value}

theorem isDone_report (hj : m.Closes j.ledger) :
    (m.report task .done none (m.announceDone j)).IsDone m j.context :=
  ⟨rfl, rfl, hj.tiers, hj.answer⟩

theorem isFailed_report {reached : List Int} (hj : j.ledger.Underway reached)
    (hfirst : reached <+: m.fleet.votingTiers) {f : Fault} (hf : f.message ≠ "") :
    (m.report task .failed (some f.message) (m.announceFailure f j)).IsFailed m :=
  ⟨rfl, ⟨f.message, rfl, hf⟩, hj.tiers ▸ hfirst, hj.answer, hj.finalVerdict, hj.synthesisAgent⟩

theorem run_returns (hf : m.fleet.Valid) (hm : m.Orderly) (task : Value)
    (deadline : Option Number) : ∃ report, (m.run task deadline).ending = .ok report := by
  have hends := executeWithin_ends hf hm deadline
    (j := m.announceStart deadline (Journey.atStart task m.start))
    (Journey.atStart_underway task m.start)
  unfold run
  simp only
  generalize m.executeWithin deadline (m.announceStart deadline (Journey.atStart task m.start)) =
    stopped at hends ⊢
  obtain ⟨j, h⟩ := stopped
  rcases hends with ⟨rfl, -⟩ | ⟨halt, -, rfl, hreported, -⟩
  · exact ⟨_, rfl⟩
  · cases halt with
    | failed f => exact ⟨_, rfl⟩
    | expired =>
      cases deadline with
      | none => exact absurd rfl hreported
      | some d => exact ⟨_, rfl⟩
    | escaped why => exact hreported.elim

/-- **Every run ends in a report.**  Whatever the agents of a valid fleet and its reviewer
    return or raise, and whatever the deadline, the run returns a report: of all its tiers
    with an answer, or of the first of them with the reason why it stopped.  This takes numbers
    of tiers that can be written out, and outputs that can be, too: then votes are grouped in
    every tier by keys that are really there. -/
theorem run_reported (hf : m.fleet.Valid) (hm : m.Orderly) {levels : Nat}
    (hwrites : m.executor.Writes levels) (task : Value) (deadline : Option Number) :
    (∃ report, (m.run task deadline).ending = .ok report ∧
      (report.IsDone m (m.run task deadline).journey.context ∨ report.IsFailed m)) ∧
    ∀ p e, (m.executor.runTier p).ending = .evaluated e → ∀ r ∈ e.results,
      r.succeeded = true → r.output.key? levels = .ok r.output.canonicalKey := by
  refine ⟨?_, fun p e hending r => hwrites.keys hending⟩
  have hstart : (m.announceStart deadline (Journey.atStart task m.start)).ledger.Underway [] := by
    rw [ledger_announceStart]
    exact Journey.atStart_underway task m.start
  have hends := executeWithin_ends hf hm deadline hstart
  unfold run
  simp only
  generalize m.executeWithin deadline (m.announceStart deadline (Journey.atStart task m.start)) =
    stopped at hends ⊢
  obtain ⟨j, h⟩ := stopped
  rcases hends with ⟨rfl, hclosed⟩ | ⟨halt, reached, rfl, hreported, hj, hfirst⟩
  · exact ⟨_, rfl, Or.inl (isDone_report hclosed)⟩
  · cases halt with
    | failed f => exact ⟨_, rfl, Or.inr (isFailed_report hj hfirst hreported)⟩
    | expired =>
      cases deadline with
      | none => exact absurd rfl hreported
      | some d =>
        refine ⟨_, rfl, Or.inr (isFailed_report hj hfirst ?_)⟩
        exact append_ne_empty (append_ne_empty (by decide))
    | escaped why => exact hreported.elim

end Mission

/-! ### A briefing -/

/-- A worker reports and a manager sums up. -/
def briefing : Fleet where
  name := "briefing"
  apiVersion := "concord.dev/v1"
  kind := "AgentFleet"
  labels := []
  agents := [
    .bare "scout" 1,
    { Agent.bare "chief" 2 with role := .manager }]
  coordination := { Coordination.default with finalAggregation := .managerSynthesis }

theorem briefing_tiers : briefing.tiers = [1, 2] := by
  have hsorted : ([1, 2] : List Int).mergeSort (fun a b => decide (a ≤ b)) = [1, 2] :=
    List.mergeSort_of_pairwise (by decide)
  show (([1, 2] : List Int).mergeSort fun a b => decide (a ≤ b)).eraseDups = [1, 2]
  rw [hsorted]
  rfl

theorem briefing_valid : briefing.Valid := by
  refine ⟨List.cons_ne_nil _ _, Fleet.validate_eq_ok.mpr ⟨rfl, ?_, rfl, ?_, rfl, rfl, ?_⟩⟩
  · rw [Fleet.checkTiers, briefing_tiers]
    rfl
  · show (do
      Fleet.conflictIf (2 != briefing.topTier) _
      Fleet.conflictIf (briefing.agents.length == 1) _) = Except.ok ()
    rw [Fleet.topTier, briefing_tiers]
    rfl
  · show (do
      Fleet.conflictIf (!(Fleet.sortedNames []).isEmpty) _
      Except.ok ()) = Except.ok ()
    rw [Fleet.sortedNames, List.mergeSort_nil]
    rfl

/-- Everybody answers after a second. -/
def briefingMission : Mission where
  fleet := briefing
  executor :=
    { conduct := fun a _ _ => ⟨1, .output (.text a.name), none⟩
      places := 1
      defaultTimeout := .whole 60
      epoch := ⟨0, none⟩ }
  reviewer := none
  runId := "briefing-1"
  start := Instant.zero

theorem hasNumeral_of_mem_briefing {tier : Int} (htier : tier ∈ briefing.votingTiers) :
    Value.hasNumeral tier = true := by
  have hmem : tier ∈ ([1, 2] : List Int) := briefing_tiers ▸ List.filter_sublist.subset htier
  rcases List.mem_pair.mp hmem with rfl | rfl <;> decide +kernel

theorem briefingMission_orderly : briefingMission.Orderly where
  agents := fun _ _ _ => Ending.noConfusion
  places := by decide
  tiers := fun _ => hasNumeral_of_mem_briefing
  reviewer := fun _ h => nomatch h

theorem briefingMission_writes : briefingMission.executor.Writes 0 := by
  intro agent context turn limit output houtcome
  have hending : Ending.outcome limit ((Behaviour.stay
      ⟨1, .output (.text agent.name), none⟩ limit).ending) = .success output := houtcome
  rcases Behaviour.stay_ending ⟨1, .output (.text agent.name), none⟩ limit with
    h | h | ⟨more, e, hlingering, -⟩
  · rw [h, Ending.outcome] at hending
    split at hending <;> cases hending
    exact ⟨_, rfl⟩
  · rw [h] at hending
    cases hending
  · cases hlingering

theorem briefing_reported : briefing.Valid ∧ briefingMission.Orderly ∧
    briefingMission.executor.Writes 0 ∧
    (∃ report, (briefingMission.run (.text "weather") (some (.whole 30))).ending = .ok report ∧
      (report.IsDone briefingMission
          (briefingMission.run (.text "weather") (some (.whole 30))).journey.context ∨
        report.IsFailed briefingMission)) ∧
    ∀ p e, (briefingMission.executor.runTier p).ending = .evaluated e → ∀ r ∈ e.results,
      r.succeeded = true → r.output.key? 0 = .ok r.output.canonicalKey :=
  ⟨briefing_valid, briefingMission_orderly, briefingMission_writes,
    Mission.run_reported briefing_valid briefingMission_orderly briefingMission_writes
      (.text "weather") (some (.whole 30))⟩

/-! ### A skyscraper -/

/-- One agent, in a tier with a number of one digit too many. -/
def skyscraper : Fleet where
  name := "skyscraper"
  apiVersion := "concord.dev/v1"
  kind := "AgentFleet"
  labels := []
  agents := [.bare "ann" (10 ^ Value.digitLimit)]
  coordination := { Coordination.default with allowTierGaps := true }

theorem skyscraper_valid : skyscraper.Valid := by
  refine ⟨List.cons_ne_nil _ _, Fleet.validate_eq_ok.mpr ⟨rfl, rfl, rfl, rfl, rfl, rfl, ?_⟩⟩
  show (do
    Fleet.conflictIf (!(Fleet.sortedNames []).isEmpty) _
    Except.ok ()) = Except.ok ()
  rw [Fleet.sortedNames, List.mergeSort_nil]
  rfl

theorem skyscraper_votingTiers : skyscraper.votingTiers = [10 ^ Value.digitLimit] := by
  have htiers : skyscraper.tiers = [10 ^ Value.digitLimit] := by
    unfold Fleet.tiers Fleet.tiersOf
    simp only [skyscraper, List.map_cons, List.map_nil, List.mergeSort_singleton]
    rfl
  have hvoter : skyscraper.votingAgents (10 ^ Value.digitLimit) ≠ [] := by
    simp [Fleet.votingAgents, Fleet.agentsInTier, skyscraper, Fleet.synthesizes,
      Coordination.default]
  rw [Fleet.votingTiers, htiers]
  simp [hvoter]

theorem Value.hasNumeral_digitLimit : Value.hasNumeral (10 ^ Value.digitLimit) = false := by
  unfold Value.hasNumeral
  -- the power itself is never computed
  generalize Value.digitLimit = digits
  rw [Int.natAbs_pow]
  exact decide_eq_false (lt_irrefl _)

def skyscraperMission : Mission := { briefingMission with fleet := skyscraper }

/-- The agent would answer, but the run breaks off before it is called and returns nothing. -/
theorem skyscraper_unreported : skyscraper.Valid ∧ skyscraperMission.executor.Calm ∧
    skyscraperMission.executor.Writes 0 ∧ 0 ≤ skyscraperMission.executor.places ∧
    skyscraperMission.reviewer = none ∧
    (skyscraperMission.run (.text "go") none).ending = .error .noNumeral := by
  have hcalm : skyscraperMission.executor.Calm := fun _ _ _ => Ending.noConfusion
  refine ⟨skyscraper_valid, hcalm, briefingMission_writes, by decide, rfl, ?_⟩
  have htiers : skyscraperMission.fleet.votingTiers = [10 ^ Value.digitLimit] :=
    skyscraper_votingTiers
  unfold Mission.run Mission.executeWithin Mission.execute
  simp only [Mission.expiryOf, Option.bind_none, htiers,
    Mission.runTiers_of_unwritten Value.hasNumeral_digitLimit]

end Quorum

/-
  Quorum/Proofs/Run/Approved.lean
  ===============================
  **A run waits for its reviewer.**

  Where the votes of a tier are a proposal for a reviewer, the reviewer is asked about them
  once.  Nobody is called before the answer, and nothing is entered after it unless it is a
  yes (`run_waits`).  A tier without votes has nothing to propose: the reviewer is not asked,
  and the run goes on (`runTier_unreviewed`).
-/
import Quorum.Proofs.Run.Classified
import Quorum.Proofs.Run.Onward
import Quorum.Proofs.Run.ScheduleFree

namespace Quorum

/-- The event opens something new: a tier, or the synthesis. -/
def Event.Opens (e : Event) : Prop := e.type = .tierStarted ∨ e.type = .synthesisStarted

/-- A run whose tier has been executed asks its reviewer about it once, and does not go on
    before the answer, nor after it unless it is a yes. -/
structure Journey.Waits (executed j : Journey) (pending : TierReport) (review : Review) :
    Prop where
  once : (j.reviewed.filter fun t => t.tier == pending.tier) = [pending]
  calls : Continued
    (fun c : Call => review.answer = .ok true ∧ executed.clock.after review.delay ≤ c.time)
    executed.calls j.calls
  events : Continued (fun e : Event => e.Opens → review.answer = .ok true) executed.events j.events
  answered : j.finalVerdict ≠ none ∨ j.synthesisAgent ≠ none → review.answer = .ok true

namespace Mission

variable {m : Mission} {task : Value} {deadline : Option Instant} {given : Option Number}
  {p : TierPlan} {e : Execution} {i j k : Journey} {done : List Int} {tier : Int}

/-- A run comes to a tier: there is time for it, its number is written out, and all tiers before
    have been passed. -/
structure Reaches (m : Mission) (task : Value) (given : Option Number) (tier : Int)
    (j : Journey) : Prop where
  time : ∀ d, expiryOf given = some d → 0 < d
  written : Value.hasNumeral tier = true
  passed : ∃ before after, m.fleet.votingTiers = before ++ tier :: after ∧
    m.runTiers (m.strike? given) before (m.announceStart given (Journey.atStart task m.start)) =
      (j, none)

/-! ### Nothing is opened -/

theorem announceFailures_opens (e : Execution) (j : Journey) :
    Continued (fun x : Event => ¬ x.Opens) j.events (announceFailures e j).events := by
  unfold announceFailures
  generalize e.results.filter (fun r => !r.succeeded) = failures
  induction failures generalizing j with
  | nil => exact .refl _ _
  | cons r rest ih =>
    rw [List.foldl_cons]
    refine Continued.trans ?_ (ih _)
    rw [Journey.events_tell]
    exact .concat (by simp [Event.Opens])

theorem beforeReview_opens (p : TierPlan) (e : Execution) (j : Journey) :
    Continued (fun x : Event => ¬ x.Opens) j.events (beforeReview p e j).events := by
  unfold beforeReview noteExhaustion
  split
  · rw [Journey.events_note]
    exact announceFailures_opens e j
  · exact announceFailures_opens e j

theorem announceVerdict_opens (report : TierReport) (j : Journey) :
    Continued (fun x : Event => ¬ x.Opens) j.events (announceVerdict report j).events := by
  unfold announceVerdict
  simp only
  rw [Journey.events_tell]
  split
  · rw [Journey.events_tell]
    exact (Continued.concat (by simp [Event.Opens])).trans (.concat (by simp [Event.Opens]))
  · exact .concat (by simp [Event.Opens])

/-! ### The tier itself -/

theorem ReviewEnds.asked {reviewer : TierReport → Review} {pending : TierReport}
    {outcome : Except Halt Reviewed} (h : m.ReviewEnds deadline pending i k outcome)
    (hasks : m.Asks pending reviewer) :
    k.reviewed = i.reviewed ++ [pending] ∧ k.calls = i.calls ∧
      ∀ reviewed, outcome = .ok reviewed → k.clock = i.clock.after (reviewer pending).delay ∧
        judge pending.tier (reviewer pending).answer = some reviewed := by
  cases h with
  | unasked hunasked =>
    rcases hunasked with hstatus | hnobody
    · exact absurd hasks.1 hstatus
    · have hreviewer := hasks.2
      rw [hnobody] at hreviewer
      cases hreviewer
  | judged hasked hjudge _ =>
    have hsame := hasked.2.symm.trans hasks.2
    cases hsame
    refine ⟨?_, ?_, ?_⟩
    · rw [Journey.foldl_unnoticed Journey.reviewed_unnoticed.note]
      rfl
    · rw [Journey.foldl_unnoticed Journey.calls_unnoticed.note]
      rfl
    · intro reviewed hreviewed
      cases hreviewed
      rw [Journey.foldl_unnoticed Journey.clock_unnoticed.note]
      exact ⟨rfl, hjudge⟩
  | cancelled _ _ _ => exact ⟨rfl, rfl, nofun⟩
  | expired _ _ _ => exact ⟨rfl, rfl, nofun⟩

/-- A tier waits for its reviewer, and is passed only with a yes. -/
structure Asked (executed j k : Journey) (pending : TierReport) (review : Review)
    (h : Option Halt) : Prop where
  reviewed : k.reviewed = j.reviewed ++ [pending]
  calls : k.calls = executed.calls
  events : Continued (fun x : Event => ¬ x.Opens) executed.events k.events
  passed : h = none → review.answer = .ok true ∧ k.clock = executed.clock.after review.delay

theorem haltAfter_of_no {pending : TierReport} {answer : Except Problem Bool} {reviewed : Reviewed}
    (hjudge : judge pending.tier answer = some reviewed)
    (hpassed : m.haltAfter p (e.report p.rules reviewed.status reviewed.error) = none) :
    answer = .ok true := by
  rcases judge_eq_some hjudge with ⟨hanswer, -⟩ | ⟨-, message, rfl⟩
  · exact hanswer
  · cases hpassed

theorem Step.asked {reviewer : TierReport → Review} {h : Option Halt}
    (hending : (m.executor.runTier (m.plan deadline tier j)).ending = .evaluated e)
    (hasks : m.Asks (pendingReport (m.plan deadline tier j) e) reviewer)
    (hstep : m.Step deadline tier j k h) :
    Asked (m.afterExecutor deadline tier j) j k (pendingReport (m.plan deadline tier j) e)
      (reviewer (pendingReport (m.plan deadline tier j) e)) h := by
  have hbefore := beforeReview_unnoticed Journey.reviewed_unnoticed (m.plan deadline tier j) e
    (m.afterExecutor deadline tier j)
  have hexecuted : (m.afterExecutor deadline tier j).reviewed = j.reviewed :=
    Journey.foldl_unnoticed Journey.reviewed_unnoticed.note
      (m.executor.runTier (m.plan deadline tier j)).log (announceTier (m.plan deadline tier j) j)
  have hcalls := beforeReview_unnoticed Journey.calls_unnoticed (m.plan deadline tier j) e
    (m.afterExecutor deadline tier j)
  have hclock := beforeReview_unnoticed Journey.clock_unnoticed (m.plan deadline tier j) e
    (m.afterExecutor deadline tier j)
  have hopens := beforeReview_opens (m.plan deadline tier j) e (m.afterExecutor deadline tier j)
  cases hstep with
  | expired hexpired =>
    rw [hending] at hexpired
    cases hexpired
  | escaped hescaped =>
    rw [hending] at hescaped
    cases hescaped
  | unsettled hevaluated hreview =>
    cases hending.symm.trans hevaluated
    obtain ⟨hreviewed, hmade, -⟩ := hreview.asked hasks
    refine ⟨?_, hmade.trans hcalls, ?_, nofun⟩
    · rw [hreviewed, hbefore, hexecuted]
    · exact hopens.trans (.of_eq hreview.events)
  | passed hevaluated hreview =>
    cases hending.symm.trans hevaluated
    obtain ⟨hreviewed, hmade, hjudged⟩ := hreview.asked hasks
    obtain ⟨htime, hjudge⟩ := hjudged _ rfl
    refine ⟨?_, ?_, ?_, fun hpassed => ⟨haltAfter_of_no hjudge hpassed, ?_⟩⟩
    · rw [announceVerdict_unnoticed Journey.reviewed_unnoticed, ← hexecuted, ← hbefore]
      exact hreviewed
    · rw [announceVerdict_unnoticed Journey.calls_unnoticed, ← hcalls]
      exact hmade
    · exact (hopens.trans (.of_eq hreview.events)).trans (announceVerdict_opens _ _)
    · rw [announceVerdict_unnoticed Journey.clock_unnoticed, ← hclock]
      exact htime

/-! ### The run -/

theorem RunEnds.last {h : Option Halt} {run : FleetRun} (hends : m.RunEnds task given j h run) :
    run.journey.reviewed = j.reviewed ∧ run.journey.calls = j.calls ∧
      run.journey.ledger = j.ledger ∧
      Continued (fun x : Event => ¬ x.Opens) j.events run.journey.events := by
  cases hends with
  | done =>
    refine ⟨rfl, rfl, rfl, ?_⟩
    unfold announceDone
    rw [Journey.events_tell, Journey.events_note]
    exact .concat (by simp [Event.Opens])
  | failed _ =>
    refine ⟨rfl, rfl, rfl, ?_⟩
    unfold announceFailure
    rw [Journey.events_tell, Journey.events_note]
    exact .concat (by simp [Event.Opens])
  | brokenOff _ => exact ⟨rfl, rfl, rfl, .refl _ _⟩

theorem Reaches.onward (hf : m.fleet.Valid) (hplaces : m.executor.places ≠ 0)
    (hreaches : m.Reaches task given tier j) :
    ∃ before after, m.fleet.votingTiers = before ++ tier :: after ∧
      j.ledger.Underway before ∧ OnTime (m.strike? given) j ∧ (∀ t ∈ j.reviewed, t.tier ∈ before) ∧
      m.executeWithin given (m.announceStart given (Journey.atStart task m.start)) =
        m.goOn (m.strike? given) (tier :: after) j := by
  obtain ⟨before, after, hsplit, hrun⟩ := hreaches.passed
  have hfirst : [] ++ before <+: m.fleet.votingTiers := hsplit ▸ List.prefix_append _ _
  obtain ⟨k, h, hbefore, hproceeds, hlast⟩ := runTiers_proceeds hf hplaces
    (m.onTime_at_start task given given) (Journey.atStart_underway task m.start) hfirst
  rw [hrun] at hbefore
  cases hbefore
  obtain ⟨hontime, hunderway⟩ := hlast rfl
  refine ⟨before, after, hsplit, hunderway, hontime, ?_, ?_⟩
  · obtain ⟨later, hreviewed, htiers⟩ := hproceeds.reviewed
    rw [hreviewed]
    exact htiers
  · rw [executeWithin_of_time hreaches.time, hsplit, goOn_of_runTiers hrun]

theorem filter_reviewed {before after : List Int} {pending : TierReport}
    {earlier later : List TierReport} (hearlier : ∀ t ∈ earlier, t.tier ∈ before)
    (hlater : ∀ t ∈ later, t.tier ∈ after)
    (hascending : (before ++ pending.tier :: after).Pairwise (· < ·)) :
    ((earlier ++ [pending] ++ later).filter fun t => t.tier == pending.tier) = [pending] := by
  obtain ⟨-, hrest, hbelow⟩ := List.pairwise_append.mp hascending
  have habove := (List.pairwise_cons.mp hrest).1
  have hnone : earlier.filter (fun t => t.tier == pending.tier) = [] := by
    refine List.filter_eq_nil_iff.mpr fun t ht => ?_
    have hlt := hbelow t.tier (hearlier t ht) pending.tier List.mem_cons_self
    simpa using hlt.ne
  have hmore : later.filter (fun t => t.tier == pending.tier) = [] := by
    refine List.filter_eq_nil_iff.mpr fun t ht => ?_
    have hlt := habove t.tier (hlater t ht)
    simpa using hlt.ne'
  rw [List.filter_append, List.filter_append, hnone, hmore]
  simp

/-- Where a run stops with a tier, nothing comes after its review. -/
theorem Asked.waits_of_stopped {executed : Journey} {pending : TierReport} {review : Review}
    {h : Option Halt} {run : FleetRun} {before after : List Int}
    (hasked : Asked executed j k pending review h) (hends : m.RunEnds task given k h run)
    (hunderway : k.ledger.Underway done) (hearlier : ∀ t ∈ j.reviewed, t.tier ∈ before)
    (hascending : (before ++ pending.tier :: after).Pairwise (· < ·)) :
    executed.Waits run.journey pending review := by
  obtain ⟨hreviewed, hcalls, hledger, hopens⟩ := hends.last
  rw [← hledger] at hunderway
  refine ⟨?_, ?_, ?_, ?_⟩
  · rw [hreviewed, hasked.reviewed, ← List.append_nil (j.reviewed ++ [pending])]
    exact filter_reviewed hearlier (by simp) hascending
  · exact .of_eq (hcalls.trans hasked.calls)
  · exact (hasked.events.trans hopens).imp fun x hx hopen => absurd hopen hx
  · rintro (hverdict | hagent)
    · exact absurd hunderway.finalVerdict hverdict
    · exact absurd hunderway.synthesisAgent hagent

/-- Where a run goes on after a tier, its review was a yes. -/
theorem Asked.waits_of_passed {executed l : Journey} {pending : TierReport} {review : Review}
    {h : Option Halt} {run : FleetRun} {before after : List Int}
    (hasked : Asked executed j k pending review none) (hproceeds : k.Proceeds after l)
    (hends : m.RunEnds task given l h run) (hearlier : ∀ t ∈ j.reviewed, t.tier ∈ before)
    (hascending : (before ++ pending.tier :: after).Pairwise (· < ·)) :
    executed.Waits run.journey pending review := by
  obtain ⟨hreviewed, hcalls, -, hopens⟩ := hends.last
  obtain ⟨hyes, hclock⟩ := hasked.passed rfl
  obtain ⟨later, hlater, hafter⟩ := hproceeds.reviewed
  refine ⟨?_, ?_, ?_, fun _ => hyes⟩
  · rw [hreviewed, hlater, hasked.reviewed]
    exact filter_reviewed hearlier hafter hascending
  · rw [hcalls, ← hasked.calls]
    exact hproceeds.calls.imp fun c hc => ⟨hyes, hclock ▸ hc.1⟩
  · have hfree {q : Event → Prop} {old new : List Event} (h : Continued q old new) :
        Continued (fun x => x.Opens → review.answer = .ok true) old new :=
      h.imp fun _ _ _ => hyes
    exact ((hfree hasked.events).trans (hfree hproceeds.events)).trans (hfree hopens)

/-- **A run waits for its reviewer.**  Whenever a tier that asks for a review has votes, the
    reviewer is asked about it once, and only a yes lets the run call, start or conclude
    anything after it. -/
theorem run_waits (hf : m.fleet.Valid) (hplaces : m.executor.places ≠ 0)
    {reviewer : TierReport → Review} (hreviewer : m.reviewer = some reviewer)
    (hreaches : m.Reaches task given tier j)
    (hending : (m.executor.runTier (m.plan (m.strike? given) tier j)).ending = .evaluated e)
    (hreview : (m.fleet.coordination.rulesFor tier).algorithm = .humanReview)
    (hvotes : e.verdict.votes ≠ 0) :
    (m.afterExecutor (m.strike? given) tier j).Waits (m.run task given).journey
      (e.report (m.fleet.coordination.rulesFor tier) .awaitingReview none)
      (reviewer (e.report (m.fleet.coordination.rulesFor tier) .awaitingReview none)) := by
  have hevaluated := evaluated_of_ending hplaces (hf.voters_nodup tier) hending
  have hawaits : e.verdict.status = .awaitingReview :=
    Verdict.status_of_review hvotes (hevaluated.algorithm.trans hreview)
  have hpending : pendingReport (m.plan (m.strike? given) tier j) e =
      e.report (m.fleet.coordination.rulesFor tier) .awaitingReview none :=
    pendingReport_of_awaiting hawaits
  obtain ⟨before, after, hsplit, hunderway, hontime, hearlier, hwithin⟩ :=
    hreaches.onward hf hplaces
  have htiers : m.fleet.votingTiers = (before ++ [tier]) ++ after :=
    hsplit.trans (List.append_cons _ _ _)
  have hfirst : before ++ [tier] <+: m.fleet.votingTiers := htiers ▸ List.prefix_append _ _
  obtain ⟨k, h, hrun, hstep⟩ := runTier_is_step (m := m) (m.strike? given)
    (hunderway.above fun t ht => lt_of_first_part hfirst ht)
  have hasks : m.Asks (pendingReport (m.plan (m.strike? given) tier j) e) reviewer :=
    ⟨hawaits, hreviewer⟩
  have hasked := hstep.asked hending hasks
  rw [hpending] at hasked
  generalize hreport : e.report (m.fleet.coordination.rulesFor tier) .awaitingReview none =
    pending at hasked ⊢
  have hlevel : pending.tier = tier := hreport ▸ evaluated_tier hending
  have hascending : (before ++ pending.tier :: after).Pairwise (· < ·) := by
    rw [hlevel, ← hsplit]
    exact m.fleet.votingTiers_ascending
  obtain ⟨l, last, hends, hrunEnds⟩ := m.run_ends task given
  rw [hwithin] at hends
  cases h with
  | some halt =>
    rw [goOn_of_halt hreaches.written hrun] at hends
    cases hends
    rcases hstep.underway hunderway with hdone | ⟨hdone, -⟩
    · exact hasked.waits_of_stopped hrunEnds hdone hearlier hascending
    · exact hasked.waits_of_stopped hrunEnds hdone hearlier hascending
  | none =>
    rw [goOn_of_passed hreaches.written hrun] at hends
    have hontime' := (hstep.proceeds hf hplaces hontime (List.mem_singleton_self tier)).2 rfl
    have hunderway' := hstep.underway_of_passed hunderway
    have hall : before ++ [tier] ++ after <+: m.fleet.votingTiers := htiers ▸ List.prefix_rfl
    have hproceeds := goOn_proceeds hf hplaces hontime' hunderway' hall
    rw [hends] at hproceeds
    exact hasked.waits_of_passed hproceeds hrunEnds hearlier hascending

/-! ### A tier without votes -/

/-- Where nobody succeeded, the reviewer is not asked, and a fleet that puts up with it goes on
    at once. -/
theorem runTier_unreviewed (habove : ∀ entry ∈ j.context.entries, entry.tier < tier)
    (hending : (m.executor.runTier (m.plan deadline tier j)).ending = .evaluated e)
    (hvotes : e.verdict.votes = 0) (hgoesOn : m.fleet.coordination.abortOnTierFailure = false) :
    ∃ k, m.runTier deadline tier j = (k, none) ∧ k.reviewed = j.reviewed := by
  have hstatus : (pendingReport (m.plan deadline tier j) e).status = .noData :=
    Verdict.status_of_no_votes hvotes
  have hunasked (reviewer : TierReport → Review) :
      ¬ m.Asks (pendingReport (m.plan deadline tier j) e) reviewer := by
    rintro ⟨hawaits, -⟩
    rw [hstatus] at hawaits
    cases hawaits
  have hbefore := beforeReview_unnoticed Journey.reviewed_unnoticed (m.plan deadline tier j) e
    (m.afterExecutor deadline tier j)
  have hexecuted : (m.afterExecutor deadline tier j).reviewed = j.reviewed :=
    Journey.foldl_unnoticed Journey.reviewed_unnoticed.note
      (m.executor.runTier (m.plan deadline tier j)).log (announceTier (m.plan deadline tier j) j)
  obtain ⟨k, h, hrun, hstep⟩ := runTier_is_step (m := m) deadline habove
  refine ⟨k, ?_⟩
  rw [hrun]
  cases hstep with
  | expired hexpired =>
    rw [hending] at hexpired
    cases hexpired
  | escaped hescaped =>
    rw [hending] at hescaped
    cases hescaped
  | unsettled hevaluated hreview =>
    cases hending.symm.trans hevaluated
    cases hreview with
    | cancelled hasks _ _ => exact absurd hasks (hunasked _)
    | expired hasks _ _ => exact absurd hasks (hunasked _)
  | passed hevaluated hreview =>
    cases hending.symm.trans hevaluated
    cases hreview with
    | judged hasks _ _ => exact absurd hasks (hunasked _)
    | unasked _ =>
      constructor
      · have hexhausted : m.haltAfter (m.plan deadline tier j)
            (e.report (m.plan deadline tier j).rules
              (pendingReport (m.plan deadline tier j) e).status
              (pendingReport (m.plan deadline tier j) e).error) = none := by
          simp [haltAfter, Execution.report, hstatus, hgoesOn]
        rw [hexhausted]
      · rw [announceVerdict_unnoticed Journey.reviewed_unnoticed, ← hexecuted, ← hbefore]
        rfl

end Mission

/-! ### A draft -/

/-- Somebody writes, a reviewer is to look at it, and somebody prints. -/
def draft : Fleet where
  name := "draft"
  apiVersion := "concord.dev/v1"
  kind := "AgentFleet"
  labels := []
  agents := [
    .bare "writer" 1,
    .bare "printer" 2]
  coordination :=
    { Coordination.default with
      tierRules := [(1, { VotingRules.default with algorithm := .humanReview })] }

theorem draft_tiers : draft.tiers = [1, 2] := by
  have hsorted : ([1, 2] : List Int).mergeSort (fun a b => decide (a ≤ b)) = [1, 2] :=
    List.mergeSort_of_pairwise (by decide)
  show (([1, 2] : List Int).mergeSort fun a b => decide (a ≤ b)).eraseDups = [1, 2]
  rw [hsorted]
  rfl

theorem draft_votingTiers : draft.votingTiers = [1, 2] := by
  rw [Fleet.votingTiers, draft_tiers]
  rfl

theorem draft_valid : draft.Valid := by
  have hnobody : (Fleet.sortedNames []).isEmpty = true := by
    rw [Fleet.sortedNames, List.mergeSort_nil]
    rfl
  refine ⟨List.cons_ne_nil _ _, Fleet.validate_eq_ok.mpr ⟨rfl, ?_, ?_, rfl, rfl, rfl, ?_⟩⟩
  · rw [Fleet.checkTiers, draft_tiers]
    rfl
  · rw [Fleet.checkOverrides, draft_tiers]
    rfl
  · show (do
      Fleet.conflictIf (!(Fleet.sortedNames []).isEmpty) _
      Fleet.conflictIf (!(Fleet.sortedNames []).isEmpty) _
      Except.ok ()) = Except.ok ()
    rw [hnobody]
    rfl

/-- The writer ends in some way, the printer answers, and the reviewer says no. -/
def draftMission (ending : Ending) : Mission where
  fleet := draft
  executor :=
    { conduct := fun a _ _ => ⟨1, if a.tier = 1 then ending else .output (.text a.name), none⟩
      places := 1
      defaultTimeout := .whole 60
      epoch := ⟨0, none⟩ }
  reviewer := some fun _ => ⟨1, .ok false⟩
  runId := "draft-1"
  start := Instant.zero

/-- The writer's tier has one vote if the writer succeeds, and none otherwise. -/
theorem draft_executed (task : Value) (ending : Ending) (hcalm : ending ≠ .raised .cancelled) :
    ∃ e, ((draftMission ending).executor.runTier ((draftMission ending).plan none 1
        ((draftMission ending).announceStart none (Journey.atStart task Instant.zero)))).ending =
          .evaluated e ∧
      (e.verdict.votes ≠ 0 ↔ ∃ output, ending.outcome (.whole 60) = .success output) := by
  let m := draftMission ending
  let p := m.plan none 1 (m.announceStart none (Journey.atStart task Instant.zero))
  let writer : Agent := .bare "writer" 1
  have hx : m.executor.Calm := by
    intro a context turn
    show (if a.tier = 1 then ending else .output (.text a.name)) ≠ .raised .cancelled
    split
    · exact hcalm
    · exact Ending.noConfusion
  have hagents : p.agents = [writer] := rfl
  have hrules : p.rules.algorithm ≠ .firstWins := by
    show Algorithm.humanReview ≠ .firstWins
    decide
  have hplaces : 1 ≤ m.executor.places := le_refl 1
  obtain ⟨e, hending, -, hverdict⟩ := Executor.runTier_comes_to hplaces
    (hagents ▸ List.nodup_singleton _) hx rfl hrules
  refine ⟨e, hending, ?_⟩
  have hsucceeded : (m.executor.answerOf p writer).succeeded =
      (m.executor.attempt p writer ⟨p.start, p.start⟩).succeeds := Executor.resultOf_succeeded ..
  have houtcome : (m.executor.attempt p writer ⟨p.start, p.start⟩).outcome =
      ending.outcome (.whole 60) := rfl
  rw [hverdict, Consensus.evaluate_votes, hagents, List.map_singleton, List.mergeSort_singleton,
    List.countP_singleton, hsucceeded, Attempt.succeeds, houtcome]
  cases ending.outcome (.whole 60) <;> simp

theorem draft_reached (task : Value) (ending : Ending) :
    (draftMission ending).Reaches task none 1
      ((draftMission ending).announceStart none (Journey.atStart task Instant.zero)) :=
  ⟨nofun, by decide +kernel, [], [2], draft_votingTiers, rfl⟩

theorem draft_waits : draft.Valid ∧ (draftMission (.output (.text "ink"))).executor.places ≠ 0 ∧
    ∃ reviewer j e, (draftMission (.output (.text "ink"))).reviewer = some reviewer ∧
      (draftMission (.output (.text "ink"))).Reaches (.text "go") none 1 j ∧
      ((draftMission (.output (.text "ink"))).executor.runTier
        ((draftMission (.output (.text "ink"))).plan
          ((draftMission (.output (.text "ink"))).strike? none) 1 j)).ending = .evaluated e ∧
      (draft.coordination.rulesFor 1).algorithm = .humanReview ∧ e.verdict.votes ≠ 0 ∧
      ((draftMission (.output (.text "ink"))).afterExecutor
          ((draftMission (.output (.text "ink"))).strike? none) 1 j).Waits
        ((draftMission (.output (.text "ink"))).run (.text "go") none).journey
        (e.report (draft.coordination.rulesFor 1) .awaitingReview none)
        (reviewer (e.report (draft.coordination.rulesFor 1) .awaitingReview none)) := by
  have hplaces : (draftMission (.output (.text "ink"))).executor.places ≠ 0 := Int.one_ne_zero
  have hreached := draft_reached (.text "go") (.output (.text "ink"))
  obtain ⟨e, hending, hvotes⟩ :=
    draft_executed (.text "go") (.output (.text "ink")) Ending.noConfusion
  have hvoted : e.verdict.votes ≠ 0 := hvotes.mpr ⟨.text "ink", rfl⟩
  exact ⟨draft_valid, hplaces, _, _, e, rfl, hreached, hending, rfl, hvoted,
    Mission.run_waits draft_valid hplaces rfl hreached hending rfl hvoted⟩

/-- The writer fails, the reviewer is there and says no to everything, and the run comes to the
    printer without a question. -/
theorem draft_unreviewed : ∃ j,
    (draftMission (.raised (.other "OSError" "no ink"))).reviewer ≠ none ∧
      (draft.coordination.rulesFor 1).algorithm = .humanReview ∧
      (draftMission (.raised (.other "OSError" "no ink"))).Reaches (.text "go") none 2 j ∧
      j.reviewed = [] := by
  obtain ⟨e, hending, hvotes⟩ :=
    draft_executed (.text "go") (.raised (.other "OSError" "no ink")) (by simp)
  have hsilent : e.verdict.votes = 0 := by
    by_contra hvoted
    obtain ⟨output, houtput⟩ := hvotes.mp hvoted
    cases houtput
  have habove : ∀ entry ∈ (Journey.atStart (.text "go") Instant.zero).context.entries,
      entry.tier < 1 := (Journey.atStart_underway (.text "go") Instant.zero).above nofun
  obtain ⟨k, hrun, hreviewed⟩ := Mission.runTier_unreviewed
    (j := Mission.announceStart _ none (Journey.atStart (.text "go") Instant.zero))
    habove hending hsilent rfl
  refine ⟨k, nofun, rfl, ⟨nofun, by decide +kernel, [1], [], draft_votingTiers, ?_⟩, hreviewed⟩
  show Mission.runTiers _ none [1]
    (Mission.announceStart _ none (Journey.atStart (.text "go") Instant.zero)) = (k, none)
  rw [Mission.runTiers_of_passed (by decide +kernel) hrun]
  rfl

end Quorum

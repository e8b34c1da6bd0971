/-
  Quorum/Proofs/Run/Isolated.lean
  ===============================
  **A failure stays with its agent.**

  An agent can fail by what it returns, by what it raises, or by not coming back in time
  (`Behaviour.Fails`), and each of these is a failure in its result and nothing else
  (`Behaviour.Fails.outcome`).  So in a tier that waits for everybody, the verdict and the
  results of all others are the same whichever way one agent fails (`runTier_isolated`).
  A cancellation that comes from within is not among these ways: no result is made of it,
  and the tier breaks off (`runTier_taken_along`).
-/
import Quorum.Proofs.Run.Turns

namespace Quorum

/-! ### Ways to fail -/

def Ending.isUsable : Ending → Bool
  | .output v => v.isWellFormed
  | .raised _ => false

theorem Ending.outcome_of_not_usable {e : Ending} (husable : e.isUsable = false)
    (hcancelled : e ≠ .raised .cancelled) (limit : Number) :
    ∃ kind text, e.outcome limit = .failure kind text := by
  cases e with
  | output v =>
    have hformed : v.isWellFormed = false := husable
    exact ⟨_, _, if_neg (Bool.eq_false_iff.mp hformed)⟩
  | raised problem =>
    cases problem with
    | timedOut _ => exact ⟨_, _, rfl⟩
    | cancelled => exact absurd rfl hcancelled
    | fault f =>
      by_cases hkind : (f.kind == .agentInvocation) = true
      · exact ⟨_, _, if_pos hkind⟩
      · exact ⟨_, _, if_neg hkind⟩
    | other _ _ => exact ⟨_, _, rfl⟩

namespace Behaviour

variable {b b' : Behaviour} {limit : Number}

/-- The behaviour ends by itself before the limit strikes, if there is one. -/
def InTime (b : Behaviour) (limit : Number) : Prop := ∀ l, limit.limit? = some l → b.delay < l

/-- The ways in which an agent fails under a time limit: it returns something unusable, it
    raises a problem, or it hangs past the limit and has nothing usable to say then.  A
    cancellation that nobody asked for is left out. -/
inductive Fails (b : Behaviour) (limit : Number) : Prop
  | returns {v : Value} (hintime : b.InTime limit) (hending : b.ending = .output v)
      (hformed : v.isWellFormed = false)
  | raises {problem : Problem} (hintime : b.InTime limit) (hending : b.ending = .raised problem)
      (hproblem : problem ≠ .cancelled)
  | hangs (hlate : ¬ b.InTime limit)
      (hlingering : ∀ more e, b.lingering = some (more, e) → e.isUsable = false)

theorem stay_ending_of_inTime (hintime : b.InTime limit) :
    (b.stay limit).ending = b.ending ∨ (b.stay limit).ending = .raised (.timedOut "") := by
  unfold stay
  split
  · exact Or.inl rfl
  · rename_i l hlimit
    split
    · exact Or.inr rfl
    · rw [if_pos (hintime l hlimit)]
      exact Or.inl rfl

theorem stay_ending_of_late (hlate : ¬ b.InTime limit) :
    (b.stay limit).ending = .raised (.timedOut "") ∨
      ∃ more e, b.lingering = some (more, e) ∧ (b.stay limit).ending = afterLimit e := by
  simp only [InTime, not_forall] at hlate
  obtain ⟨l, hlimit, hdelay⟩ := hlate
  unfold stay
  simp only [hlimit]
  by_cases hnone : l ≤ 0
  · left
    rw [if_pos hnone]
  · rw [if_neg hnone, if_neg hdelay]
    cases b.lingering with
    | none => exact Or.inl rfl
    | some lingering => exact Or.inr ⟨_, _, rfl, rfl⟩

theorem afterLimit_not_usable {e : Ending} (husable : e.isUsable = false) :
    (afterLimit e).isUsable = false := by
  unfold afterLimit
  split
  · rfl
  · exact husable

theorem Fails.outcome (hb : b.Fails limit) :
    ∃ kind text, (b.stay limit).ending.outcome limit = .failure kind text := by
  cases hb with
  | returns hintime hending hformed =>
    rcases stay_ending_of_inTime hintime with h | h
    · rw [h, hending]
      apply Ending.outcome_of_not_usable
      · exact hformed
      · exact Ending.noConfusion
    · rw [h]
      exact ⟨_, _, rfl⟩
  | raises hintime hending hproblem =>
    rcases stay_ending_of_inTime hintime with h | h
    · rw [h, hending]
      apply Ending.outcome_of_not_usable rfl
      intro hcancelled
      cases hcancelled
      exact hproblem rfl
    · rw [h]
      exact ⟨_, _, rfl⟩
  | hangs hlate hlingering =>
    rcases stay_ending_of_late hlate with h | ⟨more, e, he, h⟩
    · rw [h]
      exact ⟨_, _, rfl⟩
    · rw [h]
      apply Ending.outcome_of_not_usable
      · exact afterLimit_not_usable (hlingering more e he)
      · exact afterLimit_ne_cancelled e

end Behaviour

/-! ### Results without their time stamps -/

/-- A result without its time stamps. -/
def AgentResult.unstamped (r : AgentResult) : AgentResult :=
  { r with startedAt := ⟨0, some 0⟩, completedAt := ⟨0, some 0⟩ }

/-- The results of all agents but one, up to their time stamps. -/
def Execution.others (e : Execution) (name : String) : List AgentResult :=
  (e.results.filter fun r => r.agentName != name).map AgentResult.unstamped

theorem Consensus.evaluate_unstamped {results : List AgentResult} {rules : VotingRules}
    (hrules : rules.algorithm ≠ .firstWins)
    (hnames : (results.map AgentResult.agentName).Pairwise (· < ·))
    (weights : List (String × Float)) :
    evaluate (results.map AgentResult.unstamped) weights rules =
      evaluate results weights rules := by
  have huntimed : (results.map AgentResult.unstamped).map AgentResult.untimed =
      results.map AgentResult.untimed := by
    rw [List.map_map]
    rfl
  have hnames' : ((results.map AgentResult.unstamped).map AgentResult.agentName).Pairwise
      (· < ·) := by
    rw [List.map_map]
    exact hnames
  rw [← evaluate_untimed hrules hnames', huntimed, evaluate_untimed hrules hnames]

theorem Instant.millisecondsSince_after (t u : Instant) (length : Rat) :
    (t.after length).millisecondsSince t = (u.after length).millisecondsSince u := by
  unfold millisecondsSince after
  split <;> simp

namespace Executor

variable {x : Executor} {p : TierPlan} {a : Agent} {b b' : Behaviour}

/-- What is recorded of an agent in a tier, whenever it gets its turn. -/
def recordOf (x : Executor) (p : TierPlan) (a : Agent) : AgentResult :=
  (x.resultOf p.tier (p.weightOf a.name)
    (x.attempt p a ⟨p.start, p.start.after (x.stayLength p a)⟩)).unstamped

@[simp] theorem recordOf_agentName (a : Agent) : (x.recordOf p a).agentName = a.name :=
  resultOf_agentName ..

theorem unstamped_resultOf_attempt (a : Agent) (t : Instant) :
    (x.resultOf p.tier (p.weightOf a.name)
      (x.attempt p a ⟨t, t.after (x.stayLength p a)⟩)).unstamped = x.recordOf p a := by
  have houtcome : (x.attempt p a ⟨p.start, p.start.after (x.stayLength p a)⟩).outcome =
      (x.attempt p a ⟨t, t.after (x.stayLength p a)⟩).outcome := rfl
  have hlatency := Instant.millisecondsSince_after t p.start (x.stayLength p a)
  unfold recordOf resultOf
  rw [houtcome]
  cases (x.attempt p a ⟨t, t.after (x.stayLength p a)⟩).outcome <;>
    simp only [AgentResult.unstamped, attempt, hlatency]

def agentOrder (a b : Agent) : Bool := decide (a.name ≤ b.name)

section Records

variable (hplaces : 1 ≤ x.places) (hnames : (p.agents.map Agent.name).Nodup)
include hplaces hnames

theorem unstamped_resultsAt {t : Instant} (hover : ∀ a ∈ x.attempts p, a.span.stop ≤ t) :
    (x.resultsAt p t (x.attempts p)).map AgentResult.unstamped =
      (p.agents.mergeSort agentOrder).map (x.recordOf p) := by
  have hsorted : (p.agents.mergeSort agentOrder).map (x.recordOf p) =
      (p.agents.map (x.recordOf p)).mergeSort nameOrder := by
    apply List.map_mergeSort
    intro a _ c _
    simp [agentOrder, nameOrder]
  rw [hsorted]
  refine map_resultsAt hplaces hnames hover (fun _ => rfl) ?_
  intro a ha
  obtain ⟨-, hattempt, -, hstop⟩ := mem_attempts hplaces hnames ha
  have hlength : a.stay.length = x.stayLength p a.agent := by
    rw [hattempt]
    rfl
  have hspan : a.span = ⟨a.span.start, a.span.start.after (x.stayLength p a.agent)⟩ := by
    rw [← hlength, ← hstop]
  rw [hattempt, hspan]
  exact unstamped_resultOf_attempt a.agent a.span.start

/-- A tier in which nobody is cancelled from within and that waits for everybody records what
    its agents come to, in order of names, with the verdict on that. -/
theorem records_of_calmIn (hx : x.CalmIn p) (hdeadline : p.deadline = none)
    (hrules : p.rules.algorithm ≠ .firstWins) :
    ∃ e, (x.runTier p).ending = .evaluated e ∧ p.Answered e.results ∧
      e.results.map AgentResult.unstamped =
        (p.agents.mergeSort agentOrder).map (x.recordOf p) ∧
      e.verdict = Consensus.evaluate e.results p.weights p.rules := by
  obtain ⟨t, hover, hending⟩ := waits_of_calmIn hplaces hx hdeadline hrules
  have hanswered := resultsAt_answered hplaces hnames t
  exact ⟨_, hending, hanswered, unstamped_resultsAt hplaces hnames hover, rfl⟩

end Records

/-! ### One agent in two ways -/

/-- An executor under which the agents of one name behave in a given way. -/
def inCase (x : Executor) (name : String) (b : Behaviour) : Executor :=
  { x with conduct := fun a context turn => if a.name = name then b else x.conduct a context turn }

theorem conduct_inCase_self (context : Context) (turn : Nat) :
    (x.inCase a.name b).conduct a context turn = b := if_pos rfl

theorem conduct_inCase_of_ne {name : String} (hname : a.name ≠ name) (context : Context)
    (turn : Nat) : (x.inCase name b).conduct a context turn = x.conduct a context turn :=
  if_neg hname

theorem recordOf_inCase_of_ne {name : String} (hname : a.name ≠ name) :
    (x.inCase name b).recordOf p a = x.recordOf p a := by
  have hconduct := conduct_inCase_of_ne (x := x) (b := b) hname p.context 0
  unfold recordOf stayLength attempt
  rw [hconduct]
  rfl

theorem recordOf_inCase_ballot? (hb : b.Fails (x.timeoutFor a p.rules)) :
    ((x.inCase a.name b).recordOf p a).ballot? = none := by
  obtain ⟨kind, text, houtcome⟩ := hb.outcome
  have hself : ((x.inCase a.name b).attempt p a ⟨p.start,
      p.start.after ((x.inCase a.name b).stayLength p a)⟩).outcome = .failure kind text := by
    unfold attempt
    rw [conduct_inCase_self]
    exact houtcome
  have hfailed : ((x.inCase a.name b).recordOf p a).succeeded = false := by
    show (AgentResult.unstamped _).succeeded = false
    unfold resultOf
    rw [hself]
    rfl
  simp [AgentResult.ballot?, hfailed]

/-- An agent is not cancelled from within when it gets its turn in a tier. -/
def CalmFor (x : Executor) (p : TierPlan) (a : Agent) : Prop :=
  ((x.conduct a p.context 0).stay (x.timeoutFor a p.rules)).ending ≠ .raised .cancelled

/-- In a tier where one agent fails and no other is cancelled from within, nobody is. -/
theorem calmIn_inCase (hplaces : 1 ≤ x.places) (hnames : (p.agents.map Agent.name).Nodup)
    (ha : a ∈ p.agents) (hothers : ∀ other ∈ p.agents, other.name ≠ a.name → x.CalmFor p other)
    (hb : b.Fails (x.timeoutFor a p.rules)) : (x.inCase a.name b).CalmIn p := by
  apply calmIn_of_outcomeFor (x := x.inCase a.name b) hplaces hnames
  intro other hmem
  unfold outcomeFor
  by_cases hname : other.name = a.name
  · cases List.inj_on_of_nodup_map hnames hmem ha hname
    rw [conduct_inCase_self]
    obtain ⟨kind, text, houtcome⟩ := hb.outcome
    intro hcancelled
    cases houtcome.symm.trans hcancelled
  · rw [conduct_inCase_of_ne hname]
    intro hcancelled
    exact hothers other hmem hname (Ending.outcome_eq_cancelled hcancelled)

/-- What others come to does not depend on the agent in question. -/
theorem others_of_records {name : String} {agents : List Agent} {e : Execution}
    (hrecords : e.results.map AgentResult.unstamped =
      agents.map ((x.inCase name b).recordOf p)) :
    e.others name = (agents.filter fun a => a.name != name).map (x.recordOf p) := by
  have hfilter : (fun r : AgentResult => r.agentName != name) =
      (fun r : AgentResult => r.agentName != name) ∘ AgentResult.unstamped := rfl
  have hname : (fun r : AgentResult => r.agentName != name) ∘ (x.inCase name b).recordOf p =
      fun a => a.name != name := by
    funext a
    simp
  unfold Execution.others
  rw [hfilter, ← List.filter_map, hrecords, List.filter_map, hname]
  apply List.map_congr_left
  intro a ha
  apply recordOf_inCase_of_ne
  simpa using (List.mem_filter.mp ha).2

theorem ballots_eq (hnames : (p.agents.map Agent.name).Nodup) (ha : a ∈ p.agents)
    (hb : b.Fails (x.timeoutFor a p.rules)) (hb' : b'.Fails (x.timeoutFor a p.rules)) :
    ((p.agents.mergeSort agentOrder).map ((x.inCase a.name b).recordOf p)).filterMap
        AgentResult.ballot? =
      ((p.agents.mergeSort agentOrder).map ((x.inCase a.name b').recordOf p)).filterMap
        AgentResult.ballot? := by
  rw [List.filterMap_map, List.filterMap_map]
  apply List.filterMap_congr
  intro other hother
  simp only [Function.comp_apply]
  by_cases hname : other.name = a.name
  · cases List.inj_on_of_nodup_map hnames (List.mem_mergeSort.mp hother) ha hname
    rw [recordOf_inCase_ballot? hb, recordOf_inCase_ballot? hb']
  · rw [recordOf_inCase_of_ne hname, recordOf_inCase_of_ne hname]

theorem failure_of_records (hnames : (p.agents.map Agent.name).Nodup) (ha : a ∈ p.agents)
    (hb : b.Fails (x.timeoutFor a p.rules)) {results : List AgentResult}
    (hanswered : p.Answered results)
    (hrecords : results.map AgentResult.unstamped =
      (p.agents.mergeSort agentOrder).map ((x.inCase a.name b).recordOf p)) :
    ∀ r ∈ results, r.agentName = a.name → r.IsFailure := by
  intro r hr hname
  have hrecord := List.mem_map_of_mem (f := AgentResult.unstamped) hr
  rw [hrecords] at hrecord
  obtain ⟨other, hother, hsame⟩ := List.mem_map.mp hrecord
  have hname' : other.name = a.name := by
    rw [← recordOf_agentName (x := x.inCase a.name b) (p := p) other, hsame]
    exact hname
  cases List.inj_on_of_nodup_map hnames (List.mem_mergeSort.mp hother) ha hname'
  rcases hanswered.outcome r hr with hanswer | hfailure
  · have hvote : r.unstamped.ballot? = none := by
      rw [← hsame]
      exact recordOf_inCase_ballot? hb
    have hsucceeded : r.unstamped.succeeded = true := hanswer.succeeded
    simp [AgentResult.ballot?, hsucceeded] at hvote
  · exact hfailure

/-- A tier is evaluated with one agent failing: everybody has a result, the agent a failure and
    all others what they come to by themselves, and the verdict is on these results. -/
structure Loses (x : Executor) (p : TierPlan) (a : Agent) (e : Execution) : Prop where
  answered : p.Answered e.results
  failure : ∀ r ∈ e.results, r.agentName = a.name → r.IsFailure
  others : e.others a.name =
    ((p.agents.mergeSort agentOrder).filter fun other => other.name != a.name).map (x.recordOf p)
  verdict : e.verdict = Consensus.evaluate e.results p.weights p.rules

section Isolation

variable (hplaces : 1 ≤ x.places) (hnames : (p.agents.map Agent.name).Nodup)
  (hdeadline : p.deadline = none) (hrules : p.rules.algorithm ≠ .firstWins) (ha : a ∈ p.agents)
  (hothers : ∀ other ∈ p.agents, other.name ≠ a.name → x.CalmFor p other)
include hplaces hnames hdeadline hrules ha hothers

theorem runTier_loses (hb : b.Fails (x.timeoutFor a p.rules)) :
    ∃ e, ((x.inCase a.name b).runTier p).ending = .evaluated e ∧ x.Loses p a e ∧
      e.verdict = Consensus.evaluate
        ((p.agents.mergeSort agentOrder).map ((x.inCase a.name b).recordOf p))
        p.weights p.rules := by
  have hcalm := calmIn_inCase hplaces hnames ha hothers hb
  obtain ⟨e, hending, hanswered, hrecords, hverdict⟩ :=
    records_of_calmIn (x := x.inCase a.name b) hplaces hnames hcalm hdeadline hrules
  have hfailure := failure_of_records hnames ha hb hanswered hrecords
  refine ⟨e, hending, ⟨hanswered, hfailure, others_of_records hrecords, hverdict⟩, ?_⟩
  rw [hverdict, ← hrecords, Consensus.evaluate_unstamped hrules hanswered.sorted]

/-- **A failure stays with its agent.**  Unless the first success wins, a tier in which nobody
    else is cancelled from within is evaluated whichever way one of its agents fails, with the
    same verdict and, up to their time stamps, the same results of all others: what they come
    to by themselves.  The agent itself is recorded with a failure. -/
theorem runTier_isolated (hb : b.Fails (x.timeoutFor a p.rules))
    (hb' : b'.Fails (x.timeoutFor a p.rules)) :
    ∃ e e', ((x.inCase a.name b).runTier p).ending = .evaluated e ∧
      ((x.inCase a.name b').runTier p).ending = .evaluated e' ∧
      e.verdict = e'.verdict ∧ e.others a.name = e'.others a.name ∧
      x.Loses p a e ∧ x.Loses p a e' := by
  obtain ⟨e, hending, hloses, hverdict⟩ :=
    runTier_loses hplaces hnames hdeadline hrules ha hothers hb
  obtain ⟨e', hending', hloses', hverdict'⟩ :=
    runTier_loses hplaces hnames hdeadline hrules ha hothers hb'
  refine ⟨e, e', hending, hending', ?_, ?_, hloses, hloses'⟩
  · rw [hverdict, hverdict', Consensus.evaluate, Consensus.evaluate, ballots_eq hnames ha hb hb']
  · rw [hloses.others, hloses'.others]

end Isolation

end Executor

/-- The surveyor who is gone. -/
def lastSurveyor : Agent := .bare "cyd" 1

theorem lastSurveyor_mem : lastSurveyor ∈ survey.agents := by simp [survey, lastSurveyor]

theorem survey_isolated :
    let gone : Behaviour := ⟨1, .raised (.other "OSError" "gone"), none⟩
    let hanging : Behaviour := ⟨90, .output (.text "snow"), none⟩
    1 ≤ surveyors.places ∧ (survey.agents.map Agent.name).Nodup ∧ survey.deadline = none ∧
    survey.rules.algorithm ≠ .firstWins ∧ lastSurveyor ∈ survey.agents ∧
    (∀ other ∈ survey.agents, other.name ≠ lastSurveyor.name →
      surveyors.CalmFor survey other) ∧
    gone.Fails (surveyors.timeoutFor lastSurveyor survey.rules) ∧
    hanging.Fails (surveyors.timeoutFor lastSurveyor survey.rules) ∧
    ∃ e e', ((surveyors.inCase lastSurveyor.name gone).runTier survey).ending = .evaluated e ∧
      ((surveyors.inCase lastSurveyor.name hanging).runTier survey).ending = .evaluated e' ∧
      e.verdict = e'.verdict ∧ e.others lastSurveyor.name = e'.others lastSurveyor.name ∧
      surveyors.Loses survey lastSurveyor e ∧ surveyors.Loses survey lastSurveyor e' := by
  intro gone hanging
  have hothers : ∀ other ∈ survey.agents, other.name ≠ lastSurveyor.name →
      surveyors.CalmFor survey other := by
    intro other _ _
    exact Behaviour.stay_ending_ne_cancelled (surveyors_calm other survey.context 0) _
  have hlimit : (surveyors.timeoutFor lastSurveyor survey.rules).limit? = some 60 := rfl
  have hgone : gone.Fails (surveyors.timeoutFor lastSurveyor survey.rules) := by
    refine .raises ?_ rfl ?_
    · intro l hl
      cases hlimit.symm.trans hl
      decide
    · intro hcancelled
      cases hcancelled
  have hhanging : hanging.Fails (surveyors.timeoutFor lastSurveyor survey.rules) := by
    apply Behaviour.Fails.hangs
    · intro hintime
      exact absurd (hintime 60 hlimit) (by decide)
    · intro _ _ hlingering
      cases hlingering
  exact ⟨by decide, by decide, rfl, by decide, lastSurveyor_mem, hothers, hgone, hhanging,
    Executor.runTier_isolated (by decide) (by decide) rfl (by decide) lastSurveyor_mem hothers
      hgone hhanging⟩

/-! ### Cancellation from within -/

namespace Executor

variable {x : Executor} {p : TierPlan} {a : Agent} {b : Behaviour}

theorem runTier_of_fatal (hplaces : 0 ≤ x.places) (hdeadline : p.deadline = none)
    (hrules : p.rules.algorithm ≠ .firstWins) {t : Attempt} (ht : t ∈ x.attempts p)
    (hfatal : t.isFatal = true) : (x.runTier p).ending = .escaped .cancelled := by
  have hexpires := expiresBy_of_none hdeadline
  have hresolves := resolvesEarly_of_ne hrules
  have hclosing : ∃ s, closing p.rules p.start (x.attempts p) = .abandoned s := by
    unfold closing
    cases hfirst : firstStop? (x.attempts p) Attempt.isFatal with
    | none =>
      have hnobody := firstStop?_eq_none_iff.mp hfirst t ht
      rw [hfatal] at hnobody
      cases hnobody
    | some s =>
      refine ⟨s, ?_⟩
      simp [hresolves]
  obtain ⟨s, hclosing⟩ := hclosing
  unfold runTier
  rw [if_neg (Int.not_lt.mpr hplaces)]
  simp only [hclosing, hexpires]

/-- An agent that is cancelled from within takes a tier that waits for everybody with it,
    whatever the others do. -/
theorem runTier_taken_along (hplaces : 1 ≤ x.places) (hnames : (p.agents.map Agent.name).Nodup)
    (hdeadline : p.deadline = none) (hrules : p.rules.algorithm ≠ .firstWins) (ha : a ∈ p.agents)
    (hcancelled : ¬ x.CalmFor p a) : (x.runTier p).ending = .escaped .cancelled := by
  have hplaces' : 0 ≤ x.places := by omega
  have hagents := attempts_agents hplaces hnames
  rw [← hagents] at ha
  obtain ⟨t, ht, rfl⟩ := List.mem_map.mp ha
  apply runTier_of_fatal hplaces' hdeadline hrules ht
  obtain ⟨-, hattempt, -⟩ := mem_attempts hplaces hnames ht
  rw [Attempt.isFatal_iff, hattempt]
  have hending : (x.attempt p t.agent t.span).stay.ending = .raised .cancelled :=
    not_not.mp hcancelled
  rw [Attempt.outcome, hending]
  rfl

end Executor

/-- The surveyor who is gone costs one vote; the same surveyor cancelled from within costs the
    survey. -/
theorem survey_taken_along : (∃ e, (surveyors.runTier survey).ending = .evaluated e) ∧
    ((surveyors.inCase lastSurveyor.name ⟨1, .raised .cancelled, none⟩).runTier survey).ending =
      .escaped .cancelled := by
  have hplaces : 1 ≤ surveyors.places := by decide
  have hnames : (survey.agents.map Agent.name).Nodup := by decide
  have hrules : survey.rules.algorithm ≠ .firstWins := by decide
  constructor
  · exact ⟨_, Executor.runTier_undisturbed surveyors_calm (by decide) rfl⟩
  · apply Executor.runTier_taken_along
      (x := surveyors.inCase lastSurveyor.name ⟨1, .raised .cancelled, none⟩) hplaces hnames rfl
      hrules lastSurveyor_mem
    intro hcalm
    exact hcalm rfl

end Quorum

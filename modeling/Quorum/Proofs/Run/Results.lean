/-
  Quorum/Proofs/Run/Results.lean
  ==============================
  **One result for every agent.**

  However the attempts of a tier end, and whenever the tier ends, every agent has one
  result: what its attempt came to if it was over by then, and a cancellation otherwise
  (`resultsAt_answered`).  A result is an output that can be voted on or a failure with a
  reason, never half of each, so a tier has a value exactly if somebody succeeded
  (`runTier_one_result_each`).
-/
import Quorum.Proofs.Consensus.Winner
import Quorum.Proofs.Run.Attempts
import Quorum.Proofs.Run.TierEnds

namespace Quorum

/-! ### Answers and failures -/

/-- The result gives something to vote on. -/
structure AgentResult.IsAnswer (r : AgentResult) : Prop where
  error : r.error = none
  errorKind : r.errorKind = none
  output : r.output.isWellFormed = true

/-- The result says why there is nothing to vote on. -/
structure AgentResult.IsFailure (r : AgentResult) : Prop where
  error : r.error ≠ none
  errorKind : r.errorKind ≠ none
  output : r.output = .null

theorem AgentResult.IsAnswer.succeeded {r : AgentResult} (hr : r.IsAnswer) :
    r.succeeded = true := by
  simp [AgentResult.succeeded, hr.error]

theorem AgentResult.IsFailure.not_succeeded {r : AgentResult} (hr : r.IsFailure) :
    r.succeeded = false := by
  simp [AgentResult.succeeded, Option.isSome_iff_ne_none, hr.error]

theorem Ending.isWellFormed_of_outcome {e : Ending} {limit : Number} {output : Value}
    (h : e.outcome limit = .success output) : output.isWellFormed = true := by
  unfold Ending.outcome at h
  split at h
  · split at h
    · rename_i hformed
      cases h
      exact hformed
    · cases h
  · cases h
  · cases h
  · split at h <;> cases h
  · cases h

/-! ### The result of an attempt -/

namespace Executor

variable (x : Executor) (p : TierPlan)

section One

variable (tier : Int) (weight : Float) (t : Instant) (a : Attempt)

@[simp] theorem resultOf_agentName : (x.resultOf tier weight a).agentName = a.agent.name := by
  unfold resultOf
  cases a.outcome <;> rfl

@[simp] theorem resultOf_tier : (x.resultOf tier weight a).tier = tier := by
  unfold resultOf
  cases a.outcome <;> rfl

@[simp] theorem resultOf_weight : (x.resultOf tier weight a).weight = weight := by
  unfold resultOf
  cases a.outcome <;> rfl

@[simp] theorem resultOf_completedAt :
    (x.resultOf tier weight a).completedAt = x.timestamp a.span.stop := by
  unfold resultOf
  cases a.outcome <;> rfl

@[simp] theorem resultOf_succeeded : (x.resultOf tier weight a).succeeded = a.succeeds := by
  unfold resultOf Attempt.succeeds
  cases a.outcome <;> rfl

/-- An attempt that took its course gives an answer or a failure. -/
theorem resultOf_isAnswer_or_isFailure :
    (x.resultOf tier weight a).IsAnswer ∨ (x.resultOf tier weight a).IsFailure := by
  unfold resultOf
  cases houtcome : a.outcome with
  | success output => exact Or.inl ⟨rfl, rfl, Ending.isWellFormed_of_outcome houtcome⟩
  | failure kind text => exact Or.inr ⟨by simp, by simp, rfl⟩
  | cancelled => exact Or.inr ⟨by simp, by simp, rfl⟩

theorem stragglerResult_isFailure : (x.stragglerResult tier weight t a).IsFailure :=
  ⟨by simp [stragglerResult], by simp [stragglerResult], rfl⟩

end One

/-- The result an attempt has in a tier that ends at an instant. -/
def resultAt (t : Instant) (a : Attempt) : AgentResult :=
  if a.span.stop ≤ t then x.resultOf p.tier (p.weightOf a.agent.name) a
  else x.stragglerResult p.tier (p.weightOf a.agent.name) t a

variable {x p} {t : Instant}

@[simp] theorem resultAt_agentName (a : Attempt) :
    (x.resultAt p t a).agentName = a.agent.name := by
  unfold resultAt
  split
  · exact resultOf_agentName ..
  · rfl

theorem mem_resultsAt {attempts : List Attempt} {r : AgentResult} :
    r ∈ x.resultsAt p t attempts ↔ ∃ a ∈ attempts, x.resultAt p t a = r := by
  rw [resultsAt, List.mem_mergeSort]
  exact List.mem_map

theorem resultsAt_perm (attempts : List Attempt) :
    (x.resultsAt p t attempts).Perm (attempts.map (x.resultAt p t)) :=
  List.mergeSort_perm _ _

theorem resultsAt_sorted (attempts : List Attempt) :
    ((x.resultsAt p t attempts).map AgentResult.agentName).Pairwise (· ≤ ·) := by
  rw [List.pairwise_map]
  refine (List.pairwise_mergeSort ?_ ?_ _).imp of_decide_eq_true
  · intro a b c hab hbc
    exact decide_eq_true ((of_decide_eq_true hab).trans (of_decide_eq_true hbc))
  · intro a b
    simpa using le_total a.agentName b.agentName

end Executor

/-! ### The results of a tier -/

/-- Every agent of a plan has one result, in order of names, with its tier and its weight,
    and each is an answer or a failure. -/
structure TierPlan.Answered (p : TierPlan) (results : List AgentResult) : Prop where
  agents : (results.map AgentResult.agentName).Perm (p.agents.map Agent.name)
  sorted : (results.map AgentResult.agentName).Pairwise (· < ·)
  tier : ∀ r ∈ results, r.tier = p.tier
  weight : ∀ r ∈ results, r.weight = (p.weights.lookup r.agentName).getD 1.0
  outcome : ∀ r ∈ results, r.IsAnswer ∨ r.IsFailure

namespace Executor

variable {x : Executor} {p : TierPlan} (hplaces : 1 ≤ x.places)
  (hnames : (p.agents.map Agent.name).Nodup)
include hplaces hnames

/-- Whenever a tier ends, its results are complete. -/
theorem resultsAt_answered (t : Instant) : p.Answered (x.resultsAt p t (x.attempts p)) := by
  have hagents : ((x.resultsAt p t (x.attempts p)).map AgentResult.agentName).Perm
      (p.agents.map Agent.name) := by
    have hperm := (resultsAt_perm (x := x) (p := p) (t := t) (x.attempts p)).map
      AgentResult.agentName
    rw [List.map_map] at hperm
    have hname : AgentResult.agentName ∘ x.resultAt p t = Agent.name ∘ Attempt.agent := by
      funext a
      exact resultAt_agentName a
    rwa [hname, ← List.map_map, attempts_agents hplaces hnames] at hperm
  refine ⟨hagents, ?_, ?_, ?_, ?_⟩
  · have hdistinct := hagents.nodup_iff.mpr hnames
    exact (resultsAt_sorted (x.attempts p)).imp₂ (fun _ _ hle hne => lt_of_le_of_ne hle hne)
      hdistinct
  · intro r hr
    obtain ⟨a, -, rfl⟩ := mem_resultsAt.mp hr
    unfold resultAt
    split
    · exact resultOf_tier ..
    · rfl
  · intro r hr
    obtain ⟨a, -, rfl⟩ := mem_resultsAt.mp hr
    rw [resultAt_agentName]
    unfold resultAt
    split
    · exact resultOf_weight ..
    · rfl
  · intro r hr
    obtain ⟨a, -, rfl⟩ := mem_resultsAt.mp hr
    unfold resultAt
    split
    · exact resultOf_isAnswer_or_isFailure ..
    · exact Or.inr (stragglerResult_isFailure ..)

omit hplaces hnames in
/-- A verdict on complete results has a value exactly if there is an answer among them. -/
theorem result_eq_null_iff {results : List AgentResult} (hresults : p.Answered results) :
    (Consensus.evaluate results p.weights p.rules).result = .null ↔
      ∀ r ∈ results, r.succeeded = false := by
  by_cases hfailed : ∀ r ∈ results, r.succeeded = false
  · rw [Consensus.evaluate_of_no_success hfailed]
    exact iff_of_true rfl hfailed
  · refine iff_of_false ?_ hfailed
    intro hnull
    simp only [not_forall, Bool.not_eq_false] at hfailed
    obtain ⟨r, hr, hsucceeded⟩ := hfailed
    obtain ⟨s, hs, hsucceeded, hresult⟩ :=
      Consensus.evaluate_result hr hsucceeded p.weights p.rules
    rw [hnull] at hresult
    rcases hresults.outcome s hs with hanswer | hfailure
    · have hformed := hanswer.output
      rw [← hresult] at hformed
      cases hformed
    · rw [hfailure.not_succeeded] at hsucceeded
      cases hsucceeded

end Executor

/-! ### A survey -/

/-- Three agents are asked for the weather. -/
def survey : TierPlan where
  agents := ["ada", "bob", "cyd"].map fun name => .bare name 1
  context := Context.start (.text "weather")
  rules := .default
  weights := [("bob", 2.0)]
  tier := 1
  start := .zero
  deadline := none

/-- One of them answers, one is late and answers all the same, one is gone. -/
def surveyors : Executor where
  conduct a _ _ :=
    if a.name = "ada" then ⟨2, .output (.text "rain"), none⟩
    else if a.name = "bob" then ⟨90, .output (.text "sun"), some (5, .output (.text "sun"))⟩
    else ⟨1, .raised (.other "OSError" "gone"), none⟩
  places := 2
  defaultTimeout := .whole 60
  epoch := ⟨0, some 0⟩

theorem surveyors_calm : surveyors.Calm := by
  intro agent context turn
  simp only [surveyors]
  split
  · simp
  · split <;> simp

end Quorum

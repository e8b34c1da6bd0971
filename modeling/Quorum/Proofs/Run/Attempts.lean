/-
  Quorum/Proofs/Run/Attempts.lean
  ===============================
  **One attempt for every agent.**

  As long as there is a place, every agent of a tier gets one in the end: it makes one
  attempt, which begins when the tier does or later and lasts as long as its stay
  (`attempts_agents`, `mem_attempts`).  Agents of different names have no turns before
  their own, so what an attempt comes to depends on the agent and the plan alone: only its
  span depends on the others (`attempt`).
-/
import Mathlib.Data.List.Forall2
import Mathlib.Data.List.Nodup
import Quorum.Proofs.Run.Instants

namespace Quorum

/-! ### Places and spans -/

namespace Schedule

theorem mem_insertPlace {free t : Instant} {ts : List Instant} :
    t ∈ insertPlace free ts ↔ t = free ∨ t ∈ ts := by
  induction ts with
  | nil => simp [insertPlace]
  | cons u rest ih =>
    unfold insertPlace
    split
    · simp
    · simp only [List.mem_cons, ih]
      exact or_left_comm

theorem insertPlace_ne_nil (free : Instant) (ts : List Instant) : insertPlace free ts ≠ [] :=
  List.ne_nil_of_mem (mem_insertPlace.mpr (Or.inl rfl))

/-- If there is a place, there is a span for every stay: none begins before the places are
    free, and each has the length of its stay. -/
theorem spans_spec {start : Instant} {places : List Instant} (hplaces : places ≠ [])
    (hfree : ∀ t ∈ places, start ≤ t) (lengths : List Rat) :
    List.Forall₂ (fun s length => start ≤ s.start ∧ s.stop = s.start.after length)
      (spans places lengths) lengths := by
  -- on the stays; the place that was given is free again after the stay
  induction lengths generalizing places with
  | nil => cases places <;> simp [spans]
  | cons length rest ih =>
    cases places with
    | nil => exact absurd rfl hplaces
    | cons free places =>
      rw [spans]
      have hfirst : start ≤ free := hfree free List.mem_cons_self
      refine List.Forall₂.cons ⟨hfirst, rfl⟩ (ih (insertPlace_ne_nil _ _) ?_)
      intro t ht
      rcases mem_insertPlace.mp ht with rfl | ht
      · exact hfirst.trans (Instant.le_after _ _)
      · exact hfree t (List.mem_cons_of_mem _ ht)

theorem spansFrom_spec (start : Instant) {places : Nat} (hplaces : 1 ≤ places)
    (lengths : List Rat) :
    List.Forall₂ (fun s length => start ≤ s.start ∧ s.stop = s.start.after length)
      (spansFrom start places lengths) lengths := by
  refine spans_spec ?_ ?_ lengths
  · intro hnone
    simp at hnone
    omega
  · intro t ht
    rw [(List.mem_replicate.mp ht).2]

end Schedule

/-! ### Turns -/

/-- Agents of different names have no turns before their own. -/
theorem turns_of_nodup {seen : List String} {agents : List Agent}
    (hnames : (agents.map Agent.name).Nodup) (hseen : ∀ a ∈ agents, a.name ∉ seen) :
    turns seen agents = agents.map fun a => (a, 0) := by
  induction agents generalizing seen with
  | nil => rfl
  | cons a rest ih =>
    rw [List.map_cons, List.nodup_cons] at hnames
    have hfirst : seen.count a.name = 0 := List.count_eq_zero.mpr (hseen a List.mem_cons_self)
    rw [turns, hfirst, List.map_cons, ih hnames.2]
    intro b hb
    rw [List.mem_cons, not_or]
    constructor
    · intro heq
      exact hnames.1 (heq ▸ List.mem_map_of_mem hb)
    · exact hseen b (List.mem_cons_of_mem _ hb)

/-! ### Attempts -/

namespace Executor

variable (x : Executor) (p : TierPlan)

/-- The attempt an agent makes on a place. -/
def attempt (a : Agent) (span : Span) : Attempt :=
  ⟨a, x.timeoutFor a p.rules, x.conduct a p.context 0, span⟩

/-- How long an agent keeps its place. -/
def stayLength (a : Agent) : Rat :=
  ((x.conduct a p.context 0).stay (x.timeoutFor a p.rules)).length

theorem map_zip_zip {α β γ δ ε : Type} (f : α → β) (g : α → γ) (make : α → β → γ → δ → ε)
    (items : List α) (others : List δ) :
    ((items.zip ((items.map f).zip ((items.map g).zip others))).map
      fun (a, b, c, d) => make a b c d) =
      List.zipWith (fun a d => make a (f a) (g a) d) items others := by
  induction items generalizing others with
  | nil => rfl
  | cons a rest ih =>
    cases others with
    | nil => rfl
    | cons d others => simp [ih]

variable {x p}

theorem attempts_eq (hnames : (p.agents.map Agent.name).Nodup) :
    x.attempts p = List.zipWith (x.attempt p) p.agents
      (Schedule.spansFrom p.start x.places.toNat (p.agents.map (x.stayLength p))) := by
  have hturns : turns [] p.agents = p.agents.map fun a => (a, 0) :=
    turns_of_nodup hnames (by simp)
  unfold attempts
  simp only [hturns, List.map_map, List.zipWith_map, List.zipWith_self]
  exact map_zip_zip _ _ _ _ _

theorem agentSpans_spec (hplaces : 1 ≤ x.places) :
    List.Forall₂ (fun s a => p.start ≤ s.start ∧ s.stop = s.start.after (x.stayLength p a))
      (Schedule.spansFrom p.start x.places.toNat (p.agents.map (x.stayLength p))) p.agents := by
  have hplaces' : 1 ≤ x.places.toNat := by omega
  have hspans := Schedule.spansFrom_spec p.start hplaces' (p.agents.map (x.stayLength p))
  rwa [List.forall₂_map_right_iff] at hspans

section Unique

variable (hplaces : 1 ≤ x.places) (hnames : (p.agents.map Agent.name).Nodup)
include hplaces hnames

/-- Every agent makes one attempt. -/
theorem attempts_agents : (x.attempts p).map Attempt.agent = p.agents := by
  have hlength := (agentSpans_spec (p := p) hplaces).length_eq
  rw [attempts_eq hnames, List.map_zipWith]
  refine List.ext_getElem (by simp [hlength]) ?_
  intro i hi hi'
  simp [attempt]

/-- What is known of an attempt: whose it is, what it comes to, and when it takes place. -/
theorem mem_attempts {a : Attempt} (ha : a ∈ x.attempts p) :
    a.agent ∈ p.agents ∧ a = x.attempt p a.agent a.span ∧ p.start ≤ a.span.start ∧
      a.span.stop = a.span.start.after a.stay.length := by
  have hspans := agentSpans_spec (p := p) hplaces
  rw [attempts_eq hnames] at ha
  obtain ⟨i, hi, rfl⟩ := List.mem_iff_getElem.mp ha
  have hi' : i < p.agents.length := by
    simp at hi
    exact hi.1
  obtain ⟨hstart, hstop⟩ := hspans.get (hspans.length_eq ▸ hi') hi'
  rw [List.getElem_zipWith]
  exact ⟨List.getElem_mem _, rfl, hstart, hstop⟩

theorem start_le_of_mem_attempts {a : Attempt} (ha : a ∈ x.attempts p) :
    p.start ≤ a.span.start :=
  (mem_attempts hplaces hnames ha).2.2.1

theorem start_lt_stop_of_mem_attempts {a : Attempt} (ha : a ∈ x.attempts p) :
    a.span.start < a.span.stop := by
  rw [(mem_attempts hplaces hnames ha).2.2.2]
  exact Instant.lt_after _ _

/-- An agent is known by its name, and so is its attempt. -/
theorem attempt_eq_of_name_eq {a b : Attempt} (ha : a ∈ x.attempts p) (hb : b ∈ x.attempts p)
    (hname : a.agent.name = b.agent.name) : a = b := by
  have hdistinct : ((x.attempts p).map fun a => a.agent.name).Nodup := by
    rw [← attempts_agents hplaces hnames, List.map_map] at hnames
    exact hnames
  exact List.inj_on_of_nodup_map hdistinct ha hb hname

end Unique

end Executor

end Quorum

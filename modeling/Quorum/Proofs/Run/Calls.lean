/-
  Quorum/Proofs/Run/Calls.lean
  ============================
  **The calls of one tier.**

  An attempt is opened by one call, made when its agent gets a place.  So a tier calls each
  of its agents at most once, in its own context and not before it begins, and what takes
  place comes from these calls (`runTier_calls`).  A tier that is evaluated has called
  everybody unless it settled for the first success (`runTier_evaluated`).
-/
import Quorum.Proofs.Run.Results

namespace Quorum

/-! ### Calls of attempts -/

theorem LastCall.allows_through {t s : Instant} : (through t).allows s = true ↔ s ≤ t := by
  simp [allows]

theorem LastCall.allows_before {t s : Instant} : (before t).allows s = true ↔ s < t := by
  simp [allows]

theorem LastCall.le_of_allows {last : LastCall} {s : Instant} (h : last.allows s = true) :
    s ≤ last.instant := by
  cases last with
  | through t => exact allows_through.mp h
  | before t => exact (allows_before.mp h).le

theorem LastCall.allows_of_lt {last : LastCall} {s : Instant} (h : s < last.instant) :
    last.allows s = true := by
  cases last with
  | through t => exact allows_through.mpr h.le
  | before t => exact allows_before.mpr h

theorem LastCall.not_allows_of_lt {last : LastCall} {s : Instant} (h : last.instant < s) :
    last.allows s = false := by
  cases last with
  | through t => exact decide_eq_false (not_le.mpr h)
  | before t => exact decide_eq_false h.asymm

/-- Whoever is called by the first of two last calls is called by the second. -/
def LastCall.Within (last last' : LastCall) : Prop :=
  ∀ s, last.allows s = true → last'.allows s = true

theorem LastCall.before_within_through {d t : Instant} (h : d ≤ t) :
    (before d).Within (through t) := fun _ hs =>
  allows_through.mpr ((allows_before.mp hs).le.trans h)

theorem LastCall.before_within_before {d d' : Instant} (h : d ≤ d') :
    (before d).Within (before d') := fun _ hs =>
  allows_before.mpr ((allows_before.mp hs).trans_le h)

section Attempt

variable {context : Context} {last : LastCall} {a : Attempt} {i : Invocation}

theorem Attempt.call?_eq_some {c : Call} :
    a.call? context last = some c ↔
      last.allows a.span.start = true ∧ c = ⟨a.agent.name, context, a.span.start⟩ := by
  unfold Attempt.call?
  split
  · rename_i hstart
    simp [hstart, eq_comm]
  · rename_i hstart
    simp [hstart]

/-- What takes place in an attempt has begun when it was called for.  It has run its course by
    the last call or is left to itself, or it is cancelled then and stops when it likes. -/
theorem Attempt.invocation?_eq_some :
    a.invocation? context last = some i ↔
      (a.stay.begins = true ∧ last.allows a.span.start = true) ∧
        (((a.span.stop ≤ last.instant ∨ a.isStruckBy last.instant = true) ∧
            i = ⟨a.agent.name, context, a.span, a.struckAt?⟩) ∨
          (¬ (a.span.stop ≤ last.instant ∨ a.isStruckBy last.instant = true) ∧
            i = ⟨a.agent.name, context, ⟨a.span.start, a.stopAfterCancel last.instant⟩,
              some last.instant⟩)) := by
  have hbegins : (!a.stay.begins || !last.allows a.span.start) = false ↔
      a.stay.begins = true ∧ last.allows a.span.start = true := by
    simp
  have hover : (decide (a.span.stop ≤ last.instant) || a.isStruckBy last.instant) = true ↔
      a.span.stop ≤ last.instant ∨ a.isStruckBy last.instant = true := by
    rw [Bool.or_eq_true, decide_eq_true_eq]
  unfold Attempt.invocation?
  simp only
  rw [← hbegins, ← hover]
  cases hnever : (!a.stay.begins || !last.allows a.span.start)
  · cases hdone : (decide (a.span.stop ≤ last.instant) || a.isStruckBy last.instant)
    · simpa using eq_comm
    · simpa using eq_comm
  · simp

theorem Attempt.exists_invocation? (context : Context) (hbegins : a.stay.begins = true)
    (hallowed : last.allows a.span.start = true) : ∃ i, a.invocation? context last = some i := by
  by_cases hover : a.span.stop ≤ last.instant ∨ a.isStruckBy last.instant = true
  · exact ⟨_, invocation?_eq_some.mpr ⟨⟨hbegins, hallowed⟩, Or.inl ⟨hover, rfl⟩⟩⟩
  · exact ⟨_, invocation?_eq_some.mpr ⟨⟨hbegins, hallowed⟩, Or.inr ⟨hover, rfl⟩⟩⟩

/-- What takes place was called for. -/
theorem Attempt.call?_of_invocation? (h : a.invocation? context last = some i) :
    a.call? context last = some i.call := by
  obtain ⟨⟨-, hallowed⟩, ⟨-, rfl⟩ | ⟨-, rfl⟩⟩ := invocation?_eq_some.mp h
  · exact call?_eq_some.mpr ⟨hallowed, rfl⟩
  · exact call?_eq_some.mpr ⟨hallowed, rfl⟩

theorem Attempt.call_of_invocation? (h : a.invocation? context last = some i) :
    i.call = ⟨a.agent.name, context, a.span.start⟩ ∧ last.allows i.span.start = true := by
  obtain ⟨hallowed, hcall⟩ := call?_eq_some.mp (call?_of_invocation? h)
  have hstart : i.span.start = a.span.start := congrArg Call.time hcall
  exact ⟨hcall, hstart ▸ hallowed⟩

theorem Attempt.call?_within {last' : LastCall} {c : Call} (hlater : last.Within last')
    (h : a.call? context last = some c) : a.call? context last' = some c := by
  rw [call?_eq_some] at h ⊢
  exact ⟨hlater _ h.1, h.2⟩

/-- What has begun by a last call has begun by any later one. -/
theorem Attempt.invocation?_within {last' : LastCall} (hlater : last.Within last')
    (h : a.invocation? context last = some i) :
    ∃ i', a.invocation? context last' = some i' ∧ i'.call = i.call := by
  obtain ⟨⟨hbegins, hallowed⟩, -⟩ := invocation?_eq_some.mp h
  obtain ⟨i', hi'⟩ := exists_invocation? context hbegins (hlater _ hallowed)
  exact ⟨i', hi', (call_of_invocation? hi').1.trans (call_of_invocation? h).1.symm⟩

end Attempt

section Attempts

variable (context : Context) (last : LastCall) {attempts : List Attempt}

theorem calls_agent_sublist (attempts : List Attempt) :
    ((attempts.filterMap (Attempt.call? context last)).map Call.agent).Sublist
      (attempts.map fun a => a.agent.name) := by
  induction attempts with
  | nil => exact List.Sublist.slnil
  | cons a rest ih =>
    by_cases hstart : last.allows a.span.start = true
    · rw [List.filterMap_cons_some (Attempt.call?_eq_some.mpr ⟨hstart, rfl⟩)]
      exact ih.cons_cons _
    · have hnone : a.call? context last = none := if_neg hstart
      rw [List.filterMap_cons_none hnone]
      exact ih.cons _

theorem calls_agent_of_begun (hbegun : ∀ a ∈ attempts, last.allows a.span.start = true) :
    (attempts.filterMap (Attempt.call? context last)).map Call.agent =
      attempts.map fun a => a.agent.name := by
  induction attempts with
  | nil => rfl
  | cons a rest ih =>
    have hfirst := hbegun a List.mem_cons_self
    rw [List.filterMap_cons_some (Attempt.call?_eq_some.mpr ⟨hfirst, rfl⟩), List.map_cons,
      List.map_cons, ih fun b hb => hbegun b (List.mem_cons_of_mem _ hb)]

theorem invocations_call_sublist (attempts : List Attempt) :
    ((attempts.filterMap (Attempt.invocation? context last)).map Invocation.call).Sublist
      (attempts.filterMap (Attempt.call? context last)) := by
  induction attempts with
  | nil => exact List.Sublist.slnil
  | cons a rest ih =>
    cases hplaced : a.invocation? context last with
    | none =>
      rw [List.filterMap_cons_none hplaced]
      cases hmade : a.call? context last with
      | none => rwa [List.filterMap_cons_none hmade]
      | some c =>
        rw [List.filterMap_cons_some hmade]
        exact ih.cons _
    | some i =>
      rw [List.filterMap_cons_some hplaced,
        List.filterMap_cons_some (Attempt.call?_of_invocation? hplaced)]
      exact ih.cons_cons _

end Attempts

/-! ### How a tier closes -/

theorem start_le_closing {rules : VotingRules} {start : Instant} {attempts : List Attempt}
    (hspans : ∀ a ∈ attempts, start ≤ a.span.stop) :
    start ≤ (closing rules start attempts).instant := by
  have hfirst {q : Attempt → Bool} {t : Instant} (h : firstStop? attempts q = some t) :
      start ≤ t := by
    obtain ⟨a, ha, rfl⟩ := List.mem_map.mp (Instant.earliest?_spec h).1
    exact hspans a (List.mem_filter.mp ha).1
  have hlast := (Instant.latestFrom_spec start (attempts.map fun a => a.span.stop)).1
  unfold closing
  simp only
  split
  · rename_i f s hfatal hsuccess
    split
    · exact hfirst hfatal
    · split at hsuccess
      · exact hfirst hsuccess
      · cases hsuccess
  · rename_i f hfatal hsuccess
    exact hfirst hfatal
  · rename_i s hfatal hsuccess
    split at hsuccess
    · exact hfirst hsuccess
    · cases hsuccess
  · exact hlast

/-- A tier that closes without being abandoned and does not settle for a success waits for
    its last attempt. -/
theorem stop_le_closing {rules : VotingRules} {start : Instant} {attempts : List Attempt}
    (hrules : rules.algorithm ≠ .firstWins)
    (hclosing : ∀ t, closing rules start attempts ≠ .abandoned t) :
    ∀ a ∈ attempts, a.span.stop ≤ (closing rules start attempts).instant := by
  have hresolves := resolvesEarly_of_ne hrules
  unfold closing at hclosing ⊢
  simp only [hresolves, Bool.false_eq_true, if_false] at hclosing ⊢
  cases hfatal : firstStop? attempts Attempt.isFatal with
  | some f =>
    rw [hfatal] at hclosing
    exact absurd rfl (hclosing f)
  | none =>
    intro a ha
    exact (Instant.latestFrom_spec _ _).2 _ (List.mem_map_of_mem ha)

/-! ### What running a tier comes to -/

namespace Executor

variable (x : Executor) (p : TierPlan)

/-- Everything running a tier can come to: nothing without places, or what took place up to
    its last call, with results only if the tier was neither cut short nor abandoned. -/
theorem runTier_cases :
    (x.places < 0 ∧ x.runTier p = ⟨.escaped .negativePlaces, p.start, [p.startedEntry], [], []⟩) ∨
    ∃ last, (x.runTier p).calls = (x.attempts p).filterMap (Attempt.call? p.context last) ∧
      (x.runTier p).invocations = (x.attempts p).filterMap (Attempt.invocation? p.context last) ∧
      ((x.runTier p).ending = .expired ∨ (x.runTier p).ending = .escaped .cancelled ∨
        (∀ u, closing p.rules p.start (x.attempts p) ≠ .abandoned u) ∧
        last = .through (closing p.rules p.start (x.attempts p)).instant ∧
        (x.runTier p).finished = (closing p.rules p.start (x.attempts p)).instant ∧
        (x.runTier p).ending = .evaluated (x.executionAt p
          (closing p.rules p.start (x.attempts p)).instant (x.attempts p))) := by
  unfold runTier
  split
  · rename_i hplaces
    exact Or.inl ⟨hplaces, rfl⟩
  · right
    simp only
    split
    · exact ⟨_, rfl, rfl, Or.inl rfl⟩
    · split
      · exact ⟨_, rfl, rfl, Or.inr (Or.inl rfl)⟩
      · rename_i hclosing
        exact ⟨_, rfl, rfl, Or.inr (Or.inr ⟨fun u h => hclosing u h, rfl, rfl, rfl⟩)⟩

/-- How long a tier goes on calling: until it closes, or until its deadline cuts it short.
    Whoever still has no place then waits no longer, and is not called. -/
def lastCall : LastCall :=
  let closes := (closing p.rules p.start (x.attempts p)).instant
  match expiresBy p closes with
  | some d => .before d
  | none => .through closes

variable {x p}

/-- Both what a tier calls and what takes place in it go up to its last call. -/
theorem runTier_until_lastCall (hplaces : 0 ≤ x.places) :
    (x.runTier p).calls = (x.attempts p).filterMap (Attempt.call? p.context (x.lastCall p)) ∧
      (x.runTier p).invocations =
        (x.attempts p).filterMap (Attempt.invocation? p.context (x.lastCall p)) := by
  unfold runTier lastCall
  rw [if_neg (Int.not_lt.mpr hplaces)]
  simp only
  cases expiresBy p (closing p.rules p.start (x.attempts p)).instant with
  | some d => exact ⟨rfl, rfl⟩
  | none =>
    simp only
    split <;> exact ⟨rfl, rfl⟩

theorem runTier_escaped {why : Escape} (hending : (x.runTier p).ending = .escaped why) :
    why = .negativePlaces ∨ why = .cancelled := by
  rcases x.runTier_cases p with ⟨-, hrun⟩ | ⟨last, -, -, hexpired | hcancelled | hclosed⟩
  · rw [hrun] at hending
    cases hending
    exact Or.inl rfl
  · rw [hexpired] at hending
    cases hending
  · rw [hcancelled] at hending
    cases hending
    exact Or.inr rfl
  · rw [hclosed.2.2.2] at hending
    cases hending

/-- What takes place in a tier comes from its calls. -/
theorem runTier_placed :
    ((x.runTier p).invocations.map Invocation.call).Sublist (x.runTier p).calls := by
  rcases x.runTier_cases p with ⟨-, hrun⟩ | ⟨last, hcalls, hinvocations, -⟩
  · rw [hrun]
    exact List.Sublist.slnil
  · rw [hcalls, hinvocations]
    exact invocations_call_sublist _ _ _

variable (hplaces : x.places ≠ 0) (hnames : (p.agents.map Agent.name).Nodup)
include hplaces hnames

theorem runTier_calls :
    ((x.runTier p).calls.map Call.agent).Sublist (p.agents.map Agent.name) ∧
      (∀ c ∈ (x.runTier p).calls, c.context = p.context ∧ p.start ≤ c.time) ∧
      ((x.runTier p).invocations.map Invocation.call).Sublist (x.runTier p).calls := by
  rcases x.runTier_cases p with ⟨-, hrun⟩ | ⟨last, hcalls, -, -⟩
  · rw [hrun]
    simp
  · have hplaced := x.runTier_placed (p := p)
    rw [hcalls] at hplaced ⊢
    by_cases hnegative : x.places < 0
    · -- without places there are no attempts
      have hnone : x.attempts p = [] := by
        have hzero : x.places.toNat = 0 := by omega
        simp [attempts_eq hnames, hzero, Schedule.spansFrom, Schedule.spans]
      rw [hnone] at hplaced ⊢
      exact ⟨List.nil_sublist _, List.forall_mem_nil _, hplaced⟩
    · have hplaces' : 1 ≤ x.places := by omega
      have hagents : (x.attempts p).map (fun a => a.agent.name) = p.agents.map Agent.name := by
        rw [← attempts_agents hplaces' hnames, List.map_map]
        rfl
      refine ⟨?_, ?_, hplaced⟩
      · rw [← hagents]
        exact calls_agent_sublist _ _ _
      · intro c hc
        obtain ⟨a, ha, hcall⟩ := List.mem_filterMap.mp hc
        obtain ⟨-, rfl⟩ := Attempt.call?_eq_some.mp hcall
        exact ⟨rfl, start_le_of_mem_attempts hplaces' hnames ha⟩

/-- A tier that is evaluated ends no earlier than it begins, has one result for each of its
    agents, and has called each of them unless it settled for the first success. -/
theorem runTier_evaluated {e : Execution} (hending : (x.runTier p).ending = .evaluated e) :
    p.start ≤ (x.runTier p).finished ∧ e.tier = p.tier ∧ p.Answered e.results ∧
      (p.rules.algorithm ≠ .firstWins →
        (x.runTier p).calls.map Call.agent = p.agents.map Agent.name) := by
  rcases x.runTier_cases p with ⟨-, hrun⟩ | ⟨last, hcalls, -, hexpired | hcancelled | hclosed⟩
  · rw [hrun] at hending
    cases hending
  · rw [hexpired] at hending
    cases hending
  · rw [hcancelled] at hending
    cases hending
  · obtain ⟨hclosing, hlast, hfinished, hevaluated⟩ := hclosed
    rw [hevaluated] at hending
    cases hending
    have hplaces' : 1 ≤ x.places := by
      by_contra hfew
      have hrun : (x.runTier p).ending = .escaped .negativePlaces := by
        rw [runTier, if_pos (by omega)]
      rw [hevaluated] at hrun
      cases hrun
    have hspans (a : Attempt) (ha : a ∈ x.attempts p) :=
      start_lt_stop_of_mem_attempts hplaces' hnames ha
    refine ⟨?_, rfl, resultsAt_answered hplaces' hnames _, ?_⟩
    · rw [hfinished]
      exact start_le_closing fun a ha =>
        (start_le_of_mem_attempts hplaces' hnames ha).trans (hspans a ha).le
    · intro hrules
      have hstops := stop_le_closing hrules hclosing
      have hbegun (a : Attempt) (ha : a ∈ x.attempts p) : last.allows a.span.start = true := by
        rw [hlast, LastCall.allows_through]
        exact (hspans a ha).le.trans (hstops a ha)
      rw [hcalls, calls_agent_of_begun _ _ hbegun, ← attempts_agents hplaces' hnames,
        List.map_map]
      rfl

end Executor

end Quorum

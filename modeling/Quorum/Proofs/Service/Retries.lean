/-
  Quorum/Proofs/Service/Retries.lean
  ==================================
  **The last attempt of an exchange.**

  An attempt is made if so many are allowed and every attempt before it ended in an error that
  may pass (`RetryPolicy.Makes`).  The last one is the one whose outcome is final, or behind
  which no other is allowed (`RetryPolicy.EndsWith`); there is only one, and an attempt that
  gets a text is it (`Makes.eq_of_text`).  An exchange comes to what its last attempt comes to,
  at the time the replies and the waits before it add up to (`exchange_spec`).
-/
import Mathlib
import Quorum.Service.Exchange

namespace Quorum.Service

/-- What the service does with an attempt, attempts counted from zero. -/
def replyAt (replies : List Reply) (k : Nat) : Reply := replies[k]?.getD ⟨0, .error silence⟩

theorem replyAt_of_drop {replies rest : List Reply} {reply : Reply} {k : Nat}
    (h : replies.drop k = reply :: rest) :
    replyAt replies k = reply ∧ replies.drop (k + 1) = rest := by
  have hget : replies[k]? = some reply := by
    rw [← List.head?_drop, h]
    rfl
  constructor
  · rw [replyAt, hget]
    rfl
  · rw [← List.tail_drop, h]
    rfl

theorem replyAt_of_drop_eq_nil {replies : List Reply} {k : Nat} (h : replies.drop k = []) :
    replyAt replies k = ⟨0, .error silence⟩ := by
  have hget : replies[k]? = none := by
    rw [← List.head?_drop, h]
    rfl
  rw [replyAt, hget]
  rfl

namespace RetryPolicy

variable (p : RetryPolicy) (replies : List Reply)

/-- An attempt is made, attempts counted from zero. -/
structure Makes (k : Nat) : Prop where
  allowed : k < p.attempts
  passing : ∀ i < k, ∃ e, (replyAt replies i).outcome = .error e ∧ e.isTransient = true

/-- An attempt is made, and none after it. -/
structure EndsWith (k : Nat) : Prop extends p.Makes replies k where
  final : ∀ e, (replyAt replies k).outcome = .error e → e.isTransient = true →
    k + 1 = p.attempts

/-- When an attempt is made, in seconds from the beginning. -/
def startAt : Nat → Rat
  | 0 => 0
  | k + 1 => startAt k + (replyAt replies k).delay + p.waitAfter (k + 1)

/-- When an attempt is over. -/
def doneAt (k : Nat) : Rat := p.startAt replies k + (replyAt replies k).delay

variable {p replies} {j k : Nat}

theorem Makes.zero (hattempts : 1 ≤ p.attempts) : p.Makes replies 0 := by
  constructor
  · omega
  · intro i hi
    omega

/-- After an error that may pass the next attempt is made, if it is allowed. -/
theorem Makes.succ (hk : p.Makes replies k) {e : ServiceError}
    (houtcome : (replyAt replies k).outcome = .error e) (htransient : e.isTransient = true)
    (hallowed : k + 1 < p.attempts) : p.Makes replies (k + 1) := by
  constructor
  · exact hallowed
  · intro i hi
    by_cases heq : i = k
    · subst heq
      exact ⟨e, houtcome, htransient⟩
    · exact hk.passing i (by omega)

theorem Makes.le_of_endsWith (hj : p.Makes replies j) (hk : p.EndsWith replies k) : j ≤ k := by
  by_contra hlt
  obtain ⟨e, houtcome, htransient⟩ := hj.passing k (by omega)
  have hlast := hk.final e houtcome htransient
  have hallowed := hj.allowed
  omega

/-- The attempt that gets a text is the last one. -/
theorem Makes.eq_of_text (hj : p.Makes replies j) {text : String}
    (htext : (replyAt replies j).outcome = .ok text) (hk : p.EndsWith replies k) : j = k := by
  by_contra hne
  have hle := hj.le_of_endsWith hk
  obtain ⟨e, houtcome, -⟩ := hk.passing j (by omega)
  rw [htext] at houtcome
  cases houtcome

theorem EndsWith.unique (hj : p.EndsWith replies j) (hk : p.EndsWith replies k) : j = k :=
  Nat.le_antisymm (hj.le_of_endsWith hk) (hk.le_of_endsWith hj)

/-- An exchange that begins with one attempt and ends with another. -/
structure Spans (p : RetryPolicy) (replies : List Reply) (first last : Nat) (x : Exchange) :
    Prop where
  outcome : x.outcome = (replyAt replies last).outcome
  elapsed : x.elapsed = p.doneAt replies last
  times : x.times = (List.range' first (last + 1 - first)).map (p.startAt replies)

theorem Spans.single {x : Exchange} (houtcome : x.outcome = (replyAt replies k).outcome)
    (helapsed : x.elapsed = p.doneAt replies k) (htimes : x.times = [p.startAt replies k]) :
    p.Spans replies k k x := by
  refine ⟨houtcome, helapsed, ?_⟩
  rw [htimes, Nat.add_sub_cancel_left]
  rfl

theorem Spans.cons {x : Exchange} (hle : k + 1 ≤ j) (hx : p.Spans replies (k + 1) j x) :
    p.Spans replies k j { x with times := p.startAt replies k :: x.times } := by
  refine ⟨hx.outcome, hx.elapsed, ?_⟩
  have hcount : j + 1 - k = (j + 1 - (k + 1)) + 1 := by omega
  show p.startAt replies k :: x.times = _
  rw [hx.times, hcount, List.range'_succ]
  rfl

theorem attemptFrom_of_final {further : Nat}
    (hfinal : ∀ e, (replyAt replies k).outcome = .error e → e.isTransient = true → further = 0) :
    p.Spans replies k k
      (p.attemptFrom further (k + 1) (p.startAt replies k) (replies.drop k)) := by
  cases hdrop : replies.drop k with
  | nil =>
    have hreply := replyAt_of_drop_eq_nil hdrop
    refine Spans.single ?_ ?_ ?_ <;> simp [attemptFrom, hreply, doneAt]
  | cons reply rest =>
    obtain ⟨hreply, -⟩ := replyAt_of_drop hdrop
    rw [hreply] at hfinal
    cases houtcome : reply.outcome with
    | ok text => refine Spans.single ?_ ?_ ?_ <;> simp [attemptFrom, houtcome, hreply, doneAt]
    | error e =>
      cases further with
      | zero => refine Spans.single ?_ ?_ ?_ <;> simp [attemptFrom, houtcome, hreply, doneAt]
      | succ further =>
        have htransient : e.isTransient = false := by
          by_contra hpassing
          exact absurd (hfinal e houtcome (by simpa using hpassing)) (Nat.succ_ne_zero further)
        refine Spans.single ?_ ?_ ?_ <;>
          simp [attemptFrom, houtcome, htransient, hreply, doneAt]

/-- After an error that may pass an exchange goes on with the next attempt. -/
theorem attemptFrom_of_passing (further : Nat) {e : ServiceError}
    (houtcome : (replyAt replies k).outcome = .error e) (htransient : e.isTransient = true) :
    p.attemptFrom (further + 1) (k + 1) (p.startAt replies k) (replies.drop k) =
      let next := p.attemptFrom further (k + 2) (p.startAt replies (k + 1)) (replies.drop (k + 1))
      { next with times := p.startAt replies k :: next.times } := by
  cases hdrop : replies.drop k with
  | nil =>
    -- silence is no error that may pass
    rw [replyAt_of_drop_eq_nil hdrop] at houtcome
    cases houtcome
    cases htransient
  | cons reply rest =>
    obtain ⟨hreply, hrest⟩ := replyAt_of_drop hdrop
    rw [hreply] at houtcome
    simp [attemptFrom, houtcome, htransient, startAt, hreply, hrest]

/-- From an attempt that is made on, the exchange goes to the last one. -/
theorem attemptFrom_spec {further : Nat} (hfurther : further + k + 1 = p.attempts)
    (hk : p.Makes replies k) :
    ∃ last, k ≤ last ∧ p.EndsWith replies last ∧ p.Spans replies k last
      (p.attemptFrom further (k + 1) (p.startAt replies k) (replies.drop k)) := by
  -- on the attempts that are still allowed; an error that may pass uses one of them up
  induction further generalizing k with
  | zero =>
    have hlast : k + 1 = p.attempts := by omega
    exact ⟨k, Nat.le_refl k, ⟨hk, fun _ _ _ => hlast⟩, attemptFrom_of_final fun _ _ _ => rfl⟩
  | succ further ih =>
    by_cases hpassing : ∃ e, (replyAt replies k).outcome = .error e ∧ e.isTransient = true
    · obtain ⟨e, houtcome, htransient⟩ := hpassing
      have hnext : p.Makes replies (k + 1) := hk.succ houtcome htransient (by omega)
      obtain ⟨last, hle, hends, hspans⟩ := ih (by omega) hnext
      refine ⟨last, by omega, hends, ?_⟩
      rw [attemptFrom_of_passing further houtcome htransient]
      exact hspans.cons hle
    · have hfinal : ∀ e, (replyAt replies k).outcome = .error e → e.isTransient = true → False :=
        fun e houtcome htransient => hpassing ⟨e, houtcome, htransient⟩
      refine ⟨k, Nat.le_refl k, ⟨hk, ?_⟩, ?_⟩
      · intro e houtcome htransient
        exact (hfinal e houtcome htransient).elim
      · apply attemptFrom_of_final
        intro e houtcome htransient
        exact (hfinal e houtcome htransient).elim

/-- **An exchange comes to what its last attempt comes to.** -/
theorem exchange_spec (hattempts : 1 ≤ p.attempts) (replies : List Reply) :
    ∃ last, p.EndsWith replies last ∧ p.Spans replies 0 last (p.exchange replies) := by
  have hfurther : p.attempts - 1 + 0 + 1 = p.attempts := by omega
  obtain ⟨last, -, hends, hspans⟩ := attemptFrom_spec hfurther (Makes.zero hattempts)
  exact ⟨last, hends, hspans⟩

/-! ### Waits -/

theorem waitAfter_bounds (p : RetryPolicy) (attempt : Nat) :
    1 ≤ p.waitAfter attempt ∧ p.waitAfter attempt ≤ 10 := by
  unfold waitAfter
  simp only
  split
  · norm_num
  · rename_i hlong
    split
    · rename_i hshort
      exact ⟨(not_le.mp hlong).le, hshort⟩
    · norm_num

end RetryPolicy

end Quorum.Service

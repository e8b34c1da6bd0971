/-
  Quorum/Proofs/Run/Abreast.lean
  ==============================
  **A deadline changes nothing before it strikes.**

  What a run does with a deadline is what it does without one, as long as that is over before
  the deadline.  Where it is not, the run with the deadline expires: it has recorded nothing
  since it parted from the other, and whoever has begun in it begins in the other too
  (`Mission.Follows`).  So it is with the agents of a tier (`Executor.runTier_until`), with a
  review (`review_until`), with a whole tier (`runTier_follows`) and with the answer
  (`conclude_follows`).
-/
import Quorum.Proofs.Run.Silent

namespace Quorum

/-! ### The agents of a tier -/

/-- The plan of a tier without its deadline. -/
def TierPlan.unhurried (p : TierPlan) : TierPlan := { p with deadline := none }

/-- Whoever is called and whatever begins before an instant is called and begins elsewhere
    too. -/
structure Precedes (d : Instant) (calls : List Call) (begun : List Invocation)
    (calls' : List Call) (begun' : List Invocation) : Prop where
  calls : ∀ c ∈ calls, c.time < d ∧ c ∈ calls'
  invocations : ∀ i ∈ begun, i.span.start < d ∧ ∃ i' ∈ begun', i'.call = i.call

namespace Precedes

variable {d : Instant} {calls calls' more : List Call} {begun begun' further : List Invocation}

theorem mono (h : Precedes d calls begun calls' begun') (hcalls : calls' ⊆ more)
    (hbegun : begun' ⊆ further) : Precedes d calls begun more further where
  calls c hc := ⟨(h.calls c hc).1, hcalls (h.calls c hc).2⟩
  invocations i hi := by
    obtain ⟨hstart, i', hi', hcall⟩ := h.invocations i hi
    exact ⟨hstart, i', hbegun hi', hcall⟩

theorem append {later later' : List Call} {later₂ later₂' : List Invocation}
    (h : Precedes d calls begun calls' begun') (h' : Precedes d later later₂ later' later₂') :
    Precedes d (calls ++ later) (begun ++ later₂) (calls' ++ later') (begun' ++ later₂') where
  calls c hc := by
    rcases List.mem_append.mp hc with hc | hc
    · exact (h.mono (List.subset_append_left _ _) (List.subset_append_left _ later₂')).calls c hc
    · exact (h'.mono (List.subset_append_right _ _) (List.subset_append_right begun' _)).calls c hc
  invocations i hi := by
    rcases List.mem_append.mp hi with hi | hi
    · exact (h.mono (List.subset_append_left _ later') (List.subset_append_left _ _)).invocations i hi
    · exact (h'.mono (List.subset_append_right calls' _)
        (List.subset_append_right _ _)).invocations i hi

/-- What has been made of attempts before an instant. -/
theorem of_attempts (context : Context) (attempts : List Attempt) {last : LastCall}
    (hlater : (LastCall.before d).Within last) :
    Precedes d (attempts.filterMap (Attempt.call? context (.before d)))
      (attempts.filterMap (Attempt.invocation? context (.before d)))
      (attempts.filterMap (Attempt.call? context last))
      (attempts.filterMap (Attempt.invocation? context last)) where
  calls c hc := by
    obtain ⟨a, ha, hmade⟩ := List.mem_filterMap.mp hc
    refine ⟨?_, List.mem_filterMap.mpr ⟨a, ha, Attempt.call?_within hlater hmade⟩⟩
    obtain ⟨hallowed, rfl⟩ := Attempt.call?_eq_some.mp hmade
    exact LastCall.allows_before.mp hallowed
  invocations i hi := by
    obtain ⟨a, ha, hplaced⟩ := List.mem_filterMap.mp hi
    obtain ⟨i', hlasting, hsame⟩ := Attempt.invocation?_within hlater hplaced
    exact ⟨LastCall.allows_before.mp (Attempt.call_of_invocation? hplaced).2, i',
      List.mem_filterMap.mpr ⟨a, ha, hlasting⟩, hsame⟩

end Precedes

namespace Executor

variable {x : Executor} {p : TierPlan}

theorem runTier_cut (hplaces : ¬ x.places < 0) {d : Instant}
    (hexpires : expiresBy p (closing p.rules p.start (x.attempts p)).instant = some d) :
    (x.runTier p).ending = .expired ∧
      (x.runTier p).calls = (x.attempts p).filterMap (Attempt.call? p.context (.before d)) ∧
      (x.runTier p).invocations =
        (x.attempts p).filterMap (Attempt.invocation? p.context (.before d)) := by
  simp [runTier, hplaces, hexpires]

theorem runTier_in_full (hplaces : ¬ x.places < 0)
    (hnever : expiresBy p (closing p.rules p.start (x.attempts p)).instant = none) :
    x.runTier p = x.runTier p.unhurried := by
  have hfree : expiresBy p.unhurried
      (closing p.unhurried.rules p.unhurried.start (x.attempts p.unhurried)).instant = none := rfl
  unfold runTier
  rw [if_neg hplaces, if_neg hplaces]
  simp only [hnever, hfree]
  rfl

theorem runTier_unhurried (hplaces : ¬ x.places < 0) :
    let closes := (closing p.rules p.start (x.attempts p)).instant
    (x.runTier p.unhurried).finished = closes ∧
      (x.runTier p.unhurried).calls =
        (x.attempts p).filterMap (Attempt.call? p.context (.through closes)) ∧
      (x.runTier p.unhurried).invocations =
        (x.attempts p).filterMap (Attempt.invocation? p.context (.through closes)) := by
  have hfree : expiresBy p.unhurried
      (closing p.unhurried.rules p.unhurried.start (x.attempts p.unhurried)).instant = none := rfl
  unfold runTier
  rw [if_neg hplaces]
  simp only [hfree]
  split <;> exact ⟨rfl, rfl, rfl⟩

theorem unhurried_not_expired : (x.runTier p.unhurried).ending ≠ .expired := by
  intro hexpired
  rcases x.runTier_ending p.unhurried with ⟨-, h⟩ | ⟨d, hdeadline, -⟩ | ⟨t, -, h⟩ | ⟨t, h⟩
  · rw [h] at hexpired
    cases hexpired
  · cases hdeadline
  · rw [h] at hexpired
    cases hexpired
  · rw [h] at hexpired
    cases hexpired

/-- A tier that would be over before its deadline does what it does without one; any other
    expires, and has called nobody and begun nothing that would not have been called and begun
    without the deadline. -/
theorem runTier_until (hearly : ∀ d, p.deadline = some d → p.start < d) :
    x.runTier p = x.runTier p.unhurried ∧
        (∀ d, p.deadline = some d → (x.runTier p.unhurried).finished < d) ∨
      ∃ d, p.deadline = some d ∧ (x.runTier p).ending = .expired ∧
        d ≤ (x.runTier p.unhurried).finished ∧
        Precedes d (x.runTier p).calls (x.runTier p).invocations
          (x.runTier p.unhurried).calls (x.runTier p.unhurried).invocations := by
  by_cases hnegative : x.places < 0
  · left
    unfold runTier
    rw [if_pos hnegative, if_pos hnegative]
    exact ⟨rfl, hearly⟩
  · obtain ⟨hfinished, hmade, hplaced⟩ := runTier_unhurried (p := p) hnegative
    cases hexpires : expiresBy p (closing p.rules p.start (x.attempts p)).instant with
    | none =>
      left
      refine ⟨runTier_in_full hnegative hexpires, ?_⟩
      rw [hfinished]
      exact Mission.early_of_filter_eq_none hexpires
    | some d =>
      right
      obtain ⟨hdeadline, hlate⟩ := Option.filter_eq_some_iff.mp hexpires
      have hlate' := of_decide_eq_true hlate
      obtain ⟨hending, hcalls, hcut⟩ := runTier_cut hnegative hexpires
      refine ⟨d, hdeadline, hending, hfinished ▸ hlate', ?_⟩
      rw [hcalls, hcut, hmade, hplaced]
      exact Precedes.of_attempts _ _ (LastCall.before_within_through hlate')

end Executor

/-! ### Runs that part -/

namespace Journey

variable {j k l : Journey} {tiers : List Int} {d : Instant}

theorem invocations_unnoticed : Unnoticed Journey.invocations :=
  ⟨fun _ _ => rfl, fun _ _ _ _ _ _ => rfl⟩

/-- Whoever a run has called has been called, and whatever has taken place in it has begun. -/
structure Begun (j : Journey) : Prop where
  calls : ∀ c ∈ j.calls, c.time ≤ j.clock
  invocations : ∀ i ∈ j.invocations, i.span.start ≤ j.clock

theorem Begun.proceeds (hj : j.Begun) (h : j.Proceeds tiers k) : k.Begun where
  calls := by
    obtain ⟨later, hlater, hcalled⟩ := h.calls
    intro c hc
    rw [hlater] at hc
    rcases List.mem_append.mp hc with hc | hc
    · exact (hj.calls c hc).trans h.clock
    · exact (hcalled c hc).2
  invocations := by
    obtain ⟨later, hlater, hbegun⟩ := h.invocations
    intro i hi
    rw [hlater] at hi
    rcases List.mem_append.mp hi with hi | hi
    · exact (hj.invocations i hi).trans h.clock
    · exact hbegun i hi

/-- What there is of a run before an instant is before that. -/
theorem Begun.precedes (hj : j.Begun) (hontime : j.clock < d) :
    Precedes d j.calls j.invocations j.calls j.invocations where
  calls c hc := ⟨(hj.calls c hc).trans_lt hontime, hc⟩
  invocations i hi := ⟨(hj.invocations i hi).trans_lt hontime, i, hi, rfl⟩

/-- A run that has expired and one that goes on, parted when they had one ledger. -/
structure Overtaken (d : Instant) (parted : Ledger) (cut free : Journey) : Prop where
  late : d ≤ free.clock
  ledger : cut.ledger = parted
  made : Precedes d cut.calls cut.invocations free.calls free.invocations

variable {parted : Ledger} {cut free : Journey}

theorem Overtaken.proceeds (h : Overtaken d parted cut free) (hmore : free.Proceeds tiers l) :
    Overtaken d parted cut l where
  late := h.late.trans hmore.clock
  ledger := h.ledger
  made := h.made.mono hmore.calls.begins.subset hmore.invocations.begins.subset

/-- A run that does not get any further has called nobody since. -/
theorem Overtaken.of_begun (hj : j.Begun) (hontime : j.clock < d) (hledger : cut.ledger = parted)
    (hcut : cut.calls = j.calls ∧ cut.invocations = j.invocations)
    (hfree : free.calls = j.calls ∧ free.invocations = j.invocations)
    (hlate : d ≤ free.clock) : Overtaken d parted cut free where
  late := hlate
  ledger := hledger
  made := by
    rw [hcut.1, hcut.2, hfree.1, hfree.2]
    exact hj.precedes hontime

end Journey

namespace Mission

open Journey (Overtaken)

variable {m : Mission} {deadline : Option Instant} {p : TierPlan} {e : Execution}
  {pending : TierReport} {j : Journey} {tier : Int}

/-- A run with a deadline and the same run without one, from where they had one ledger: what
    both come to is the same and in time, or the first has expired. -/
inductive Follows (deadline : Option Instant) (parted : Ledger)
    (cut free : Journey × Option Halt) : Prop
  | inTime (hsame : cut = free) (hontime : OnTime deadline free.1) (hhalt : free.2 ≠ some .expired)
  | expired {d : Instant} (hdeadline : deadline = some d) (hhalt : cut.2 = some .expired)
      (hovertaken : Overtaken d parted cut.1 free.1)

theorem onTime_of_none (j : Journey) : OnTime none j := nofun

/-! ### Reviews -/

/-- A review changes nothing but the time and what has been reviewed. -/
theorem review_unnoticed {α : Type} {g : Journey → α} (hg : Journey.Unnoticed g)
    (hreviewed : ∀ i clock reviewed, g { i with clock := clock, reviewed := reviewed } = g i)
    (pending : TierReport) (j : Journey) : g (m.review deadline pending j).1 = g j := by
  have hends := m.review_ends deadline pending j
  generalize m.review deadline pending j = x at hends ⊢
  obtain ⟨k, outcome⟩ := x
  cases hends with
  | unasked => rfl
  | judged => exact (Journey.foldl_unnoticed hg.note _ _).trans (hreviewed j _ _)
  | cancelled => exact hreviewed j _ _
  | expired => exact hreviewed j _ _

theorem le_review_clock (pending : TierReport) (j : Journey) :
    j.clock ≤ (m.review none pending j).1.clock :=
  ((m.review_ends none pending j).proceeds (onTime_of_none j) (List.mem_singleton_self _)).1.clock

/-- A review that would be over before the deadline is what it is without one; any other
    expires. -/
theorem review_until (pending : TierReport) (hj : OnTime deadline j) :
    m.review deadline pending j = m.review none pending j ∧
        OnTime deadline (m.review none pending j).1 ∧
        (m.review none pending j).2 ≠ .error .expired ∨
      ∃ d, deadline = some d ∧
        m.review deadline pending j =
          ({ j with clock := d, reviewed := j.reviewed ++ [pending] }, .error .expired) ∧
        d ≤ (m.review none pending j).1.clock := by
  by_cases hasks : ∃ reviewer, m.Asks pending reviewer
  · obtain ⟨reviewer, hasks⟩ := hasks
    have hnone : (none : Option Instant).filter
      (fun d => decide (d ≤ (afterAsking reviewer pending j).clock)) = none := rfl
    have hclock : (m.review none pending j).1.clock = (afterAsking reviewer pending j).clock := by
      rw [review_of_asks hasks, hnone]
      cases judge pending.tier (reviewer pending).answer with
      | none => rfl
      | some reviewed => exact Journey.foldl_unnoticed Journey.clock_unnoticed.note _ _
    cases hexpires : deadline.filter fun d =>
        decide (d ≤ (afterAsking reviewer pending j).clock) with
    | some d =>
      right
      obtain ⟨hdeadline, hlate⟩ := Option.filter_eq_some_iff.mp hexpires
      refine ⟨d, hdeadline, ?_, hclock ▸ of_decide_eq_true hlate⟩
      rw [review_of_asks hasks, hexpires]
    | none =>
      left
      refine ⟨?_, ?_, ?_⟩
      · rw [review_of_asks hasks, review_of_asks hasks, hexpires, hnone]
      · intro d hd
        exact hclock ▸ early_of_filter_eq_none hexpires d hd
      · rw [review_of_asks hasks, hnone]
        cases judge pending.tier (reviewer pending).answer <;> simp
  · left
    have hunasked := not_exists.mp hasks
    rw [review_of_unasked hunasked, review_of_unasked hunasked]
    exact ⟨rfl, hj, nofun⟩

/-! ### Tiers -/

/-- After its review a tier is only recorded and told of. -/
theorem settle_unnoticed {α : Type} {g : Journey → α} (hg : Journey.Unnoticed g)
    (hrecorded : ∀ i tiers context, g { i with tiers := tiers, context := context } = g i)
    (j : Journey) :
    g (m.settle deadline p e j).1 =
      g (m.review deadline (pendingReport p e) (beforeReview p e j)).1 := by
  rw [settle_eq]
  generalize m.review deadline (pendingReport p e) (beforeReview p e j) = x
  obtain ⟨i, outcome⟩ := x
  cases outcome with
  | error halt => rfl
  | ok reviewed =>
    simp only
    unfold record
    cases i.context.append ⟨e.tier, e.verdict, e.results, m.fleet.coordination.passAllResults⟩ with
    | error conflict => rfl
    | ok context =>
      simp only
      rw [announceVerdict_unnoticed hg, hrecorded]

theorem settle_clock (j : Journey) :
    (m.settle deadline p e j).1.clock =
      (m.review deadline (pendingReport p e) (beforeReview p e j)).1.clock :=
  settle_unnoticed Journey.clock_unnoticed (fun _ _ _ => rfl) j

/-- Nobody is called after a tier has been executed. -/
theorem settle_calls (j : Journey) :
    (m.settle deadline p e j).1.calls = j.calls ∧
      (m.settle deadline p e j).1.invocations = j.invocations := by
  constructor
  · rw [settle_unnoticed Journey.calls_unnoticed (fun _ _ _ => rfl),
      review_unnoticed Journey.calls_unnoticed (fun _ _ _ => rfl),
      beforeReview_unnoticed Journey.calls_unnoticed]
  · rw [settle_unnoticed Journey.invocations_unnoticed (fun _ _ _ => rfl),
      review_unnoticed Journey.invocations_unnoticed (fun _ _ _ => rfl),
      beforeReview_unnoticed Journey.invocations_unnoticed]

theorem settle_not_expired
    (hreview : (m.review deadline (pendingReport p e) (beforeReview p e j)).2 ≠ .error .expired) :
    (m.settle deadline p e j).2 ≠ some .expired := by
  rw [settle_eq]
  generalize m.review deadline (pendingReport p e) (beforeReview p e j) = x at hreview ⊢
  obtain ⟨i, outcome⟩ := x
  cases outcome with
  | error halt => simpa using hreview
  | ok reviewed =>
    simp only
    split
    · simp
    · simp only [haltAfter]
      split
      · simp
      · split <;> simp

theorem settle_follows (p : TierPlan) (e : Execution) (hj : OnTime deadline j) (hbegun : j.Begun) :
    Follows deadline j.ledger (m.settle deadline p e j) (m.settle none p e j) := by
  have hbefore : OnTime deadline (beforeReview p e j) := by
    intro d hd
    rw [beforeReview_unnoticed Journey.clock_unnoticed]
    exact hj d hd
  rcases review_until (pendingReport p e) hbefore with
    ⟨hsame, hontime, hhalt⟩ | ⟨d, hdeadline, hcut, hlate⟩
  · refine .inTime ?_ ?_ (settle_not_expired hhalt)
    · rw [settle_eq, settle_eq, hsame]
    · intro d hd
      rw [settle_clock]
      exact hontime d hd
  · have hsettled := settle_of_halt m hcut
    rw [hsettled]
    refine .expired hdeadline rfl
      (.of_begun hbegun (hj d hdeadline) ?_ ⟨?_, ?_⟩ (settle_calls j) ?_)
    · exact ledger_beforeReview p e j
    · exact beforeReview_unnoticed Journey.calls_unnoticed p e j
    · exact beforeReview_unnoticed Journey.invocations_unnoticed p e j
    · rw [settle_clock]
      exact hlate

theorem runTier_made (deadline : Option Instant) (tier : Int) (j : Journey) :
    (m.runTier deadline tier j).1.calls = (m.afterExecutor deadline tier j).calls ∧
      (m.runTier deadline tier j).1.invocations =
        (m.afterExecutor deadline tier j).invocations := by
  cases hending : (m.executor.runTier (m.plan deadline tier j)).ending with
  | expired =>
    rw [m.runTier_of_expired hending]
    exact ⟨rfl, rfl⟩
  | escaped why =>
    rw [m.runTier_of_escaped hending]
    exact ⟨rfl, rfl⟩
  | evaluated e =>
    rw [m.runTier_of_evaluated hending]
    exact settle_calls _

/-- What is left of a tier once its agents are done takes its time. -/
theorem le_runTier_clock (m : Mission) (tier : Int) (j : Journey) :
    (m.afterExecutor none tier j).clock ≤ (m.runTier none tier j).1.clock := by
  cases hending : (m.executor.runTier (m.plan none tier j)).ending with
  | expired => rw [m.runTier_of_expired hending]
  | escaped why => rw [m.runTier_of_escaped hending]
  | evaluated e =>
    rw [m.runTier_of_evaluated hending, settle_clock]
    have hbefore := beforeReview_unnoticed Journey.clock_unnoticed (m.plan none tier j) e
      (m.afterExecutor none tier j)
    exact hbefore.symm.le.trans (le_review_clock _ _)

theorem runTier_calls (deadline : Option Instant) (tier : Int) (j : Journey) :
    (m.runTier deadline tier j).1.calls =
      j.calls ++ (m.executor.runTier (m.plan deadline tier j)).calls := by
  rw [← m.afterExecutor_calls]
  exact (runTier_made deadline tier j).1

/-- A tier with a deadline does what it does without one, or expires. -/
theorem runTier_follows (hf : m.fleet.Valid) (hplaces : m.executor.places ≠ 0)
    (hj : OnTime deadline j) (hbegun : j.Begun) (tier : Int) :
    Follows deadline j.ledger (m.runTier deadline tier j) (m.runTier none tier j) := by
  have hfree : (m.plan deadline tier j).unhurried = m.plan none tier j := rfl
  have huntil := Executor.runTier_until (x := m.executor) (p := m.plan deadline tier j) hj
  rw [hfree] at huntil
  rcases huntil with ⟨hrun, hontime⟩ | ⟨d, hdeadline, hending, hlate, hmade⟩
  · have hexecuted : m.afterExecutor deadline tier j = m.afterExecutor none tier j := by
      unfold afterExecutor
      rw [hrun]
      rfl
    have hproceeds := afterExecutor_proceeds hf hplaces (onTime_of_none j) [] tier
    cases hending : (m.executor.runTier (m.plan none tier j)).ending with
    | expired => exact absurd hending (hfree ▸ Executor.unhurried_not_expired)
    | escaped why =>
      rw [m.runTier_of_escaped (hrun ▸ hending), m.runTier_of_escaped hending, hexecuted]
      exact .inTime rfl hontime (by simp)
    | evaluated e =>
      rw [m.runTier_of_evaluated (hrun ▸ hending), m.runTier_of_evaluated hending, hexecuted,
        ← m.ledger_afterExecutor none tier j]
      exact settle_follows (m.plan none tier j) e hontime (hbegun.proceeds hproceeds)
  · obtain ⟨hcalled, hbegun'⟩ := runTier_made (m := m) none tier j
    rw [m.runTier_of_expired hending]
    refine .expired hdeadline rfl
      ⟨hlate.trans (m.le_runTier_clock tier j), m.ledger_afterExecutor deadline tier j, ?_⟩
    rw [hcalled, hbegun']
    exact (hbegun.precedes (hj d hdeadline)).append hmade

/-! ### The answer -/

theorem synthesized_clock (manager : Agent) (j : Journey) :
    (m.synthesized manager j).1.clock = (m.synthesisAttempt manager j).span.stop := by
  unfold synthesized
  simp only
  split <;> rfl

theorem synthesized_made (manager : Agent) (j : Journey) :
    let last := LastCall.through (m.synthesisAttempt manager j).span.stop
    (m.synthesized manager j).1.calls = (m.asked manager last j).calls ∧
      (m.synthesized manager j).1.invocations = (m.asked manager last j).invocations := by
  unfold synthesized
  simp only
  split <;> exact ⟨rfl, rfl⟩

/-- The manager is called before the deadline, and begins as without one. -/
theorem asked_precedes {manager : Agent} {d t : Instant} (hbegun : j.Begun) (hd : j.clock < d)
    (hlate : d ≤ t) :
    Precedes d (m.asked manager (.before d) j).calls (m.asked manager (.before d) j).invocations
      (m.asked manager (.through t) j).calls (m.asked manager (.through t) j).invocations := by
  have hattempt := Precedes.of_attempts j.context [m.synthesisAttempt manager j]
    (LastCall.before_within_through hlate)
  have hlist {α : Type} (f : Attempt → Option α) :
      [m.synthesisAttempt manager j].filterMap f = (f (m.synthesisAttempt manager j)).toList := by
    cases hf : f (m.synthesisAttempt manager j) <;> simp [hf]
  simp only [hlist] at hattempt
  exact (hbegun.precedes hd).append hattempt

theorem synthesized_not_expired (manager : Agent) (j : Journey) :
    (m.synthesized manager j).2 ≠ some .expired := by
  unfold synthesized
  simp only
  split
  · rename_i halt hhalt
    unfold synthesisOf at hhalt
    split at hhalt
    · split at hhalt
      · cases hhalt
      · cases hhalt
        simp
    all_goals
      cases hhalt
      simp
  · simp

theorem synthesize_follows (hj : OnTime deadline j) (hbegun : j.Begun) :
    Follows deadline j.ledger (m.synthesize deadline j) (m.synthesize none j) := by
  cases hmanager : m.fleet.manager? with
  | none =>
    unfold synthesize
    rw [hmanager]
    exact .inTime rfl hj (by simp)
  | some manager =>
    have hfree : m.synthesize none j = m.synthesized manager j := synthesize_of_manager hmanager j
    rw [hfree, synthesize_of_manager hmanager]
    cases hexpires : deadline.filter fun d =>
        decide (d ≤ (m.synthesisAttempt manager j).span.stop) with
    | none =>
      refine .inTime rfl ?_ (synthesized_not_expired manager j)
      intro d hd
      rw [synthesized_clock]
      exact early_of_filter_eq_none hexpires d hd
    | some d =>
      obtain ⟨hdeadline, hlate⟩ := Option.filter_eq_some_iff.mp hexpires
      have hlate' := of_decide_eq_true hlate
      obtain ⟨hcalled, hplaced⟩ := m.synthesized_made manager j
      refine .expired hdeadline rfl ⟨synthesized_clock manager j ▸ hlate', rfl, ?_⟩
      rw [hcalled, hplaced]
      exact asked_precedes hbegun (hj d hdeadline) hlate'

/-- The answer comes in time or the run expires. -/
theorem conclude_follows (hj : OnTime deadline j) (hbegun : j.Begun) :
    Follows deadline j.ledger (m.conclude deadline j) (m.conclude none j) := by
  unfold conclude
  split
  · exact synthesize_follows hj hbegun
  · refine .inTime rfl ?_ (by simp)
    intro d hd
    have hclock : (m.aggregate j).clock = j.clock := by
      unfold aggregate
      split <;> rfl
    rw [hclock]
    exact hj d hd

end Mission

end Quorum

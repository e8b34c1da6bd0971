/-
  Quorum/Proofs/Run/Places.lean
  =============================
  **No place is used twice, and none is idle while somebody waits.**

  A cut parts what is early in a run from what is late.  Whoever is busy across a cut holds a
  place that was free before it, so there are no more of them than places
  (`Schedule.countP_crossing_le`), and as many as places if somebody has to wait until after
  it (`Schedule.countP_crossing_eq`).  Both are carried by the list of places: a stay takes
  one out and puts it back.  The calls of a tier are its attempts up to the last call, so what
  is in flight at one instant, or while time moves on, is counted across one cut.  Whoever
  takes over a place just as the tier ends counts too, and so does whoever lingers on a place
  after it was cancelled or its time limit has struck (`runTier_places`).
-/
import Quorum.Proofs.Run.Calls

namespace Quorum

/-! ### Cuts -/

/-- A division of the instants into those before and those after. -/
structure Cut where
  before : Instant → Bool
  closed : ∀ {s t : Instant}, s ≤ t → before t = true → before s = true

namespace Cut

/-- What has been reached at an instant lies before. -/
def through (t : Instant) : Cut where
  before s := decide (s ≤ t)
  closed hst ht := decide_eq_true (hst.trans (of_decide_eq_true ht))

/-- What is earlier than an instant lies before. -/
def until' (t : Instant) : Cut where
  before s := decide (s < t)
  closed hst ht := decide_eq_true (hst.trans_lt (of_decide_eq_true ht))

/-- What a tier still calls lies before. -/
def ofLastCall : LastCall → Cut
  | .through t => through t
  | .before t => until' t

theorem before_ofLastCall (last : LastCall) (t : Instant) :
    (ofLastCall last).before t = last.allows t := by
  cases last <;> rfl

/-- Everything that is done by a time lies before, down to its last step. -/
def whenMoving (time : Rat) : Cut where
  before s := decide (s.time ≤ time)
  closed hst ht := decide_eq_true ((Instant.time_le hst).trans (of_decide_eq_true ht))

/-- The span begins before the cut and ends after it. -/
def crosses (c : Cut) (s : Span) : Bool := c.before s.start && !c.before s.stop

theorem crosses_iff {c : Cut} {s : Span} :
    c.crosses s = true ↔ c.before s.start = true ∧ c.before s.stop = false := by
  simp [crosses]

theorem crosses_through (t : Instant) (s : Span) : (through t).crosses s = s.covers t := by
  rw [Bool.eq_iff_iff, crosses_iff]
  simp [through, Span.covers]

/-- A stay takes a place that is free before the cut, and either crosses the cut or puts the
    place back before it. -/
theorem crosses_add_back (c : Cut) {s : Span} (hs : s.start ≤ s.stop) :
    (if c.crosses s then 1 else 0) + (if c.before s.stop then 1 else 0) =
      if c.before s.start then 1 else 0 := by
  have hclosed := c.closed hs
  unfold crosses
  cases hstart : c.before s.start <;> cases hstop : c.before s.stop <;> simp_all

end Cut

/-! ### Places and spans -/

namespace Schedule

theorem countP_insertPlace (q : Instant → Bool) (free : Instant) (ts : List Instant) :
    (insertPlace free ts).countP q = ts.countP q + if q free then 1 else 0 := by
  induction ts with
  | nil => simp [insertPlace]
  | cons t rest ih =>
    unfold insertPlace
    split
    · rw [List.countP_cons]
    · rw [List.countP_cons, List.countP_cons, ih]
      omega

theorem insertPlace_pairwise {free : Instant} {ts : List Instant} (hts : ts.Pairwise (· ≤ ·)) :
    (insertPlace free ts).Pairwise (· ≤ ·) := by
  induction ts with
  | nil => exact List.pairwise_singleton _ _
  | cons t rest ih =>
    unfold insertPlace
    obtain ⟨hfirst, hrest⟩ := List.pairwise_cons.mp hts
    split
    · rename_i hfree
      refine List.pairwise_cons.mpr ⟨?_, hts⟩
      intro u hu
      rcases List.mem_cons.mp hu with rfl | hu
      · exact hfree
      · exact hfree.trans (hfirst u hu)
    · rename_i hfree
      refine List.pairwise_cons.mpr ⟨?_, ih hrest⟩
      intro u hu
      rcases mem_insertPlace.mp hu with rfl | hu
      · exact (not_le.mp hfree).le
      · exact hfirst u hu

/-- No more spans cross a cut than places are free before it. -/
theorem countP_crossing_le (c : Cut) (places : List Instant) (lengths : List Rat) :
    (spans places lengths).countP c.crosses ≤ places.countP c.before := by
  induction lengths generalizing places with
  | nil => cases places <;> simp [spans]
  | cons length rest ih =>
    cases places with
    | nil => simp [spans]
    | cons free places =>
      have hstep := c.crosses_add_back (s := ⟨free, free.after length⟩) (Instant.le_after _ _)
      have hrest := ih (insertPlace (free.after length) places)
      rw [countP_insertPlace] at hrest
      rw [spans, List.countP_cons, List.countP_cons]
      simp only at hstep ⊢
      omega

/-- If some span begins only after a cut, all the places that are free before it are in use
    across it: each span takes the place that is free first. -/
theorem countP_crossing_eq (c : Cut) (places : List Instant) (hplaces : places.Pairwise (· ≤ ·))
    {lengths : List Rat} (hwaits : ∃ s ∈ spans places lengths, c.before s.start = false) :
    (spans places lengths).countP c.crosses = places.countP c.before := by
  induction lengths generalizing places with
  | nil =>
    obtain ⟨s, hs, -⟩ := hwaits
    cases places <;> simp [spans] at hs
  | cons length rest ih =>
    cases places with
    | nil =>
      obtain ⟨s, hs, -⟩ := hwaits
      simp [spans] at hs
    | cons free places =>
      obtain ⟨hfirst, hsorted⟩ := List.pairwise_cons.mp hplaces
      cases hfree : c.before free with
      | true =>
        obtain ⟨s, hs, hlate⟩ := hwaits
        have hs' : s ∈ spans (insertPlace (free.after length) places) rest := by
          rw [spans] at hs
          rcases List.mem_cons.mp hs with rfl | hs
          · exact absurd hfree (by simpa using hlate)
          · exact hs
        have hstep := c.crosses_add_back (s := ⟨free, free.after length⟩) (Instant.le_after _ _)
        have hrest := ih _ (insertPlace_pairwise hsorted) ⟨s, hs', hlate⟩
        rw [countP_insertPlace] at hrest
        rw [spans, List.countP_cons, List.countP_cons]
        simp only at hstep ⊢
        omega
      | false =>
        -- the place that is free first is free after the cut, and so is any other
        have hlate (t : Instant) (ht : free ≤ t) : c.before t = false := by
          by_contra hearly
          have hearly' := c.closed ht (by simpa using hearly)
          rw [hfree] at hearly'
          cases hearly'
        have hnone : (free :: places).countP c.before = 0 := by
          rw [List.countP_eq_zero]
          intro t ht
          rcases List.mem_cons.mp ht with rfl | ht
          · simp [hfree]
          · simp [hlate t (hfirst t ht)]
        have hle := countP_crossing_le c (free :: places) (length :: rest)
        omega

end Schedule

/-! ### Stays -/

namespace Behaviour

/-- How long an agent goes on after it has been cancelled. -/
def lingers (b : Behaviour) : Rat := (b.lingering.map Prod.fst).getD 0

variable {b : Behaviour} {limit : Number}

/-- The ways in which a behaviour and a time limit come together: the agent is left no time,
    it is done in time, or the limit strikes and it stays until it is really done. -/
theorem stay_cases (b : Behaviour) (limit : Number) :
    ((b.stay limit).begins = false ∧ (b.stay limit).length = 0 ∧ (b.stay limit).struck = none) ∨
    ((b.stay limit).begins = true ∧ (b.stay limit).struck = none) ∨
    ∃ l, (b.stay limit).begins = true ∧ (b.stay limit).struck = some l ∧
      (b.stay limit).length = l + b.lingers := by
  unfold stay
  split
  · exact Or.inr (Or.inl ⟨rfl, rfl⟩)
  · rename_i l hlimit
    split
    · exact Or.inl ⟨rfl, rfl, rfl⟩
    · split
      · exact Or.inr (Or.inl ⟨rfl, rfl⟩)
      · split <;> rename_i hlingering <;>
          exact Or.inr (Or.inr ⟨l, rfl, rfl, by simp [lingers, hlingering]⟩)

theorem stay_length_of_not_begins (h : (b.stay limit).begins = false) :
    (b.stay limit).length = 0 := by
  rcases b.stay_cases limit with ⟨-, hlength, -⟩ | ⟨hbegins, -⟩ | ⟨l, hbegins, -, -⟩
  · exact hlength
  · simp [h] at hbegins
  · simp [h] at hbegins

theorem stay_of_struck {l : Rat} (h : (b.stay limit).struck = some l) :
    (b.stay limit).begins = true ∧ (b.stay limit).length = l + b.lingers := by
  rcases b.stay_cases limit with ⟨-, -, hstruck⟩ | ⟨-, hstruck⟩ | ⟨l', hbegins, hstruck, hlength⟩
  · simp [h] at hstruck
  · simp [h] at hstruck
  · rw [h] at hstruck
    cases hstruck
    exact ⟨hbegins, hlength⟩

end Behaviour

/-! ### Attempts -/

namespace Attempt

variable {context : Context} {last : LastCall} {a : Attempt} {i : Invocation}

/-- What an attempt comes to up to a last call: it has run its course by then, or it was under
    way and its agent is not done before. -/
theorem invocation?_span (h : a.invocation? context last = some i) :
    i.span.start = a.span.start ∧ last.allows a.span.start = true ∧
      (a.span.stop ≤ last.instant ∧ i.span = a.span ∨
        last.instant < a.span.stop ∧ last.instant ≤ i.span.stop) := by
  have hlinger (e : Instant) : e ≤ a.stopAfterCancel e := by
    unfold stopAfterCancel
    split
    · exact Instant.le_after _ _
    · exact le_rfl
  obtain ⟨⟨-, hallowed⟩, ⟨-, rfl⟩ | ⟨hunder, rfl⟩⟩ := invocation?_eq_some.mp h
  · rcases le_or_gt a.span.stop last.instant with hover | hunder
    · exact ⟨rfl, hallowed, Or.inl ⟨hover, rfl⟩⟩
    · exact ⟨rfl, hallowed, Or.inr ⟨hunder, hunder.le⟩⟩
  · exact ⟨rfl, hallowed, Or.inr ⟨not_le.mp fun hover => hunder (Or.inl hover), hlinger _⟩⟩

/-- An agent whose time limit has struck by the last call is left to itself. -/
theorem invocation?_of_struck {l : Rat} (hstruck : a.stay.struck = some l)
    (hlast : a.span.start.after l ≤ last.instant) :
    a.invocation? context last =
      some ⟨a.agent.name, context, a.span, some (a.span.start.after l)⟩ := by
  have hbegins : a.stay.begins = true := (Behaviour.stay_of_struck hstruck).1
  have hallowed := LastCall.allows_of_lt ((Instant.lt_after _ _).trans_le hlast)
  have hat : a.struckAt? = some (a.span.start.after l) := by rw [struckAt?, hstruck, Option.map_some]
  have hby : a.isStruckBy last.instant = true := by
    rw [isStruckBy, hat]
    exact decide_eq_true hlast
  exact invocation?_eq_some.mpr ⟨⟨hbegins, hallowed⟩, Or.inl ⟨Or.inr hby, hat ▸ rfl⟩⟩

end Attempt

theorem turns_length (seen : List String) (agents : List Agent) :
    (turns seen agents).length = agents.length := by
  induction agents generalizing seen with
  | nil => rfl
  | cons a rest ih => simp [turns, ih]

/-- Attempts put together from lists of one length can be taken apart again. -/
theorem attempts_taken_apart (agents : List Agent) (limits : List Number)
    (behaviours : List Behaviour) (spans : List Span) (hlimits : limits.length = agents.length)
    (hbehaviours : behaviours.length = agents.length) (hspans : spans.length = agents.length) :
    let attempts := (agents.zip (limits.zip (behaviours.zip spans))).map
      fun (a, l, b, s) => (⟨a, l, b, s⟩ : Attempt)
    attempts.map Attempt.agent = agents ∧ attempts.map Attempt.span = spans ∧
      attempts.map (fun a => a.stay.length) =
        List.zipWith (fun b l => (Behaviour.stay b l).length) behaviours limits := by
  refine ⟨?_, ?_, ?_⟩
  · refine List.ext_getElem (by simp [hlimits, hbehaviours, hspans]) ?_
    intro i hi hi'
    simp
  · refine List.ext_getElem (by simp [hlimits, hbehaviours, hspans]) ?_
    intro i hi hi'
    simp
  · refine List.ext_getElem (by simp [hlimits, hbehaviours, hspans]) ?_
    intro i hi hi'
    simp [Attempt.stay]

namespace Executor

variable {x : Executor} {p : TierPlan}

/-- Every agent has its attempt, whatever the names, and the attempts have their spans from
    the schedule. -/
theorem attempts_scheduled (hplaces : 1 ≤ x.places) :
    (x.attempts p).map Attempt.agent = p.agents ∧
      (x.attempts p).map Attempt.span = Schedule.spansFrom p.start x.places.toNat
        ((x.attempts p).map fun a => a.stay.length) := by
  have hplaces' : 1 ≤ x.places.toNat := by omega
  have hcount (lengths : List Rat) :
      (Schedule.spansFrom p.start x.places.toNat lengths).length = lengths.length :=
    (Schedule.spansFrom_spec p.start hplaces' lengths).length_eq
  obtain ⟨hagents, hspans, hlengths⟩ := attempts_taken_apart p.agents
    (p.agents.map fun a => x.timeoutFor a p.rules)
    ((turns [] p.agents).map fun r => x.conduct r.1 p.context r.2)
    (Schedule.spansFrom p.start x.places.toNat (List.zipWith
      (fun b l => (Behaviour.stay b l).length)
      ((turns [] p.agents).map fun r => x.conduct r.1 p.context r.2)
      (p.agents.map fun a => x.timeoutFor a p.rules)))
    (by simp) (by simp [turns_length]) (by simp [hcount, turns_length])
  exact ⟨hagents, hspans.trans (congrArg _ hlengths.symm)⟩

/-- An attempt lasts as long as its stay. -/
theorem stop_of_mem_attempts (hplaces : 1 ≤ x.places) {a : Attempt} (ha : a ∈ x.attempts p) :
    a.span.stop = a.span.start.after a.stay.length := by
  have hplaces' : 1 ≤ x.places.toNat := by omega
  have hspec := Schedule.spansFrom_spec p.start hplaces'
    ((x.attempts p).map fun a => a.stay.length)
  rw [← (attempts_scheduled hplaces).2, List.forall₂_map_left_iff, List.forall₂_map_right_iff]
    at hspec
  exact (List.forall₂_same.mp hspec a ha).2

/-- No more attempts cross a cut than there are places. -/
theorem countP_attempts_crossing_le (hplaces : 1 ≤ x.places) (c : Cut) :
    (x.attempts p).countP (fun a => c.crosses a.span) ≤ x.places.toNat := by
  have hle := Schedule.countP_crossing_le c (List.replicate x.places.toNat p.start)
    ((x.attempts p).map fun a => a.stay.length)
  have hspans := (attempts_scheduled (p := p) hplaces).2
  rw [Schedule.spansFrom] at hspans
  rw [← hspans, List.countP_map] at hle
  exact hle.trans (List.countP_le_length.trans (List.length_replicate).le)

/-- If somebody gets a place only after a cut, and the tier begins before it, every place is in
    use across it. -/
theorem countP_attempts_crossing_eq (hplaces : 1 ≤ x.places) {c : Cut}
    (hstart : c.before p.start = true) {a : Attempt} (ha : a ∈ x.attempts p)
    (hwaits : c.before a.span.start = false) :
    (x.attempts p).countP (fun a => c.crosses a.span) = x.places.toNat := by
  have hspans := (attempts_scheduled (p := p) hplaces).2
  rw [Schedule.spansFrom] at hspans
  have heq := Schedule.countP_crossing_eq c (List.replicate x.places.toNat p.start)
    (List.pairwise_replicate.mpr (Or.inr le_rfl))
    ⟨a.span, hspans ▸ List.mem_map_of_mem ha, hwaits⟩
  rw [← hspans, List.countP_map, List.countP_replicate, if_pos hstart] at heq
  exact heq

/-! ### Invocations -/

/-- No more invocations cross a cut than there are places.  Those cut off by the last call had
    all got their places by then. -/
theorem countP_invocations_crossing_le (hplaces : 1 ≤ x.places) (c : Cut) :
    (x.runTier p).invocations.countP (fun i => c.crosses i.span) ≤ x.places.toNat := by
  have hbound (c' : Cut) (h : ∀ (a : Attempt) (i : Invocation),
      a.invocation? p.context (x.lastCall p) = some i →
        c.crosses i.span = true → c'.crosses a.span = true) :
      (x.runTier p).invocations.countP (fun i => c.crosses i.span) ≤ x.places.toNat := by
    rw [(runTier_until_lastCall (by omega)).2, List.countP_filterMap]
    refine (List.countP_mono_left ?_).trans (countP_attempts_crossing_le hplaces c')
    intro a ha hcrosses
    cases hi : a.invocation? p.context (x.lastCall p) with
    | none => simp [hi] at hcrosses
    | some i => exact h a i hi (by simpa [hi] using hcrosses)
  cases he : c.before (x.lastCall p).instant with
  | true =>
    refine hbound (Cut.ofLastCall (x.lastCall p)) ?_
    intro a i hi hcrosses
    obtain ⟨-, hallowed, ⟨hover, hspan⟩ | ⟨hunder, -⟩⟩ := Attempt.invocation?_span hi
    · have hstop := c.closed hover he
      rw [hspan, Cut.crosses_iff, hstop] at hcrosses
      cases hcrosses.2
    · have hlate := LastCall.not_allows_of_lt hunder
      rw [Cut.crosses_iff, Cut.before_ofLastCall, Cut.before_ofLastCall]
      exact ⟨hallowed, hlate⟩
  | false =>
    refine hbound c ?_
    intro a i hi hcrosses
    obtain ⟨hstart, -, ⟨-, hspan⟩ | ⟨hunder, -⟩⟩ := Attempt.invocation?_span hi
    · rwa [hspan] at hcrosses
    · refine Cut.crosses_iff.mpr ⟨hstart ▸ (Cut.crosses_iff.mp hcrosses).1, ?_⟩
      by_contra hstop
      have hearly := c.closed hunder.le (by simpa using hstop)
      rw [he] at hearly
      cases hearly

/-- As long as a tier calls, whoever holds a place while time moves on is in flight. -/
theorem countP_invocations_moving (hplaces : 1 ≤ x.places) {time : Rat}
    (hcalls : time < (x.lastCall p).instant.time) :
    (x.runTier p).invocations.countP (fun i => (Cut.whenMoving time).crosses i.span) =
      (x.attempts p).countP fun a => (Cut.whenMoving time).crosses a.span := by
  rw [(runTier_until_lastCall (by omega)).2, List.countP_filterMap]
  refine List.countP_congr ?_
  intro a ha
  cases hi : a.invocation? p.context (x.lastCall p) with
  | some i =>
    obtain ⟨hstart, -, ⟨-, hspan⟩ | ⟨hunder, hlate⟩⟩ := Attempt.invocation?_span hi
    · simp [hspan]
    · have hstop := hcalls.trans_le (Instant.time_le hunder.le)
      have hstop' := hcalls.trans_le (Instant.time_le hlate)
      simp [Cut.crosses_iff, Cut.whenMoving, hstart, hstop, hstop']
  | none =>
    -- who is not called begins too late, or has no time at all
    have hidle : (Cut.whenMoving time).crosses a.span ≠ true := by
      intro hcrosses
      obtain ⟨hstart, hstop⟩ := Cut.crosses_iff.mp hcrosses
      simp only [Cut.whenMoving, decide_eq_true_eq, decide_eq_false_iff_not, not_le]
        at hstart hstop
      have hallowed : (x.lastCall p).allows a.span.start = true :=
        LastCall.allows_of_lt (Or.inl (hstart.trans_lt hcalls))
      cases hbegins : a.stay.begins with
      | true =>
        obtain ⟨i, hcalled⟩ :=
          Attempt.exists_invocation? p.context hbegins hallowed
        rw [hi] at hcalled
        cases hcalled
      | false =>
        have hlength : a.stay.length = 0 := Behaviour.stay_length_of_not_begins hbegins
        have hafter := stop_of_mem_attempts hplaces ha
        rw [hlength] at hafter
        have hsame : a.span.stop.time = a.span.start.time := by
          rw [hafter]
          rfl
        rw [hsame] at hstop
        exact absurd hstart (not_le.mpr hstop)
    simpa using hidle

/-! ### The places of a tier -/

/-- An agent waits for a place while time moves on: it has its turn later, and the tier is
    still calling. -/
def Waits (x : Executor) (p : TierPlan) (time : Rat) (a : Attempt) : Prop :=
  a ∈ x.attempts p ∧ time < a.span.start.time ∧ time < (x.lastCall p).instant.time

/-- An agent whose time limit has struck stays on its place until it is really done, which is
    at once or when it has lingered, and leaves the others one place less until then. -/
structure KeepsPlace (x : Executor) (p : TierPlan) (a : Attempt) (limit : Rat) : Prop where
  stop : a.span.stop = a.span.start.after (limit + a.behaviour.lingers)
  others : ∃ earlier later,
    (x.runTier p).invocations =
      earlier ++ ⟨a.agent.name, p.context, a.span, some (a.span.start.after limit)⟩ :: later ∧
    ∀ t, a.span.covers t = true →
      ((earlier ++ later).countP fun i => i.span.covers t : Int) < x.places

/-- In a tier that nothing cuts short, and that does not settle for the first success, an
    agent waits until it has its turn. -/
theorem waits_of_undisturbed (hplaces : 1 ≤ x.places) (hrules : p.rules.algorithm ≠ .firstWins)
    (hcalm : x.CalmIn p) (hdeadline : p.deadline = none) {time : Rat} {a : Attempt}
    (ha : a ∈ x.attempts p) (hlate : time < a.span.start.time) : x.Waits p time a := by
  have hlast : (x.lastCall p).instant = (closing p.rules p.start (x.attempts p)).instant := by
    simp only [lastCall, expiresBy_of_none hdeadline, LastCall.instant]
  have hopen (t : Instant) : closing p.rules p.start (x.attempts p) ≠ .abandoned t :=
    closing_ne_abandoned hcalm t
  have hcloses := stop_le_closing hrules hopen a ha
  rw [← hlast, stop_of_mem_attempts hplaces ha] at hcloses
  exact ⟨ha, hlate, hlate.trans_le
    (Instant.time_le ((Instant.le_after _ _).trans hcloses))⟩

/-- Nobody who is called is left out of what takes place, but for those who are left no time. -/
theorem exists_invocation_of_call (hplaces : 0 ≤ x.places) {c : Call}
    (hc : c ∈ (x.runTier p).calls) :
    (∃ i ∈ (x.runTier p).invocations, i.call = c) ∨
      ∃ a ∈ x.attempts p, a.stay.begins = false ∧ c = ⟨a.agent.name, p.context, a.span.start⟩ := by
  obtain ⟨hcalls, hinvocations⟩ := runTier_until_lastCall (p := p) hplaces
  rw [hcalls] at hc
  obtain ⟨a, ha, hmade⟩ := List.mem_filterMap.mp hc
  obtain ⟨hallowed, rfl⟩ := Attempt.call?_eq_some.mp hmade
  cases hbegins : a.stay.begins with
  | false => exact Or.inr ⟨a, ha, hbegins, rfl⟩
  | true =>
    obtain ⟨i, hi⟩ := Attempt.exists_invocation? p.context hbegins hallowed
    rw [hinvocations]
    exact Or.inl ⟨i, List.mem_filterMap.mpr ⟨a, ha, hi⟩, (Attempt.call_of_invocation? hi).1⟩

/-- Everybody who is called and has any time is in flight from then on, until it is really
    done.  At no instant are there more of them than places, after the end of the tier no more
    than before.  Whoever is struck by its time limit stays on its place.  And while time moves
    on with somebody waiting, every place is in use; unless the tier settles for the first
    success or is cut short, an agent waits until it has its turn. -/
theorem runTier_places (hplaces : 1 ≤ x.places) :
    (x.attempts p).map Attempt.agent = p.agents ∧
    (∀ c ∈ (x.runTier p).calls, (∃ i ∈ (x.runTier p).invocations, i.call = c) ∨
      ∃ a ∈ x.attempts p, a.stay.begins = false ∧
        c = ⟨a.agent.name, p.context, a.span.start⟩) ∧
    (∀ t, ((x.runTier p).invocations.countP fun i => i.span.covers t : Int) ≤ x.places) ∧
    (∀ a ∈ x.attempts p, ∀ limit, a.stay.struck = some limit →
      a.span.start.after limit ≤ (x.lastCall p).instant → x.KeepsPlace p a limit) ∧
    (∀ time a, p.start.time ≤ time → x.Waits p time a →
      ((x.runTier p).invocations.countP fun i =>
        decide (i.span.start.time ≤ time ∧ time < i.span.stop.time) : Int) = x.places) ∧
    (p.rules.algorithm ≠ .firstWins → x.CalmIn p → p.deadline = none →
      ∀ time, ∀ a ∈ x.attempts p, time < a.span.start.time → x.Waits p time a) := by
  have hbounded (t : Instant) :
      ((x.runTier p).invocations.countP fun i => i.span.covers t : Int) ≤ x.places := by
    have hle := countP_invocations_crossing_le (p := p) hplaces (Cut.through t)
    simp only [Cut.crosses_through] at hle
    omega
  refine ⟨(attempts_scheduled hplaces).1, fun _ => exists_invocation_of_call (by omega),
    hbounded, ?_, ?_, fun hrules hcalm hdeadline _ _ ha =>
    waits_of_undisturbed hplaces hrules hcalm hdeadline ha⟩
  · intro a ha limit hstruck hlast
    obtain ⟨-, hlength⟩ := Behaviour.stay_of_struck hstruck
    have hmem : ⟨a.agent.name, p.context, a.span, some (a.span.start.after limit)⟩ ∈
        (x.runTier p).invocations := by
      rw [(runTier_until_lastCall (by omega)).2]
      exact List.mem_filterMap.mpr ⟨a, ha, Attempt.invocation?_of_struck hstruck hlast⟩
    obtain ⟨earlier, later, hsplit⟩ := List.append_of_mem hmem
    refine ⟨?_, earlier, later, hsplit, ?_⟩
    · rw [stop_of_mem_attempts hplaces ha]
      exact congrArg _ hlength
    · intro t ht
      have hall := hbounded t
      rw [hsplit, List.countP_append, List.countP_cons, if_pos ht] at hall
      rw [List.countP_append]
      push_cast at hall ⊢
      omega
  · rintro time a hstart ⟨ha, hlate, hcalls⟩
    have heq := countP_attempts_crossing_eq (c := Cut.whenMoving time) hplaces
      (decide_eq_true hstart) ha (decide_eq_false (not_le.mpr hlate))
    rw [← countP_invocations_moving hplaces hcalls] at heq
    have hsame : (fun i : Invocation => (Cut.whenMoving time).crosses i.span) =
        fun i => decide (i.span.start.time ≤ time ∧ time < i.span.stop.time) := by
      funext i
      rw [Bool.eq_iff_iff, Cut.crosses_iff]
      simp [Cut.whenMoving]
    rw [hsame] at heq
    omega

end Executor

/-- With one place, the second surveyor is late and lingers on it while the third waits. -/
theorem survey_one_by_one :
    let alone : Executor := { surveyors with places := 1 }
    ∃ late waiting,
      1 ≤ alone.places ∧ late ∈ alone.attempts survey ∧ late.stay.struck = some 60 ∧
      late.span.start.after 60 ≤ (alone.lastCall survey).instant ∧
      alone.KeepsPlace survey late 60 ∧
      survey.start.time ≤ 64 ∧ alone.Waits survey 64 waiting ∧
      (((alone.runTier survey).invocations.countP fun i =>
        decide (i.span.start.time ≤ 64 ∧ 64 < i.span.stop.time)) : Int) = alone.places := by
  intro alone
  have hplaces : 1 ≤ alone.places := by decide
  have hcount : (alone.attempts survey).length = 3 := by decide
  obtain ⟨-, -, -, hkeeps, hbusy, hturns⟩ := Executor.runTier_places (p := survey) hplaces
  have hlate : (alone.attempts survey)[1] ∈ alone.attempts survey := List.getElem_mem _
  have hstruck : (alone.attempts survey)[1].stay.struck = some 60 := by decide
  have hcalls : (alone.attempts survey)[1].span.start.after 60 ≤
      (alone.lastCall survey).instant := by
    decide +kernel
  have hcalm : alone.CalmIn survey := by
    unfold Executor.CalmIn
    decide +kernel
  have hwaits : alone.Waits survey 64 (alone.attempts survey)[2] :=
    hturns (by decide) hcalm rfl 64 _ (List.getElem_mem _) (by decide +kernel)
  exact ⟨_, _, hplaces, hlate, hstruck, hcalls, hkeeps _ hlate _ hstruck hcalls, by decide, hwaits,
    hbusy _ _ (by decide) hwaits⟩

/-- If the first answer settles it, the second surveyor takes over the only place as the tier
    ends, is cancelled, and lingers on it. -/
example :
    (({ surveyors with places := 1 } : Executor).runTier
      { survey with rules := { survey.rules with algorithm := .firstWins } }).invocations.map
        (fun i => (i.agent, i.span.start.time, i.span.stop.time)) =
      [("ada", 0, 2), ("bob", 2, 7)] := by
  decide +kernel

end Quorum

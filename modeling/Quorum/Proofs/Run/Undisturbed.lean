/-
  Quorum/Proofs/Run/Undisturbed.lean
  ==================================
  **Observers do not disturb a run.**

  A part of a watched run is compared with the function that does the same to a run that
  nobody watches.  What is announced adds notices and changes nothing else; what is done
  quietly leaves no event (`leads_announce`, `leads_quietly`).  So as long as observers raise
  nothing but ordinary problems, every part takes a run with an audience that knows all its
  notices to such a run again (`Mission.Leads`), and the whole run ends as if nobody had been
  there (`run_undisturbed`).
-/
import Quorum.Proofs.Run.Silent
import Quorum.Run.Watched

namespace Quorum

/-! ### Observers whose problems are ordinary -/

/-- Whatever the observers raise, it is no cancellation. -/
structure Callbacks.Contained (c : Callbacks) : Prop where
  progress : ∀ f ∈ c.progress, ∀ before message, f before message ≠ some .cancelled
  event : ∀ f ∈ c.event, ∀ before x, f before x ≠ some .cancelled

/-- An audience after a call of an observer that is no cancellation. -/
def Audience.hear (callback : Option (List Told → Option Problem)) (x : Told)
    (failure : String → LogEntry) (a : Audience) : Audience :=
  match callback with
  | none => a
  | some callback => (a.tell x).note ((callback a.told).toList.map fun p => failure p.text)

theorem Observers.callbacks_contained (o : Observers) : o.callbacks.Contained := by
  cases o <;> constructor <;> simp [Observers.callbacks, Callbacks.none]

namespace Watch

variable {α β : Type}

theorem exec_bind (x : Watch α) (f : α → Watch β) (w : Watched) :
    exec (x >>= f) w =
      match exec x w with
      | (.ok a, w') => exec (f a) w'
      | (.error halt, w') => (.error halt, w') := by
  unfold exec
  rw [ExceptT.run_bind, StateT.run_bind]
  rcases x.run.run w with ⟨outcome, w'⟩
  cases outcome with
  | ok a => rfl
  | error halt => rfl

theorem exec_call_some (f : List Told → Option Problem) (x : Told) (failure : String → LogEntry)
    (w : Watched) :
    exec (call (some f) x failure) w =
      exec (match f w.audience.told with
        | none => pure ()
        | some .cancelled => throw (.escaped .cancelled)
        | some p => modifyAudience (Audience.note [failure p.text]))
      { w with audience := w.audience.tell x } := rfl

theorem exec_call {callback : Option (List Told → Option Problem)} (x : Told)
    (failure : String → LogEntry)
    (hcallback : ∀ f ∈ callback, ∀ before, f before ≠ some .cancelled) (w : Watched) :
    exec (call callback x failure) w =
      (.ok (), { w with audience := w.audience.hear callback x failure }) := by
  cases callback with
  | none => rfl
  | some f =>
    have hf : f w.audience.told ≠ some .cancelled := hcallback f rfl w.audience.told
    rw [exec_call_some, Audience.hear]
    cases hraised : f w.audience.told with
    | none =>
      have hlog : (w.audience.tell x).log ++ [] = (w.audience.tell x).log := List.append_nil _
      simp only [Audience.note, Option.toList_none, List.map_nil, hlog]
      rfl
    | some p =>
      cases p with
      | cancelled => exact absurd hraised hf
      | timedOut text => rfl
      | fault fault => rfl
      | other kind text => rfl

end Watch

/-! ### Runs and their audience -/

namespace Journey

/-- Add notices. -/
def leaveAll (j : Journey) (ns : List Notice) : Journey := { j with notices := j.notices ++ ns }

/-- Notices have been added to a run, and nothing else has changed. -/
def Adds (j k : Journey) : Prop := ∃ ns, k = j.leaveAll ns

/-- A run has got further without an event. -/
def Logs (j k : Journey) : Prop :=
  ∃ entries : List LogEntry, k.notices = j.notices ++ entries.map .log

variable {j k l : Journey}

theorem Adds.trans (h : j.Adds k) (h' : k.Adds l) : j.Adds l := by
  obtain ⟨ns, rfl⟩ := h
  obtain ⟨more, rfl⟩ := h'
  exact ⟨ns ++ more, by simp [leaveAll]⟩

theorem note_adds (j : Journey) (entry : LogEntry) : j.Adds (j.note entry) := ⟨[.log entry], rfl⟩

theorem tell_adds (j : Journey) (type : EventType) (message : String) (tier : Option Int)
    (agent : Option String) (data : List (String × Value)) :
    j.Adds (j.tell type message tier agent data) := ⟨[.event _], rfl⟩

theorem foldl_adds {α : Type} {f : Journey → α → Journey} (hf : ∀ j a, Adds j (f j a))
    (items : List α) (j : Journey) : j.Adds (items.foldl f j) := by
  induction items generalizing j with
  | nil => exact ⟨[], by simp [leaveAll]⟩
  | cons a rest ih => exact (hf j a).trans (ih (f j a))

theorem Logs.of_eq (h : k.notices = j.notices) : j.Logs k := ⟨[], by simp [h]⟩

theorem note_logs (j : Journey) (entry : LogEntry) : j.Logs (j.note entry) := ⟨[entry], rfl⟩

theorem foldl_note_logs (entries : List LogEntry) (j : Journey) :
    j.Logs (entries.foldl Journey.note j) := by
  refine ⟨entries, ?_⟩
  induction entries generalizing j with
  | nil => simp
  | cons entry rest ih =>
    rw [List.foldl_cons, ih]
    simp [note]

end Journey

namespace Mission

open Watch

variable (m : Mission) (c : Callbacks)

/-- An audience after a message. -/
def hearMessage (message : String) (a : Audience) : Audience :=
  if message.isEmpty then a
  else
    a.hear (c.progress.map fun f before => f before message) (.message message)
      (progressFailure m.fleet.name)

/-- An audience after an event. -/
def hearEvent (e : Event) (a : Audience) : Audience :=
  let x : Emission := ⟨m.fleet.name, m.runId, e⟩
  a.hear (c.event.map fun f before => f before x) (.event x)
    (eventFailure m.fleet.name m.runId e.type)

/-- An audience after a notice. -/
def attend (a : Audience) : Notice → Audience
  | .log entry => a.note [entry]
  | .event e => m.hearEvent c e (m.hearMessage c e.message a)

/-- A run with an audience that knows all its notices. -/
def attended (j : Journey) : Watched := ⟨j, j.notices.foldl (m.attend c) ⟨[], []⟩⟩

/-- A part of a watched run takes it from one point to another, with a result. -/
def Leads {α : Type} (x : Watch α) (j k : Journey) (result : Except Halt α) : Prop :=
  exec x (m.attended c j) = (result, m.attended c k)

variable {m c} {α β : Type} {x : Watch α} {j k l : Journey}

theorem Leads.bind {a : α} {f : α → Watch β} {result : Except Halt β}
    (hx : m.Leads c x j k (.ok a)) (hf : m.Leads c (f a) k l result) :
    m.Leads c (x >>= f) j l result := by
  unfold Leads at *
  rw [exec_bind, hx]
  exact hf

theorem Leads.bind_halt {halt : Halt} (hx : m.Leads c x j k (.error halt)) (f : α → Watch β) :
    m.Leads c (x >>= f) j k (.error halt) := by
  unfold Leads at *
  rw [exec_bind, hx]

theorem leads_get {f : Watched → Watch β} {result : Except Halt β}
    (hf : m.Leads c (f (m.attended c j)) j k result) : m.Leads c (get >>= f) j k result := hf

theorem leads_pure (a : α) (j : Journey) : m.Leads c (pure a) j j (.ok a) := rfl

theorem leads_throw (halt : Halt) (j : Journey) :
    m.Leads c (throw halt : Watch α) j j (.error halt) := rfl

theorem attended_leave (j : Journey) (n : Notice) :
    m.attended c (j.leave n) = ⟨j.leave n, m.attend c (m.attended c j).audience n⟩ := by
  simp [attended, Journey.leave]

theorem exec_tellMessage (hc : c.Contained) (message : String) (w : Watched) :
    exec (m.tellMessage c message) w =
      (.ok (), { w with audience := m.hearMessage c message w.audience }) := by
  unfold tellMessage hearMessage
  split
  · rfl
  · refine exec_call _ _ ?_ w
    intro g hg
    obtain ⟨f, hf, rfl⟩ := Option.mem_map.mp hg
    exact fun before => hc.progress f hf before message

theorem exec_tellEvent (hc : c.Contained) (e : Event) (w : Watched) :
    exec (m.tellEvent c e) w = (.ok (), { w with audience := m.hearEvent c e w.audience }) := by
  refine exec_call _ _ ?_ w
  intro g hg
  obtain ⟨f, hf, rfl⟩ := Option.mem_map.mp hg
  exact fun before => hc.event f hf before _

theorem exec_emit (hc : c.Contained) (e : Event) (w : Watched) :
    exec (m.emit c e) w =
      (.ok (), ⟨w.journey.leave (.event e), m.attend c w.audience (.event e)⟩) := by
  have hhappen : exec (modify fun w => { w with journey := w.journey.leave (.event e) }) w =
      (.ok (), { w with journey := w.journey.leave (.event e) }) := rfl
  unfold emit
  rw [exec_bind, hhappen]
  simp only
  rw [exec_bind, exec_tellMessage hc]
  exact exec_tellEvent hc e _

theorem leads_deliver (hc : c.Contained) (j : Journey) (n : Notice) :
    m.Leads c (m.deliver c n) j (j.leave n) (.ok ()) := by
  unfold Leads
  rw [attended_leave]
  cases n with
  | log entry => rfl
  | event e => exact exec_emit hc e _

theorem leads_deliver_all (hc : c.Contained) (ns : List Notice) (j : Journey) :
    m.Leads c (forM ns (m.deliver c)) j (j.leaveAll ns) (.ok ()) := by
  induction ns generalizing j with
  | nil =>
    rw [Journey.leaveAll, List.append_nil]
    exact leads_pure () j
  | cons n rest ih =>
    have hleave : j.leaveAll (n :: rest) = (j.leave n).leaveAll rest := by
      simp [Journey.leaveAll, Journey.leave]
    rw [hleave, List.forM_cons]
    exact (leads_deliver hc j n).bind (f := fun _ => forM rest (m.deliver c)) (ih (j.leave n))

/-- Something that adds notices to a run and changes nothing else is announced as it stands. -/
theorem leads_announce (hc : c.Contained) {f : Journey → Journey} (hf : j.Adds (f j)) :
    m.Leads c (m.announce c f) j (f j) (.ok ()) := by
  obtain ⟨ns, hns⟩ := hf
  have hnotices : (m.attended c j).journey.noticesSince (f (m.attended c j).journey) = ns := by
    show (f j).notices.drop j.notices.length = ns
    rw [hns]
    exact List.drop_left
  refine leads_get ?_
  simp only [hnotices]
  rw [hns]
  exact leads_deliver_all hc ns j

theorem foldl_attend_entries (entries : List LogEntry) (a : Audience) :
    (entries.map .log).foldl (m.attend c) a = a.note entries := by
  induction entries generalizing a with
  | nil => simp [Audience.note]
  | cons entry rest ih =>
    rw [List.map_cons, List.foldl_cons, ih]
    simp [attend, Audience.note]

/-- A step without an event leaves its log entries with the audience. -/
theorem exec_quietly (f : Journey → Journey × Except Halt α) (w : Watched) :
    exec (quietly f) w = ((f w.journey).2, ⟨(f w.journey).1, w.audience.note
      ((w.journey.noticesSince (f w.journey).1).flatMap (Observers.absent.entriesOf "" ""))⟩) := by
  cases hf : f w.journey with
  | mk k result =>
    have hquietly (r : Journey × Except Halt α) (hr : f w.journey = r) :
        exec (quietly f) w = exec (quietly fun _ => r) w := by
      subst hr
      rfl
    rw [hquietly _ hf]
    cases result with
    | ok a => rfl
    | error halt => rfl

/-- Something that is done without an event tells nobody anything. -/
theorem leads_quietly {f : Journey → Journey × Except Halt α} (hf : j.Logs (f j).1) :
    m.Leads c (quietly f) j (f j).1 (f j).2 := by
  obtain ⟨entries, hentries⟩ := hf
  have hlogged : (j.noticesSince (f j).1).flatMap (Observers.absent.entriesOf "" "") = entries := by
    unfold Journey.noticesSince
    rw [hentries, List.drop_left]
    simp [List.flatMap_map, Observers.entriesOf]
  have hattended : m.attended c (f j).1 = ⟨(f j).1, (m.attended c j).audience.note entries⟩ := by
    unfold attended
    rw [hentries, List.foldl_append, foldl_attend_entries]
  unfold Leads
  rw [exec_quietly, hattended]
  show ((f j).2, (⟨(f j).1, (m.attended c j).audience.note
    ((j.noticesSince (f j).1).flatMap (Observers.absent.entriesOf "" ""))⟩ : Watched)) = _
  rw [hlogged]

/-- A part of a watched run takes it from one point to where a function does, and stops it if the
    function does. -/
def Arrives (m : Mission) (c : Callbacks) (x : Watch Unit) (j : Journey)
    (reached : Journey × Option Halt) : Prop :=
  m.Leads c x j (haltable (fun _ => reached) j).1 (haltable (fun _ => reached) j).2

/-! ### Tiers -/

theorem announceFailures_adds (e : Execution) (j : Journey) : j.Adds (announceFailures e j) :=
  Journey.foldl_adds (fun j _ => j.tell_adds _ _ _ _ _) _ j

theorem announceVerdict_adds (report : TierReport) (j : Journey) :
    j.Adds (announceVerdict report j) := by
  unfold announceVerdict
  simp only
  split
  · exact (j.tell_adds _ _ _ _ _).trans (Journey.tell_adds _ _ _ _ _ _)
  · exact j.tell_adds _ _ _ _ _

theorem noteExhaustion_logs (p : TierPlan) (status : TierStatus) (j : Journey) :
    j.Logs (noteExhaustion p status j) := by
  unfold noteExhaustion
  split
  · exact j.note_logs _
  · exact .of_eq rfl

theorem review_logs (deadline : Option Instant) (pending : TierReport) (j : Journey) :
    j.Logs (m.review deadline pending j).1 := by
  have hends := m.review_ends deadline pending j
  generalize (m.review deadline pending j).1 = k at hends ⊢
  generalize (m.review deadline pending j).2 = outcome at hends
  cases hends with
  | unasked => exact .of_eq rfl
  | judged => exact Journey.foldl_note_logs _ (afterAsking _ pending j)
  | cancelled => exact .of_eq rfl
  | expired => exact .of_eq rfl

theorem enter_logs (e : Execution) (report : TierReport) (j : Journey) :
    j.Logs (m.enter e report j).1 := by
  unfold enter
  split
  · exact .of_eq rfl
  · rename_i hrecord
    unfold record at hrecord
    split at hrecord
    · cases hrecord
      exact .of_eq rfl
    · cases hrecord

theorem watchSettling_leads (hc : c.Contained) (deadline : Option Instant) (p : TierPlan)
    (e : Execution) (j : Journey) :
    m.Arrives c (m.watchSettling c deadline p e) j (m.settle deadline p e j) := by
  have hfailures : m.Leads c (m.announce c (announceFailures e)) j
      (announceFailures e j) (.ok ()) :=
    leads_announce hc (announceFailures_adds e j)
  have hexhausted : m.Leads c
      (quietly (steady (noteExhaustion p e.verdict.status))) (announceFailures e j)
      (beforeReview p e j) (.ok ()) :=
    leads_quietly (f := steady (noteExhaustion p e.verdict.status)) (noteExhaustion_logs p _ _)
  have hreview : m.Leads c (quietly (m.review deadline (pendingReport p e))) (beforeReview p e j)
      (m.review deadline (pendingReport p e) (beforeReview p e j)).1
      (m.review deadline (pendingReport p e) (beforeReview p e j)).2 :=
    leads_quietly (review_logs deadline _ _)
  rw [settle_eq]
  refine hfailures.bind (hexhausted.bind ?_)
  cases hreviewed : m.review deadline (pendingReport p e) (beforeReview p e j) with
  | mk k outcome =>
    rw [hreviewed] at hreview
    cases outcome with
    | error halt => exact hreview.bind_halt _
    | ok reviewed =>
      refine hreview.bind ?_
      simp only
      generalize e.report p.rules reviewed.status reviewed.error = report
      have henter : m.Leads c (quietly (m.enter e report)) k (m.enter e report k).1
          (m.enter e report k).2 := leads_quietly (enter_logs e report k)
      unfold enter at henter
      cases hrecord : m.record e report k with
      | error why =>
        simp only [hrecord] at henter
        exact henter.bind_halt _
      | ok i =>
        simp only [hrecord] at henter
        refine henter.bind ((leads_announce hc (announceVerdict_adds report i)).bind ?_)
        exact leads_quietly (f := haltable fun j => (j, m.haltAfter p report)) (.of_eq rfl)

theorem work_logs (p : TierPlan) (j : Journey) : j.Logs (m.work p j).1 :=
  Journey.foldl_note_logs (m.executor.runTier p).log j

theorem watchTier_leads (hc : c.Contained) (deadline : Option Instant) (tier : Int) (j : Journey) :
    m.Arrives c (m.watchTier c deadline tier) j (m.runTier deadline tier j) := by
  have hannounce : m.Leads c (m.announce c (announceTier (m.plan deadline tier j))) j
      (announceTier (m.plan deadline tier j) j) (.ok ()) :=
    leads_announce hc (j.tell_adds _ _ _ _ _)
  have hwork : m.Leads c (quietly (m.work (m.plan deadline tier j)))
      (announceTier (m.plan deadline tier j) j) (m.afterExecutor deadline tier j)
      (outcomeOf (m.executor.runTier (m.plan deadline tier j)).ending) :=
    leads_quietly (f := m.work (m.plan deadline tier j)) (work_logs _ _)
  refine leads_get (hannounce.bind ?_)
  cases hending : (m.executor.runTier (m.plan deadline tier j)).ending with
  | expired =>
    rw [hending] at hwork
    rw [m.runTier_of_expired hending]
    exact hwork.bind_halt _
  | escaped why =>
    rw [hending] at hwork
    rw [m.runTier_of_escaped hending]
    exact hwork.bind_halt _
  | evaluated e =>
    rw [hending] at hwork
    rw [m.runTier_of_evaluated hending]
    exact hwork.bind (watchSettling_leads hc deadline _ e _)

theorem runTiers_leads (hc : c.Contained) (deadline : Option Instant) (tiers : List Int)
    (j : Journey) :
    m.Arrives c (forM tiers (m.watchNext c deadline)) j (m.runTiers deadline tiers j) := by
  induction tiers generalizing j with
  | nil => exact leads_pure () j
  | cons tier rest ih =>
    rw [List.forM_cons, watchNext]
    cases hwritten : Value.hasNumeral tier with
    | false =>
      rw [runTiers_of_unwritten hwritten, if_neg Bool.false_ne_true]
      exact (leads_throw _ j).bind_halt _
    | true =>
      have htier := watchTier_leads (m := m) hc deadline tier j
      rw [if_pos rfl]
      cases hrun : m.runTier deadline tier j with
      | mk k h =>
        rw [hrun] at htier
        cases h with
        | some halt =>
          rw [runTiers_of_halt hwritten hrun]
          exact htier.bind_halt _
        | none =>
          rw [runTiers_of_passed hwritten hrun]
          exact htier.bind (ih k)

/-! ### The answer -/

theorem consult_logs (deadline : Option Instant) (manager : Agent) (j : Journey) :
    j.Logs (m.consult deadline manager j).1 := by
  unfold consult
  simp only
  split
  · exact .of_eq rfl
  · split
    · exact .of_eq rfl
    · exact Journey.note_logs _ _

/-- Once the manager is announced, it is asked. -/
theorem consult_announced {manager : Agent} (hmanager : m.fleet.manager? = some manager)
    (deadline : Option Instant) (j : Journey) :
    m.synthesize deadline j = m.consult deadline manager (announceSynthesis manager j) := by
  unfold synthesize
  rw [hmanager]
  rfl

theorem watchSynthesis_leads (hc : c.Contained) (deadline : Option Instant) (j : Journey) :
    m.Arrives c (m.watchSynthesis c deadline) j (m.synthesize deadline j) := by
  unfold watchSynthesis
  cases hmanager : m.fleet.manager? with
  | none =>
    unfold synthesize
    rw [hmanager]
    exact leads_throw _ j
  | some manager =>
    have hannounce : m.Leads c (m.announce c (announceSynthesis manager)) j
        (announceSynthesis manager j) (.ok ()) :=
      leads_announce hc (j.tell_adds _ _ _ _ _)
    rw [consult_announced hmanager]
    exact hannounce.bind (leads_quietly (f := haltable (m.consult deadline manager))
      (consult_logs deadline manager _))

theorem aggregate_logs (j : Journey) : j.Logs (m.aggregate j) := by
  unfold aggregate
  split
  · exact .of_eq rfl
  · exact Journey.note_logs _ _

theorem watchExecution_leads (hc : c.Contained) (deadline : Option Instant) (j : Journey) :
    m.Arrives c (m.watchExecution c deadline) j (m.execute deadline j) := by
  have htiers := runTiers_leads (m := m) hc deadline m.fleet.votingTiers j
  unfold watchExecution execute
  cases hrun : m.runTiers deadline m.fleet.votingTiers j with
  | mk k h =>
    rw [hrun] at htiers
    cases h with
    | some halt => exact htiers.bind_halt _
    | none =>
      refine htiers.bind ?_
      by_cases hsynthesizes : m.fleet.synthesizes = true
      · simp only [if_pos hsynthesizes]
        exact watchSynthesis_leads hc deadline k
      · simp only [if_neg hsynthesizes]
        exact leads_quietly (f := steady m.aggregate) (aggregate_logs k)

theorem watchWithin_leads (hc : c.Contained) (given : Option Number) (j : Journey) :
    m.Arrives c (m.watchWithin c given) j (m.executeWithin given j) := by
  unfold watchWithin executeWithin
  cases expiryOf given with
  | none => exact watchExecution_leads hc none j
  | some d =>
    by_cases htime : d ≤ 0
    · simp only [if_pos htime]
      exact leads_throw _ j
    · simp only [if_neg htime]
      exact watchExecution_leads hc _ j

/-! ### Runs -/

theorem announceStart_adds (given : Option Number) (j : Journey) :
    j.Adds (m.announceStart given j) := (j.note_adds _).trans (Journey.tell_adds _ _ _ _ _ _)

theorem announceDone_adds (j : Journey) : j.Adds (m.announceDone j) :=
  (j.note_adds _).trans (Journey.tell_adds _ _ _ _ _ _)

theorem announceFailure_adds (f : Fault) (j : Journey) : j.Adds (m.announceFailure f j) :=
  (j.note_adds _).trans (Journey.tell_adds _ _ _ _ _ _)

theorem watchFailure_leads (hc : c.Contained) (task : Value) (f : Fault) (j : Journey) :
    m.Leads c (m.watchFailure c task f) j (m.announceFailure f j)
      (.ok (m.report task .failed (some f.message) (m.announceFailure f j))) :=
  (leads_announce hc (announceFailure_adds f j)).bind rfl

/-- An attempt at a part of a run goes on with what it comes to. -/
theorem Leads.attempt {f : Except Halt α → Watch β} {outcome : Except Halt α}
    {result : Except Halt β} (hx : m.Leads c x j k outcome)
    (hf : m.Leads c (f outcome) k l result) :
    m.Leads c (ExceptT.lift x.run >>= f) j l result := by
  have hlift : exec (ExceptT.lift x.run) (m.attended c j) = (.ok outcome, m.attended c k) := by
    have hlift : exec (ExceptT.lift x.run) (m.attended c j) =
        (.ok (exec x (m.attended c j)).1, (exec x (m.attended c j)).2) := by
      unfold exec
      rfl
    rw [hlift, hx]
  unfold Leads at *
  rw [exec_bind, hlift]
  exact hf

theorem watchRun_leads (hc : c.Contained) (task : Value) (given : Option Number) :
    ∃ result, m.Leads c (m.watchRun c task given) (Journey.atStart task m.start)
      (m.run task given).journey result ∧
      result.mapError Halt.escape = (m.run task given).ending := by
  have hstart := leads_announce (m := m) hc
    (announceStart_adds (m := m) given (Journey.atStart task m.start))
  have hwithin := watchWithin_leads (m := m) hc given
    (m.announceStart given (Journey.atStart task m.start))
  obtain ⟨j, h, hrun, hends⟩ := run_ends m task given
  rw [hrun] at hwithin
  generalize m.run task given = run at hends ⊢
  unfold watchRun
  cases hends with
  | done =>
    have hdone : m.Leads c (m.announce c m.announceDone) j (m.announceDone j) (.ok ()) :=
      leads_announce hc (announceDone_adds j)
    refine ⟨.ok (m.report task .done none (m.announceDone j)),
      hstart.bind (hwithin.attempt ?_), rfl⟩
    exact hdone.bind rfl
  | @failed halt f hfault =>
    have hfailed := watchFailure_leads (m := m) hc task f j
    refine ⟨.ok (m.report task .failed (some f.message) (m.announceFailure f j)),
      hstart.bind (hwithin.attempt ?_), rfl⟩
    cases halt with
    | failed f' =>
      cases hfault
      exact hfailed
    | expired =>
      cases given with
      | none => cases hfault
      | some d =>
        cases hfault
        exact hfailed
    | escaped why => cases hfault
  | @brokenOff halt hfault =>
    cases halt with
    | failed f => cases hfault
    | expired =>
      cases given with
      | none => exact ⟨_, hstart.bind (hwithin.attempt (leads_throw _ j)), rfl⟩
      | some d => cases hfault
    | escaped why => exact ⟨_, hstart.bind (hwithin.attempt (leads_throw _ j)), rfl⟩

/-- **A run that is watched by contained observers is the run that nobody watches.** -/
theorem watch_eq (hc : c.Contained) (task : Value) (given : Option Number) :
    m.watch c task given =
      ⟨m.run task given, (m.attended c (m.run task given).journey).audience⟩ := by
  obtain ⟨result, hleads, hending⟩ := watchRun_leads (m := m) hc task given
  have hstart : m.attended c (Journey.atStart task m.start) =
      ⟨Journey.atStart task m.start, ⟨[], []⟩⟩ := rfl
  unfold Leads at hleads
  unfold watch
  rw [← hstart, hleads]
  simp only [hending]
  rfl

/-! ### What the audience is told -/

theorem foldl_appends {α β γ : Type} {f : α → β → α} {g : α → List γ} {h : β → List γ}
    (hf : ∀ a b, g (f a b) = g a ++ h b) (items : List β) (a : α) :
    g (items.foldl f a) = g a ++ items.flatMap h := by
  induction items generalizing a with
  | nil => simp
  | cons b rest ih => rw [List.foldl_cons, ih, hf, List.flatMap_cons, List.append_assoc]

theorem told_hear (callback : Option (List Told → Option Problem)) (x : Told)
    (failure : String → LogEntry) (a : Audience) :
    (a.hear callback x failure).told = a.told ++ if callback.isSome then [x] else [] := by
  cases callback with
  | none => simp [Audience.hear]
  | some f => rfl

theorem told_hearMessage (message : String) (a : Audience) :
    (m.hearMessage c message a).told = a.told ++
      if c.progress.isSome && !message.isEmpty then [.message message] else [] := by
  unfold hearMessage
  by_cases hmessage : message.isEmpty
  · simp [hmessage]
  · simp [hmessage, told_hear]

theorem told_hearEvent (e : Event) (a : Audience) :
    (m.hearEvent c e a).told = a.told ++
      if c.event.isSome then [.event ⟨m.fleet.name, m.runId, e⟩] else [] := by
  simp [hearEvent, told_hear]

theorem messages_attend (a : Audience) (n : Notice) :
    (m.attend c a n).messages = a.messages ++
      if c.progress.isSome then (Observers.attentive.eventsOf n).flatMap Event.progress
      else [] := by
  cases n with
  | log entry => simp [attend, Audience.note, Audience.messages, Observers.eventsOf]
  | event e =>
    simp only [attend, Audience.messages, told_hearEvent, told_hearMessage, Observers.eventsOf,
      List.filterMap_append, List.flatMap_singleton, Event.progress]
    cases c.progress <;> cases c.event <;> by_cases hmessage : e.message = "" <;> simp [hmessage]

theorem events_attend (a : Audience) (n : Notice) :
    (m.attend c a n).events = a.events ++
      if c.event.isSome then
        (Observers.attentive.eventsOf n).map fun e => ⟨m.fleet.name, m.runId, e⟩
      else [] := by
  cases n with
  | log entry => simp [attend, Audience.note, Audience.events, Observers.eventsOf]
  | event e =>
    simp only [attend, Audience.events, told_hearEvent, told_hearMessage, Observers.eventsOf,
      List.filterMap_append]
    cases c.progress <;> cases c.event <;> by_cases hmessage : e.message = "" <;> simp [hmessage]

theorem log_attend (o : Observers) (a : Audience) (n : Notice) :
    (m.attend o.callbacks a n).log = a.log ++ o.entriesOf m.fleet.name m.runId n := by
  cases n with
  | log entry => rfl
  | event e =>
    simp only [attend, hearEvent, hearMessage, Observers.entriesOf, Event.failureEntries,
      Event.progress]
    by_cases hmessage : e.message.isEmpty
    · cases o <;> simp [hmessage, Audience.hear, Audience.note, Audience.tell, Observers.callbacks,
        Callbacks.none, Problem.text]
    · cases o <;> simp [hmessage, Audience.hear, Audience.note, Audience.tell, Observers.callbacks,
        Callbacks.none, Problem.text]

theorem messages_attended (j : Journey) : (m.attended c j).audience.messages =
    if c.progress.isSome then j.events.flatMap Event.progress else [] := by
  unfold attended
  simp only
  rw [foldl_appends (messages_attend (m := m) (c := c))]
  cases c.progress <;> simp [Audience.messages, Journey.events, List.flatMap_assoc]

theorem events_attended (j : Journey) : (m.attended c j).audience.events =
    if c.event.isSome then j.events.map fun e => ⟨m.fleet.name, m.runId, e⟩ else [] := by
  unfold attended
  simp only
  rw [foldl_appends (events_attend (m := m) (c := c))]
  cases c.event <;> simp [Audience.events, Journey.events, List.map_flatMap]

/-- What simple observers are left with is what they make of the notices of the run. -/
theorem watch_record (m : Mission) (o : Observers) (task : Value) (given : Option Number) :
    o.watch m.fleet.name m.runId (m.run task given).journey.notices =
      ⟨(m.watch o.callbacks task given).audience.messages,
        (m.watch o.callbacks task given).audience.events.map Emission.event,
        (m.watch o.callbacks task given).audience.log⟩ := by
  rw [watch_eq o.callbacks_contained, messages_attended, events_attended, attended]
  simp only
  rw [foldl_appends (log_attend o)]
  unfold Observers.watch Journey.events
  cases o with
  | attentive => simp [Observers.callbacks, Function.comp_def]
  | failing text =>
    have hsame : (Observers.failing text).eventsOf = Observers.attentive.eventsOf := by
      funext n
      cases n <;> rfl
    simp [hsame, Observers.callbacks, Function.comp_def]
  | absent =>
    have hnothing : Observers.absent.eventsOf = fun _ => [] := by
      funext n
      cases n <;> rfl
    simp [hnothing, Observers.callbacks, Callbacks.none]

theorem exec_emit_of_cancelled {f : List Told → String → Option Problem}
    (hf : c.progress = some f) {e : Event} (hmessage : e.message.isEmpty = false) {w : Watched}
    (hcancelled : f w.audience.told e.message = some .cancelled) :
    exec (m.emit c e) w = (.error (.escaped .cancelled),
      ⟨w.journey.leave (.event e), w.audience.tell (.message e.message)⟩) := by
  have htell : exec (m.tellMessage c e.message) ⟨w.journey.leave (.event e), w.audience⟩ =
      (.error (.escaped .cancelled),
        ⟨w.journey.leave (.event e), w.audience.tell (.message e.message)⟩) := by
    unfold tellMessage
    rw [hmessage, hf]
    simp only [Option.map_some, Bool.false_eq_true, if_false]
    rw [exec_call_some, hcancelled]
    rfl
  have hhappen : exec (modify fun w => { w with journey := w.journey.leave (.event e) }) w =
      (.ok (), ⟨w.journey.leave (.event e), w.audience⟩) := rfl
  unfold emit
  rw [exec_bind, hhappen]
  simp only
  rw [exec_bind, htell]

/-- A cancellation is not contained: an observer who raises one at the first message of a run
    breaks the run off before anybody is called. -/
theorem watch_of_cancelled {f : List Told → String → Option Problem} (hf : c.progress = some f)
    (hcancelled : f [] s!"Starting fleet {m.fleet.name}..." = some .cancelled) (task : Value)
    (given : Option Number) :
    (m.watch c task given).run =
      ⟨.error .cancelled, m.announceStart given (Journey.atStart task m.start)⟩ := by
  obtain ⟨entry, e, hnotices, hstarted, hmessage⟩ : ∃ entry e,
      (Journey.atStart task m.start).noticesSince
        (m.announceStart given (Journey.atStart task m.start)) = [.log entry, .event e] ∧
      m.announceStart given (Journey.atStart task m.start) =
        ((Journey.atStart task m.start).leave (.log entry)).leave (.event e) ∧
      e.message = s!"Starting fleet {m.fleet.name}..." := ⟨_, _, rfl, rfl, rfl⟩
  have hnonempty : e.message.isEmpty = false := by
    have hne : s!"Starting fleet {m.fleet.name}..." ≠ "" :=
      append_ne_empty (append_ne_empty (by decide))
    rw [hmessage]
    simpa using hne
  have hemit := exec_emit_of_cancelled (m := m) hf hnonempty
    (w := ⟨(Journey.atStart task m.start).leave (.log entry), ⟨[], [entry]⟩⟩)
    (hmessage ▸ hcancelled)
  have hannounce : exec (m.announce c (m.announceStart given))
        ⟨Journey.atStart task m.start, ⟨[], []⟩⟩ =
      exec (forM ((Journey.atStart task m.start).noticesSince
          (m.announceStart given (Journey.atStart task m.start))) (m.deliver c))
        ⟨Journey.atStart task m.start, ⟨[], []⟩⟩ := rfl
  have hdeliver : exec (m.deliver c (.log entry)) ⟨Journey.atStart task m.start, ⟨[], []⟩⟩ =
      (.ok (), ⟨(Journey.atStart task m.start).leave (.log entry), ⟨[], [entry]⟩⟩) := rfl
  rw [hnotices, List.forM_cons, exec_bind, hdeliver] at hannounce
  simp only [List.forM_cons] at hannounce
  rw [exec_bind, deliver, hemit] at hannounce
  unfold watch watchRun
  rw [exec_bind, hannounce, hstarted]
  rfl

end Mission

/-- Observers who raise something at every message and at most events. -/
def restless : Callbacks where
  progress := some fun _ _ => some (.timedOut "terminal is slow")
  event := some fun before _ =>
    if before.length % 3 = 0 then none else some (.other "RuntimeError" "display is lost")

theorem restless_contained : restless.Contained := by
  constructor
  · rintro f ⟨⟩ before message
    simp
  · rintro f ⟨⟩ before x
    by_cases hlength : before.length % 3 = 0 <;> simp [hlength]

end Quorum

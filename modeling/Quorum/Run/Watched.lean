/-
  Quorum/Run/Watched.lean
  =======================
  **A run with its observers in the room.**

  `Mission.run` leaves notices and calls nobody but agents and reviewers.  Here the observers
  are called while the run is on: at every event, before anything else happens, first with
  its message and then with the event itself.  They may raise something.  An ordinary problem
  ends where the observer was called, with a warning in the log; a cancellation is not caught
  there and breaks the run off.  What an observer does may depend on all that observers have
  been told before; it takes no time on the clock of the run.
-/
import Quorum.Run.FleetRun

namespace Quorum

/-! ### Observers that are called -/

/-- What an observer can be told. -/
inductive Told where
  | message (text : String)
  | event (e : Emission)

/-- What observers do when they are called, after all that has been told before: they return,
    or they raise a problem.  Each of the two may be missing. -/
structure Callbacks where
  progress : Option (List Told → String → Option Problem)
  event : Option (List Told → Emission → Option Problem)

def Callbacks.none : Callbacks := ⟨.none, .none⟩

def Observers.callbacks : Observers → Callbacks
  | .attentive => ⟨some fun _ _ => .none, some fun _ _ => .none⟩
  | .failing text =>
    ⟨some fun _ _ => some (.other "RuntimeError" text),
      some fun _ _ => some (.other "RuntimeError" text)⟩
  | .absent => .none

/-- What observers have been told, and what has been logged. -/
structure Audience where
  told : List Told
  log : List LogEntry

namespace Audience

def tell (x : Told) (a : Audience) : Audience := { a with told := a.told ++ [x] }

def note (entries : List LogEntry) (a : Audience) : Audience := { a with log := a.log ++ entries }

def messages (a : Audience) : List String :=
  a.told.filterMap fun
    | .message text => some text
    | .event _ => none

def events (a : Audience) : List Emission :=
  a.told.filterMap fun
    | .message _ => none
    | .event x => some x

end Audience

structure Watched where
  journey : Journey
  audience : Audience

/-- A part of a watched run.  It may stop the run. -/
abbrev Watch := ExceptT Halt (StateM Watched)

/-! ### Steps of a watched run -/

def Journey.leave (j : Journey) (n : Notice) : Journey := { j with notices := j.notices ++ [n] }

def Journey.noticesSince (before after : Journey) : List Notice :=
  after.notices.drop before.notices.length

namespace Watch

def exec {α : Type} (x : Watch α) (w : Watched) : Except Halt α × Watched := (x.run.run w).run

def modifyAudience (f : Audience → Audience) : Watch Unit :=
  modify fun w => { w with audience := f w.audience }

/-- Call an observer, if there is one.  Whatever it raises is logged and goes no further,
    unless it is a cancellation. -/
def call (callback : Option (List Told → Option Problem)) (x : Told)
    (failure : String → LogEntry) : Watch Unit := do
  match callback with
  | none => pure ()
  | some callback =>
    let before := (← get).audience.told
    modifyAudience (Audience.tell x)
    match callback before with
    | none => pure ()
    | some .cancelled => throw (.escaped .cancelled)
    | some p => modifyAudience (Audience.note [failure p.text])

/-- Take a step at which nobody is told anything. -/
def quietly {α : Type} (f : Journey → Journey × Except Halt α) : Watch α := do
  let w ← get
  let (j, result) := f w.journey
  let entries := (w.journey.noticesSince j).flatMap (Observers.absent.entriesOf "" "")
  set (⟨j, w.audience.note entries⟩ : Watched)
  match result with
  | .ok a => pure a
  | .error halt => throw halt

/-- A step that cannot stop the run. -/
def steady (f : Journey → Journey) (j : Journey) : Journey × Except Halt Unit := (f j, .ok ())

def haltable (f : Journey → Journey × Option Halt) (j : Journey) : Journey × Except Halt Unit :=
  ((f j).1, match (f j).2 with
    | none => .ok ()
    | some halt => .error halt)

end Watch

namespace Mission

open Watch (call quietly steady haltable)

variable (m : Mission) (c : Callbacks)

/-- Tell the observers a message, if there is one. -/
def tellMessage (message : String) : Watch Unit :=
  if message.isEmpty then pure ()
  else
    call (c.progress.map fun f before => f before message) (.message message)
      (progressFailure m.fleet.name)

def tellEvent (e : Event) : Watch Unit :=
  let x : Emission := ⟨m.fleet.name, m.runId, e⟩
  call (c.event.map fun f before => f before x) (.event x)
    (eventFailure m.fleet.name m.runId e.type)

/-- Let something happen, and tell the observers: first its message, then the event. -/
def emit (e : Event) : Watch Unit := do
  modify fun w => { w with journey := w.journey.leave (.event e) }
  m.tellMessage c e.message
  m.tellEvent c e

/-- Log an entry, or tell the observers of an event. -/
def deliver : Notice → Watch Unit
  | .log entry => modify fun w =>
      ⟨w.journey.leave (.log entry), w.audience.note [entry]⟩
  | .event e => m.emit c e

/-- Make the announcements that something adds to a run, one after the other. -/
def announce (f : Journey → Journey) : Watch Unit := do
  let j := (← get).journey
  forM (j.noticesSince (f j)) (m.deliver c)

/-! ### Tiers -/

/-- What the end of a tier means to its run. -/
def outcomeOf : TierEnd → Except Halt Execution
  | .expired => .error .expired
  | .escaped why => .error (.escaped why)
  | .evaluated e => .ok e

def work (p : TierPlan) (j : Journey) : Journey × Except Halt Execution :=
  let run := m.executor.runTier p
  ({ run.log.foldl Journey.note j with
      clock := run.finished
      invocations := j.invocations ++ run.invocations
      calls := j.calls ++ run.calls }, outcomeOf run.ending)

def enter (e : Execution) (report : TierReport) (j : Journey) : Journey × Except Halt Unit :=
  match m.record e report j with
  | .error why => (j, .error (.escaped why))
  | .ok j => (j, .ok ())

/-- Take an execution to its end: review, record, announcements. -/
def watchSettling (deadline : Option Instant) (p : TierPlan) (e : Execution) : Watch Unit := do
  m.announce c (announceFailures e)
  let status := e.verdict.status
  let error :=
    if status == .noData then some (exhaustedFault p.tier p.agents.length).message else none
  quietly (steady (noteExhaustion p status))
  let reviewed ← quietly (m.review deadline (e.report p.rules status error))
  let report := e.report p.rules reviewed.status reviewed.error
  quietly (m.enter e report)
  m.announce c (announceVerdict report)
  quietly (haltable fun j => (j, m.haltAfter p report))

def watchTier (deadline : Option Instant) (tier : Int) : Watch Unit := do
  let p := m.plan deadline tier (← get).journey
  m.announce c (announceTier p)
  let e ← quietly (m.work p)
  m.watchSettling c deadline p e

/-- Run a tier if its number is written out. -/
def watchNext (deadline : Option Instant) (tier : Int) : Watch Unit :=
  if Value.hasNumeral tier then m.watchTier c deadline tier else throw (.escaped .noNumeral)

/-! ### The answer -/

def announceSynthesis (manager : Agent) (j : Journey) : Journey :=
  j.tell .synthesisStarted s!"Manager {manager.name} synthesizing findings..."
    none (some manager.name)

def consult (deadline : Option Instant) (manager : Agent) (j : Journey) : Journey × Option Halt :=
  let limit := m.executor.timeoutFor manager (m.fleet.coordination.rulesFor manager.tier)
  let behaviour := m.executor.conduct manager j.context 0
  let stop := j.clock.after (behaviour.stay limit).length
  let attempt : Attempt := ⟨manager, limit, behaviour, ⟨j.clock, stop⟩⟩
  let called (last : LastCall) := { j with
    invocations := j.invocations ++ (attempt.invocation? j.context last).toList
    calls := j.calls ++ (attempt.call? j.context last).toList }
  match deadline.filter fun d => decide (d ≤ stop) with
  | some d => ({ called (.before d) with clock := attempt.givenUpAt d }, some .expired)
  | none =>
    let j := { called (.through stop) with clock := stop }
    match synthesisOf manager.name limit attempt.stay.ending with
    | .error halt => (j, some halt)
    | .ok answer =>
      let j := { j with answer := answer, synthesisAgent := some manager.name }
      (j.note ⟨.info, "synthesis_completed",
        [("fleet", .text m.fleet.name), ("manager", .text manager.name)]⟩, none)

/-- Have the manager write the answer, if there is one. -/
def watchSynthesis (deadline : Option Instant) : Watch Unit :=
  match m.fleet.manager? with
  | none => throw (.failed (Fault.make .synthesis "No manager agent available for synthesis"))
  | some manager => do
    m.announce c (announceSynthesis manager)
    quietly (haltable (m.consult deadline manager))

/-- All of a run that a deadline can cut short. -/
def watchExecution (deadline : Option Instant) : Watch Unit := do
  forM m.fleet.votingTiers (m.watchNext c deadline)
  if m.fleet.synthesizes then m.watchSynthesis c deadline
  else quietly (steady m.aggregate)

def watchWithin (deadline : Option Number) : Watch Unit :=
  match expiryOf deadline with
  | none => m.watchExecution c none
  | some d => if d ≤ 0 then throw .expired else m.watchExecution c (some (m.start.after d))

/-! ### Runs -/

def watchFailure (task : Value) (f : Fault) : Watch FleetReport := do
  m.announce c (m.announceFailure f)
  return m.report task .failed (some f.message) (← get).journey

def watchRun (task : Value) (deadline : Option Number) : Watch FleetReport := do
  m.announce c (m.announceStart deadline)
  let outcome ← ExceptT.lift (m.watchWithin c deadline).run
  match outcome with
  | .ok () =>
    m.announce c m.announceDone
    return m.report task .done none (← get).journey
  | .error (.failed f) => m.watchFailure c task f
  | .error .expired =>
    match deadline with
    | some d => m.watchFailure c task (deadlineFault d)
    | none => throw (.escaped .cancelled)
  | .error (.escaped why) => throw (.escaped why)

end Mission

/-- A watched run that is over. -/
structure WatchedRun where
  run : FleetRun
  audience : Audience

/-- What reaches the caller of a run that stopped without a report. -/
def Halt.escape : Halt → Escape
  | .escaped why => why
  | _ => .cancelled

/-- Run a fleet against a task while observers look on. -/
def Mission.watch (m : Mission) (c : Callbacks) (task : Value) (deadline : Option Number) :
    WatchedRun :=
  match (m.watchRun c task deadline).exec ⟨Journey.atStart task m.start, ⟨[], []⟩⟩ with
  | (outcome, w) => ⟨⟨outcome.mapError Halt.escape, w.journey⟩, w.audience⟩

end Quorum

/-
  Quorum/Run/Event.lean
  =====================
  **What a run tells its observers.**

  A run leaves one sequence of notices: log entries, and events in between.  Observers
  hear the message of an event and then see the event itself.  Observers that fail leave
  their own log entries where they were told something, and change nothing else.
-/
import Quorum.Log
import Quorum.Report.Record
import Quorum.Run.Schedule

namespace Quorum

/-- Something that happened in a run. -/
structure Event where
  type : EventType
  message : String
  tier : Option Int
  agent : Option String
  data : List (String × Value)
  time : Instant

/-- A notice left by a run. -/
inductive Notice where
  | log (entry : LogEntry)
  | event (e : Event)

inductive Observers where
  | attentive
  /-- They fail, with a text, after they have taken in what they are told. -/
  | failing (text : String)
  | absent

/-- An event as observers are handed it: with the fleet and the run it comes from. -/
structure Emission where
  fleet : String
  runId : String
  event : Event

/-- What observers and the log are left with after a run. -/
structure Record where
  progress : List String
  events : List Event
  log : List LogEntry

/-- The progress messages of an event; an event need not have one. -/
def Event.progress (e : Event) : List String := if e.message.isEmpty then [] else [e.message]

/-- What is logged when an observer fails at a message. -/
def progressFailure (fleet text : String) : LogEntry :=
  ⟨.warning, "progress_callback_failed", [("fleet", .text fleet), ("error", .text text)]⟩

/-- What is logged when an observer fails at an event. -/
def eventFailure (fleet runId : String) (type : EventType) (text : String) : LogEntry :=
  ⟨.warning, "event_callback_failed", [
    ("fleet", .text fleet), ("run_id", .text runId), ("event_type", .named type),
    ("error", .text text)]⟩

def Event.failureEntries (fleet runId text : String) (e : Event) : List LogEntry :=
  e.progress.map (fun _ => progressFailure fleet text) ++ [eventFailure fleet runId e.type text]

namespace Observers

def entriesOf (observers : Observers) (fleet runId : String) : Notice → List LogEntry
  | .log entry => [entry]
  | .event e =>
    match observers with
    | .failing text => e.failureEntries fleet runId text
    | _ => []

/-- The events that observers see. -/
def eventsOf (observers : Observers) : Notice → List Event
  | .log _ => []
  | .event e =>
    match observers with
    | .absent => []
    | _ => [e]

def watch (observers : Observers) (fleet runId : String) (notices : List Notice) : Record where
  progress := (notices.flatMap observers.eventsOf).flatMap Event.progress
  events := notices.flatMap observers.eventsOf
  log := notices.flatMap (observers.entriesOf fleet runId)

/-- What observers are handed in a run of a fleet, in order. -/
def emissions (observers : Observers) (fleet runId : String) (notices : List Notice) :
    List Emission :=
  (observers.watch fleet runId notices).events.map fun e => ⟨fleet, runId, e⟩

end Observers

end Quorum

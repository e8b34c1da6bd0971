/-
  Quorum/Run/Behaviour.lean
  =========================
  **What agents do when they are invoked.**

  An invocation takes some time and then gives an output or raises a problem.  If it is
  cancelled on the way it stops at once, unless it lingers: then it takes some more time
  and ends in another way.  A time limit turns a behaviour into a stay, which says how
  long the invocation holds its place and what its caller gets to see.
-/
import Quorum.Fault
import Quorum.Consensus.Verdict
import Quorum.Run.Schedule
import Quorum.Value.Basic

namespace Quorum

/-! ### Problems -/

/-- What an invocation or a reviewer can raise. -/
inductive Problem where
  /-- It ran out of time by its own account. -/
  | timedOut (text : String)
  /-- It was cancelled from within. -/
  | cancelled
  | fault (f : Fault)
  /-- Something under another name. -/
  | other (kind text : String)

namespace Problem

def kindName : Problem → String
  | .timedOut _ => "TimeoutError"
  | .cancelled => "CancelledError"
  | .fault f => Named.name f.kind
  | .other kind _ => kind

def text : Problem → String
  | .timedOut text => text
  | .cancelled => ""
  | .fault f => f.text
  | .other _ text => text

def summary (p : Problem) : String := s!"{p.kindName}: {p.text}"

/-- A problem with a key that is missing; it shows the key in quotes. -/
def missingKey (key : String) : Problem := .other "KeyError" (Text.quoted key)

end Problem

/-! ### Behaviours and stays -/

inductive Ending where
  | output (v : Value)
  | raised (p : Problem)

/-- What an agent does when it is invoked. -/
structure Behaviour where
  /-- The time it takes, in seconds. -/
  delay : Rat
  ending : Ending
  /-- What it does when it is cancelled, if it does not stop at once. -/
  lingering : Option (Rat × Ending)

/-- An invocation under a time limit, seen from the moment it gets a place. -/
structure Stay where
  /-- The agent is really called. -/
  begins : Bool
  /-- How long the place is held. -/
  length : Rat
  /-- When the limit strikes, if it does. -/
  struck : Option Rat
  ending : Ending

namespace Behaviour

/-- What the caller of an invocation sees of what it does after its limit has struck. -/
def afterLimit : Ending → Ending
  | .raised .cancelled => .raised (.timedOut "")
  | e => e

/-- A behaviour under a time limit.  Without any time the agent is not called; an
    invocation that lingers keeps its place until it is really over. -/
def stay (b : Behaviour) (limit : Number) : Stay :=
  match limit.limit? with
  | none => ⟨true, b.delay, none, b.ending⟩
  | some l =>
    if l ≤ 0 then ⟨false, 0, none, .raised (.timedOut "")⟩
    else if b.delay < l then ⟨true, b.delay, none, b.ending⟩
    else
      match b.lingering with
      | none => ⟨true, l, some l, .raised (.timedOut "")⟩
      | some (more, ending) => ⟨true, l + more, some l, afterLimit ending⟩

end Behaviour

/-! ### Outcomes -/

inductive Outcome where
  | success (output : Value)
  | failure (kind : FailureKind) (text : String)
  /-- It was cancelled from within, and so is whoever waits for it. -/
  | cancelled

/-- The wording for an invocation that ran out of time. -/
def Number.timeoutText (limit : Number) : String := s!"timed out after {limit.text}s"

/-- The kind of failure a fault of an agent stands for; the kind it names, if that is one. -/
def Fault.failureKind (f : Fault) : FailureKind :=
  match f.detail "kind" with
  | .text name => (Named.ofName? name).getD .invocation
  | _ => .invocation

def Ending.outcome (limit : Number) : Ending → Outcome
  | .output v =>
    if v.isWellFormed then .success v
    else .failure .malformed s!"unusable output of type {v.kindName}"
  | .raised (.timedOut _) => .failure .timeout limit.timeoutText
  | .raised .cancelled => .cancelled
  | .raised (.fault f) =>
    if f.kind == .agentInvocation then .failure f.failureKind f.message
    else .failure .invocation (Problem.fault f).summary
  | .raised (.other kind text) => .failure .invocation (Problem.other kind text).summary

end Quorum

/-
  Quorum/Run/Schedule.lean
  ========================
  **The clock of a run, and who gets a place when.**
-/

namespace Quorum

/-! ### The clock of a run

Time is counted in seconds, exactly.  Things that take no time still happen one after
the other: an instant also counts the steps taken at its time, and instants are compared
by time first and by step second. -/

/-- A point on the clock of a run. -/
structure Instant where
  /-- Seconds since the clock was started. -/
  time : Rat
  /-- The number of steps already taken at this time. -/
  step : Nat
deriving DecidableEq, Repr

namespace Instant

instance : LE Instant where
  le a b := a.time < b.time ∨ (a.time = b.time ∧ a.step ≤ b.step)

instance : LT Instant where
  lt a b := a.time < b.time ∨ (a.time = b.time ∧ a.step < b.step)

instance (a b : Instant) : Decidable (a ≤ b) :=
  inferInstanceAs (Decidable (a.time < b.time ∨ (a.time = b.time ∧ a.step ≤ b.step)))

instance (a b : Instant) : Decidable (a < b) :=
  inferInstanceAs (Decidable (a.time < b.time ∨ (a.time = b.time ∧ a.step < b.step)))

def zero : Instant := ⟨0, 0⟩

/-- The instant some time after another; what takes no time takes a step. -/
def after (t : Instant) (length : Rat) : Instant :=
  if 0 < length then ⟨t.time + length, 0⟩ else ⟨t.time, t.step + 1⟩

def earlier (a b : Instant) : Instant := if a ≤ b then a else b

def later (a b : Instant) : Instant := if a ≤ b then b else a

def earliest? : List Instant → Option Instant
  | [] => none
  | t :: ts => some (ts.foldl earlier t)

/-- The latest of several instants, none of them before a given one. -/
def latestFrom (start : Instant) (ts : List Instant) : Instant := ts.foldl later start

def millisecondsSince (end' start : Instant) : Rat := (end'.time - start.time) * 1000

end Instant

/-! ### Who gets a place when

A tier has a number of places.  Its invocations get them in the order in which they are
declared, each the one that is free first, and hold them for the length of their stay. -/

/-- A stretch of time, from its start up to but not including its stop. -/
structure Span where
  start : Instant
  stop : Instant
deriving DecidableEq, Repr

namespace Span

def covers (s : Span) (t : Instant) : Bool := decide (s.start ≤ t) && decide (t < s.stop)

def countAt (spans : List Span) (t : Instant) : Nat := spans.countP fun s => s.covers t

/-- The largest number of spans that have an instant in common.  It is found at the start
    of one of them. -/
def peak (spans : List Span) : Nat :=
  (spans.map fun s => countAt spans s.start).foldl max 0

end Span

namespace Schedule

/-- Put a place back into the list of places, which is in order of the instants at which
    they become free. -/
def insertPlace (free : Instant) : List Instant → List Instant
  | [] => [free]
  | t :: ts => if free ≤ t then free :: t :: ts else t :: insertPlace free ts

/-- The spans of stays of given lengths, on places that become free at given instants. -/
def spans : List Instant → List Rat → List Span
  | free :: places, length :: lengths =>
    let stop := free.after length
    ⟨free, stop⟩ :: spans (insertPlace stop places) lengths
  | _, _ => []

/-- The spans on a number of places that are all free from the start. -/
def spansFrom (start : Instant) (places : Nat) (lengths : List Rat) : List Span :=
  spans (List.replicate places start) lengths

end Schedule

end Quorum

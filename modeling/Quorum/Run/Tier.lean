/-
  Quorum/Run/Tier.lean
  ====================
  **One tier: everybody is invoked, and the results become a verdict.**

  The agents of a tier get places in the order of their declaration and stay as long as
  their behaviour and their time limit say.  A tier ends when the last of them has left.
  If its rules settle for the first success, it ends with that, and whoever is not done is
  cancelled; an invocation that is cancelled from within takes the whole tier with it; and
  a deadline cuts short whatever would end later.
-/
import Quorum.Consensus.Evaluation
import Quorum.Log
import Quorum.Report.Record
import Quorum.Run.Behaviour
import Quorum.Run.Context
import Quorum.Run.Schedule
import Quorum.Settings.Basic

namespace Quorum

/-! ### Executors and attempts -/

/-- Who runs tiers: how agents behave, how many may be busy at once, and how long they may
    take if nothing else is said. -/
structure Executor where
  /-- What an agent does in a context, and at which of its turns in the tier: that counts the
      agents of its name before it, and is zero as long as names are unique. -/
  conduct : Agent → Context → Nat → Behaviour
  places : Int
  defaultTimeout : Number
  /-- The time stamp at which the clock was started. -/
  epoch : Timestamp

/-- An executor with the settings' limits where none is given; zero counts as not given. -/
def Executor.configured (conduct : Agent → Context → Nat → Behaviour) (settings : Settings)
    (timeout : Option Number) (places : Option Int) (epoch : Timestamp) : Executor where
  conduct := conduct
  places := (places.filter fun n => n != 0).getD settings.maxConcurrentAgents
  defaultTimeout := (timeout.filter fun t => !t.isZero).getD (.double settings.agentTimeout)
  epoch := epoch

/-- The time limit of an agent: its own, else its tier's, else the executor's. -/
def Executor.timeoutFor (x : Executor) (a : Agent) (rules : VotingRules) : Number :=
  match a.timeoutSeconds, rules.timeoutSeconds with
  | some t, _ => .double t
  | none, some t => .double t
  | none, none => x.defaultTimeout

def Executor.timestamp (x : Executor) (t : Instant) : Timestamp := x.epoch.after t.time

/-- What a tier is asked to do. -/
structure TierPlan where
  agents : List Agent
  context : Context
  rules : VotingRules
  weights : List (String × Float)
  tier : Int
  start : Instant
  deadline : Option Instant

/-- An agent's turn in a tier: its behaviour, its time limit and its place. -/
structure Attempt where
  agent : Agent
  limit : Number
  behaviour : Behaviour
  span : Span

namespace Attempt

def stay (a : Attempt) : Stay := a.behaviour.stay a.limit

/-- What the attempt comes to if nobody interferes. -/
def outcome (a : Attempt) : Outcome := a.stay.ending.outcome a.limit

/-- The attempt gives something to vote on. -/
def succeeds (a : Attempt) : Bool :=
  match a.outcome with
  | .success _ => true
  | _ => false

/-- The attempt is cancelled from within. -/
def isFatal (a : Attempt) : Bool :=
  match a.outcome with
  | .cancelled => true
  | _ => false

/-- When the time limit strikes, if it does. -/
def struckAt? (a : Attempt) : Option Instant := a.stay.struck.map fun s => a.span.start.after s

def isStruckBy (a : Attempt) (t : Instant) : Bool :=
  match a.struckAt? with
  | some s => decide (s ≤ t)
  | none => false

/-- When the agent itself stops if it is cancelled at an instant. -/
def stopAfterCancel (a : Attempt) (t : Instant) : Instant :=
  match a.behaviour.lingering with
  | some (more, _) => t.after more
  | none => t

/-- When an attempt that is not over is given up if it is cancelled at an instant: at once,
    unless its agent lingers before its time limit has struck. -/
def givenUpAt (a : Attempt) (t : Instant) : Instant :=
  if t ≤ a.span.start || a.isStruckBy t then t else a.stopAfterCancel t

end Attempt

/-- Agents with their turns: how many agents of the same name come before. -/
def turns : List String → List Agent → List (Agent × Nat)
  | _, [] => []
  | seen, a :: rest => (a, seen.count a.name) :: turns (a.name :: seen) rest

/-- The attempts of a tier, in order of declaration. -/
def Executor.attempts (x : Executor) (p : TierPlan) : List Attempt :=
  let behaviours := (turns [] p.agents).map fun (a, turn) => x.conduct a p.context turn
  let limits := p.agents.map fun a => x.timeoutFor a p.rules
  let lengths := List.zipWith (fun b l => (Behaviour.stay b l).length) behaviours limits
  let spans := Schedule.spansFrom p.start x.places.toNat lengths
  (p.agents.zip (limits.zip (behaviours.zip spans))).map fun (a, l, b, s) => ⟨a, l, b, s⟩

/-! ### Calls and invocations -/

/-- How long a tier goes on calling. -/
inductive LastCall where
  /-- Up to an instant: a place that is free at that instant is still taken. -/
  | through (t : Instant)
  /-- Only before an instant, as a deadline comes before whatever else happens at its own. -/
  | before (t : Instant)

namespace LastCall

def instant : LastCall → Instant
  | .through t => t
  | .before t => t

def allows : LastCall → Instant → Bool
  | .through t, s => decide (s ≤ t)
  | .before t, s => decide (s < t)

end LastCall

/-- A call of an agent as it is made.  One that is left no time is over before the agent
    begins. -/
structure Call where
  agent : String
  context : Context
  time : Instant

/-- The call that opens an attempt, if it is still made. -/
def Attempt.call? (context : Context) (last : LastCall) (a : Attempt) : Option Call :=
  if last.allows a.span.start then some ⟨a.agent.name, context, a.span.start⟩ else none

/-- A call of an agent as it took place. -/
structure Invocation where
  agent : String
  context : Context
  span : Span
  /-- When it was cancelled, if it was. -/
  cancelledAt : Option Instant

/-- The call made in an attempt, as it took place if whoever is not done by the last call is
    cancelled then; none if the agent did not begin.  Whoever takes a place over at the very
    end begins, is cancelled at once, and may linger like anybody else. -/
def Attempt.invocation? (context : Context) (last : LastCall) (a : Attempt) :
    Option Invocation :=
  let t := last.instant
  if !a.stay.begins || !last.allows a.span.start then none
  else if a.span.stop ≤ t || a.isStruckBy t then
    some ⟨a.agent.name, context, a.span, a.struckAt?⟩
  else some ⟨a.agent.name, context, ⟨a.span.start, a.stopAfterCancel t⟩, some t⟩

namespace Invocation

def call (i : Invocation) : Call := ⟨i.agent, i.context, i.span.start⟩

/-- It was cancelled at the time at which it began. -/
def isCutAtOnce (i : Invocation) : Bool :=
  i.cancelledAt.any fun t => t.time == i.span.start.time

/-- The names of the agents that were cancelled after some time, in order, one for every
    time. -/
def cancelledNames (calls : List Invocation) : List String :=
  let cancelled := calls.filter fun i => i.cancelledAt.isSome && !i.isCutAtOnce
  (cancelled.map Invocation.agent).mergeSort fun a b => decide (a ≤ b)

/-- The largest number of calls in flight at once. -/
def peak (calls : List Invocation) : Nat := Span.peak (calls.map Invocation.span)

def countOf (agent : String) (calls : List Invocation) : Nat :=
  calls.countP fun c => c.agent == agent

end Invocation

/-! ### How a tier ends -/

/-- How a tier ends if no deadline comes first. -/
inductive Closing where
  /-- All are done. -/
  | complete (at' : Instant)
  /-- The first success settles it. -/
  | settled (at' : Instant)
  /-- An invocation was cancelled from within. -/
  | abandoned (at' : Instant)

def Closing.instant : Closing → Instant
  | .complete t => t
  | .settled t => t
  | .abandoned t => t

def firstStop? (attempts : List Attempt) (p : Attempt → Bool) : Option Instant :=
  Instant.earliest? ((attempts.filter p).map fun a => a.span.stop)

def closing (rules : VotingRules) (start : Instant) (attempts : List Attempt) : Closing :=
  let fatal := firstStop? attempts Attempt.isFatal
  let success :=
    if rules.algorithm.resolvesEarly then firstStop? attempts Attempt.succeeds else none
  match fatal, success with
  | some f, some s => if f ≤ s then .abandoned f else .settled s
  | some f, none => .abandoned f
  | none, some s => .settled s
  | none, none => .complete (Instant.latestFrom start (attempts.map fun a => a.span.stop))

/-- When a tier is over that a deadline cuts short.  One that settles for the first success
    waits for nobody; any other waits for the first attempt to be given up. -/
def expiry (rules : VotingRules) (deadline : Instant) (attempts : List Attempt) : Instant :=
  if rules.algorithm.resolvesEarly then deadline
  else
    let unfinished := attempts.filter fun a => decide (deadline < a.span.stop)
    (Instant.earliest? (unfinished.map fun a => a.givenUpAt deadline)).getD deadline

/-! ### Results -/

/-- The error of those who are cancelled after the first success. -/
def stragglerText : String := "cancelled after first successful result"

/-- The result of an attempt that took its course. -/
def Executor.resultOf (x : Executor) (tier : Int) (weight : Float) (a : Attempt) : AgentResult :=
  let result : AgentResult :=
    { agentName := a.agent.name
      tier := tier
      output := .null
      weight := weight
      latencyMs := Decimal.floatOfRat (a.span.stop.millisecondsSince a.span.start)
      startedAt := x.timestamp a.span.start
      completedAt := x.timestamp a.span.stop
      error := none
      errorKind := none }
  match a.outcome with
  | .success output => { result with output := output }
  | .failure kind text => { result with error := some text, errorKind := some kind }
  | .cancelled => { result with error := some "", errorKind := some .cancelled }

/-- The result of an attempt that is cancelled at an instant. -/
def Executor.stragglerResult (x : Executor) (tier : Int) (weight : Float) (t : Instant)
    (a : Attempt) : AgentResult where
  agentName := a.agent.name
  tier := tier
  output := .null
  weight := weight
  latencyMs := 0.0
  startedAt := x.timestamp t
  completedAt := x.timestamp t
  error := some stragglerText
  errorKind := some .cancelled

/-- The weight of an agent in a tier; one if none is given. -/
def TierPlan.weightOf (p : TierPlan) (name : String) : Float :=
  (p.weights.lookup name).getD Fleet.defaultWeight

/-- The results of a tier that ends at an instant, in order of names. -/
def Executor.resultsAt (x : Executor) (p : TierPlan) (t : Instant) (attempts : List Attempt) :
    List AgentResult :=
  let results := attempts.map fun a =>
    let weight := p.weightOf a.agent.name
    if a.span.stop ≤ t then x.resultOf p.tier weight a else x.stragglerResult p.tier weight t a
  results.mergeSort fun a b => decide (a.agentName ≤ b.agentName)

/-! ### Running a tier -/

/-- The results of a tier and the verdict on them. -/
structure Execution where
  tier : Int
  results : List AgentResult
  verdict : Verdict Float
  durationMs : Float

/-- What makes a tier or a run break off without a result. -/
inductive Escape where
  | cancelled
  | negativePlaces
  | outOfOrder (c : OrderConflict)
  /-- A number has too many digits to be written out. -/
  | noNumeral

def Escape.kindName : Escape → String
  | .cancelled => "CancelledError"
  | .negativePlaces => "ValueError"
  | .outOfOrder _ => "ValueError"
  | .noNumeral => "ValueError"

def Escape.message : Escape → String
  | .cancelled => ""
  | .negativePlaces => "Semaphore initial value must be >= 0"
  | .outOfOrder c => c.message
  | .noNumeral => Value.noNumeral

inductive TierEnd where
  | evaluated (e : Execution)
  | expired
  | escaped (why : Escape)

/-- A tier that was run: what it came to and when, what was logged, which calls took place
    and which were made. -/
structure TierRun where
  ending : TierEnd
  finished : Instant
  log : List LogEntry
  invocations : List Invocation
  calls : List Call

namespace TierPlan

/-- The fields that all log entries of a tier begin with. -/
def logFields (p : TierPlan) : List (String × Value) :=
  [("tier", .int p.tier), ("algorithm", .named p.rules.algorithm)]

def startedEntry (p : TierPlan) : LogEntry :=
  ⟨.info, "tier_started", p.logFields ++ [("agents", .texts (p.agents.map Agent.name))]⟩

/-- What is logged when agents are cancelled after the first success. -/
def stragglersEntry (p : TierPlan) (count : Nat) : LogEntry :=
  ⟨.debug, "tier_stragglers_cancelled", [("tier", .int p.tier), ("count", .int count)]⟩

def evaluatedEntry (p : TierPlan) (e : Execution) : LogEntry :=
  ⟨.info, "tier_evaluated", p.logFields ++ [
    ("reached", .bool e.verdict.reached),
    ("confidence", .float (Decimal.roundedTo 4 e.verdict.confidence)),
    ("votes", .int e.verdict.votes),
    ("failures", .int (e.results.countP fun r => !r.succeeded)),
    ("duration_ms", .float (Decimal.roundedTo 1 e.durationMs))]⟩

end TierPlan

namespace Executor

/-- The results and the verdict of a tier that ends at an instant. -/
def executionAt (x : Executor) (p : TierPlan) (t : Instant) (attempts : List Attempt) : Execution :=
  let results := x.resultsAt p t attempts
  { tier := p.tier
    results := results
    verdict := Consensus.evaluate results p.weights p.rules
    durationMs := Decimal.floatOfRat (t.millisecondsSince p.start) }

/-- A deadline comes before an instant. -/
def expiresBy (p : TierPlan) (t : Instant) : Option Instant :=
  p.deadline.filter fun d => decide (d ≤ t)

def runTier (x : Executor) (p : TierPlan) : TierRun :=
  if x.places < 0 then ⟨.escaped .negativePlaces, p.start, [p.startedEntry], [], []⟩
  else
    let attempts := x.attempts p
    let close := closing p.rules p.start attempts
    let placed (last : LastCall) := attempts.filterMap (Attempt.invocation? p.context last)
    let made (last : LastCall) := attempts.filterMap (Attempt.call? p.context last)
    match expiresBy p close.instant with
    | some d =>
      ⟨.expired, expiry p.rules d attempts, [p.startedEntry], placed (.before d),
        made (.before d)⟩
    | none =>
      let t := close.instant
      match close with
      | .abandoned _ =>
        ⟨.escaped .cancelled, t, [p.startedEntry], placed (.through t), made (.through t)⟩
      | _ =>
        let e := x.executionAt p t attempts
        let late := attempts.countP fun a => decide (t < a.span.stop)
        let stragglers := if late == 0 then [] else [p.stragglersEntry late]
        ⟨.evaluated e, t, p.startedEntry :: stragglers ++ [p.evaluatedEntry e],
          placed (.through t), made (.through t)⟩

end Executor

end Quorum

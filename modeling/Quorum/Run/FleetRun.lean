/-
  Quorum/Run/FleetRun.lean
  ========================
  **A fleet at work: tier by tier to an answer.**

  A run goes through the voting tiers in ascending order.  Each tier leaves a report and
  an entry of the context; a verdict that does not advance by itself waits for a reviewer.
  In the end the manager synthesizes, or the default rules are applied to the results of
  the last tier.  A tier without data or a weak verdict does not stop a run; a rejected
  review, a failed synthesis, a passed deadline and, where the fleet says so, a tier
  without data do, and the report says why.
-/
import Quorum.Run.Event
import Quorum.Run.Tier

namespace Quorum

/-! ### Missions -/

/-- What a reviewer does with a tier. -/
structure Review where
  /-- The time it takes, in seconds. -/
  delay : Rat
  answer : Except Problem Bool

/-- Everything a run depends on apart from its task. -/
structure Mission where
  fleet : Fleet
  executor : Executor
  reviewer : Option (TierReport → Review)
  runId : String
  start : Instant

/-- How far a run has got. -/
structure Journey where
  clock : Instant
  context : Context
  tiers : List TierReport
  notices : List Notice
  invocations : List Invocation
  calls : List Call
  reviewed : List TierReport
  finalVerdict : Option (Verdict Float)
  answer : Value
  synthesisAgent : Option String

/-- Why a run stops before its end. -/
inductive Halt where
  | failed (f : Fault)
  | expired
  | escaped (why : Escape)

namespace Journey

/-- A run that has not done anything. -/
def atStart (task : Value) (start : Instant) : Journey :=
  ⟨start, Context.start task, [], [], [], [], [], none, .null, none⟩

def note (j : Journey) (entry : LogEntry) : Journey :=
  { j with notices := j.notices ++ [.log entry] }

def tell (j : Journey) (type : EventType) (message : String := "") (tier : Option Int := none)
    (agent : Option String := none) (data : List (String × Value) := []) : Journey :=
  { j with notices := j.notices ++ [.event ⟨type, message, tier, agent, data, j.clock⟩] }

end Journey

/-! ### Tiers of a run -/

/-- The status a verdict gives to its tier before any review. -/
def Verdict.status (v : Verdict Float) : TierStatus :=
  if v.noData then .noData
  else if !v.algorithm.autoAdvances then .awaitingReview
  else if v.reached then .completed
  else .degraded

def Execution.report (e : Execution) (rules : VotingRules) (status : TierStatus)
    (error : Option String) : TierReport where
  tier := e.tier
  status := status
  verdict := e.verdict
  results := e.results
  rules := rules
  durationMs := e.durationMs
  error := error

/-- The fault of a tier in which nobody succeeded. -/
def exhaustedFault (tier : Int) (agents : Nat) : Fault :=
  Fault.make .tierExhausted s!"All {agents} agents in tier {tier} failed"
    [("tier", .int tier), ("agent_count", .int agents)]

def rejectedFault (tier : Int) (error : String) : Fault :=
  Fault.make .reviewRejected error [("tier", .int tier)]

/-- What a review makes of a tier: its status, and why it failed if it did. -/
structure Reviewed where
  status : TierStatus
  error : Option String

namespace Mission

variable (m : Mission)

def plan (deadline : Option Instant) (tier : Int) (j : Journey) : TierPlan where
  agents := m.fleet.votingAgents tier
  context := j.context
  rules := m.fleet.coordination.rulesFor tier
  weights := m.fleet.weightsFor tier
  tier := tier
  start := j.clock
  deadline := deadline

def announceTier (p : TierPlan) (j : Journey) : Journey :=
  j.tell .tierStarted
    s!"Running tier {p.tier} ({p.agents.length} agents, {Named.name p.rules.algorithm})..."
    (some p.tier) none [("agents", .texts (p.agents.map Agent.name))]

def announceFailures (e : Execution) (j : Journey) : Journey :=
  (e.results.filter fun r => !r.succeeded).foldl (fun j r =>
    j.tell .agentFailed "" (some e.tier) (some r.agentName)
      [("error", .ofOption .text r.error), ("kind", .ofOption .named r.errorKind)]) j

/-- Log a tier in which nobody succeeded. -/
def noteExhaustion (p : TierPlan) (status : TierStatus) (j : Journey) : Journey :=
  if status == .noData then
    j.note ⟨.warning, "tier_exhausted", [("tier", .int p.tier), ("agents", .int p.agents.length)]⟩
  else j

/-- What a reviewer's answer makes of a tier; nothing if the reviewer was cancelled. -/
def judge (tier : Int) : Except Problem Bool → Option Reviewed
  | .ok true => some ⟨.completed, none⟩
  | .ok false => some ⟨.failed, some s!"Reviewer rejected tier {tier} verdict"⟩
  | .error .cancelled => none
  | .error p => some ⟨.failed, some s!"Review of tier {tier} failed: {p.summary}"⟩

def reviewEntries (tier : Int) : Except Problem Bool → List LogEntry
  | .error p => [⟨.error, "tier_review_failed", [("tier", .int tier), ("error", .text p.text)]⟩]
  | .ok _ => []

/-- Have a tier reviewed that does not advance by itself, if there is a reviewer. -/
def review (deadline : Option Instant) (pending : TierReport) (j : Journey) :
    Journey × Except Halt Reviewed :=
  match pending.status, m.reviewer with
  | .awaitingReview, some reviewer =>
    let r := reviewer pending
    let j := { j with reviewed := j.reviewed ++ [pending] }
    let done := j.clock.after r.delay
    match deadline.filter fun d => decide (d ≤ done) with
    | some d => ({ j with clock := d }, .error .expired)
    | none =>
      let j := { j with clock := done }
      match judge pending.tier r.answer with
      | none => (j, .error (.escaped .cancelled))
      | some reviewed => ((reviewEntries pending.tier r.answer).foldl Journey.note j, .ok reviewed)
  | status, _ => (j, .ok ⟨status, pending.error⟩)

/-- Record a tier in the report and in the context. -/
def record (e : Execution) (report : TierReport) (j : Journey) : Except Escape Journey :=
  match j.context.append ⟨e.tier, e.verdict, e.results, m.fleet.coordination.passAllResults⟩ with
  | .ok context => .ok { j with tiers := j.tiers ++ [report], context := context }
  | .error conflict => .error (.outOfOrder conflict)

def announceVerdict (report : TierReport) (j : Journey) : Journey :=
  let j :=
    if report.verdict.reached then
      j.tell .consensusReached "" (some report.tier) none
        [("votes", .int report.verdict.votes), ("confidence", .float report.verdict.confidence)]
    else j
  let confidence := Decimal.fixedText 2 report.verdict.confidence
  j.tell .tierCompleted
    s!"Tier {report.tier} {Named.name report.status} (confidence {confidence})"
    (some report.tier) none [("status", .named report.status)]

/-- Why a run stops after a tier, if it does: it was rejected, or nobody succeeded and the
    fleet does not put up with that. -/
def haltAfter (p : TierPlan) (report : TierReport) : Option Halt :=
  if report.status == .failed then
    some (.failed (rejectedFault p.tier (report.error.getD "")))
  else if report.status == .noData && m.fleet.coordination.abortOnTierFailure then
    some (.failed (exhaustedFault p.tier p.agents.length))
  else none

/-- Take an execution to its end: review, record, announcements. -/
def settle (deadline : Option Instant) (p : TierPlan) (e : Execution) (j : Journey) :
    Journey × Option Halt :=
  let j := announceFailures e j
  let status := e.verdict.status
  let error :=
    if status == .noData then some (exhaustedFault p.tier p.agents.length).message else none
  let j := noteExhaustion p status j
  match m.review deadline (e.report p.rules status error) j with
  | (j, .error halt) => (j, some halt)
  | (j, .ok reviewed) =>
    let report := e.report p.rules reviewed.status reviewed.error
    match m.record e report j with
    | .error why => (j, some (.escaped why))
    | .ok j => (announceVerdict report j, m.haltAfter p report)

def runTier (deadline : Option Instant) (tier : Int) (j : Journey) : Journey × Option Halt :=
  let p := m.plan deadline tier j
  let j := announceTier p j
  let run := m.executor.runTier p
  let j := { run.log.foldl Journey.note j with
    clock := run.finished
    invocations := j.invocations ++ run.invocations
    calls := j.calls ++ run.calls }
  match run.ending with
  | .expired => (j, some .expired)
  | .escaped why => (j, some (.escaped why))
  | .evaluated e => m.settle deadline p e j

/-- Run tiers one after the other, until one stops the run.  A tier is announced by its number;
    one whose number is never written out breaks the run off before anything is said of it. -/
def runTiers (deadline : Option Instant) : List Int → Journey → Journey × Option Halt
  | [], j => (j, none)
  | tier :: rest, j =>
    if Value.hasNumeral tier then
      match m.runTier deadline tier j with
      | (j, some halt) => (j, some halt)
      | (j, none) => runTiers deadline rest j
    else (j, some (.escaped .noNumeral))

/-! ### The answer of a run -/

/-- Apply the fleet's default rules to the results of the last tier. -/
def aggregate (j : Journey) : Journey :=
  match j.context.latest? with
  | none => j
  | some last =>
    let verdict := Consensus.evaluate last.results (m.fleet.weightsFor last.tier)
      m.fleet.coordination.defaultRules
    let j := { j with finalVerdict := some verdict, answer := verdict.result }
    j.note ⟨.info, "final_consensus", [
      ("fleet", .text m.fleet.name), ("tier", .int last.tier), ("reached", .bool verdict.reached),
      ("confidence", .float (Decimal.roundedTo 4 verdict.confidence))]⟩

/-- The fault of a synthesis that came to nothing. -/
def synthesisFault (manager message : String) : Fault :=
  Fault.make .synthesis message [("agent_name", .text manager)]

def synthesisOf (manager : String) (limit : Number) : Ending → Except Halt Value
  | .output v =>
    if v.isWellFormed then .ok v
    else .error (.failed (synthesisFault manager s!"Manager {manager} returned unusable output"))
  | .raised (.timedOut _) =>
    .error (.failed (synthesisFault manager s!"Manager {manager} {limit.timeoutText}"))
  | .raised .cancelled => .error (.escaped .cancelled)
  | .raised p => .error (.failed (synthesisFault manager s!"Manager {manager} failed: {p.text}"))

def synthesize (deadline : Option Instant) (j : Journey) : Journey × Option Halt :=
  match m.fleet.manager? with
  | none =>
    (j, some (.failed (Fault.make .synthesis "No manager agent available for synthesis")))
  | some manager =>
    let limit := m.executor.timeoutFor manager (m.fleet.coordination.rulesFor manager.tier)
    let j := j.tell .synthesisStarted s!"Manager {manager.name} synthesizing findings..."
      none (some manager.name)
    let behaviour := m.executor.conduct manager j.context 0
    let stop := j.clock.after (behaviour.stay limit).length
    let attempt : Attempt := ⟨manager, limit, behaviour, ⟨j.clock, stop⟩⟩
    let called (last : LastCall) := { j with
      invocations := j.invocations ++ (attempt.invocation? j.context last).toList
      calls := j.calls ++ (attempt.call? j.context last).toList }
    match deadline.filter fun d => decide (d ≤ stop) with
    | some d => ({ called (.before d) with clock := attempt.givenUpAt d }, some .expired)
    | none =>
      let j := { called (.through stop) with clock := stop }
      match synthesisOf manager.name limit attempt.stay.ending with
      | .error halt => (j, some halt)
      | .ok answer =>
        let j := { j with answer := answer, synthesisAgent := some manager.name }
        (j.note ⟨.info, "synthesis_completed",
          [("fleet", .text m.fleet.name), ("manager", .text manager.name)]⟩, none)

/-- All of a run that a deadline can cut short. -/
def execute (deadline : Option Instant) (j : Journey) : Journey × Option Halt :=
  match m.runTiers deadline m.fleet.votingTiers j with
  | (j, some halt) => (j, some halt)
  | (j, none) => if m.fleet.synthesizes then m.synthesize deadline j else (m.aggregate j, none)

/-! ### Runs -/

def deadlineFault (deadline : Number) : Fault :=
  Fault.make .deadlineExceeded s!"Fleet run exceeded its deadline of {deadline.text}s"
    [("deadline_seconds", deadline.toValue)]

/-- When a run has to be over.  A deadline of zero means none. -/
def expiryOf (deadline : Option Number) : Option Rat :=
  deadline.bind fun d => if d.isZero then none else d.limit?

/-- The deadline of a run: the one given, else the one of the settings. -/
def deadlineOr (settings : Settings) (given : Option Number) : Option Number :=
  given.orElse fun _ => settings.fleetDeadline.map .double

/-- Execute under a deadline; one that leaves no time ends the run before its first tier. -/
def executeWithin (deadline : Option Number) (j : Journey) : Journey × Option Halt :=
  match expiryOf deadline with
  | none => m.execute none j
  | some d => if d ≤ 0 then (j, some .expired) else m.execute (some (m.start.after d)) j

def announceStart (deadline : Option Number) (j : Journey) : Journey :=
  let j := j.note ⟨.info, "fleet_started", [
    ("fleet", .text m.fleet.name), ("run_id", .text m.runId),
    ("tiers", .list (m.fleet.tiers.map .int)), ("deadline", .ofOption Number.toValue deadline)]⟩
  j.tell .fleetStarted s!"Starting fleet {m.fleet.name}..." none none
    [("agent_count", .int m.fleet.agents.length)]

def announceDone (j : Journey) : Journey :=
  let degraded := (j.tiers.filter fun t => t.status.isDegraded).map TierReport.tier
  let j := j.note ⟨.info, "fleet_completed", [
    ("fleet", .text m.fleet.name), ("run_id", .text m.runId),
    ("degraded", .list (degraded.map .int))]⟩
  j.tell .fleetCompleted "Fleet run complete"

def announceFailure (f : Fault) (j : Journey) : Journey :=
  let kind := Value.named f.kind
  let j := j.note ⟨.error, "fleet_failed", [
    ("fleet", .text m.fleet.name), ("run_id", .text m.runId), ("error", .text f.message),
    ("error_type", kind), ("completed_tiers", .list (j.tiers.map fun t => .int t.tier))]⟩
  j.tell .fleetFailed s!"Fleet run failed: {f.message}" none none [("error_type", kind)]

def report (task : Value) (status : FleetStatus) (error : Option String) (j : Journey) :
    FleetReport where
  runId := m.runId
  fleetName := m.fleet.name
  status := status
  task := task
  tiers := j.tiers
  finalVerdict := j.finalVerdict
  answer := j.answer
  synthesisAgent := j.synthesisAgent
  error := error
  startedAt := m.executor.timestamp m.start
  completedAt := m.executor.timestamp j.clock

end Mission

/-- A run of a fleet: its report, unless it broke off, and all it left behind. -/
structure FleetRun where
  ending : Except Escape FleetReport
  journey : Journey

def Mission.run (m : Mission) (task : Value) (deadline : Option Number) : FleetRun :=
  let failed (f : Fault) (j : Journey) : FleetRun :=
    let j := m.announceFailure f j
    ⟨.ok (m.report task .failed (some f.message) j), j⟩
  match m.executeWithin deadline (m.announceStart deadline (Journey.atStart task m.start)) with
  | (j, none) =>
    let j := m.announceDone j
    ⟨.ok (m.report task .done none j), j⟩
  | (j, some (.failed f)) => failed f j
  | (j, some .expired) =>
    match deadline with
    | some d => failed (Mission.deadlineFault d) j
    | none => ⟨.error .cancelled, j⟩
  | (j, some (.escaped why)) => ⟨.error why, j⟩

/-- What the observers of a run are handed, in order. -/
def Mission.emissions (m : Mission) (observers : Observers) (run : FleetRun) : List Emission :=
  observers.emissions m.fleet.name m.runId run.journey.notices

end Quorum

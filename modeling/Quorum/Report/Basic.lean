/-
  Quorum/Report/Basic.lean
  ========================
  **Reports: the audit record of a run.**

  Counts, lists of degraded and failed tiers and the duration are functions of what is
  recorded and are never stored.
-/
import Quorum.Consensus.Verdict

namespace Quorum

structure TierReport where
  tier : Int
  status : TierStatus
  verdict : Verdict Float
  results : List AgentResult
  rules : VotingRules
  durationMs : Float
  error : Option String

namespace TierReport

def successCount (t : TierReport) : Nat := t.results.countP AgentResult.succeeded

/-- The number of agents that failed, timed out or were cancelled. -/
def failureCount (t : TierReport) : Nat := t.results.length - t.successCount

def check (now : Timestamp) : Check.Rule TierReport := fun d => do
  let fields ← Check.record "TierReport" d
  Checked.build TierReport.mk
    |>.apply (Check.required fields "tier" Check.integer)
    |>.apply (Check.required fields "status" (Check.member TierStatus))
    |>.apply (Check.required fields "consensus" Verdict.check)
    |>.apply (Check.withDefault fields "results" [] (Check.list (AgentResult.check now)))
    |>.apply (Check.required fields "config" VotingRules.check)
    |>.apply (Check.withDefault fields "duration_ms" 0.0 Check.number)
    |>.apply (Check.withDefault fields "error" none (Check.optional Check.text))

end TierReport

structure FleetReport where
  runId : String
  fleetName : String
  status : FleetStatus
  task : Value
  tiers : List TierReport
  finalVerdict : Option (Verdict Float)
  answer : Value
  synthesisAgent : Option String
  error : Option String
  startedAt : Timestamp
  completedAt : Timestamp

namespace FleetReport

/-- The tiers that forwarded a weak verdict or none. -/
def degradedTiers (r : FleetReport) : List Int :=
  (r.tiers.filter fun t => t.status.isDegraded).map TierReport.tier

/-- The tiers in which no agent succeeded. -/
def failedTiers (r : FleetReport) : List Int :=
  (r.tiers.filter fun t => t.status == .noData).map TierReport.tier

def totalInvocations (r : FleetReport) : Nat :=
  (r.tiers.map fun t => t.results.length).foldl (· + ·) 0

def successfulInvocations (r : FleetReport) : Nat :=
  (r.tiers.map TierReport.successCount).foldl (· + ·) 0

def duration (r : FleetReport) : Rat := r.completedAt.secondsSince r.startedAt

/-- How long the run took, in seconds. -/
def durationSeconds (r : FleetReport) : Float := Decimal.floatOfRat r.duration

/-- The run came to an end without a fatal error. -/
def succeeded (r : FleetReport) : Bool := r.status == .done

def tier? (r : FleetReport) (number : Int) : Option TierReport :=
  r.tiers.find? fun t => t.tier == number

/-- The message for a tier without a report. -/
def missingTier (number : Int) : String := s!"No report for tier {number}"

/-- A report from unchecked data; `now` and `runId` stand for what is left out. -/
def check (now : Timestamp) (runId : String) : Check.Rule FleetReport := fun d => do
  let fields ← Check.record "FleetExecutionReport" d
  Checked.build FleetReport.mk
    |>.apply (Check.withDefault fields "run_id" runId Check.text)
    |>.apply (Check.required fields "fleet_name" Check.text)
    |>.apply (Check.required fields "status" (Check.member FleetStatus))
    |>.apply (Check.withDefault fields "task" .null Check.anything)
    |>.apply (Check.withDefault fields "tiers" [] (Check.list (TierReport.check now)))
    |>.apply (Check.withDefault fields "final_consensus" none (Check.optional Verdict.check))
    |>.apply (Check.withDefault fields "answer" .null Check.anything)
    |>.apply (Check.withDefault fields "synthesis_agent" none (Check.optional Check.text))
    |>.apply (Check.withDefault fields "error" none (Check.optional Check.text))
    |>.apply (Check.required fields "started_at" Check.timestamp)
    |>.apply (Check.withDefault fields "completed_at" now Check.timestamp)

end FleetReport

end Quorum

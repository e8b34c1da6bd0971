/-
  Quorum/Vocabulary.lean
  ======================
  **The closed vocabularies of fleet files, reports and events.**

  Each vocabulary is an inductive type with a written name per member.  `Named` holds the
  members in their order and their names, and reading a name is searching that list.
-/

namespace Quorum

/-- A finite vocabulary with written names. -/
class Named (α : Type) where
  members : List α
  name : α → String

namespace Named

variable {α : Type} [Named α]

def ofName? (s : String) : Option α := members.find? fun a => name a == s

def names (α : Type) [Named α] : List String := (members (α := α)).map name

end Named

/-- Voting rule that reduces the outputs of a tier to one verdict. -/
inductive Algorithm where
  | majority | unanimous | weighted | firstWins | humanReview
deriving DecidableEq, Repr

instance : Named Algorithm where
  members := [.majority, .unanimous, .weighted, .firstWins, .humanReview]
  name
    | .majority => "majority"
    | .unanimous => "unanimous"
    | .weighted => "weighted"
    | .firstWins => "first_wins"
    | .humanReview => "human_review"

/-- A reached verdict lets the fleet go on without approval. -/
def Algorithm.autoAdvances (a : Algorithm) : Bool := a != .humanReview

/-- The tier may stop waiting after the first success. -/
def Algorithm.resolvesEarly (a : Algorithm) : Bool := a == .firstWins

/-- The part an agent plays in its fleet. -/
inductive Role where
  | worker | manager
deriving DecidableEq, Repr

instance : Named Role where
  members := [.worker, .manager]
  name
    | .worker => "worker"
    | .manager => "manager"

/-- The shape an agent's output is expected to have. -/
inductive OutputFormat where
  | text | json
deriving DecidableEq, Repr

instance : Named OutputFormat where
  members := [.text, .json]
  name
    | .text => "text"
    | .json => "json"

/-- How the agents of a fleet are coordinated. -/
inductive CoordinationMode where
  | tiered
deriving DecidableEq, Repr

instance : Named CoordinationMode where
  members := [.tiered]
  name
    | .tiered => "tiered"

/-- What happens after the last tier. -/
inductive Aggregation where
  | consensus | managerSynthesis
deriving DecidableEq, Repr

instance : Named Aggregation where
  members := [.consensus, .managerSynthesis]
  name
    | .consensus => "consensus"
    | .managerSynthesis => "manager_synthesis"

/-- Why an invocation gave nothing to vote on. -/
inductive FailureKind where
  | timeout | invocation | malformed | cancelled
deriving DecidableEq, Repr

instance : Named FailureKind where
  members := [.timeout, .invocation, .malformed, .cancelled]
  name
    | .timeout => "timeout"
    | .invocation => "invocation"
    | .malformed => "malformed"
    | .cancelled => "cancelled"

inductive TierStatus where
  | completed | degraded | noData | awaitingReview | failed
deriving DecidableEq, Repr

instance : Named TierStatus where
  members := [.completed, .degraded, .noData, .awaitingReview, .failed]
  name
    | .completed => "completed"
    | .degraded => "degraded"
    | .noData => "no_data"
    | .awaitingReview => "awaiting_review"
    | .failed => "failed"

/-- The tier forwarded a verdict of low confidence, or none. -/
def TierStatus.isDegraded (s : TierStatus) : Bool := s == .degraded || s == .noData

/-- The state of a fleet run. -/
inductive FleetStatus where
  | pending | running | synthesizing | done | failed
deriving DecidableEq, Repr

instance : Named FleetStatus where
  members := [.pending, .running, .synthesizing, .done, .failed]
  name
    | .pending => "pending"
    | .running => "running"
    | .synthesizing => "synthesizing"
    | .done => "done"
    | .failed => "failed"

/-- The run can no longer change its state. -/
def FleetStatus.isTerminal (s : FleetStatus) : Bool := s == .done || s == .failed

/-- How urgently a verdict needs a reviewer. -/
inductive Severity where
  | low | high | critical
deriving DecidableEq, Repr

instance : Named Severity where
  members := [.low, .high, .critical]
  name
    | .low => "low"
    | .high => "high"
    | .critical => "critical"

/-- What a running fleet tells its observers. -/
inductive EventType where
  | fleetStarted | tierStarted | agentFailed | tierCompleted | consensusReached
  | synthesisStarted | fleetCompleted | fleetFailed
deriving DecidableEq, Repr

instance : Named EventType where
  members := [.fleetStarted, .tierStarted, .agentFailed, .tierCompleted, .consensusReached,
    .synthesisStarted, .fleetCompleted, .fleetFailed]
  name
    | .fleetStarted => "fleet_started"
    | .tierStarted => "tier_started"
    | .agentFailed => "agent_failed"
    | .tierCompleted => "tier_completed"
    | .consensusReached => "consensus_reached"
    | .synthesisStarted => "synthesis_started"
    | .fleetCompleted => "fleet_completed"
    | .fleetFailed => "fleet_failed"

inductive LogFormat where
  | console | json
deriving DecidableEq, Repr

instance : Named LogFormat where
  members := [.console, .json]
  name
    | .console => "console"
    | .json => "json"

end Quorum

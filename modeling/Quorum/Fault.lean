/-
  Quorum/Fault.lean
  =================
  **Faults: what goes wrong with a fleet, with details.**

  Every kind of fault has a set of details of its own.  A fault built with further details
  keeps their places and overwrites those that carry one of its own keys.
-/
import Quorum.Value.Printer
import Quorum.Vocabulary

namespace Quorum

inductive FaultKind where
  | general
  | configuration
  | agentInvocation
  | tierExhausted
  | synthesis
  | reviewRejected
  | deadlineExceeded
  | languageModel
deriving DecidableEq, Repr

instance : Named FaultKind where
  members := [.general, .configuration, .agentInvocation, .tierExhausted, .synthesis,
    .reviewRejected, .deadlineExceeded, .languageModel]
  name
    | .general => "ConcordError"
    | .configuration => "ConfigurationError"
    | .agentInvocation => "AgentInvocationError"
    | .tierExhausted => "TierExhaustedError"
    | .synthesis => "SynthesisFailure"
    | .reviewRejected => "HumanReviewRejected"
    | .deadlineExceeded => "FleetDeadlineExceeded"
    | .languageModel => "LLMError"

/-- The details every fault of a kind carries, in order. -/
def FaultKind.ownKeys : FaultKind → List String
  | .general => []
  | .configuration => []
  | .agentInvocation => ["agent_name", "tier", "kind"]
  | .tierExhausted => ["tier", "agent_count"]
  | .synthesis => ["agent_name"]
  | .reviewRejected => ["tier"]
  | .deadlineExceeded => ["deadline_seconds"]
  | .languageModel => ["model", "status_code"]

/-- A fault: its kind, what happened, and details for whoever looks into it. -/
structure Fault where
  kind : FaultKind
  message : String
  details : List (String × Value)

namespace Fault

/-- Build a fault; `own` gives its own details by key, and what is not given is null. -/
def make (kind : FaultKind) (message : String) (own : List (String × Value) := [])
    (details : List (String × Value) := []) : Fault where
  kind := kind
  message := message
  details := Entries.insertAll details
    (kind.ownKeys.map fun key => (key, (own.lookup key).getD .null))

def detail (f : Fault) (key : String) : Value := (f.details.lookup key).getD .null

def ownDetails (f : Fault) : List (String × Value) :=
  f.kind.ownKeys.map fun key => (key, f.detail key)

/-- The message, followed by the details if there are any. -/
def text (f : Fault) : String :=
  if f.details.isEmpty then f.message
  else s!"{f.message} | Details: {(Value.object f.details).literal}"

/-- A fault of a fleet file or of the settings. -/
def configuration (message : String) (details : List (String × Value) := []) : Fault :=
  make .configuration message [] details

end Fault

end Quorum

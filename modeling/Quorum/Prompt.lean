/-
  Quorum/Prompt.lean
  ==================
  **What agents are told.**

  A worker gets the task and what the tiers before it forward.  A manager that synthesizes
  gets the task and, for every tier, its verdict and all of its results.
-/
import Quorum.Fleet.Declaration
import Quorum.Run.Context
import Quorum.Value.Printer

namespace Quorum.Prompt

/-! ### Instructions -/

/-- The instructions of workers that have none of their own. -/
def workerInstructions : String :=
  "You are one of several independent investigators working on the same problem. " ++
  "Answer from the evidence you are given. Be concise and state your conclusion " ++
  "in the first line so it can be compared with other investigators."

/-- The instructions of synthesizing managers that have none of their own. -/
def managerInstructions : String :=
  "You coordinate a fleet of investigators. Read every tier's findings, including " ++
  "disagreements and failed agents, and write a single synthesized answer. Call out " ++
  "low-confidence or degraded tiers explicitly instead of hiding them."

def synthesizes (a : Agent) (synthesize : Bool) : Bool := a.isManager && synthesize

/-- The instructions of an agent: its own, unless they are empty, or those of its part. -/
def system (a : Agent) (synthesize : Bool) : String :=
  match a.instructions.filter fun s => !s.isEmpty with
  | some own => own
  | none => if synthesizes a synthesize then managerInstructions else workerInstructions

/-! ### The prompt of a worker -/

def finding (r : AgentResult) : String :=
  match r.error with
  | none => s!"- {r.agentName}: {r.output.render}\n"
  | some error => s!"- {r.agentName}: (failed: {error})\n"

def findings : Forwarded → String
  | .results rs => String.join (rs.map finding)
  | .value .null => "(no agent in this tier produced a result)\n"
  | .value v => v.render ++ "\n"

def tierFindings (tier : Int) (f : Forwarded) : String := s!"### Tier {tier}\n{findings f}"

/-- What all tiers forward; nothing if there are none. -/
def priorFindings (prior : List (Int × Forwarded)) : String :=
  if prior.isEmpty then ""
  else "\n## Findings From Earlier Tiers\n" ++ String.join (prior.map fun (t, f) => tierFindings t f)

def worker (c : Context) : String :=
  s!"## Task\n{c.task.render}\n{priorFindings c.forwarded}" ++
    "\nRespond with your own assessment of the task."

/-! ### The prompt of a synthesizing manager -/

def failureWord (r : AgentResult) : String := (r.errorKind.map Named.name).getD "error"

def rawResult (r : AgentResult) : String :=
  let outcome := match r.error with
    | none => r.output.render
    | some error => s!"FAILED [{failureWord r}] {error}"
  s!"- {r.agentName} (weight {Decimal.plainText r.weight}): {outcome}\n"

def yesNo (b : Bool) : String := if b then "yes" else "no"

/-- The value of a verdict, unless nobody voted. -/
def verdictText (v : Verdict Float) : String := if v.noData then "no data" else v.result.render

def commaList (names : List String) : String := ", ".intercalate names

/-- The section of one tier: its verdict and its results. -/
def tierSection (e : ContextEntry) : String :=
  let v := e.verdict
  let dissenters :=
    if v.dissenters.isEmpty then "" else s!"Dissenters: {commaList v.dissenters}\n"
  s!"### Tier {e.tier} ({Named.name v.algorithm})\nVerdict: {verdictText v}\n" ++
    s!"Confidence: {Decimal.fixedText 2 v.confidence} | Reached: {yesNo v.reached} | " ++
    s!"Votes: {v.votes}\n{dissenters}\nRaw results:\n{String.join (e.results.map rawResult)}"

def synthesis (c : Context) : String :=
  s!"## Task\n{c.task.render}\n\n## Tier Findings\n{String.join (c.entries.map tierSection)}" ++
    "\nSynthesize the findings above into one final answer for the task."

def user (a : Agent) (c : Context) (synthesize : Bool) : String :=
  if synthesizes a synthesize then synthesis c else worker c

end Quorum.Prompt

/-
  Quorum/Run/Context.lean
  =======================
  **What a tier knows of the tiers before it.**

  The context of a run is its task and one entry per tier that is done, in ascending order
  of tiers.  An entry forwards the tier's raw results or its verdict, as the fleet says.
-/
import Quorum.Consensus.Verdict

namespace Quorum

structure ContextEntry where
  tier : Int
  verdict : Verdict Float
  results : List AgentResult
  passAllResults : Bool

/-- What a tier forwards: its raw results, or a single value. -/
inductive Forwarded where
  | results (rs : List AgentResult)
  | value (v : Value)

/-- What the next tier receives from an entry.  A list without results is forwarded as an
    empty list. -/
def ContextEntry.forwarded (e : ContextEntry) : Forwarded :=
  if e.passAllResults then
    if e.results.isEmpty then .value (.list []) else .results e.results
  else .value e.verdict.result

def ContextEntry.check (results : List AgentResult) : Check.Rule ContextEntry := fun d => do
  let fields ← Check.record "ContextEntry" d
  Checked.build (fun tier verdict pass => ⟨tier, verdict, results, pass⟩)
    |>.apply (Check.required fields "tier" Check.integer)
    |>.apply (Check.required fields "consensus" Verdict.check)
    |>.apply (Check.withDefault fields "pass_all_results" false Check.truth)

/-- The task of a run and what its tiers have contributed so far. -/
structure Context where
  task : Value
  entries : List ContextEntry

/-- An entry that would break the ascending order of tiers. -/
structure OrderConflict where
  tier : Int
  after : Int

def OrderConflict.message (c : OrderConflict) : String :=
  s!"Context entries must be appended in ascending tier order: {c.tier} after {c.after}"

namespace Context

/-- The context of a run that has not done anything yet. -/
def start (task : Value) : Context := ⟨task, []⟩

def latest? (c : Context) : Option ContextEntry := c.entries.getLast?

/-- The context with one more entry, for a higher tier than all before. -/
def append (c : Context) (e : ContextEntry) : Except OrderConflict Context :=
  match c.latest? with
  | some last =>
    if e.tier ≤ last.tier then .error ⟨e.tier, last.tier⟩
    else .ok { c with entries := c.entries ++ [e] }
  | none => .ok { c with entries := c.entries ++ [e] }

def forwarded (c : Context) : List (Int × Forwarded) := c.entries.map fun e => (e.tier, e.forwarded)

def verdicts (c : Context) : List (Int × Verdict Float) := c.entries.map fun e => (e.tier, e.verdict)

end Context

end Quorum

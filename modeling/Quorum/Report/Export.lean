/-
  Quorum/Report/Export.lean
  =========================
  **Reports as Markdown, and report files.**

  A full report is a summary, a rule, one section per tier, and the time at which the run
  was over.  Sections are lists of lines.
-/
import Quorum.Prompt
import Quorum.Report.Basic
import Quorum.Report.Record
import Quorum.Text.Case

namespace Quorum.Markdown

open Prompt (yesNo verdictText commaList failureWord)

def lines (ls : List String) : String := "\n".intercalate ls

def tierList (tiers : List Int) : String := commaList (tiers.map toString)

/-! ### The summary -/

/-- What stopped the run, if something did. -/
def errorLines (r : FleetReport) : List String :=
  match r.error.filter fun e => !e.isEmpty with
  | some error => ["## Error", error, ""]
  | none => []

/-- The tiers with a weak verdict or none. -/
def degradedLines (r : FleetReport) : List String :=
  if r.degradedTiers.isEmpty then []
  else [s!"**Degraded tiers:** {tierList r.degradedTiers}", ""]

/-- Who wrote the answer, if it was synthesized. -/
def synthesisLines (r : FleetReport) : List String :=
  match r.synthesisAgent.filter fun a => !a.isEmpty with
  | some agent => [s!"_Synthesized by {agent}_", ""]
  | none => []

/-- The final verdict, if there is one. -/
def finalLines (r : FleetReport) : List String :=
  match r.finalVerdict with
  | some v =>
    [s!"Final consensus ({Named.name v.algorithm}): confidence " ++
      s!"{Decimal.fixedText 2 v.confidence}, reached: {yesNo v.reached}", ""]
  | none => []

def summaryLines (r : FleetReport) : List String :=
  [s!"# Fleet Report: {r.fleetName}", "",
    s!"**Run ID:** {r.runId}",
    s!"**Status:** {Named.name r.status}",
    s!"**Duration:** {Decimal.fixedText 1 r.durationSeconds}s",
    s!"**Invocations:** {r.successfulInvocations}/{r.totalInvocations} succeeded", ""]
  ++ errorLines r ++ degradedLines r ++ ["## Answer"] ++ synthesisLines r
  ++ [r.answer.render, ""] ++ finalLines r

def summary (r : FleetReport) : String := lines (summaryLines r)

/-! ### Tiers -/

/-- The first characters of a text, with dots where it goes on. -/
def abbreviated (length : Nat) (s : String) : String :=
  if length < s.length then String.ofList (s.toList.take length) ++ "..." else s

def oneLine (s : String) : String := s.map fun c => if c == '\n' then ' ' else c

def agentLine (r : AgentResult) : String :=
  match r.error with
  | none =>
    s!"- **{r.agentName}** (weight {Decimal.generalText r.weight}, " ++
      s!"{Decimal.fixedText 0 r.latencyMs}ms): {abbreviated 200 (oneLine r.output.render)}"
  | some error => s!"- **{r.agentName}** FAILED [{failureWord r}]: {error}"

/-- Who should look at the verdict, and what went wrong. -/
def concernLines (t : TierReport) : List String :=
  let escalation := match t.verdict.escalation with
    | some severity => [s!"Escalation: {Named.name severity}"]
    | none => []
  let error := match t.error.filter fun e => !e.isEmpty with
    | some error => [s!"Error: {error}"]
    | none => []
  escalation ++ error

/-- The lines of a tier before its agents. -/
def verdictLines (t : TierReport) : List String :=
  let v := t.verdict
  let dissenters :=
    if v.dissenters.isEmpty then [] else [s!"Dissenters: {commaList v.dissenters}", ""]
  [s!"## Tier {t.tier}: {Named.name t.status}", "",
    s!"Algorithm: {Named.name v.algorithm}",
    s!"Confidence: {Decimal.fixedText 2 v.confidence}",
    s!"Reached: {yesNo v.reached}",
    s!"Votes: {v.votes} (min {v.minVotes})"]
  ++ concernLines t ++ ["", "### Verdict", verdictText v, ""] ++ dissenters

def tierSection (t : TierReport) : String :=
  lines (verdictLines t ++ ["### Agents"] ++ t.results.map agentLine)

/-! ### Full reports -/

def report (r : FleetReport) : String :=
  lines ([summary r, "---", ""] ++ r.tiers.flatMap (fun t => [tierSection t, ""])
    ++ [s!"_Generated: {r.completedAt.text}_"])

end Quorum.Markdown

namespace Quorum

/-! ### Report files -/

inductive ExportFormat where
  | json | markdown
deriving DecidableEq, Repr

namespace ExportFormat

/-- A format by one of its names, in lower case. -/
def ofName? (name : String) : Option ExportFormat :=
  if name == "json" then some .json
  else if name == "md" || name == "markdown" then some .markdown
  else none

/-- The message for a name that is none of a format. -/
def unknown (name : String) : String := s!"Unknown export format: {name}"

/-- The format of a name in any case, or the message for an unknown one. -/
def read (name : String) : Except String ExportFormat :=
  let name := Text.lower name
  match ofName? name with
  | some f => .ok f
  | none => .error (unknown name)

end ExportFormat

def FleetReport.fileText (r : FleetReport) : ExportFormat → String
  | .json => r.toValue.write .exported
  | .markdown => Markdown.report r

end Quorum

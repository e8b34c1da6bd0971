/-
  Quorum/Display.lean
  ===================
  **Fleets and reports on a terminal.**

  What is displayed is a list of blocks: lines, panels and tables of marked-up text.  A
  terminal decides how they look.  Texts that come from agents are escaped, so that they
  are never taken for marks.
-/
import Quorum.Fleet.Spec
import Quorum.Report.Export

namespace Quorum

/-! ### Blocks -/

/-- How the cells of a column are placed. -/
inductive Justify where
  | left | right | center
deriving DecidableEq, Repr

instance : Named Justify where
  members := [.left, .right, .center]
  name
    | .left => "left"
    | .right => "right"
    | .center => "center"

structure Column where
  header : String
  justify : Justify := .left
  style : String := ""
  maxWidth : Option Nat := none
  noWrap : Bool := false

inductive Block where
  | blank
  | text (markup : String)
  | panel (markup title border : String)
  | table (title : String) (columns : List Column) (rows : List (List String))

namespace Block

/-- The cells of a column, from the first row on. -/
def cells (rows : List (List String)) (column : Nat) : List String :=
  rows.map fun row => row.getD column ""

end Block

namespace Markup

/-- The character can open a mark after a bracket. -/
def opensMark (c : Char) : Bool :=
  ('a' ≤ c && c ≤ 'z') || c == '#' || c == '/' || c == '@'

/-- What follows a bracket reads like a mark: it is closed before another bracket opens. -/
def readsLikeMark : List Char → Bool
  | [] => false
  | c :: rest => opensMark c && rest.find? (fun c => c == ']' || c == '[') == some ']'

/-- Escape what reads like a mark, after a number of backslashes. -/
def escapeFrom (backslashes : Nat) : List Char → List Char
  | [] => List.replicate backslashes '\\'
  | '\\' :: rest => escapeFrom (backslashes + 1) rest
  | '[' :: rest =>
    let count := if readsLikeMark rest then 2 * backslashes + 1 else backslashes
    List.replicate count '\\' ++ '[' :: escapeFrom 0 rest
  | c :: rest => List.replicate backslashes '\\' ++ c :: escapeFrom 0 rest

/-- A single backslash at the end would escape what comes after the text. -/
def escapeEnd (cs : List Char) : List Char :=
  match cs.reverse with
  | '\\' :: '\\' :: _ => cs
  | '\\' :: _ => cs ++ ['\\']
  | _ => cs

def escape (s : String) : String := String.ofList (escapeEnd (escapeFrom 0 s.toList))

def colored (color s : String) : String := s!"[{color}]{s}[/{color}]"

end Markup

namespace Display

open Markup (escape colored)
open Markdown (abbreviated tierList)
open Prompt (yesNo verdictText failureWord)

/-! ### Reports -/

def tierColor : TierStatus → String
  | .completed => "green"
  | .degraded => "yellow"
  | .noData => "bold red"
  | .awaitingReview => "cyan"
  | .failed => "red"

def fleetColor : FleetStatus → String
  | .done => "green"
  | .failed => "red"
  | _ => "yellow"

def headPanel (r : FleetReport) : Block :=
  let color := fleetColor r.status
  .panel
    (s!"[bold]Fleet:[/bold] {r.fleetName}\nStatus: {colored color (Named.name r.status)}\n" ++
      s!"Invocations: {r.successfulInvocations}/{r.totalInvocations} succeeded | " ++
      s!"Time: {Decimal.fixedText 1 r.durationSeconds}s")
    "Fleet Run" color

def tierRow (t : TierReport) : List String :=
  [toString t.tier, Named.name t.verdict.algorithm,
    colored (tierColor t.status) (Named.name t.status),
    Decimal.fixedText 2 t.verdict.confidence, toString t.verdict.votes, toString t.failureCount,
    escape (abbreviated 80 (verdictText t.verdict))]

def tierTable (r : FleetReport) : Block :=
  .table "Tiers"
    [⟨"Tier", .right, "cyan", none, false⟩, ⟨"Algorithm", .left, "", none, false⟩,
     ⟨"Status", .center, "", none, false⟩, ⟨"Confidence", .right, "", none, false⟩,
     ⟨"Votes", .right, "", none, false⟩, ⟨"Failures", .right, "", none, false⟩,
     ⟨"Verdict", .left, "", some 50, false⟩]
    (r.tiers.map tierRow)

def outputCell (r : AgentResult) : String :=
  match r.error with
  | none => escape (abbreviated 100 r.output.render)
  | some error => colored "red" s!"{failureWord r}: {escape error}"

def agentRow (r : AgentResult) : List String :=
  [r.agentName, Decimal.generalText r.weight, s!"{Decimal.fixedText 0 r.latencyMs}ms", outputCell r]

def agentTable (t : TierReport) : Block :=
  .table s!"Tier {t.tier} Agents"
    [⟨"Agent", .left, "cyan", none, true⟩, ⟨"Weight", .right, "", none, false⟩,
     ⟨"Latency", .right, "", none, false⟩, ⟨"Output", .left, "", some 60, false⟩]
    (t.results.map agentRow)

def errorBlocks (r : FleetReport) : List Block :=
  match r.error.filter fun e => !e.isEmpty with
  | some error => [.text s!"\n[red]Error:[/red] {escape error}"]
  | none => []

/-- The title of the answer: who wrote it, or how sure the fleet is of it. -/
def answerTitle (r : FleetReport) : String :=
  match r.synthesisAgent.filter fun a => !a.isEmpty, r.finalVerdict with
  | some agent, _ => s!"Answer (synthesized by {agent})"
  | none, some v => s!"Answer (confidence {Decimal.fixedText 2 v.confidence})"
  | none, none => "Answer"

def answerBlocks (r : FleetReport) : List Block :=
  if r.answer.isNull then []
  else [.blank, .panel (escape r.answer.render) (answerTitle r) "blue"]

/-- A report; verbose displays show every agent. -/
def report (verbose : Bool) (r : FleetReport) : List Block :=
  [.blank, headPanel r, tierTable r] ++ (if verbose then r.tiers.map agentTable else [])
    ++ errorBlocks r ++ answerBlocks r

/-! ### Fleets -/

def fleetRow (f : Fleet) (tier : Int) (a : Agent) : List String :=
  let weight := (f.weights.lookup a.name).getD Fleet.defaultWeight
  let algorithm :=
    if a.isManager && f.synthesizes then "synthesis"
    else Named.name (f.coordination.rulesFor tier).algorithm
  [toString tier, a.name, Named.name a.role, Decimal.generalText weight, algorithm,
    (a.model.filter fun m => !m.isEmpty).getD "-"]

/-- A fleet: its coordination and its agents by tier. -/
def fleet (f : Fleet) : List Block :=
  let c := f.coordination
  [.panel
    (s!"[bold]{f.name}[/bold] ({f.apiVersion})\nTiers: {tierList f.tiers}\n" ++
      s!"Final aggregation: {Named.name c.finalAggregation}\n" ++
      s!"Pass all results: {yesNo c.passAllResults}")
    "Fleet" "blue",
   .table "Agents"
    [⟨"Tier", .right, "cyan", none, false⟩, ⟨"Agent", .left, "", none, false⟩,
     ⟨"Role", .left, "", none, false⟩, ⟨"Weight", .right, "", none, false⟩,
     ⟨"Algorithm", .left, "", none, false⟩, ⟨"Model", .left, "", none, false⟩]
    (f.tiers.flatMap fun t => (f.agentsInTier t).map (fleetRow f t))]

end Display

/-! ### Displays without colors

Marks are taken out of a text, and what was escaped stands as it is.  Panels have their
title above them, and the cells of a table stand side by side. -/

namespace Markup

/-- Take marks out of a text, after a number of backslashes; what stands inside a mark is
    skipped up to its closing bracket. -/
def plainFrom (backslashes : Nat) (inMark : Bool) : List Char → List Char
  | [] => List.replicate backslashes '\\'
  | c :: rest =>
    if inMark then plainFrom 0 (c != ']') rest
    else if c == '\\' then plainFrom (backslashes + 1) false rest
    else if c == '[' && readsLikeMark rest then
      let kept := List.replicate (backslashes / 2) '\\'
      if backslashes % 2 == 1 then kept ++ c :: plainFrom 0 false rest
      else kept ++ plainFrom 0 true rest
    else List.replicate backslashes '\\' ++ c :: plainFrom 0 false rest

def plain (s : String) : String := String.ofList (plainFrom 0 false s.toList)

end Markup

namespace Block

def plain : Block → List String
  | .blank => [""]
  | .text markup => [Markup.plain markup]
  | .panel markup title _ => [s!"== {Markup.plain title} ==", Markup.plain markup]
  | .table title columns rows =>
    let row (cells : List String) := " | ".intercalate (cells.map Markup.plain)
    s!"== {Markup.plain title} ==" :: row (columns.map Column.header) :: rows.map row

end Block

end Quorum

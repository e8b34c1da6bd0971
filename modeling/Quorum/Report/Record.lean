/-
  Quorum/Report/Record.lean
  =========================
  **Fleets, verdicts and reports as values.**

  Every field stands under its written name, in the order of the type; what is computed
  from the fields follows them.
-/
import Quorum.Fleet.Spec
import Quorum.Report.Basic
import Quorum.Value.Basic

namespace Quorum

def VotingRules.toValue (r : VotingRules) : Value := .object [
  ("algorithm", .named r.algorithm),
  ("min_votes", .int r.minVotes),
  ("min_confidence", .float r.minConfidence),
  ("timeout_seconds", .ofOption .float r.timeoutSeconds),
  ("weights", .object (r.weights.map fun (k, w) => (k, .float w)))]

def Agent.toValue (a : Agent) : Value := .object [
  ("name", .text a.name),
  ("tier", .int a.tier),
  ("weight", .ofOption .float a.weight),
  ("role", .named a.role),
  ("model", .ofOption .text a.model),
  ("instructions", .ofOption .text a.instructions),
  ("temperature", .ofOption .float a.temperature),
  ("output_format", .named a.outputFormat),
  ("timeout_seconds", .ofOption .float a.timeoutSeconds),
  ("config_path", .ofOption .text a.configPath),
  ("labels", .object (a.labels.map fun (k, v) => (k, .text v)))]

def Coordination.toValue (c : Coordination) : Value := .object [
  ("mode", .named c.mode),
  ("default_consensus", c.defaultRules.toValue),
  ("tier_consensus", .object (c.tierRules.map fun (t, r) => (toString t, r.toValue))),
  ("pass_all_results", .bool c.passAllResults),
  ("final_aggregation", .named c.finalAggregation),
  ("manager", .ofOption .text c.manager),
  ("allow_tier_gaps", .bool c.allowTierGaps),
  ("abort_on_tier_failure", .bool c.abortOnTierFailure)]

def Fleet.toValue (f : Fleet) : Value := .object [
  ("name", .text f.name),
  ("api_version", .text f.apiVersion),
  ("kind", .text f.kind),
  ("labels", .object (f.labels.map fun (k, v) => (k, .text v))),
  ("agents", .list (f.agents.map Agent.toValue)),
  ("coordination", f.coordination.toValue)]

def Tally.toValue (t : Tally Float) : Value := .object [
  ("value", t.value),
  ("count", .int t.count),
  ("score", .float t.score),
  ("agents", .texts t.agents)]

def Verdict.toValue (v : Verdict Float) : Value := .object [
  ("result", v.result),
  ("confidence", .float v.confidence),
  ("votes", .int v.votes),
  ("algorithm", .named v.algorithm),
  ("reached", .bool v.reached),
  ("min_votes", .int v.minVotes),
  ("min_confidence", .float v.minConfidence),
  ("tally", .list (v.tally.map Tally.toValue)),
  ("dissenters", .texts v.dissenters),
  ("escalation", .ofOption .named v.escalation),
  ("no_data", .bool v.noData),
  ("distinct_values", .int v.distinctValues)]

def AgentResult.toValue (r : AgentResult) : Value := .object [
  ("agent_name", .text r.agentName),
  ("tier", .int r.tier),
  ("output", r.output),
  ("weight", .float r.weight),
  ("latency_ms", .float r.latencyMs),
  ("started_at", .text r.startedAt.exportText),
  ("completed_at", .text r.completedAt.exportText),
  ("error", .ofOption .text r.error),
  ("error_kind", .ofOption .named r.errorKind),
  ("succeeded", .bool r.succeeded)]

def TierReport.toValue (t : TierReport) : Value := .object [
  ("tier", .int t.tier),
  ("status", .named t.status),
  ("consensus", t.verdict.toValue),
  ("results", .list (t.results.map AgentResult.toValue)),
  ("config", t.rules.toValue),
  ("duration_ms", .float t.durationMs),
  ("error", .ofOption .text t.error),
  ("success_count", .int t.successCount),
  ("failure_count", .int t.failureCount)]

def FleetReport.toValue (r : FleetReport) : Value := .object [
  ("run_id", .text r.runId),
  ("fleet_name", .text r.fleetName),
  ("status", .named r.status),
  ("task", r.task),
  ("tiers", .list (r.tiers.map TierReport.toValue)),
  ("final_consensus", .ofOption Verdict.toValue r.finalVerdict),
  ("answer", r.answer),
  ("synthesis_agent", .ofOption .text r.synthesisAgent),
  ("error", .ofOption .text r.error),
  ("started_at", .text r.startedAt.exportText),
  ("completed_at", .text r.completedAt.exportText),
  ("degraded_tiers", .list (r.degradedTiers.map .int)),
  ("failed_tiers", .list (r.failedTiers.map .int)),
  ("total_invocations", .int r.totalInvocations),
  ("successful_invocations", .int r.successfulInvocations),
  ("duration_seconds", .float r.durationSeconds)]

end Quorum

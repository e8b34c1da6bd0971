/-
  Quorum/Proofs/Run/Scores.lean
  =============================
  **Which weights and scores compare at least zero.**

  A weight that an agent brings along compares at least zero.  Of a weight in a map it is only
  asked that it does not compare below zero, and that lets through what is no number
  (`weightsFor_cases`, `create_undefined_weight`).  A score is the sum of the weights behind a
  value, so it compares at least zero exactly if all of them do (`evaluateBallots_scored`), in
  every run of every fleet that was created (`run_scored`).
-/
import Quorum.Proofs.Consensus.Ranked
import Quorum.Proofs.Decimal.Doubles
import Quorum.Proofs.Run.Recounted

namespace Quorum

/-! ### Scores of a verdict -/

/-- The score of a row compares at least zero exactly if the weights of the agents behind it
    do, and all of these have a weight. -/
structure Verdict.Scored (weights : List (String × Float)) (v : Verdict Float) : Prop where
  weighed : ∀ row ∈ v.tally, ∀ name ∈ row.agents, ∃ w, weights.lookup name = some w
  score : ∀ row ∈ v.tally, (0 ≤ row.score ↔
    ∀ name ∈ row.agents, ∃ w, weights.lookup name = some w ∧ 0 ≤ w)

namespace Consensus

theorem weightSum_eq_foldl (weights : List (String × Float)) (ballots : List (Ballot Float)) :
    weightSum weights ballots = (ballots.map (ballotWeight weights)).foldl (· + ·) 0.0 := by
  rw [List.foldl_map]
  rfl

theorem zero_le_weightSum_iff {weights : List (String × Float)} {ballots : List (Ballot Float)}
    (h : ∀ b ∈ ballots, ∃ w, weights.lookup b.agent = some w ∧ (0 ≤ w ∨ w.isNaN = true)) :
    0 ≤ weightSum weights ballots ↔
      ∀ name ∈ ballots.map Ballot.agent, ∃ w, weights.lookup name = some w ∧ 0 ≤ w := by
  have hzero : (0 : Float) ≤ 0.0 := by decide
  rw [weightSum_eq_foldl, Decimal.zero_le_sum_iff (Or.inl hzero), and_iff_right hzero,
    List.forall_mem_map, List.forall_mem_map]
  · refine forall₂_congr fun b hb => ?_
    obtain ⟨w, hw, -⟩ := h b hb
    simp [ballotWeight, hw]
  · intro x hx
    obtain ⟨b, hb, rfl⟩ := List.mem_map.mp hx
    obtain ⟨w, hw, hcomparable⟩ := h b hb
    rw [ballotWeight, hw]
    exact hcomparable

theorem evaluateBallots_scored {weights : List (String × Float)} {ballots : List (Ballot Float)}
    (rules : VotingRules) (h : ∀ b ∈ ballots, ∃ w, weights.lookup b.agent = some w ∧
      (0 ≤ w ∨ w.isNaN = true)) : (evaluateBallots ballots weights rules).Scored weights := by
  by_cases hvotes : ballots = []
  · subst hvotes
    rw [evaluateBallots_nil]
    exact ⟨List.forall_mem_nil _, List.forall_mem_nil _⟩
  · obtain ⟨firstKey, winner, rest, -, -, hperm, hverdict⟩ :=
      evaluateBallots_decided weights rules hvotes
    -- a row is the group of the votes under some key
    have hrows : ∀ row ∈ (evaluateBallots ballots weights rules).tally,
        ∃ key, row = (groupUnder weights (counted ballots) key).tally := by
      intro row hrow
      rw [hverdict] at hrow
      obtain ⟨g, hg, rfl⟩ := List.mem_map.mp hrow
      have hgroup := hperm.mem_iff.mp hg
      rw [groupsOf_eq] at hgroup
      obtain ⟨key, -, rfl⟩ := List.mem_map.mp hgroup
      exact ⟨key, rfl⟩
    have hbehind : ∀ key, ∀ b ∈ supporters (counted ballots) key, ∃ w,
        weights.lookup b.agent = some w ∧ (0 ≤ w ∨ w.isNaN = true) := fun key b hb =>
      h b ((counted_perm ballots).mem_iff.mp (mem_supporters.mp hb).1)
    constructor
    · intro row hrow name hname
      obtain ⟨key, rfl⟩ := hrows row hrow
      obtain ⟨b, hb, rfl⟩ := List.mem_map.mp hname
      obtain ⟨w, hw, -⟩ := hbehind key b hb
      exact ⟨w, hw⟩
    · intro row hrow
      obtain ⟨key, rfl⟩ := hrows row hrow
      exact zero_le_weightSum_iff (hbehind key)

end Consensus

/-! ### Weights in force -/

namespace Fleet

variable {d : Datum} {f : Fleet}

/-- A weight in force compares at least zero, unless it is no number; then it comes from a map
    of weights and the agent has none of its own. -/
theorem weightsFor_cases (hread : Fleet.read d = .ok f) (hf : f.Coherent) {a : Agent}
    (ha : a ∈ f.agents) (tier : Int) : ∃ w, (f.weightsFor tier).lookup a.name = some w ∧
      (0 ≤ w ∨ (w.isNaN = true ∧ a.weight = none ∧
        ∃ rules ∈ f.allRules, (a.name, w) ∈ rules.weights)) := by
  have hmap : ∀ {rules : VotingRules} {w : Float}, rules ∈ f.allRules →
      rules.weights.lookup a.name = some w → 0 ≤ w ∨ (w.isNaN = true ∧
        ∃ rules ∈ f.allRules, (a.name, w) ∈ rules.weights) := by
    intro rules w hrules hw
    have hentry := Entries.mem_of_lookup hw
    rcases Decimal.zero_le_or_isNaN ((rules_sound hread hrules).weights _ hentry) with hnonneg | hnan
    · exact Or.inl hnonneg
    · exact Or.inr ⟨hnan, rules, hrules, hentry⟩
  refine ⟨_, weightsFor_lookup hread hf ha tier, ?_⟩
  cases hown : a.weight with
  | some own => exact Or.inl (ownWeight_nonneg hread ha hown)
  | none =>
    rw [Option.none_or]
    cases hhint : (f.coordination.tierRules.lookup tier).bind fun rules =>
        rules.weights.lookup a.name with
    | some hint =>
      obtain ⟨rules, hrules, hhint⟩ := Option.bind_eq_some_iff.mp hhint
      have hmem : rules ∈ f.allRules :=
        List.mem_cons_of_mem _ (List.mem_map.mpr ⟨_, Entries.mem_of_lookup hrules, rfl⟩)
      exact (hmap hmem hhint).imp_right fun ⟨hnan, hrest⟩ => ⟨hnan, rfl, hrest⟩
    | none =>
      cases hdefault : f.coordination.defaultRules.weights.lookup a.name with
      | some w =>
        exact (hmap List.mem_cons_self hdefault).imp_right fun ⟨hnan, hrest⟩ => ⟨hnan, rfl, hrest⟩
      | none => exact Or.inl (by decide)

end Fleet

/-! ### Runs -/

namespace Mission

variable {m : Mission}

theorem evaluate_scored {d : Datum} (hread : Fleet.read d = .ok m.fleet) (hf : m.fleet.Coherent)
    {results : List AgentResult} {tier : Int} (rules : VotingRules)
    (hweights : ∀ r ∈ results, (m.fleet.weightsFor tier).lookup r.agentName = some r.weight) :
    (Consensus.evaluate results (m.fleet.weightsFor tier) rules).Scored
      (m.fleet.weightsFor tier) := by
  apply Consensus.evaluateBallots_scored
  intro b hb
  obtain ⟨r, hr, -, rfl⟩ := Consensus.mem_ballots.mp hb
  have hweight : (m.fleet.weightsFor tier).lookup r.agentName = some r.weight := hweights r hr
  refine ⟨r.weight, hweight, ?_⟩
  -- the name belongs to an agent, since it has a weight
  have hname : r.agentName ∈ Entries.keys (m.fleet.weightsFor tier) :=
    List.mem_map_of_mem (Entries.mem_of_lookup hweight)
  rw [hf.weightsFor_keys] at hname
  obtain ⟨a, ha, hname⟩ := List.mem_map.mp hname
  obtain ⟨w, hw, hcases⟩ := Fleet.weightsFor_cases hread hf ha tier
  rw [hname, hweight] at hw
  cases hw
  exact hcases.imp_right And.left

theorem run_tallied (hf : m.fleet.Valid) (hplaces : m.executor.places ≠ 0) (task : Value)
    (deadline : Option Number) :
    ∃ j, m.Tallied j ∧ (m.run task deadline).journey.tiers = j.tiers ∧
      ∀ report, (m.run task deadline).ending = .ok report →
        report.tiers = j.tiers ∧ report.finalVerdict = j.finalVerdict := by
  obtain ⟨j, h, hrun, hends⟩ := m.run_ends task deadline
  have hstart : m.Accounts [] (m.announceStart deadline (Journey.atStart task m.start)) :=
    ⟨Journey.atStart_underway task m.start, .nil, List.forall_mem_nil _⟩
  have htallied := executeWithin_tallied deadline hf hplaces hstart
  rw [hrun] at htallied
  refine ⟨j, htallied, ?_⟩
  generalize m.run task deadline = run at hends
  cases hends with
  | done =>
    refine ⟨rfl, ?_⟩
    intro report hreport
    cases hreport
    exact ⟨rfl, rfl⟩
  | failed _ =>
    refine ⟨rfl, ?_⟩
    intro report hreport
    cases hreport
    exact ⟨rfl, rfl⟩
  | brokenOff _ =>
    refine ⟨rfl, ?_⟩
    intro report hreport
    cases hreport

/-- All verdicts that a run records are so, each with the tier it is about; the final one is
    about the last tier of the report. -/
structure AllVerdicts (run : FleetRun) (P : Int → Verdict Float → Prop) : Prop where
  tiers : ∀ t ∈ run.journey.tiers, P t.tier t.verdict
  final : ∀ report, run.ending = .ok report → ∀ v, report.finalVerdict = some v →
    ∃ last, report.tiers.getLast? = some last ∧ P last.tier v

theorem AllVerdicts.imp {run : FleetRun} {P Q : Int → Verdict Float → Prop}
    (h : AllVerdicts run P) (hPQ : ∀ tier v, P tier v → Q tier v) : AllVerdicts run Q where
  tiers := fun t ht => hPQ _ _ (h.tiers t ht)
  final := by
    intro report hreport v hv
    obtain ⟨last, hlast, hP⟩ := h.final report hreport v hv
    exact ⟨last, hlast, hPQ _ _ hP⟩

theorem run_scored {d : Datum} (hcreate : Fleet.create d = .ok m.fleet)
    (hplaces : m.executor.places ≠ 0) (task : Value) (deadline : Option Number) :
    AllVerdicts (m.run task deadline) fun tier v => v.Scored (m.fleet.weightsFor tier) := by
  obtain ⟨hread, hf⟩ := Fleet.read_of_create hcreate
  obtain ⟨j, htallied, htiers, hreports⟩ :=
    run_tallied (Fleet.valid_of_create hcreate) hplaces task deadline
  constructor
  · rw [htiers]
    intro t ht
    have haccounted := htallied.tiers t ht
    rw [haccounted.verdict]
    exact evaluate_scored hread hf t.rules haccounted.weights
  · intro report hreport v hv
    obtain ⟨hsame, hfinal⟩ := hreports report hreport
    rw [hfinal] at hv
    obtain ⟨last, hlast, -, rfl⟩ := htallied.final v hv
    have haccounted := htallied.tiers last (List.mem_of_getLast? hlast)
    exact ⟨last, hsame ▸ hlast, evaluate_scored hread hf _ haccounted.weights⟩

end Mission

/-- **Weights and scores compare at least zero, but for what is no number.**  In a fleet that
    was created a weight in force compares at least zero, unless a map of weights gives it and
    it is no number.  In every run of the fleet a score compares at least zero exactly if the
    weights behind it do; so all weights and scores do where the maps hold numbers alone. -/
theorem Fleet.create_scored {d : Datum} {f : Fleet} (h : Fleet.create d = .ok f) :
    (∀ tier, ∀ a ∈ f.agents, ∃ w, (f.weightsFor tier).lookup a.name = some w ∧
      (0 ≤ w ∨ (w.isNaN = true ∧ a.weight = none ∧
        ∃ rules ∈ f.allRules, (a.name, w) ∈ rules.weights))) ∧
    (∀ m : Mission, m.fleet = f → m.executor.places ≠ 0 → ∀ task deadline,
      Mission.AllVerdicts (m.run task deadline) fun tier v => v.Scored (f.weightsFor tier)) ∧
    ((∀ rules ∈ f.allRules, ∀ entry ∈ rules.weights, entry.2.isNaN = false) →
      (∀ tier, ∀ a ∈ f.agents, ∃ w, (f.weightsFor tier).lookup a.name = some w ∧ 0 ≤ w) ∧
      ∀ m : Mission, m.fleet = f → m.executor.places ≠ 0 → ∀ task deadline,
        Mission.AllVerdicts (m.run task deadline) fun _ v => ∀ row ∈ v.tally, 0 ≤ row.score) := by
  obtain ⟨hread, hf⟩ := read_of_create h
  have hcases := fun tier a (ha : a ∈ f.agents) => weightsFor_cases hread hf ha tier
  have hscored : ∀ m : Mission, m.fleet = f → m.executor.places ≠ 0 → ∀ task deadline,
      Mission.AllVerdicts (m.run task deadline) fun tier v => v.Scored (f.weightsFor tier) := by
    rintro m rfl hplaces task deadline
    exact Mission.run_scored h hplaces task deadline
  refine ⟨hcases, hscored, ?_⟩
  intro hnumbers
  have hnonneg : ∀ tier, ∀ a ∈ f.agents,
      ∃ w, (f.weightsFor tier).lookup a.name = some w ∧ 0 ≤ w := by
    intro tier a ha
    obtain ⟨w, hw, hzero | ⟨hnan, -, rules, hrules, hentry⟩⟩ := hcases tier a ha
    · exact ⟨w, hw, hzero⟩
    · rw [hnumbers rules hrules _ hentry] at hnan
      cases hnan
  refine ⟨hnonneg, fun m hm hplaces task deadline => ?_⟩
  refine (hscored m hm hplaces task deadline).imp fun tier v hv row hrow => ?_
  refine (hv.score row hrow).mpr fun name hname => ?_
  obtain ⟨w, hw⟩ := hv.weighed row hrow name hname
  have hkey : name ∈ Entries.keys (f.weightsFor tier) :=
    List.mem_map_of_mem (Entries.mem_of_lookup hw)
  rw [hf.weightsFor_keys] at hkey
  obtain ⟨a, ha, rfl⟩ := List.mem_map.mp hkey
  exact hnonneg tier a ha

/-- The weights of the patrol are numbers, and so are the scores of its runs. -/
theorem patrol_scored : Fleet.create patrolData = .ok patrol ∧
    (∀ rules ∈ patrol.allRules, ∀ entry ∈ rules.weights, entry.2.isNaN = false) ∧
    ({ unreadDraft with fleet := patrol } : Mission).executor.places ≠ 0 ∧
    Mission.AllVerdicts (({ unreadDraft with fleet := patrol } : Mission).run (.text "go") none)
      fun _ v => ∀ row ∈ v.tally, 0 ≤ row.score := by
  have hnumbers : ∀ rules ∈ patrol.allRules, ∀ entry ∈ rules.weights, entry.2.isNaN = false := by
    decide
  have hplaces : ({ unreadDraft with fleet := patrol } : Mission).executor.places ≠ 0 := by decide
  obtain ⟨-, -, hall⟩ := Fleet.create_scored patrol_created
  exact ⟨patrol_created, hnumbers, hplaces, (hall hnumbers).2 _ rfl hplaces _ _⟩

/-- One agent, and a word for no number among the default weights. -/
def vagueData : Datum := .mapping [
  (.text "name", .text "f"),
  (.text "agents", .list [.mapping [(.text "name", .text "a")]]),
  (.text "coordination", .mapping [
    (.text "default_consensus", .mapping [
      (.text "weights", .mapping [(.text "a", .text "nan")])])])]

def vague : Fleet where
  name := "f"
  apiVersion := "concord.dev/v1"
  kind := "AgentFleet"
  labels := []
  agents := [.bare "a" 1]
  coordination := { Coordination.default with
    defaultRules := { VotingRules.default with weights := [("a", 0.0 / 0.0)] } }

theorem vague_coherent : vague.Coherent := by decide +kernel

/-- The fleet is created, and the weight of its agent does not compare at least zero. -/
theorem create_undefined_weight : Fleet.create vagueData = .ok vague ∧
    ∃ a ∈ vague.agents, ∃ w, (vague.weightsFor 1).lookup a.name = some w ∧
      ¬ 0 ≤ w ∧ w.isNaN = true := by
  have hread : Fleet.read vagueData = .ok vague := rfl
  have hlistable : vague.Listable := by
    intro _ _
    simp [vague, Fleet.listRoom]
  have hcreate := Fleet.create_of_coherent hread vague_coherent hlistable
  have hagent : Agent.bare "a" 1 ∈ vague.agents :=
    List.mem_singleton.mpr rfl
  refine ⟨hcreate, _, hagent, 0.0 / 0.0, ?_, by decide, by decide⟩
  exact Fleet.weightsFor_lookup hread vague_coherent hagent 1

end Quorum

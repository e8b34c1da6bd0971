/-
  Quorum/Proofs/Fleet/Fields.lean
  ===============================
  **What the fields of an accepted fleet have passed.**

  A record passes if its fields do, so whatever stands in a fleet that was created has passed
  the rule for its field: the voting rules of the fleet and of its tiers (`rules_checked`),
  and the weights of its agents (`ownWeight_nonneg`).  Maps of weights have different names,
  and no weight in them compares below zero (`VotingRules.Sound`); the weights that agents
  bring along are held to more, they compare at least zero.
-/
import Quorum.Proofs.Check.Mappings
import Quorum.Proofs.Fleet.Coherent

namespace Quorum

/-! ### Voting rules -/

namespace VotingRules

/-- Voting rules stand in the fields of a record, or are the default where there is no
    field. -/
structure StandsIn (fields : Check.Fields) (rules : VotingRules) : Prop where
  algorithm :
    Check.withDefault fields "algorithm" .majority (Check.member Algorithm) = .ok rules.algorithm
  minVotes : Check.withDefault fields "min_votes" 1 (Check.integerFrom 1) = .ok rules.minVotes
  minConfidence :
    Check.withDefault fields "min_confidence" 0.5 Check.fraction = .ok rules.minConfidence
  timeoutSeconds : Check.withDefault fields "timeout_seconds" none (Check.optional Check.positive) =
    .ok rules.timeoutSeconds
  weights : Check.withDefault fields "weights" [] (Check.mapping Check.text Check.number) =
    .ok rules.weights

theorem fields_of_check {d : Datum} {rules : VotingRules} (h : check d = .ok rules) :
    ∃ fields, Check.record "ConsensusConfig" d = .ok fields ∧ rules.StandsIn fields ∧
      negativeWeight? rules.weights = none := by
  obtain ⟨fields, hrecord, h⟩ := bind_eq_ok.mp h
  obtain ⟨built, hbuilt, h⟩ := bind_eq_ok.mp h
  obtain ⟨_, weights, hfour, hweights, rfl⟩ := Checked.apply_eq_ok.mp hbuilt
  obtain ⟨_, timeoutSeconds, hthree, htimeout, rfl⟩ := Checked.apply_eq_ok.mp hfour
  obtain ⟨_, minConfidence, htwo, hconfidence, rfl⟩ := Checked.apply_eq_ok.mp hthree
  obtain ⟨_, minVotes, hone, hvotes, rfl⟩ := Checked.apply_eq_ok.mp htwo
  obtain ⟨_, algorithm, hbuild, halgorithm, rfl⟩ := Checked.apply_eq_ok.mp hone
  cases hbuild
  split at h
  · cases h
  · rename_i hnone
    cases h
    exact ⟨fields, hrecord, ⟨halgorithm, hvotes, hconfidence, htimeout, hweights⟩, hnone⟩

/-- What passes of a map of weights: the names differ, and no weight compares below zero. -/
structure Sound (rules : VotingRules) : Prop where
  names : (rules.weights.map Prod.fst).Nodup
  weights : ∀ entry ∈ rules.weights, ¬ entry.2 < 0

theorem sound_of_check {d : Datum} {rules : VotingRules} (h : check d = .ok rules) :
    rules.Sound := by
  obtain ⟨fields, -, hfields, hnone⟩ := fields_of_check h
  constructor
  · rcases Check.withDefault_eq_ok.mp hfields.weights with ⟨map, -, hmap⟩ | ⟨-, hempty⟩
    · exact Check.mapping_nodup hmap
    · rw [← hempty]
      exact List.nodup_nil
  · intro entry hentry hbelow
    exact List.find?_eq_none.mp hnone entry hentry (decide_eq_true hbelow)

theorem default_sound : VotingRules.default.Sound := by
  constructor
  · exact List.nodup_nil
  · intro entry hentry
    cases hentry

end VotingRules

/-! ### Coordinations and agents -/

theorem Coordination.rules_of_check {d : Datum} {c : Coordination}
    (h : Coordination.check d = .ok c) : ∃ fields, Check.record "CoordinationConfig" d = .ok fields ∧
      Check.withDefault fields "default_consensus" .default VotingRules.check = .ok c.defaultRules ∧
      Check.withDefault fields "tier_consensus" [] (Check.mapping Check.integer VotingRules.check) =
        .ok c.tierRules := by
  obtain ⟨fields, hrecord, h⟩ := bind_eq_ok.mp h
  obtain ⟨_, _, h7, -, rfl⟩ := Checked.apply_eq_ok.mp h
  obtain ⟨_, _, h6, -, rfl⟩ := Checked.apply_eq_ok.mp h7
  obtain ⟨_, _, h5, -, rfl⟩ := Checked.apply_eq_ok.mp h6
  obtain ⟨_, _, h4, -, rfl⟩ := Checked.apply_eq_ok.mp h5
  obtain ⟨_, _, h3, -, rfl⟩ := Checked.apply_eq_ok.mp h4
  obtain ⟨_, tierRules, h2, htiers, rfl⟩ := Checked.apply_eq_ok.mp h3
  obtain ⟨_, defaultRules, h1, hdefault, rfl⟩ := Checked.apply_eq_ok.mp h2
  obtain ⟨_, _, hbuild, -, rfl⟩ := Checked.apply_eq_ok.mp h1
  cases hbuild
  exact ⟨fields, hrecord, hdefault, htiers⟩

theorem Check.nonNegative_eq_ok {d : Datum} {x : Float} (h : nonNegative d = .ok x) : 0 ≤ x := by
  obtain ⟨y, -, h⟩ := bind_eq_ok.mp h
  split at h
  · rename_i hbound
    cases h
    exact hbound
  · cases h

theorem Check.optional_of_given {α : Type} {rule : Rule α} {d : Datum} {found : Option α}
    (hd : d.isNull = false) (h : optional rule d = .ok found) :
    ∃ a, rule d = .ok a ∧ found = some a := by
  unfold optional at h
  split at h
  · cases hd
  · cases hrule : rule d with
    | error issues =>
      rw [hrule] at h
      cases h
    | ok a =>
      rw [hrule] at h
      cases h
      exact ⟨a, rfl, rfl⟩

theorem Check.optional_eq_ok {α : Type} {rule : Rule α} {d : Datum} {a : α}
    (h : optional rule d = .ok (some a)) : rule d = .ok a := by
  have hd : d.isNull = false := by
    cases d with
    | null => cases h
    | _ => rfl
  obtain ⟨b, hb, hsome⟩ := optional_of_given hd h
  cases hsome
  exact hb

/-- An agent stands in the fields of a record, or is the default where there is no field. -/
structure Agent.StandsIn (fields : Check.Fields) (a : Agent) : Prop where
  name : Check.required fields "name" Check.nonEmptyText = .ok a.name
  tier : Check.withDefault fields "tier" 1 (Check.integerFrom 1) = .ok a.tier
  weight : Check.withDefault fields "weight" none (Check.optional Check.nonNegative) = .ok a.weight
  role : Check.withDefault fields "role" .worker (Check.member Role) = .ok a.role
  model : Check.withDefault fields "model" none (Check.optional Check.text) = .ok a.model
  instructions : Check.withDefault fields "instructions" none (Check.optional Check.text) =
    .ok a.instructions
  temperature : Check.withDefault fields "temperature" none (Check.optional Check.fraction) =
    .ok a.temperature
  outputFormat : Check.withDefault fields "output_format" .text (Check.member OutputFormat) =
    .ok a.outputFormat
  timeoutSeconds : Check.withDefault fields "timeout_seconds" none (Check.optional Check.positive) =
    .ok a.timeoutSeconds
  configPath : Check.withDefault fields "config_path" none (Check.optional Check.text) =
    .ok a.configPath
  labels : Check.withDefault fields "labels" [] Agent.labelsRule = .ok a.labels

theorem Agent.fields_of_check {d : Datum} {a : Agent} (h : Agent.check d = .ok a) :
    ∃ fields, Check.record "AgentAssignment" d = .ok fields ∧ a.StandsIn fields := by
  obtain ⟨fields, hrecord, h⟩ := bind_eq_ok.mp h
  obtain ⟨_, _, h10, hlabels, rfl⟩ := Checked.apply_eq_ok.mp h
  obtain ⟨_, _, h9, hconfigPath, rfl⟩ := Checked.apply_eq_ok.mp h10
  obtain ⟨_, _, h8, htimeout, rfl⟩ := Checked.apply_eq_ok.mp h9
  obtain ⟨_, _, h7, hformat, rfl⟩ := Checked.apply_eq_ok.mp h8
  obtain ⟨_, _, h6, htemperature, rfl⟩ := Checked.apply_eq_ok.mp h7
  obtain ⟨_, _, h5, hinstructions, rfl⟩ := Checked.apply_eq_ok.mp h6
  obtain ⟨_, _, h4, hmodel, rfl⟩ := Checked.apply_eq_ok.mp h5
  obtain ⟨_, _, h3, hrole, rfl⟩ := Checked.apply_eq_ok.mp h4
  obtain ⟨_, _, h2, hweight, rfl⟩ := Checked.apply_eq_ok.mp h3
  obtain ⟨_, _, h1, htier, rfl⟩ := Checked.apply_eq_ok.mp h2
  obtain ⟨_, _, hbuild, hname, rfl⟩ := Checked.apply_eq_ok.mp h1
  cases hbuild
  exact ⟨fields, hrecord, ⟨hname, htier, hweight, hrole, hmodel, hinstructions, htemperature,
    hformat, htimeout, hconfigPath, hlabels⟩⟩

/-- An entry with a name and a tier and nothing else is a bare agent. -/
theorem Agent.check_bare {name : String} (hname : name ≠ "") {tier : Int} (htier : 1 ≤ tier) :
    Agent.check (.mapping [(.text "name", .text name), (.text "tier", .int tier)]) =
      .ok (.bare name tier) := by
  have hgiven : Check.nonEmptyText (.text name) = .ok name := if_neg (by simpa using hname)
  have hbound : Check.integerFrom 1 (.int tier) = .ok tier := if_neg (by omega)
  have hfields : Check.record "AgentAssignment"
      (.mapping [(.text "name", .text name), (.text "tier", .int tier)]) =
      .ok [("name", .text name), ("tier", .int tier)] := rfl
  have hname : Check.required [("name", .text name), ("tier", .int tier)] "name"
      Check.nonEmptyText = .ok name := Check.required_eq_ok.mpr ⟨_, rfl, hgiven⟩
  have htier : Check.withDefault [("name", .text name), ("tier", .int tier)] "tier" 1
      (Check.integerFrom 1) = .ok tier := Check.withDefault_eq_ok.mpr (.inl ⟨_, rfl, hbound⟩)
  rw [Agent.check, bind_of_ok hfields, hname, htier]
  rfl

theorem Agent.weight_of_check {d : Datum} {a : Agent} (h : Agent.check d = .ok a) {w : Float}
    (hw : a.weight = some w) : 0 ≤ w := by
  obtain ⟨fields, -, hfields⟩ := Agent.fields_of_check h
  have hweight := hfields.weight
  rw [hw] at hweight
  rcases Check.withDefault_eq_ok.mp hweight with ⟨given, -, hgiven⟩ | ⟨-, hnone⟩
  · exact Check.nonNegative_eq_ok (Check.optional_eq_ok hgiven)
  · cases hnone

/-! ### Fleets -/

namespace Fleet

variable {d : Datum} {f : Fleet}

theorem read_of_create (h : Fleet.create d = .ok f) : Fleet.read d = .ok f ∧ f.Coherent := by
  obtain ⟨g, hread, haccept⟩ := bind_eq_ok.mp h
  obtain ⟨-, hrules, rfl⟩ := accept_eq_ok.mp haccept
  exact ⟨mapError_eq_ok.mp hread, validate_eq_ok_iff_coherent.mp hrules⟩

theorem create_of_coherent (hread : Fleet.read d = .ok f) (hcoherent : f.Coherent)
    (hlistable : f.Listable) : Fleet.create d = .ok f := by
  rw [create_of_read hread]
  exact (accept_eq_ok_iff_coherent (agents_of_read hread)).mpr ⟨⟨hcoherent, hlistable⟩, rfl⟩

/-- All rules of a fleet have passed the check of rules, or are the default. -/
theorem rules_checked (h : Fleet.read d = .ok f) {rules : VotingRules} (hrules : rules ∈ f.allRules) :
    rules = .default ∨ ∃ block, VotingRules.check block = .ok rules := by
  obtain ⟨_, -, -, -, hcoordination⟩ := parts_of_read h
  rcases Check.withDefault_eq_ok.mp hcoordination with ⟨given, -, hgiven⟩ | ⟨-, hdefault⟩
  · obtain ⟨fields, -, hdefaults, htiers⟩ := Coordination.rules_of_check hgiven
    rcases List.mem_cons.mp hrules with rfl | htier
    · rcases Check.withDefault_eq_ok.mp hdefaults with ⟨block, -, hblock⟩ | ⟨-, hnone⟩
      · exact Or.inr ⟨block, hblock⟩
      · exact Or.inl hnone.symm
    · obtain ⟨entry, hentry, rfl⟩ := List.mem_map.mp htier
      rcases Check.withDefault_eq_ok.mp htiers with ⟨map, -, hmap⟩ | ⟨-, hnone⟩
      · obtain ⟨⟨_, block⟩, -, hblock⟩ := Check.mem_mapping hmap hentry
        exact Or.inr ⟨block, hblock⟩
      · rw [← hnone] at hentry
        cases hentry
  · rw [allRules, ← hdefault] at hrules
    exact Or.inl (List.mem_singleton.mp hrules)

theorem rules_sound (h : Fleet.read d = .ok f) {rules : VotingRules} (hrules : rules ∈ f.allRules) :
    rules.Sound := by
  rcases rules_checked h hrules with rfl | ⟨block, hblock⟩
  · exact VotingRules.default_sound
  · exact VotingRules.sound_of_check hblock

theorem ownWeight_nonneg (h : Fleet.read d = .ok f) {a : Agent} (ha : a ∈ f.agents) {w : Float}
    (hw : a.weight = some w) : 0 ≤ w := by
  obtain ⟨_, -, hagents, -⟩ := parts_of_read h
  obtain ⟨_, -, hlist⟩ := Check.required_eq_ok.mp hagents
  obtain ⟨_, hchecked⟩ := Check.mem_nonEmptyList hlist ha
  exact Agent.weight_of_check hchecked hw

end Fleet

end Quorum

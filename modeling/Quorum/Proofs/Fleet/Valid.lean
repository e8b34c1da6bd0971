/-
  Quorum/Proofs/Fleet/Valid.lean
  ==============================
  **What is known of a fleet that was accepted.**

  A fleet is valid if it has agents and keeps all its rules; every fleet that is created
  is (`valid_of_create`).  The rules are tested one after the other, so a fleet that
  passes keeps each of them (`validate_eq_ok`).  From them follows what a run relies on:
  tiers go strictly upwards, somebody votes in a fleet that does not synthesize, and a fleet
  that synthesizes has a manager.
-/
import Quorum.Fleet.Spec
import Quorum.Proofs.Check.Passed
import Quorum.Proofs.Order

namespace Quorum.Fleet

variable {f : Fleet}

/-! ### The rules one by one -/

theorem conflictIf_eq_ok {condition : Bool} {c : FleetConflict} :
    conflictIf condition c = .ok () ↔ condition = false := by
  cases condition <;> simp [conflictIf]

/-- A fleet keeps its rules if it keeps each of them. -/
theorem validate_eq_ok : f.validate = .ok () ↔
    repeatedName? [] f.agents = none ∧ f.checkTiers = .ok () ∧ f.checkOverrides = .ok () ∧
    f.checkManagers = .ok () ∧ f.checkNamedManager = .ok () ∧
    (f.synthesizes && f.managers.isEmpty) = false ∧
    f.checkWeights (f.coordination.defaultRules :: f.coordination.tierRules.map Prod.snd) =
      .ok () := by
  unfold validate
  cases repeatedName? [] f.agents with
  | some name =>
    constructor
    · intro h
      cases h
    · rintro ⟨h, -⟩
      cases h
  | none =>
    simp only [true_and]
    rw [← conflictIf_eq_ok (c := .synthesisWithoutManager)]
    simp only [← bind_unit_eq_ok]

/-! ### Valid fleets -/

/-- A fleet that has agents and keeps its rules. -/
structure Valid (f : Fleet) : Prop where
  agents : f.agents ≠ []
  rules : f.validate = .ok ()

/-- The labels, the agents and the coordination of a fleet that is read have passed their
    rules. -/
theorem parts_of_read {d : Datum} (h : Fleet.read d = .ok f) :
    ∃ fields, Check.record "FleetSpec" d = .ok fields ∧
      Check.required fields "agents" (Check.nonEmptyList Agent.check) = .ok f.agents ∧
      Check.withDefault fields "labels" [] Agent.labelsRule = .ok f.labels ∧
      Check.withDefault fields "coordination" .default Coordination.check = .ok f.coordination := by
  obtain ⟨fields, hrecord, h⟩ := bind_eq_ok.mp h
  -- one field after the other, from the last to the first
  obtain ⟨_, coordination, hfive, hcoordination, rfl⟩ := Checked.apply_eq_ok.mp h
  obtain ⟨_, agents, hfour, hagents, rfl⟩ := Checked.apply_eq_ok.mp hfive
  obtain ⟨_, labels, hthree, hlabels, rfl⟩ := Checked.apply_eq_ok.mp hfour
  obtain ⟨_, kind, htwo, -, rfl⟩ := Checked.apply_eq_ok.mp hthree
  obtain ⟨_, apiVersion, hone, -, rfl⟩ := Checked.apply_eq_ok.mp htwo
  obtain ⟨_, name, hbuild, -, rfl⟩ := Checked.apply_eq_ok.mp hone
  cases hbuild
  exact ⟨fields, hrecord, hagents, hlabels, hcoordination⟩

/-- There is at least one agent. -/
theorem agents_of_read {d : Datum} (h : Fleet.read d = .ok f) : f.agents ≠ [] := by
  obtain ⟨_, -, hagents, -⟩ := parts_of_read h
  obtain ⟨_, -, hlist⟩ := Check.required_eq_ok.mp hagents
  exact Check.nonEmptyList_ne_nil hlist

/-- A fleet is accepted as it is, if its tiers can be listed and it keeps the rules. -/
theorem accept_eq_ok {g : Fleet} :
    f.accept = .ok g ↔ f.listProblem? = none ∧ f.validate = .ok () ∧ g = f := by
  unfold accept
  cases f.listProblem? with
  | some problem => simp
  | none =>
    cases f.validate with
    | error conflict => simp
    | ok _ => simp [eq_comm]

/-- Whatever is created is a valid fleet. -/
theorem valid_of_create {d : Datum} (h : Fleet.create d = .ok f) : f.Valid := by
  obtain ⟨g, hread, haccept⟩ := bind_eq_ok.mp h
  obtain ⟨-, hrules, rfl⟩ := accept_eq_ok.mp haccept
  exact ⟨agents_of_read (mapError_eq_ok.mp hread), hrules⟩

/-! ### Names -/

theorem repeatedName?_eq_none {seen : List String} {agents : List Agent}
    (h : repeatedName? seen agents = none) :
    (agents.map Agent.name).Nodup ∧ ∀ a ∈ agents, a.name ∉ seen := by
  induction agents generalizing seen with
  | nil => simp
  | cons a rest ih =>
    rw [repeatedName?] at h
    split at h
    · cases h
    · rename_i hfirst
      obtain ⟨hrest, hseen⟩ := ih h
      rw [List.contains_iff_mem] at hfirst
      constructor
      · rw [List.map_cons, List.nodup_cons]
        refine ⟨?_, hrest⟩
        intro hrepeated
        obtain ⟨b, hb, hname⟩ := List.mem_map.mp hrepeated
        exact hseen b hb (hname ▸ List.mem_cons_self)
      · intro b hb
        rcases List.mem_cons.mp hb with rfl | hb
        · exact hfirst
        · exact fun hmem => hseen b hb (List.mem_cons_of_mem _ hmem)

/-- No two agents of a valid fleet have the same name. -/
theorem Valid.names_nodup (hf : f.Valid) : (f.agents.map Agent.name).Nodup :=
  (repeatedName?_eq_none (validate_eq_ok.mp hf.rules).1).1

theorem Valid.eq_of_name_eq (hf : f.Valid) {a b : Agent} (ha : a ∈ f.agents) (hb : b ∈ f.agents)
    (hname : a.name = b.name) : a = b :=
  List.inj_on_of_nodup_map hf.names_nodup ha hb hname

/-- Whatever is noted under the names of the agents, the keys are these names. -/
theorem agentEntries_keys {α : Type} (f : Fleet) (note : Agent → α) :
    (f.agents.map fun a => (a.name, note a)).map Prod.fst = f.agents.map Agent.name := by
  rw [List.map_map]
  rfl

theorem Valid.voters_nodup (hf : f.Valid) (tier : Int) :
    ((f.votingAgents tier).map Agent.name).Nodup :=
  hf.names_nodup.sublist ((List.filter_sublist.trans List.filter_sublist).map Agent.name)

/-! ### Tiers -/

theorem mem_tiers {tier : Int} : tier ∈ f.tiers ↔ ∃ a ∈ f.agents, a.tier = tier := by
  rw [tiers, tiersOf, Order.mem_sorted_distinct, List.mem_map]

theorem tiers_ascending (f : Fleet) : f.tiers.Pairwise (· < ·) :=
  Order.ascending_sorted_distinct (fun _ _ => decide_eq_true_iff) _

theorem votingTiers_ascending (f : Fleet) : f.votingTiers.Pairwise (· < ·) :=
  f.tiers_ascending.sublist List.filter_sublist

theorem mem_votingAgents {tier : Int} {a : Agent} :
    a ∈ f.votingAgents tier ↔
      a ∈ f.agents ∧ a.tier = tier ∧ (f.synthesizes && a.isManager) = false := by
  rw [votingAgents, agentsInTier, List.mem_filter, List.mem_filter, beq_iff_eq,
    Bool.not_eq_true', and_assoc]

/-- The voting tiers are the tiers in which somebody votes. -/
theorem mem_votingTiers {tier : Int} :
    tier ∈ f.votingTiers ↔
      ∃ a ∈ f.agents, a.tier = tier ∧ (f.synthesizes && a.isManager) = false := by
  rw [votingTiers, List.mem_filter, Bool.not_eq_true', List.isEmpty_eq_false_iff_exists_mem]
  constructor
  · rintro ⟨-, a, ha⟩
    exact ⟨a, mem_votingAgents.mp ha⟩
  · rintro ⟨a, ha, htier, hvotes⟩
    exact ⟨mem_tiers.mpr ⟨a, ha, htier⟩, a, mem_votingAgents.mpr ⟨ha, htier, hvotes⟩⟩

/-- In a fleet that does not synthesize somebody votes. -/
theorem Valid.votingTiers_ne_nil (hf : f.Valid) (hsynthesizes : f.synthesizes = false) :
    f.votingTiers ≠ [] := by
  obtain ⟨a, rest, hagents⟩ := List.exists_cons_of_ne_nil hf.agents
  have hmem : a.tier ∈ f.votingTiers :=
    mem_votingTiers.mpr ⟨a, hagents ▸ List.mem_cons_self, rfl, by simp [hsynthesizes]⟩
  exact List.ne_nil_of_mem hmem

/-- A fleet is not all managers. -/
theorem Valid.exists_worker (hf : f.Valid) : ∃ a ∈ f.agents, a.isManager = false := by
  by_contra hnone
  have hall : f.managers = f.agents := by
    refine List.filter_eq_self.mpr fun a ha => ?_
    by_contra hworker
    exact hnone ⟨a, ha, Bool.not_eq_true _ ▸ hworker⟩
  obtain ⟨-, -, -, hmanagers, -⟩ := validate_eq_ok.mp hf.rules
  rw [checkManagers, hall] at hmanagers
  split at hmanagers
  · rename_i hagents
    exact hf.agents hagents
  · rename_i a hagents
    have halone := conflictIf_eq_ok.mp (bind_unit_eq_ok.mp hmanagers).2
    rw [hagents] at halone
    cases halone
  · cases hmanagers

/-- In a valid fleet somebody votes, whoever writes the answer. -/
theorem Valid.exists_votingTier (hf : f.Valid) : f.votingTiers ≠ [] := by
  obtain ⟨a, ha, hworker⟩ := hf.exists_worker
  have hmem : a.tier ∈ f.votingTiers := mem_votingTiers.mpr ⟨a, ha, rfl, by simp [hworker]⟩
  exact List.ne_nil_of_mem hmem

/-- A fleet that synthesizes has a manager. -/
theorem Valid.exists_manager (hf : f.Valid) (hsynthesizes : f.synthesizes = true) :
    ∃ manager, f.manager? = some manager := by
  obtain ⟨-, -, -, -, -, hmanagers, -⟩ := validate_eq_ok.mp hf.rules
  rw [hsynthesizes, Bool.true_and, List.isEmpty_eq_false_iff_exists_mem] at hmanagers
  obtain ⟨a, ha⟩ := hmanagers
  rw [managers, List.mem_filter] at ha
  rw [manager?, ← Option.isSome_iff_exists, List.find?_isSome]
  exact ⟨a, ha⟩

end Quorum.Fleet

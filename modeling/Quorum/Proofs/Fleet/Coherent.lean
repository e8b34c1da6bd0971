/-
  Quorum/Proofs/Fleet/Coherent.lean
  =================================
  **The fleets that are accepted are the coherent ones.**

  Coherence says what a fleet has to be without saying how it is tested: no order of rules,
  no sorting, no counting upwards (`Coherent`).  Every test is matched with its part of
  coherence, and together they decide it (`validate_eq_ok_iff_coherent`).  One test lists
  the numbers up to the highest tier, so a fleet also has to be listable (`Listable`); where
  it is not, the fleet is refused without a fault (`create_uncountable_tier`).
-/
import Mathlib.Data.List.Pairwise
import Quorum.Proofs.Fleet.Valid
import Quorum.Proofs.Value.Entries

namespace Quorum

namespace Fleet

variable {f : Fleet}

/-! ### Coherence -/

/-- The rules of the fleet and of its single tiers. -/
def allRules (f : Fleet) : List VotingRules :=
  f.coordination.defaultRules :: f.coordination.tierRules.map Prod.snd

/-- What ties the fields of a fleet together. -/
structure Coherent (f : Fleet) : Prop where
  /-- Names tell agents apart. -/
  names : (f.agents.map Agent.name).Nodup
  /-- Unless gaps are allowed, somebody is in every tier from one to the highest, and nobody
      anywhere else. -/
  tiers : f.coordination.allowTierGaps = true ∨
    ∀ t : Int, (∃ a ∈ f.agents, a.tier = t) ↔ 1 ≤ t ∧ ∃ a ∈ f.agents, t ≤ a.tier
  overrides : ∀ entry ∈ f.coordination.tierRules, ∃ a ∈ f.agents, a.tier = entry.1
  oneManager : f.agents.countP Agent.isManager ≤ 1
  managerOnTop : ∀ m ∈ f.agents, m.isManager = true → ∀ a ∈ f.agents, a.tier ≤ m.tier
  managerNotAlone : ∀ m ∈ f.agents, m.isManager = true → f.agents.length ≠ 1
  named : ∀ name, f.coordination.manager = some name →
    ∃ a ∈ f.agents, a.name = name ∧ a.isManager = true
  synthesis : f.coordination.finalAggregation = .managerSynthesis →
    ∃ m ∈ f.agents, m.isManager = true
  weights : ∀ rules ∈ f.allRules, ∀ entry ∈ rules.weights, ∃ a ∈ f.agents, a.name = entry.1

/-- The numbers up to the highest tier can be listed, where they are. -/
def Listable (f : Fleet) : Prop :=
  (f.agents.map Agent.name).Nodup → f.coordination.allowTierGaps = false →
    ∀ a ∈ f.agents, a.tier < (listRoom : Int)

/-! ### Names -/

theorem repeatedName?_of_nodup {seen : List String} {agents : List Agent}
    (hnames : (agents.map Agent.name).Nodup) (hseen : ∀ a ∈ agents, a.name ∉ seen) :
    repeatedName? seen agents = none := by
  induction agents generalizing seen with
  | nil => rfl
  | cons a rest ih =>
    rw [List.map_cons, List.nodup_cons] at hnames
    have hfirst : seen.contains a.name = false := by
      simpa using hseen a List.mem_cons_self
    rw [repeatedName?, hfirst]
    apply ih hnames.2
    intro b hb hmem
    rcases List.mem_cons.mp hmem with hname | hmem
    · exact hnames.1 (hname ▸ List.mem_map_of_mem hb)
    · exact hseen b (List.mem_cons_of_mem _ hb) hmem

theorem repeatedName?_eq_none_iff {agents : List Agent} :
    repeatedName? [] agents = none ↔ (agents.map Agent.name).Nodup := by
  constructor
  · intro h
    exact (repeatedName?_eq_none h).1
  · intro hnames
    apply repeatedName?_of_nodup hnames
    intro a _
    simp

/-- Where names tell agents apart, looking a name up finds its agent. -/
theorem agent?_eq_some (hnames : (f.agents.map Agent.name).Nodup) {name : String} {a : Agent} :
    f.agent? name = some a ↔ a ∈ f.agents ∧ a.name = name := by
  constructor
  · intro h
    have hname := List.find?_some h
    have hmem := List.mem_of_find?_eq_some h
    exact ⟨List.mem_reverse.mp hmem, by simpa using hname⟩
  · rintro ⟨ha, rfl⟩
    cases h : f.agent? a.name with
    | none =>
      have hnone := List.find?_eq_none.mp h a (List.mem_reverse.mpr ha)
      simp at hnone
    | some b =>
      have hb := List.mem_reverse.mp (List.mem_of_find?_eq_some h)
      have hname := List.find?_some h
      rw [List.inj_on_of_nodup_map hnames hb ha (by simpa using hname)]

/-! ### Tiers -/

/-- A strictly ascending list counts upwards from a number exactly if it holds all numbers
    from there to its last one. -/
theorem countsFrom_iff {tiers : List Int} (hascending : tiers.Pairwise (· < ·)) (n : Int) :
    countsFrom n tiers = true ↔ ∀ t, t ∈ tiers ↔ n ≤ t ∧ ∃ u ∈ tiers, t ≤ u := by
  induction tiers generalizing n with
  | nil => simp [countsFrom]
  | cons first rest ih =>
    obtain ⟨hfirst, hrest⟩ := List.pairwise_cons.mp hascending
    rw [countsFrom, Bool.and_eq_true, beq_iff_eq, ih hrest]
    constructor
    · rintro ⟨rfl, hcounts⟩ t
      constructor
      · intro ht
        refine ⟨?_, t, ht, le_refl t⟩
        rcases List.mem_cons.mp ht with rfl | ht
        · exact le_refl t
        · exact (hfirst t ht).le
      · rintro ⟨hn, u, hu, htu⟩
        rw [List.mem_cons]
        by_cases heq : t = first
        · exact .inl heq
        · right
          rcases List.mem_cons.mp hu with rfl | hu
          · omega
          · exact (hcounts t).mpr ⟨by omega, u, hu, htu⟩
    · intro hall
      have hleast : first = n := by
        have hn := (hall first).mp List.mem_cons_self
        have hmem := (hall n).mpr ⟨le_refl n, first, List.mem_cons_self, hn.1⟩
        rcases List.mem_cons.mp hmem with h | h
        · exact h.symm
        · have := hfirst n h
          omega
      subst hleast
      refine ⟨rfl, fun t => ?_⟩
      constructor
      · intro ht
        have := hfirst t ht
        exact ⟨by omega, t, ht, le_refl t⟩
      · rintro ⟨ht, u, hu, htu⟩
        have hmem := (hall t).mpr ⟨by omega, u, List.mem_cons_of_mem _ hu, htu⟩
        rcases List.mem_cons.mp hmem with rfl | hmem
        · omega
        · exact hmem

theorem topTier_mem (hagents : f.agents ≠ []) : f.topTier ∈ f.tiers := by
  obtain ⟨a, rest, hcons⟩ := List.exists_cons_of_ne_nil hagents
  have hmem : a.tier ∈ f.tiers := mem_tiers.mpr ⟨a, hcons ▸ List.mem_cons_self, rfl⟩
  rw [topTier, List.getLast?_eq_some_getLast (List.ne_nil_of_mem hmem)]
  exact List.getLast_mem _

theorem le_topTier {a : Agent} (ha : a ∈ f.agents) : a.tier ≤ f.topTier := by
  have hmem : a.tier ∈ f.tiers := mem_tiers.mpr ⟨a, ha, rfl⟩
  have hsorted : f.tiers.Pairwise (· ≤ ·) := f.tiers_ascending.imp fun h => h.le
  rw [topTier, List.getLast?_eq_some_getLast (List.ne_nil_of_mem hmem)]
  exact hsorted.rel_getLast hmem

/-- An agent is in the highest tier exactly if nobody is above it. -/
theorem tier_eq_topTier {m : Agent} (hm : m ∈ f.agents) :
    m.tier = f.topTier ↔ ∀ a ∈ f.agents, a.tier ≤ m.tier := by
  constructor
  · intro h a ha
    rw [h]
    exact le_topTier ha
  · intro h
    obtain ⟨a, ha, htop⟩ := mem_tiers.mp (topTier_mem (List.ne_nil_of_mem hm))
    apply le_antisymm (le_topTier hm)
    rw [← htop]
    exact h a ha

/-! ### The rules and their parts of coherence -/

theorem checkTiers_eq_ok : f.checkTiers = .ok () ↔ f.coordination.allowTierGaps = true ∨
    ∀ t : Int, (∃ a ∈ f.agents, a.tier = t) ↔ 1 ≤ t ∧ ∃ a ∈ f.agents, t ≤ a.tier := by
  have hcounts : countsFrom 1 f.tiers = true ↔
      ∀ t : Int, (∃ a ∈ f.agents, a.tier = t) ↔ 1 ≤ t ∧ ∃ a ∈ f.agents, t ≤ a.tier := by
    rw [countsFrom_iff f.tiers_ascending]
    simp [mem_tiers]
  rw [checkTiers, conflictIf_eq_ok, ← hcounts]
  cases f.coordination.allowTierGaps <;> simp

theorem checkOverrides_eq_ok : f.checkOverrides = .ok () ↔
    ∀ entry ∈ f.coordination.tierRules, ∃ a ∈ f.agents, a.tier = entry.1 := by
  unfold checkOverrides
  split
  · rename_i h
    have hmem := List.mem_of_find?_eq_some h
    have hmissing := List.find?_some h
    constructor
    · intro h
      cases h
    · intro hall
      have := mem_tiers.mpr (hall _ hmem)
      simp [this] at hmissing
  · rename_i h
    simp only [true_iff]
    intro entry hentry
    have := List.find?_eq_none.mp h entry hentry
    exact mem_tiers.mp (by simpa using this)

theorem mem_managers {m : Agent} : m ∈ f.managers ↔ m ∈ f.agents ∧ m.isManager = true :=
  List.mem_filter

theorem checkManagers_eq_ok : f.checkManagers = .ok () ↔
    f.agents.countP Agent.isManager ≤ 1 ∧
    (∀ m ∈ f.agents, m.isManager = true → ∀ a ∈ f.agents, a.tier ≤ m.tier) ∧
    ∀ m ∈ f.agents, m.isManager = true → f.agents.length ≠ 1 := by
  have hcount : f.agents.countP Agent.isManager = f.managers.length :=
    List.countP_eq_length_filter
  rw [hcount, checkManagers]
  cases h : f.managers with
  | nil =>
    have hnone : ∀ m ∈ f.agents, m.isManager = true → False := by
      intro m hm hrole
      have hmem := mem_managers.mpr ⟨hm, hrole⟩
      simp [h] at hmem
    simp only [List.length_nil, Nat.zero_le, true_and, true_iff]
    exact ⟨fun m hm hrole => (hnone m hm hrole).elim, fun m hm hrole => (hnone m hm hrole).elim⟩
  | cons m rest =>
    cases rest with
    | nil =>
      have honly : ∀ b, b ∈ f.agents ∧ b.isManager = true ↔ b = m := by
        intro b
        rw [← mem_managers, h, List.mem_singleton]
      obtain ⟨hm, hrole⟩ := (honly m).mpr rfl
      simp only [List.length_singleton, le_refl, true_and]
      rw [bind_unit_eq_ok, conflictIf_eq_ok, conflictIf_eq_ok, bne_eq_false_iff_eq,
        tier_eq_topTier hm, beq_eq_false_iff_ne]
      constructor
      · rintro ⟨htop, hothers⟩
        constructor
        · intro b hb hboth
          rw [(honly b).mp ⟨hb, hboth⟩]
          exact htop
        · intro _ _ _
          exact hothers
      · rintro ⟨htop, hothers⟩
        exact ⟨htop m hm hrole, hothers m hm hrole⟩
    | cons second others => simp

theorem checkNamedManager_eq_ok (hnames : (f.agents.map Agent.name).Nodup) :
    f.checkNamedManager = .ok () ↔ ∀ name, f.coordination.manager = some name →
      ∃ a ∈ f.agents, a.name = name ∧ a.isManager = true := by
  unfold checkNamedManager
  cases f.coordination.manager with
  | none => simp
  | some name =>
    simp only [Option.some.injEq, forall_eq']
    cases h : f.agent? name with
    | none =>
      constructor
      · intro hnone
        cases hnone
      · rintro ⟨a, ha, hname, -⟩
        rw [(agent?_eq_some hnames).mpr ⟨ha, hname⟩] at h
        cases h
    | some a =>
      obtain ⟨ha, hname⟩ := (agent?_eq_some hnames).mp h
      rw [conflictIf_eq_ok, Bool.not_eq_false']
      constructor
      · intro hrole
        exact ⟨a, ha, hname, hrole⟩
      · rintro ⟨b, hb, hsame, hrole⟩
        rw [List.inj_on_of_nodup_map hnames ha hb (hname.trans hsame.symm)]
        exact hrole

theorem strangers_eq_nil {rules : VotingRules} : f.strangers rules = [] ↔
    ∀ entry ∈ rules.weights, ∃ a ∈ f.agents, a.name = entry.1 := by
  rw [List.eq_nil_iff_forall_not_mem]
  simp only [strangers, sortedNames, Order.mem_sorted_distinct, List.mem_filter, List.mem_map,
    Bool.not_eq_true', List.any_eq_false, beq_iff_eq]
  constructor
  · intro h entry hentry
    by_contra hnone
    exact h entry.1 ⟨⟨entry, hentry, rfl⟩, fun a ha hname => hnone ⟨a, ha, hname⟩⟩
  · rintro h _ ⟨⟨entry, hentry, rfl⟩, hnone⟩
    obtain ⟨a, ha, hname⟩ := h entry hentry
    exact hnone a ha hname

theorem checkWeights_eq_ok {all : List VotingRules} : f.checkWeights all = .ok () ↔
    ∀ rules ∈ all, ∀ entry ∈ rules.weights, ∃ a ∈ f.agents, a.name = entry.1 := by
  induction all with
  | nil => simp [checkWeights]
  | cons rules rest ih =>
    rw [checkWeights, bind_unit_eq_ok, conflictIf_eq_ok, Bool.not_eq_false', List.isEmpty_iff,
      strangers_eq_nil, ih, List.forall_mem_cons]

/-- The rules are kept exactly by the coherent fleets. -/
theorem validate_eq_ok_iff_coherent : f.validate = .ok () ↔ f.Coherent := by
  rw [validate_eq_ok, repeatedName?_eq_none_iff, checkTiers_eq_ok, checkOverrides_eq_ok,
    checkManagers_eq_ok, checkWeights_eq_ok]
  have hsynthesis : (f.synthesizes && f.managers.isEmpty) = false ↔
      (f.coordination.finalAggregation = .managerSynthesis →
        ∃ m ∈ f.agents, m.isManager = true) := by
    rw [Bool.and_eq_false_imp, synthesizes, beq_iff_eq, List.isEmpty_eq_false_iff_exists_mem]
    simp only [mem_managers]
  rw [hsynthesis]
  constructor
  · rintro ⟨hnames, htiers, hoverrides, ⟨hone, htop, halone⟩, hnamed, hsynthesis, hweights⟩
    exact ⟨hnames, htiers, hoverrides, hone, htop, halone,
      (checkNamedManager_eq_ok hnames).mp hnamed, hsynthesis, hweights⟩
  · intro h
    exact ⟨h.names, h.tiers, h.overrides, ⟨h.oneManager, h.managerOnTop, h.managerNotAlone⟩,
      (checkNamedManager_eq_ok h.names).mpr h.named, h.synthesis, h.weights⟩

instance (f : Fleet) : Decidable f.Coherent :=
  match hrules : f.validate with
  | .ok () => .isTrue (validate_eq_ok_iff_coherent.mp hrules)
  | .error _ => .isFalse fun hf => by
    rw [validate_eq_ok_iff_coherent.mpr hf] at hrules
    cases hrules

/-! ### Listing the tiers -/

theorem listProblem?_eq_none (hagents : f.agents ≠ []) : f.listProblem? = none ↔ f.Listable := by
  have hnames : (repeatedName? [] f.agents).isSome = true ↔ ¬(f.agents.map Agent.name).Nodup := by
    rw [← repeatedName?_eq_none_iff, Option.isSome_iff_ne_none]
  have htop : f.topTier < (listRoom : Int) ↔ ∀ a ∈ f.agents, a.tier < (listRoom : Int) := by
    constructor
    · intro h a ha
      exact lt_of_le_of_lt (le_topTier ha) h
    · intro h
      obtain ⟨a, ha, htier⟩ := mem_tiers.mp (topTier_mem hagents)
      rw [← htier]
      exact h a ha
  unfold listProblem? Listable
  rw [← htop]
  by_cases hfree : (repeatedName? [] f.agents).isSome = true ∨ f.coordination.allowTierGaps = true
  · rw [if_pos (by simpa using hfree)]
    simp only [true_iff]
    intro hnodup hgaps
    rcases hfree with h | h
    · exact absurd hnodup (hnames.mp h)
    · simp [h] at hgaps
  · rw [if_neg (by simpa using hfree)]
    rw [not_or, hnames, not_not, Bool.not_eq_true] at hfree
    have hrooms : (listRoom : Int) ≤ countRoom := by decide
    split
    · simp only [reduceCtorEq, false_iff]
      intro h
      have := h hfree.1 hfree.2
      omega
    · split
      · simp only [reduceCtorEq, false_iff]
        intro h
        have := h hfree.1 hfree.2
        omega
      · simp only [true_iff]
        intro _ _
        omega

/-! ### Weights -/

/-- The index of weights has one entry for each agent, under its name. -/
theorem Coherent.weights_keys (hf : f.Coherent) :
    Entries.keys f.weights = f.agents.map Agent.name := by
  have hkeys := f.agentEntries_keys f.resolvedWeight
  rw [Fleet.weights, Entries.ofList_of_nodup (hkeys ▸ hf.names), Entries.keys, hkeys]

/-! ### Creation -/

/-- A conflict is reported by a fault that carries one message. -/
theorem conflictFault_reports (c : FleetConflict) : (conflictFault c).kind = .configuration ∧
    (conflictFault c).message = "Invalid fleet specification: 1 error(s)" ∧
    (conflictFault c).details = [("errors", .list [.text s!"Value error, {c.report}"])] := by
  refine ⟨rfl, ?_, rfl⟩
  show s!"Invalid fleet specification: {1} error(s)" = _
  decide

theorem create_of_read {d : Datum} (hread : Fleet.read d = .ok f) : Fleet.create d = f.accept := by
  rw [Fleet.create, hread]
  rfl

theorem accept_eq_ok_iff_coherent (hagents : f.agents ≠ []) {g : Fleet} :
    f.accept = .ok g ↔ (f.Coherent ∧ f.Listable) ∧ g = f := by
  rw [accept_eq_ok, listProblem?_eq_none hagents, validate_eq_ok_iff_coherent]
  tauto

theorem accept_eq_error (hagents : f.agents ≠ []) {e : FleetError} (he : f.accept = .error e) :
    (f.Listable ∧ ∃ conflict, e = .fault (conflictFault conflict)) ∨
      (¬f.Listable ∧ ∃ problem, e = .unlistable problem) := by
  rw [accept] at he
  rw [← listProblem?_eq_none hagents]
  cases hproblem : f.listProblem? with
  | some problem =>
    rw [hproblem] at he
    cases he
    exact .inr ⟨Option.some_ne_none problem, problem, rfl⟩
  | none =>
    rw [hproblem] at he
    cases hrules : f.validate with
    | ok _ =>
      rw [hrules] at he
      cases he
    | error conflict =>
      rw [hrules] at he
      cases he
      exact .inl ⟨rfl, conflict, rfl⟩

/-- **A fleet whose fields have passed is accepted exactly if it is coherent and its tiers can
    be listed.**  It is accepted as it is, with a weight for the name of each agent; a fleet
    that is refused, and whose tiers can be listed, is refused with a fault that carries one
    message. -/
theorem create_accepts_coherent {d : Datum} (hread : Fleet.read d = .ok f) :
    ((∃ g, Fleet.create d = .ok g) ↔ f.Coherent ∧ f.Listable) ∧
    (∀ g, Fleet.create d = .ok g → g = f ∧
      Entries.keys g.weights = g.agents.map Agent.name) ∧
    ∀ e, Fleet.create d = .error e →
      (f.Listable ∧ ∃ fault message, e = .fault fault ∧ fault.kind = .configuration ∧
        fault.message = "Invalid fleet specification: 1 error(s)" ∧
        fault.details = [("errors", .list [.text message])]) ∨
      (¬f.Listable ∧ ∃ problem, e = .unlistable problem) := by
  have hagents := agents_of_read hread
  rw [create_of_read hread]
  refine ⟨?_, ?_, ?_⟩
  · simp [accept_eq_ok_iff_coherent hagents]
  · intro g hg
    obtain ⟨⟨hcoherent, -⟩, rfl⟩ := (accept_eq_ok_iff_coherent hagents).mp hg
    exact ⟨rfl, hcoherent.weights_keys⟩
  · intro e he
    rcases accept_eq_error hagents he with ⟨hlistable, conflict, rfl⟩ | hunlistable
    · obtain ⟨hkind, hmessage, hdetails⟩ := conflictFault_reports conflict
      exact .inl ⟨hlistable, _, _, rfl, hkind, hmessage, hdetails⟩
    · exact .inr hunlistable

end Fleet

/-- Two scouts, one with a weight in their tier, and a captain who has the last word. -/
def patrolData : Datum := .mapping [
  (.text "name", .text "patrol"),
  (.text "agents", .list [
    .mapping [(.text "name", .text "ann")],
    .mapping [(.text "name", .text "bob"), (.text "weight", .float 2.0)],
    .mapping [(.text "name", .text "captain"), (.text "tier", .int 2),
      (.text "role", .text "manager")]]),
  (.text "coordination", .mapping [
    (.text "final_aggregation", .text "manager_synthesis"),
    (.text "tier_consensus", .mapping [(.int 1, .mapping [
      (.text "weights", .mapping [(.text "ann", .float 3.0)])])])])]

def patrol : Fleet where
  name := "patrol"
  apiVersion := "concord.dev/v1"
  kind := "AgentFleet"
  labels := []
  agents := [
    .bare "ann" 1,
    { Agent.bare "bob" 1 with weight := some 2.0 },
    { Agent.bare "captain" 2 with role := .manager }]
  coordination := { Coordination.default with
    finalAggregation := .managerSynthesis
    tierRules := [(1, { VotingRules.default with weights := [("ann", 3.0)] })] }

theorem patrol_coherent : patrol.Coherent where
  names := by decide
  tiers := by
    right
    intro t
    simp [patrol]
    omega
  overrides := by simp [patrol, Coordination.default]
  oneManager := by decide
  managerOnTop := by simp [patrol, Agent.isManager]
  managerNotAlone := by simp [patrol]
  named := by simp [patrol, Coordination.default]
  synthesis := by simp [patrol, Agent.isManager]
  weights := by simp [patrol, Fleet.allRules, Coordination.default, VotingRules.default]

theorem patrol_accepted : Fleet.read patrolData = .ok patrol ∧
    Fleet.create patrolData = .ok patrol ∧
    Entries.keys patrol.weights = ["ann", "bob", "captain"] := by
  obtain ⟨haccepts, hkeeps, -⟩ := Fleet.create_accepts_coherent (d := patrolData) (f := patrol) rfl
  have hlistable : patrol.Listable := by
    intro _ _
    simp [patrol, Fleet.listRoom]
  obtain ⟨g, hg⟩ := haccepts.mpr ⟨patrol_coherent, hlistable⟩
  obtain ⟨rfl, hkeys⟩ := hkeeps g hg
  exact ⟨rfl, hg, hkeys⟩

/-- One guard, in a tier so high that the tiers below it cannot be counted. -/
def towerData : Datum := .mapping [
  (.text "name", .text "tower"),
  (.text "agents", .list [
    .mapping [(.text "name", .text "guard"), (.text "tier", .int 9223372036854775808)]])]

def tower : Fleet where
  name := "tower"
  apiVersion := "concord.dev/v1"
  kind := "AgentFleet"
  labels := []
  agents := [.bare "guard" 9223372036854775808]
  coordination := Coordination.default

/-- The fields of this fleet pass, its tiers have a gap, and yet there is no fault. -/
theorem create_uncountable_tier : Fleet.read towerData = .ok tower ∧ ¬tower.Coherent ∧
    Fleet.create towerData = .error (.unlistable .tooLong) ∧
    ∀ fault, Fleet.create towerData ≠ .error (.fault fault) := by
  have hcreate : Fleet.create towerData = .error (.unlistable .tooLong) := by
    show tower.accept = _
    have htop : tower.topTier = 9223372036854775808 := by
      simp only [Fleet.topTier, Fleet.tiers, Fleet.tiersOf, tower, List.map_cons, List.map_nil,
        List.mergeSort_singleton]
      rfl
    have hproblem : tower.listProblem? = some .tooLong := by
      rw [Fleet.listProblem?, htop]
      rfl
    rw [Fleet.accept, hproblem]
  refine ⟨rfl, ?_, hcreate, ?_⟩
  · intro hcoherent
    rcases hcoherent.tiers with hgaps | htiers
    · cases hgaps
    · have hone := (htiers 1).mpr ⟨le_refl 1, by simp [tower]⟩
      simp [tower] at hone
  · intro fault h
    rw [hcreate] at h
    cases h

end Quorum

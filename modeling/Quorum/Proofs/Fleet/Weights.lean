/-
  Quorum/Proofs/Fleet/Weights.lean
  ================================
  **How the weights of agents are resolved.**

  Weights are resolved in two places: the index holds what agents bring along and what the
  default rules give, and a tier's hints are written over a copy of it.  A hint asks for its
  agent, which is there because hints for strangers were refused (`withHints_ok`); it neither
  adds a name (`withHints_keys`) nor counts against a weight of the agent's own
  (`withHints_lookup`).  Together this is one order of precedence for every agent and tier
  (`create_weights`).
-/
import Quorum.Proofs.Fleet.Fields

namespace Quorum

namespace Fleet

variable {f : Fleet}

/-! ### Hints written over weights -/

section Hints

variable {weights weights' : List (String × Float)} {hints : List (String × Float)}

theorem withHint_eq_ok (hnames : (f.agents.map Agent.name).Nodup) {hint : String × Float} :
    f.withHint weights hint = .ok weights' ↔ ∃ a ∈ f.agents, a.name = hint.1 ∧
      weights' = if a.weight.isNone then Check.insertKey a.name hint.2 weights else weights := by
  unfold withHint
  constructor
  · intro h
    split at h
    · cases h
    · rename_i a hfound
      cases h
      obtain ⟨ha, hname⟩ := (agent?_eq_some hnames).mp hfound
      exact ⟨a, ha, hname, by rw [Entries.insert_eq_insertKey, hname]⟩
  · rintro ⟨a, ha, hname, rfl⟩
    rw [(agent?_eq_some hnames).mpr ⟨ha, hname⟩]
    simp only [Entries.insert_eq_insertKey, hname]

theorem withHints_ok (hnames : (f.agents.map Agent.name).Nodup)
    (hknown : ∀ hint ∈ hints, ∃ a ∈ f.agents, a.name = hint.1)
    (weights : List (String × Float)) : ∃ weights', hints.foldlM f.withHint weights = .ok weights' := by
  induction hints generalizing weights with
  | nil => exact ⟨weights, rfl⟩
  | cons hint rest ih =>
    rw [List.forall_mem_cons] at hknown
    obtain ⟨⟨a, ha, hname⟩, hrest⟩ := hknown
    obtain ⟨between, hfirst⟩ : ∃ between, f.withHint weights hint = .ok between :=
      ⟨_, (withHint_eq_ok hnames).mpr ⟨a, ha, hname, rfl⟩⟩
    rw [List.foldlM_cons, bind_of_ok hfirst]
    exact ih hrest between

theorem withHints_keys (hnames : (f.agents.map Agent.name).Nodup)
    (hkeys : Entries.keys weights = f.agents.map Agent.name)
    (h : hints.foldlM f.withHint weights = .ok weights') :
    Entries.keys weights' = f.agents.map Agent.name := by
  induction hints generalizing weights with
  | nil =>
    cases h
    exact hkeys
  | cons hint rest ih =>
    obtain ⟨between, hfirst, hrest⟩ := bind_eq_ok.mp h
    obtain ⟨a, ha, -, rfl⟩ := (withHint_eq_ok hnames).mp hfirst
    refine ih ?_ hrest
    split
    · have hthere : a.name ∈ weights.map Prod.fst := by
        rw [← Entries.keys, hkeys]
        exact List.mem_map_of_mem ha
      rw [Entries.keys, Check.keys_insertKey_of_mem _ hthere, ← Entries.keys, hkeys]
    · exact hkeys

/-- A hint shows at its agent if that has no weight of its own, and nowhere else. -/
theorem withHint_lookup (hnames : (f.agents.map Agent.name).Nodup) {hint : String × Float}
    (h : f.withHint weights hint = .ok weights') {a : Agent} (ha : a ∈ f.agents) :
    weights'.lookup a.name =
      if a.weight.isNone then ([hint].lookup a.name).or (weights.lookup a.name)
      else weights.lookup a.name := by
  obtain ⟨b, hb, hname, rfl⟩ := (withHint_eq_ok hnames).mp h
  by_cases hsame : a.name = b.name
  · obtain rfl : a = b := List.inj_on_of_nodup_map hnames ha hb hsame
    by_cases hfree : a.weight.isNone = true
    · rw [if_pos hfree, if_pos hfree, Check.lookup_insertKey, if_pos (beq_self_eq_true _),
        List.lookup_cons, ← hname, beq_self_eq_true, Option.some_or]
    · rw [if_neg hfree, if_neg hfree]
  · have hother : (a.name == b.name) = false := beq_eq_false_iff_ne.mpr hsame
    have hnone : [hint].lookup a.name = none := by
      rw [List.lookup_cons, ← hname, hother, List.lookup_nil]
    rw [hnone, Option.none_or, ite_self]
    split
    · rw [Check.lookup_insertKey, hother, if_neg Bool.false_ne_true]
    · rfl

/-- Hints count for agents without a weight of their own, the last one first. -/
theorem withHints_lookup (hnames : (f.agents.map Agent.name).Nodup)
    (h : hints.foldlM f.withHint weights = .ok weights') {a : Agent} (ha : a ∈ f.agents) :
    weights'.lookup a.name =
      if a.weight.isNone then (hints.reverse.lookup a.name).or (weights.lookup a.name)
      else weights.lookup a.name := by
  induction hints generalizing weights with
  | nil =>
    cases h
    rw [List.reverse_nil, List.lookup_nil, Option.none_or, ite_self]
  | cons hint rest ih =>
    obtain ⟨between, hfirst, hrest⟩ := bind_eq_ok.mp h
    rw [ih hrest, withHint_lookup hnames hfirst ha, List.reverse_cons, List.lookup_append,
      Option.or_assoc]
    split
    · rfl
    · rfl

end Hints

/-! ### Weights in force -/

/-- The hints that a tier's own rules give; there are none without rules of its own. -/
def hintsFor (f : Fleet) (tier : Int) : List (String × Float) :=
  ((f.coordination.tierRules.lookup tier).map Rules.weights).getD []

/-- A look-up writes the tier's hints over a copy and leaves the index as it is. -/
theorem lookUpWeightsFor_run (f : Fleet) (tier : Int) (index : List (String × Float)) :
    (f.lookUpWeightsFor tier).run index =
      ((f.hintsFor tier).foldlM f.withHint index).map fun weights => (weights, index) := by
  unfold lookUpWeightsFor hintsFor
  cases f.coordination.tierRules.lookup tier with
  | none => rfl
  | some rules => rfl

theorem hintsFor_cases (f : Fleet) (tier : Int) :
    f.hintsFor tier = [] ∨ ∃ rules ∈ f.allRules, f.hintsFor tier = rules.weights := by
  unfold hintsFor
  cases hrules : f.coordination.tierRules.lookup tier with
  | none => exact Or.inl rfl
  | some rules =>
    have hmem : rules ∈ f.allRules :=
      List.mem_cons_of_mem _ (List.mem_map.mpr ⟨_, Entries.mem_of_lookup hrules, rfl⟩)
    exact Or.inr ⟨rules, hmem, rfl⟩

namespace Coherent

variable (hf : f.Coherent)
include hf

/-- The hints of a tier can be written over the index, and give the weights in force. -/
theorem hints_ok (tier : Int) :
    (f.hintsFor tier).foldlM f.withHint f.weights = .ok (f.weightsFor tier) := by
  have hknown : ∀ hint ∈ f.hintsFor tier, ∃ a ∈ f.agents, a.name = hint.1 := by
    rcases f.hintsFor_cases tier with hnone | ⟨rules, hrules, hhints⟩
    · rw [hnone]
      exact fun _ hhint => nomatch hhint
    · rw [hhints]
      exact hf.weights rules hrules
  obtain ⟨weights, hweights⟩ := withHints_ok hf.names hknown f.weights
  have hforce : f.weightsFor tier = weights := by
    rw [weightsFor, StateT.run'_eq, lookUpWeightsFor_run, hweights]
    rfl
  rw [hforce]
  exact hweights

theorem weightsFor_keys (tier : Int) :
    Entries.keys (f.weightsFor tier) = f.agents.map Agent.name :=
  withHints_keys hf.names hf.weights_keys (hf.hints_ok tier)

theorem exists_weightFor {a : Agent} (ha : a ∈ f.agents) (tier : Int) :
    ∃ w, (f.weightsFor tier).lookup a.name = some w := by
  have hname : a.name ∈ Entries.keys (f.weightsFor tier) := by
    rw [hf.weightsFor_keys]
    exact List.mem_map_of_mem ha
  obtain ⟨entry, hentry, hsame⟩ := List.mem_map.mp hname
  rw [← Option.isSome_iff_exists, List.lookup_isSome_iff]
  exact ⟨entry, hentry, beq_iff_eq.mpr hsame.symm⟩

theorem weights_lookup {a : Agent} (ha : a ∈ f.agents) :
    f.weights.lookup a.name = some (f.resolvedWeight a) := by
  have hnodup := f.agentEntries_keys f.resolvedWeight ▸ hf.names
  rw [Fleet.weights, Entries.ofList_of_nodup hnodup]
  exact Entries.lookup_of_mem hnodup (List.mem_map_of_mem ha)

end Coherent

/-! ### Precedence -/

/-- A map weighs a fleet: its keys are the names of the agents, and each has its weight. -/
structure Weighs (f : Fleet) (weight : Agent → Float) (weights : List (String × Float)) : Prop where
  keys : Entries.keys weights = f.agents.map Agent.name
  entry : ∀ a ∈ f.agents, weights.lookup a.name = some (weight a)

theorem resolvedWeight_eq (f : Fleet) (a : Agent) :
    f.resolvedWeight a =
      (a.weight.or (f.coordination.defaultRules.weights.lookup a.name)).getD 1.0 := by
  unfold resolvedWeight
  cases a.weight with
  | none => rfl
  | some own => rfl

theorem weightsFor_lookup {d : Datum} (hread : Fleet.read d = .ok f) (hf : f.Coherent) {a : Agent}
    (ha : a ∈ f.agents) (tier : Int) : (f.weightsFor tier).lookup a.name =
      some (((a.weight.or ((f.coordination.tierRules.lookup tier).bind fun rules =>
        rules.weights.lookup a.name)).or
          (f.coordination.defaultRules.weights.lookup a.name)).getD 1.0) := by
  have hdistinct : ((f.hintsFor tier).map Prod.fst).Nodup := by
    rcases f.hintsFor_cases tier with hnone | ⟨rules, hrules, hhints⟩
    · rw [hnone]
      exact List.nodup_nil
    · rw [hhints]
      exact (rules_sound hread hrules).names
  have hhint : (f.hintsFor tier).lookup a.name =
      (f.coordination.tierRules.lookup tier).bind fun rules => rules.weights.lookup a.name := by
    unfold hintsFor
    cases f.coordination.tierRules.lookup tier <;> rfl
  rw [withHints_lookup hf.names (hf.hints_ok tier) ha, Entries.lookup_reverse hdistinct, hhint,
    hf.weights_lookup ha, resolvedWeight_eq]
  cases a.weight with
  | some own => rfl
  | none =>
    cases (f.coordination.tierRules.lookup tier).bind fun rules => rules.weights.lookup a.name with
    | some hint => rfl
    | none => rfl

/-- **One order of precedence.**  In a fleet that was created every look-up of weights
    succeeds, with a weight for the name of every agent and for no other, and leaves the
    index as it was.  An agent's weight in a tier is its own, else the hint of the tier's own
    rules, else the one of the default rules, else one; the index leaves out the tier. -/
theorem create_weights {d : Datum} (h : Fleet.create d = .ok f) :
    lookUpWeights.run f.weights = .ok (f.weights, f.weights) ∧
      f.Weighs (fun a =>
        (a.weight.or (f.coordination.defaultRules.weights.lookup a.name)).getD 1.0) f.weights ∧
      ∀ tier, (f.lookUpWeightsFor tier).run f.weights = .ok (f.weightsFor tier, f.weights) ∧
        f.Weighs (fun a =>
          ((a.weight.or ((f.coordination.tierRules.lookup tier).bind fun rules =>
            rules.weights.lookup a.name)).or
              (f.coordination.defaultRules.weights.lookup a.name)).getD 1.0)
          (f.weightsFor tier) := by
  obtain ⟨hread, hf⟩ := read_of_create h
  refine ⟨rfl, ⟨hf.weights_keys, ?_⟩, fun tier => ⟨?_, hf.weightsFor_keys tier, ?_⟩⟩
  · intro a ha
    rw [hf.weights_lookup ha, resolvedWeight_eq]
  · rw [lookUpWeightsFor_run, hf.hints_ok]
    rfl
  · intro a ha
    exact weightsFor_lookup hread hf ha tier

end Fleet

theorem patrol_created : Fleet.create patrolData = .ok patrol := by
  have hlistable : patrol.Listable := by
    intro _ _
    simp [patrol, Fleet.listRoom]
  exact Fleet.create_of_coherent rfl patrol_coherent hlistable

/-- The hint of the first tier counts there and nowhere else, and not for who has a weight. -/
theorem patrol_weights : Fleet.create patrolData = .ok patrol ∧
    Entries.keys (patrol.weightsFor 1) = ["ann", "bob", "captain"] ∧
    (patrol.weightsFor 1).lookup "ann" = some 3.0 ∧
    (patrol.weightsFor 1).lookup "bob" = some 2.0 ∧
    (patrol.weightsFor 2).lookup "ann" = some 1.0 := by
  obtain ⟨-, -, htiers⟩ := Fleet.create_weights patrol_created
  obtain ⟨-, hkeys, hfirst⟩ := htiers 1
  obtain ⟨-, -, hsecond⟩ := htiers 2
  refine ⟨patrol_created, hkeys, ?_, ?_, ?_⟩
  · exact hfirst (.bare "ann" 1) (by simp [patrol])
  · exact hfirst { Agent.bare "bob" 1 with weight := some 2.0 } (by simp [patrol])
  · exact hsecond (.bare "ann" 1) (by simp [patrol])

end Quorum

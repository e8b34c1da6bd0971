/-
  Quorum/Proofs/Fleet/Plan.lean
  =============================
  **Every agent has one place in the plan of a fleet.**

  The plan of a fleet is its voting tiers, from the lowest to the highest, with the agents
  that vote in each.  Splitting the voters by their tiers loses nobody and counts nobody
  twice (`voters_perm`).  The one agent that may be left out is a manager that synthesizes:
  there is exactly one then, and nobody votes above it (`Valid.planned`).
-/
import Quorum.Proofs.Consensus.Groups
import Quorum.Proofs.Fleet.Coherent

namespace Quorum.Fleet

variable {f : Fleet}

/-- The agents that vote somewhere, tier by tier. -/
def plannedVoters (f : Fleet) : List Agent := f.votingTiers.flatMap f.votingAgents

/-- Every agent has one place: in the tier in which it votes, or, if it synthesizes, behind
    all voting tiers. -/
structure Planned (f : Fleet) : Prop where
  votingTiers : f.votingTiers ≠ []
  ascending : f.votingTiers.Pairwise (· < ·)
  names : (f.plannedVoters.map Agent.name).Nodup
  disjoint : f.votingTiers.Pairwise fun s t => (f.votingAgents s).Disjoint (f.votingAgents t)
  everybody : f.synthesizes = false → f.plannedVoters.Perm f.agents
  butTheManager : f.synthesizes = true →
    ∃ manager, f.manager? = some manager ∧ manager.isManager = true ∧
      (manager :: f.plannedVoters).Perm f.agents ∧
      (∀ tier, manager ∉ f.votingAgents tier) ∧ ∀ tier ∈ f.votingTiers, tier ≤ manager.tier

/-! ### Voters -/

/-- An agent votes somewhere. -/
def votes (f : Fleet) (a : Agent) : Bool := !(f.synthesizes && a.isManager)

theorem votingAgents_eq (tier : Int) :
    f.votingAgents tier = (f.agents.filter f.votes).filter fun a => a.tier == tier := by
  rw [votingAgents, agentsInTier, List.filter_filter, List.filter_filter]
  apply List.filter_congr
  intro a _
  rw [votes, Bool.and_comm]

theorem tier_of_mem_votingAgents {tier : Int} {a : Agent} (ha : a ∈ f.votingAgents tier) :
    a.tier = tier :=
  (mem_votingAgents.mp ha).2.1

/-- The voters of all voting tiers are all voters. -/
theorem voters_perm (f : Fleet) : f.plannedVoters.Perm (f.agents.filter f.votes) := by
  have hsplit : f.plannedVoters =
      f.votingTiers.flatMap fun t => (f.agents.filter f.votes).filter fun a => a.tier == t :=
    List.flatMap_congr fun t _ => votingAgents_eq t
  rw [hsplit]
  apply Consensus.flatMap_filter_key_perm
  · exact f.votingTiers_ascending.imp fun h => h.ne
  · intro a ha
    obtain ⟨hmem, hvotes⟩ := List.mem_filter.mp ha
    rw [votes, Bool.not_eq_true'] at hvotes
    exact mem_votingTiers.mpr ⟨a, hmem, rfl, hvotes⟩

theorem votingAgents_disjoint {s t : Int} (hne : s ≠ t) :
    (f.votingAgents s).Disjoint (f.votingAgents t) := by
  intro a hs ht
  exact hne ((tier_of_mem_votingAgents hs).symm.trans (tier_of_mem_votingAgents ht))

theorem votes_of_not_synthesizes (hsynthesizes : f.synthesizes = false) :
    f.agents.filter f.votes = f.agents := by
  rw [List.filter_eq_self]
  intro a _
  simp [votes, hsynthesizes]

/-! ### The manager -/

/-- A list in which one item of a kind stands is this item and all the others. -/
theorem cons_filter_perm {α : Type} {q : α → Bool} {items : List α} {x : α} (hx : x ∈ items)
    (hq : q x = true) (hone : items.countP q ≤ 1) :
    (x :: items.filter fun y => !q y).Perm items := by
  have hmem : x ∈ items.filter q := List.mem_filter.mpr ⟨hx, hq⟩
  rw [List.countP_eq_length_filter] at hone
  have honly : items.filter q = [x] := by
    cases hfilter : items.filter q with
    | nil => simp [hfilter] at hmem
    | cons y rest =>
      rw [hfilter] at hmem hone
      have hrest : rest = [] := by
        rw [← List.length_eq_zero_iff]
        rw [List.length_cons] at hone
        omega
      rw [hrest, List.mem_singleton] at hmem
      rw [hrest, hmem]
  have hboth := List.filter_append_perm q items
  rwa [honly, List.singleton_append] at hboth

theorem manager?_spec {manager : Agent} (h : f.manager? = some manager) :
    manager ∈ f.agents ∧ manager.isManager = true :=
  ⟨List.mem_of_find?_eq_some h, List.find?_some h⟩

/-- A manager that synthesizes is the only agent that does not vote. -/
theorem Coherent.manager_and_voters (hf : f.Coherent) (hsynthesizes : f.synthesizes = true)
    {manager : Agent} (hmanager : f.manager? = some manager) :
    (manager :: f.plannedVoters).Perm f.agents := by
  obtain ⟨hmem, hrole⟩ := manager?_spec hmanager
  have hvotes : f.agents.filter f.votes = f.agents.filter fun a => !a.isManager := by
    apply List.filter_congr
    intro a _
    simp [votes, hsynthesizes]
  have hvoters := f.voters_perm
  rw [hvotes] at hvoters
  exact (hvoters.cons manager).trans (cons_filter_perm hmem hrole hf.oneManager)

/-! ### The plan of a valid fleet -/

theorem Valid.coherent (hf : f.Valid) : f.Coherent := validate_eq_ok_iff_coherent.mp hf.rules

theorem Valid.planned (hf : f.Valid) : f.Planned where
  votingTiers := hf.exists_votingTier
  ascending := f.votingTiers_ascending
  names := by
    have hvoters := (f.voters_perm.map Agent.name).nodup_iff
    rw [hvoters]
    exact hf.names_nodup.sublist (List.filter_sublist.map Agent.name)
  disjoint := f.votingTiers_ascending.imp fun h => votingAgents_disjoint h.ne
  everybody := by
    intro hsynthesizes
    have hvoters := f.voters_perm
    rwa [votes_of_not_synthesizes hsynthesizes] at hvoters
  butTheManager := by
    intro hsynthesizes
    obtain ⟨manager, hmanager⟩ := hf.exists_manager hsynthesizes
    obtain ⟨hmem, hrole⟩ := manager?_spec hmanager
    refine ⟨manager, hmanager, hrole, hf.coherent.manager_and_voters hsynthesizes hmanager, ?_, ?_⟩
    · intro tier hvoter
      have hvotes := (mem_votingAgents.mp hvoter).2.2
      simp [hsynthesizes, hrole] at hvotes
    · intro tier htier
      obtain ⟨a, ha, rfl, -⟩ := mem_votingTiers.mp htier
      exact hf.coherent.managerOnTop manager hmem hrole a ha

end Quorum.Fleet

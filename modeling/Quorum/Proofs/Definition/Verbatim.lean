/-
  Quorum/Proofs/Definition/Verbatim.lean
  ======================================
  **Labels and weights keep their keys.**

  What a definition gives as labels or as weights is no level: in the fleet that is made from it
  the keys are those that are written there, whatever their spelling (`KeepsKeys`).  This holds
  of the labels of the fleet, of the labels of every agent, and of the weights that the rules
  of a tier take from the first of their layers that gives some (`Verbatim`).
-/
import Quorum.Proofs.Definition.Parts

namespace Quorum.Definition

/-! ### Maps under texts -/

/-- A key is a text, as it is written; raw bytes are read as one. -/
inductive KeyText : Datum → String → Prop where
  | text (s : String) : KeyText (.text s) s
  | bytes {bs : List UInt8} {s : String} (h : Datum.utf8? bs = some s) : KeyText (.bytes bs) s

/-- A map has the keys of a mapping, as they are written there, and no others. -/
def KeepsKeys {β : Type} (d : Datum) (map : List (String × β)) : Prop :=
  ∃ entries, d = .mapping entries ∧
    (∀ entry ∈ entries, ∃ key ∈ map.map Prod.fst, KeyText entry.1 key) ∧
    ∀ key ∈ map.map Prod.fst, ∃ entry ∈ entries, KeyText entry.1 key

theorem keyText_of_text {d : Datum} {s : String} (h : Check.text d = .ok s) : KeyText d s := by
  unfold Check.text at h
  split at h
  · cases h
    exact .text _
  · split at h
    · rename_i hread
      cases h
      exact .bytes hread
    · cases h
  · cases h

theorem mem_keys_writeAll {κ β : Type} [BEq κ] [LawfulBEq κ] {added : List (κ × β)} {key : κ} :
    key ∈ (Check.writeAll [] added).map Prod.fst ↔ key ∈ added.map Prod.fst := by
  have hmem (entries : List (κ × β)) : key ∈ entries.map Prod.fst ↔ entries.lookup key ≠ none := by
    rw [ne_eq, List.lookup_eq_none_iff, List.mem_map]
    push Not
    constructor
    · rintro ⟨pair, hpair, rfl⟩
      exact ⟨pair, hpair, by simp⟩
    · rintro ⟨pair, hpair, hkey⟩
      have heq : key = pair.1 := by simpa using hkey
      exact ⟨pair, hpair, heq.symm⟩
  rw [hmem, hmem, Check.lookup_writeAll, List.lookup_nil, Option.or_none, ← hmem, ← hmem,
    List.map_reverse, List.mem_reverse]

/-- A mapping that passes as a map under texts keeps its keys. -/
theorem keepsKeys_of_mapping {β : Type} {rule : Check.Rule β} {d : Datum}
    {map : List (String × β)} (h : Check.mapping Check.text rule d = .ok map) :
    KeepsKeys d map := by
  obtain ⟨entries, pairs, rfl, hpassed, rfl⟩ := Check.mapping_eq_ok.mp h
  refine ⟨entries, rfl, ?_, ?_⟩
  · intro entry hentry
    obtain ⟨pair, hpair, hpasses⟩ := exists_of_passed hpassed.flip hentry
    exact ⟨pair.1, mem_keys_writeAll.mpr (List.mem_map_of_mem hpair), keyText_of_text hpasses.1⟩
  · intro key hkey
    obtain ⟨pair, hpair, rfl⟩ := List.mem_map.mp (mem_keys_writeAll.mp hkey)
    obtain ⟨entry, hentry, hpasses⟩ := exists_of_passed hpassed hpair
    exact ⟨entry, hentry, keyText_of_text hpasses.1⟩

/-! ### Whole definitions -/

/-- Weights have the keys of the first layer that gives some; without one there are none. -/
def WeightsKept (layers : List Level) (weights : List (String × Float)) : Prop :=
  match firstGiven layers "weights" with
  | some d => KeepsKeys d weights
  | none => weights = []

theorem Layered.weightsKept {defaults : ConsensusDefaults} {layers : List Level}
    {rules : VotingRules} (h : Layered defaults layers rules) :
    WeightsKept layers rules.weights := by
  have hweights := h.weights
  unfold WeightsKept
  cases hfirst : firstGiven layers "weights" with
  | none =>
    rw [hfirst] at hweights
    exact hweights
  | some d =>
    rw [hfirst] at hweights
    exact keepsKeys_of_mapping hweights

/-- The labels and the weights of a fleet have the keys that are written in its definition. -/
structure Verbatim (definition : Datum) (f : Fleet) : Prop where
  labels : ∃ labels, At definition ["metadata", "labels"] labels ∧
    KeepsKeys (labels.orElse (.mapping [])) f.labels
  agents : ∃ agents entries, At definition ["spec", "agents"] agents ∧
    agents.orElse (.list []) = .list entries ∧
    List.Forall₂ (fun entry a => ∃ labels, At entry ["labels"] labels ∧
      KeepsKeys (labels.orElse (.mapping [])) a.labels) entries f.agents
  weights : ∃ consensus fleetBlock tiers blocks,
    At definition ["spec", "coordination", "consensus"] consensus ∧
    Level.ofDatum consensus = .ok fleetBlock ∧
    At definition ["spec", "coordination", "tiered", "tier_consensus"] tiers ∧
    tiers.orElse (.mapping []) = .mapping blocks ∧
    ∀ tier, match blockFor blocks tier with
      | some block => ∃ tierBlock, Level.ofDatum block = .ok tierBlock ∧
          WeightsKept [tierBlock, fleetBlock] (f.coordination.rulesFor tier).weights
      | none => WeightsKept [fleetBlock] (f.coordination.rulesFor tier).weights

variable {settings : Settings} {library : Library} {definition : Datum} {f : Fleet}

theorem agentLabels_kept {entry : Datum} {a : Agent} {fields : Level}
    (hfields : agentFields library entry = .ok fields) (hstands : a.StandsIn fields) :
    ∃ labels, At entry ["labels"] labels ∧ KeepsKeys (labels.orElse (.mapping [])) a.labels := by
  obtain ⟨own, inline, file, merged, hdescribed, -, hlookup⟩ := agentFields_lookup hfields
  have hplace : fields.lookup "labels" = some ((own.get "labels").orElse (.mapping [])) := by
    rw [hlookup "labels" (by decide)]
    simp [among, layerKeys, placement, List.lookup_cons]
  have hlabels := withDefault_lookup hstands.labels
  rw [hplace] at hlabels
  exact ⟨own.get "labels", .under hdescribed.entryLevel .here, keepsKeys_of_mapping hlabels⟩

theorem verbatim_of_made (h : Fleet.ofDefinition settings library definition = .ok f) :
    Verbatim definition f := by
  constructor
  · obtain ⟨labels, hlabels, hchecked⟩ := labels_of_made h
    exact ⟨labels, hlabels, keepsKeys_of_mapping hchecked⟩
  · obtain ⟨agents, entries, hagents, hentries, hmade⟩ := agents_of_made h
    refine ⟨agents, entries, hagents, hentries, hmade.imp ?_⟩
    rintro entry a ⟨fields, hfields, hstands⟩
    exact agentLabels_kept hfields hstands
  · obtain ⟨consensus, fleetBlock, tiers, blocks, base, numbered, hconsensus, hfleet, htiersAt,
      hblocks, hstacked, hnumbered, hdefault, htiers⟩ := blocks_of_made h
    refine ⟨consensus, fleetBlock, tiers, blocks, hconsensus, hfleet, htiersAt, hblocks, ?_⟩
    intro tier
    have hrules := rulesFor_layered hstacked hnumbered hdefault htiers tier
    cases hfind : blockFor blocks tier with
    | none =>
      rw [hfind] at hrules
      exact hrules.weightsKept
    | some block =>
      rw [hfind] at hrules
      obtain ⟨tierBlock, htier, hrules⟩ := hrules
      exact ⟨tierBlock, htier, hrules.weightsKept⟩

end Quorum.Definition

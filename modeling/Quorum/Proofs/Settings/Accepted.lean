/-
  Quorum/Proofs/Settings/Accepted.lean
  ====================================
  **What is known of settings that were accepted.**

  Settings come from many sources, but whatever they come from their fields are checked in
  one place.  So their counts are at least one (`ofSources_counts`), and executors that run
  under such settings have places for agents.
-/
import Quorum.Proofs.Check.Passed
import Quorum.Settings.Basic

namespace Quorum.Settings

theorem countRule_one_le {d : Datum} {n : Int} (h : countRule d = .ok n) : 1 ≤ n := by
  obtain ⟨i, -, hrest⟩ := bind_eq_ok.mp h
  split at hrest
  · cases hrest
  · rename_i hbound
    cases hrest
    exact Int.not_lt.mp hbound

theorem withDefault_count {fields : Check.Fields} {key : String} {default n : Int}
    (hdefault : 1 ≤ default) (h : Check.withDefault fields key default countRule = .ok n) :
    1 ≤ n := by
  rcases Check.withDefault_eq_ok.mp h with ⟨d, -, hrule⟩ | ⟨-, rfl⟩
  · exact countRule_one_le hrule
  · exact hdefault

/-- The counts of checked settings are at least one. -/
theorem check_counts {fields : Check.Fields} {consensus : Checked ConsensusDefaults}
    {s : Settings} (h : check fields consensus = .ok s) :
    1 ≤ s.maxConcurrentAgents ∧ 1 ≤ s.retryAttempts := by
  obtain ⟨_, _, h11, -, rfl⟩ := Checked.apply_eq_ok.mp h
  obtain ⟨_, _, h10, -, rfl⟩ := Checked.apply_eq_ok.mp h11
  obtain ⟨_, attempts, h9, hattempts, rfl⟩ := Checked.apply_eq_ok.mp h10
  obtain ⟨_, _, h8, -, rfl⟩ := Checked.apply_eq_ok.mp h9
  obtain ⟨_, _, h7, -, rfl⟩ := Checked.apply_eq_ok.mp h8
  obtain ⟨_, agents, h6, hagents, rfl⟩ := Checked.apply_eq_ok.mp h7
  obtain ⟨_, _, h5, -, rfl⟩ := Checked.apply_eq_ok.mp h6
  obtain ⟨_, _, h4, -, rfl⟩ := Checked.apply_eq_ok.mp h5
  obtain ⟨_, _, h3, -, rfl⟩ := Checked.apply_eq_ok.mp h4
  obtain ⟨_, _, h2, -, rfl⟩ := Checked.apply_eq_ok.mp h3
  obtain ⟨_, _, h1, -, rfl⟩ := Checked.apply_eq_ok.mp h2
  obtain ⟨_, _, hbuild, -, rfl⟩ := Checked.apply_eq_ok.mp h1
  cases hbuild
  exact ⟨withDefault_count (by decide) hagents, withDefault_count (by decide) hattempts⟩

/-- Whatever their sources, the counts of accepted settings are at least one. -/
theorem ofSources_counts {sources : Sources} {s : Settings} (h : ofSources sources = .ok s) :
    1 ≤ s.maxConcurrentAgents ∧ 1 ≤ s.retryAttempts := by
  obtain ⟨block, -, h⟩ := bind_eq_ok.mp h
  cases block with
  | some d =>
    simp only at h
    split at h
    · cases h
    · exact check_counts (mapError_eq_ok.mp h)
  | none =>
    simp only at h
    split at h
    · cases h
    · split at h
      · exact check_counts (mapError_eq_ok.mp h)
      · cases h

end Quorum.Settings

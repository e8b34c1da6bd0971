/-
  Quorum/Proofs/Value/Entries.lean
  ================================
  **Entries written one after the other.**

  Entries under different keys are kept as they are (`ofList_of_nodup`); whatever the keys,
  nothing is kept that was not written (`mem_ofList`).
-/
import Mathlib.Data.List.Nodup
import Quorum.Value.Basic

namespace Quorum.Entries

variable {α : Type}

/-! ### Different keys -/

theorem insert_of_new {key : String} {value : α} {entries : List (String × α)}
    (hnew : key ∉ entries.map Prod.fst) :
    insert key value entries = entries ++ [(key, value)] := by
  induction entries with
  | nil => rfl
  | cons entry rest ih =>
    rw [List.map_cons, List.mem_cons, not_or] at hnew
    have hother : (entry.1 == key) = false := by simpa using Ne.symm hnew.1
    rw [insert, hother]
    simp [ih hnew.2]

theorem insertAll_of_new {entries added : List (String × α)}
    (hnodup : ((entries ++ added).map Prod.fst).Nodup) :
    insertAll entries added = entries ++ added := by
  induction added generalizing entries with
  | nil => simp [insertAll]
  | cons entry rest ih =>
    obtain ⟨key, value⟩ := entry
    have hnew : key ∉ entries.map Prod.fst := by
      intro hmem
      rw [List.map_append, List.nodup_append'] at hnodup
      exact hnodup.2.2 hmem (by simp)
    have happend : entries ++ (key, value) :: rest = (entries ++ [(key, value)]) ++ rest := by simp
    rw [happend] at hnodup ⊢
    rw [← insert_of_new hnew] at hnodup ⊢
    exact ih hnodup

/-- Entries under different keys stay as they are. -/
theorem ofList_of_nodup {entries : List (String × α)} (hnodup : (entries.map Prod.fst).Nodup) :
    ofList entries = entries :=
  insertAll_of_new hnodup

theorem lookup_of_mem {κ : Type} [BEq κ] [LawfulBEq κ] {entries : List (κ × α)}
    (hnodup : (entries.map Prod.fst).Nodup) {key : κ} {value : α} (h : (key, value) ∈ entries) :
    entries.lookup key = some value := by
  induction entries with
  | nil => cases h
  | cons first rest ih =>
    rw [List.map_cons, List.nodup_cons] at hnodup
    rcases List.mem_cons.mp h with rfl | h
    · simp
    · have hother : (key == first.1) = false := by
        rw [beq_eq_false_iff_ne]
        rintro rfl
        exact hnodup.1 (List.mem_map.mpr ⟨_, h, rfl⟩)
      rw [List.lookup_cons, hother]
      exact ih hnodup.2 h

theorem lookup_reverse {κ : Type} [BEq κ] [LawfulBEq κ] {entries : List (κ × α)}
    (hnodup : (entries.map Prod.fst).Nodup) (key : κ) :
    entries.reverse.lookup key = entries.lookup key := by
  cases h : entries.lookup key with
  | none =>
    rw [List.lookup_eq_none_iff] at h ⊢
    intro entry hentry
    exact h entry (List.mem_reverse.mp hentry)
  | some value =>
    obtain ⟨before, after, rfl, -⟩ := List.lookup_eq_some_iff.mp h
    refine lookup_of_mem ?_ (List.mem_reverse.mpr (by simp))
    rw [List.map_reverse]
    exact List.nodup_reverse.mpr hnodup

/-! ### Any keys -/

theorem mem_insert {key : String} {value : α} {entries : List (String × α)}
    {entry : String × α} (h : entry ∈ insert key value entries) :
    entry = (key, value) ∨ entry ∈ entries := by
  induction entries with
  | nil => exact .inl (List.mem_singleton.mp h)
  | cons first rest ih =>
    rw [insert] at h
    split at h
    · rcases List.mem_cons.mp h with h | h
      · exact .inl h
      · exact .inr (List.mem_cons_of_mem _ h)
    · rcases List.mem_cons.mp h with h | h
      · exact .inr (h ▸ List.mem_cons_self)
      · rcases ih h with h | h
        · exact .inl h
        · exact .inr (List.mem_cons_of_mem _ h)

theorem mem_insertAll {entries added : List (String × α)} {entry : String × α}
    (h : entry ∈ insertAll entries added) : entry ∈ entries ∨ entry ∈ added := by
  induction added generalizing entries with
  | nil => exact .inl h
  | cons first rest ih =>
    rcases ih h with h | h
    · rcases mem_insert h with h | h
      · exact .inr (h ▸ List.mem_cons_self)
      · exact .inl h
    · exact .inr (List.mem_cons_of_mem _ h)

theorem mem_ofList {entries : List (String × α)} {entry : String × α}
    (h : entry ∈ ofList entries) : entry ∈ entries := by
  rcases mem_insertAll h with h | h
  · cases h
  · exact h

theorem mem_of_lookup {κ : Type} [BEq κ] [LawfulBEq κ] {entries : List (κ × α)} {key : κ}
    {value : α} (h : entries.lookup key = some value) : (key, value) ∈ entries := by
  obtain ⟨before, after, rfl, -⟩ := List.lookup_eq_some_iff.mp h
  simp

end Quorum.Entries

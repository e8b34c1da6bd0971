/-
  Quorum/Proofs/Check/Mappings.lean
  =================================
  **Lists and mappings that passed a check.**

  A list passes if its items do, one by one (`all_eq_ok`).  The entries of a mapping are
  checked first and then written one after the other, so of equal keys the last one counts,
  the keys of what has passed differ (`mapping_nodup`), and every entry of it has passed the
  rules for keys and values (`mem_mapping`).
-/
import Mathlib.Data.List.Forall2
import Quorum.Proofs.Check.Passed
import Quorum.Proofs.Value.Entries

namespace Quorum

/-! ### Item by item -/

/-- All items pass exactly if each does, wherever it stands. -/
theorem Checked.all_eq_ok {α β : Type} {P : α → β → Prop} {check : Nat → α → Checked β}
    (hcheck : ∀ i x y, check i x = .ok y ↔ P x y) {i : Nat} {items : List α} {passed : List β} :
    Checked.all check i items = .ok passed ↔ List.Forall₂ P items passed := by
  induction items generalizing i passed with
  | nil =>
    rw [Checked.all, List.forall₂_nil_left_iff, Except.ok.injEq]
    exact eq_comm
  | cons x rest ih =>
    rw [Checked.all, Checked.apply_eq_ok, List.forall₂_cons_left_iff]
    constructor
    · rintro ⟨_, ys, hhead, hrest, rfl⟩
      obtain ⟨_, y, hbuild, hx, rfl⟩ := Checked.apply_eq_ok.mp hhead
      cases hbuild
      exact ⟨y, ys, (hcheck i x y).mp hx, ih.mp hrest, rfl⟩
    · rintro ⟨y, ys, hx, hrest, rfl⟩
      have hhead := Checked.apply_eq_ok.mpr ⟨List.cons, y, rfl, (hcheck i x y).mpr hx, rfl⟩
      exact ⟨_, ys, hhead, ih.mpr hrest, rfl⟩

theorem exists_of_passed {α β : Type} {P : α → β → Prop} {items : List α} {passed : List β}
    (h : List.Forall₂ P items passed) {y : β} (hy : y ∈ passed) : ∃ x ∈ items, P x y := by
  induction h with
  | nil => cases hy
  | cons hfirst _ ih =>
    rcases List.mem_cons.mp hy with rfl | hy
    · exact ⟨_, List.mem_cons_self, hfirst⟩
    · obtain ⟨x, hx, hpassed⟩ := ih hy
      exact ⟨x, List.mem_cons_of_mem _ hx, hpassed⟩

namespace Check

section Lists

variable {α : Type} {rule : Rule α} {d : Datum} {items : List α}

theorem mem_list (h : list rule d = .ok items) {a : α} (ha : a ∈ items) : ∃ x, rule x = .ok a := by
  have hitem : ∀ {given : List Datum},
      Checked.all (fun i d => (rule d).inside (toString i)) 0 given = .ok items →
        ∃ x, rule x = .ok a := by
    intro given hgiven
    obtain ⟨x, -, hx⟩ := exists_of_passed
      ((Checked.all_eq_ok fun _ _ _ => Checked.inside_eq_ok).mp hgiven) ha
    exact ⟨x, hx⟩
  unfold list at h
  split at h
  · exact hitem h
  · exact hitem h
  · exact hitem h
  · cases h

theorem mem_nonEmptyList (h : nonEmptyList rule d = .ok items) {a : α} (ha : a ∈ items) :
    ∃ x, rule x = .ok a := by
  obtain ⟨checked, hlist, hrest⟩ := bind_eq_ok.mp h
  split at hrest
  · cases hrest
  · cases hrest
    exact mem_list hlist ha

/-- The items of a list that passed have passed one by one, in their order. -/
theorem passed_of_nonEmptyList {given : List Datum}
    (h : nonEmptyList rule (.list given) = .ok items) :
    List.Forall₂ (fun d a => rule d = .ok a) given items := by
  obtain ⟨checked, hlist, hrest⟩ := bind_eq_ok.mp h
  split at hrest
  · cases hrest
  · cases hrest
    exact (Checked.all_eq_ok fun _ _ _ => Checked.inside_eq_ok).mp hlist

end Lists

/-! ### Entries written by their keys -/

section Written

variable {κ α : Type} [BEq κ] [LawfulBEq κ]

theorem lookup_insertKey (key other : κ) (value : α) (entries : List (κ × α)) :
    (insertKey key value entries).lookup other =
      if other == key then some value else entries.lookup other := by
  induction entries with
  | nil =>
    rw [insertKey, List.lookup_cons]
    cases other == key <;> rfl
  | cons entry rest ih =>
    rw [insertKey]
    by_cases hplace : (entry.1 == key) = true
    · rw [if_pos hplace]
      obtain rfl := eq_of_beq hplace
      rw [List.lookup_cons, List.lookup_cons]
      cases other == entry.1 <;> rfl
    · rw [if_neg hplace, List.lookup_cons, List.lookup_cons, ih]
      by_cases hother : (other == entry.1) = true
      · obtain rfl := eq_of_beq hother
        simp only [hother]
        rw [if_neg hplace]
      · rw [Bool.not_eq_true] at hother
        simp only [hother]

theorem keys_insertKey_of_mem {key : κ} {entries : List (κ × α)} (value : α)
    (hkey : key ∈ entries.map Prod.fst) :
    (insertKey key value entries).map Prod.fst = entries.map Prod.fst := by
  induction entries with
  | nil => cases hkey
  | cons entry rest ih =>
    rw [insertKey]
    by_cases hplace : (entry.1 == key) = true
    · rw [if_pos hplace, List.map_cons, List.map_cons, eq_of_beq hplace]
    · have hrest : key ∈ rest.map Prod.fst := by
        rcases List.mem_cons.mp hkey with heq | hrest
        · exact absurd (beq_iff_eq.mpr heq.symm) hplace
        · exact hrest
      rw [if_neg hplace, List.map_cons, List.map_cons, ih hrest]

theorem insertKey_of_not_mem {key : κ} {entries : List (κ × α)} (value : α)
    (hkey : key ∉ entries.map Prod.fst) :
    insertKey key value entries = entries ++ [(key, value)] := by
  induction entries with
  | nil => rfl
  | cons entry rest ih =>
    rw [List.map_cons, List.mem_cons, not_or] at hkey
    have hplace : ¬ (entry.1 == key) = true := fun h => hkey.1 (eq_of_beq h).symm
    rw [insertKey, if_neg hplace, ih hkey.2, List.cons_append]

theorem insertKey_nodup {key : κ} {entries : List (κ × α)} (value : α)
    (hnodup : (entries.map Prod.fst).Nodup) :
    ((insertKey key value entries).map Prod.fst).Nodup := by
  by_cases hkey : key ∈ entries.map Prod.fst
  · rw [keys_insertKey_of_mem value hkey]
    exact hnodup
  · rw [insertKey_of_not_mem value hkey, List.map_append]
    exact hnodup.append (List.nodup_singleton key) (by simpa using hkey)

/-- Entries written one after the other, behind those that are there. -/
def writeAll (entries added : List (κ × α)) : List (κ × α) :=
  added.foldl (fun es (k, v) => insertKey k v es) entries

/-- Of the entries under one key the one written last counts. -/
theorem lookup_writeAll (entries added : List (κ × α)) (key : κ) :
    (writeAll entries added).lookup key = (added.reverse.lookup key).or (entries.lookup key) := by
  induction added generalizing entries with
  | nil => rfl
  | cons entry rest ih =>
    obtain ⟨k, v⟩ := entry
    rw [writeAll, List.foldl_cons, ← writeAll, ih, lookup_insertKey, List.reverse_cons,
      List.lookup_append, Option.or_assoc, List.lookup_cons, List.lookup_nil]
    cases key == k <;> rfl

theorem writeAll_nodup {entries : List (κ × α)} (hnodup : (entries.map Prod.fst).Nodup)
    (added : List (κ × α)) : ((writeAll entries added).map Prod.fst).Nodup := by
  induction added generalizing entries with
  | nil => exact hnodup
  | cons entry rest ih => exact ih (insertKey_nodup entry.2 hnodup)

end Written

/-! ### Mappings -/

section Mappings

variable {κ α : Type} [BEq κ] {keyRule : Rule κ} {rule : Rule α} {d : Datum}
  {passed : List (κ × α)}

/-- An entry passes if its key and its value do. -/
def EntryPasses (keyRule : Rule κ) (rule : Rule α) (entry : Datum × Datum) (pair : κ × α) : Prop :=
  keyRule entry.1 = .ok pair.1 ∧ rule entry.2 = .ok pair.2

/-- A mapping passes if all its entries do; they are written in their order. -/
theorem mapping_eq_ok : mapping keyRule rule d = .ok passed ↔
    ∃ entries pairs, d = .mapping entries ∧
      List.Forall₂ (EntryPasses keyRule rule) entries pairs ∧ passed = writeAll [] pairs := by
  have hentry : ∀ (_ : Nat) (entry : Datum × Datum) (pair : κ × α),
      ((Checked.build Prod.mk).apply
        (((keyRule entry.1).inside "[key]").inside entry.1.display)).apply
          ((rule entry.2).inside entry.1.display) = .ok pair ↔
        EntryPasses keyRule rule entry pair := by
    intro _ entry pair
    simp only [EntryPasses, Checked.apply_eq_ok, Checked.inside_eq_ok]
    constructor
    · rintro ⟨_, value, ⟨_, key, hbuild, hkey, rfl⟩, hvalue, rfl⟩
      cases hbuild
      exact ⟨hkey, hvalue⟩
    · rintro ⟨hkey, hvalue⟩
      exact ⟨_, pair.2, ⟨Prod.mk, pair.1, rfl, hkey, rfl⟩, hvalue, rfl⟩
  unfold mapping
  split
  · rename_i entries
    rw [bind_eq_ok]
    constructor
    · rintro ⟨pairs, hpairs, h⟩
      cases h
      exact ⟨entries, pairs, rfl, (Checked.all_eq_ok hentry).mp hpairs, rfl⟩
    · rintro ⟨_, pairs, hd, hpairs, rfl⟩
      cases hd
      exact ⟨pairs, (Checked.all_eq_ok hentry).mpr hpairs, rfl⟩
  · rename_i hother
    constructor
    · intro h
      cases h
    · rintro ⟨entries, -, rfl, -⟩
      exact absurd rfl (hother entries)

variable [LawfulBEq κ]

theorem mapping_nodup (h : mapping keyRule rule d = .ok passed) :
    (passed.map Prod.fst).Nodup := by
  obtain ⟨-, pairs, -, -, rfl⟩ := mapping_eq_ok.mp h
  have hempty : (([] : List (κ × α)).map Prod.fst).Nodup := List.nodup_nil
  exact writeAll_nodup hempty pairs

theorem mem_mapping (h : mapping keyRule rule d = .ok passed) {pair : κ × α}
    (hpair : pair ∈ passed) : ∃ entry, EntryPasses keyRule rule entry pair := by
  have hlookup := Entries.lookup_of_mem (mapping_nodup h) hpair
  obtain ⟨entries, pairs, -, hpairs, rfl⟩ := mapping_eq_ok.mp h
  rw [lookup_writeAll, List.lookup_nil, Option.or_none] at hlookup
  have hmem := List.mem_reverse.mp (Entries.mem_of_lookup hlookup)
  obtain ⟨entry, -, hentry⟩ := exists_of_passed hpairs hmem
  exact ⟨entry, hentry⟩

end Mappings

end Check

theorem Entries.insert_eq_insertKey {α : Type} (key : String) (value : α)
    (entries : List (String × α)) : insert key value entries = Check.insertKey key value entries := by
  induction entries with
  | nil => rfl
  | cons entry rest ih => rw [insert, Check.insertKey, ih]

theorem Entries.insertAll_eq_writeAll {α : Type} (entries added : List (String × α)) :
    insertAll entries added = Check.writeAll entries added := by
  unfold insertAll Check.writeAll
  simp only [insert_eq_insertKey]

end Quorum

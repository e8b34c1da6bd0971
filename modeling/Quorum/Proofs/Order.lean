/-
  Quorum/Proofs/Order.lean
  ========================
  **Lists put in order.**

  Names, keys and tier numbers are sorted and then stripped of repetitions; votes are
  sorted by a comparison of two fields.  Whatever is sorted by a comparison that tells its
  items apart depends on the items only and not on the order in which they came
  (`mergeSort_eq_of_perm`), and what is left after repetitions are dropped goes strictly
  upwards (`ascending_sorted_distinct`).
-/
import Mathlib.Data.List.Sort
import Mathlib.Data.String.Basic

namespace Quorum.Order

/-! ### Sorting by a comparison that tells items apart -/

section Comparison

variable {α : Type} {le : α → α → Bool}

/-- Two arrivals of the same items are sorted alike if no two different items among them
    stand for each other in the comparison. -/
theorem mergeSort_eq_of_perm (htrans : ∀ a b c, le a b → le b c → le a c)
    (htotal : ∀ a b, le a b || le b a) {xs ys : List α}
    (hapart : ∀ a ∈ xs, ∀ b ∈ xs, le a b → le b a → a = b) (hperm : xs.Perm ys) :
    xs.mergeSort le = ys.mergeSort le := by
  have hsorted : (xs.mergeSort le).Perm (ys.mergeSort le) :=
    (List.mergeSort_perm xs le).trans (hperm.trans (List.mergeSort_perm ys le).symm)
  refine List.Perm.eq_of_pairwise ?_ (List.pairwise_mergeSort htrans htotal xs)
    (List.pairwise_mergeSort htrans htotal ys) hsorted
  intro a b ha hb
  rw [List.mem_mergeSort] at ha hb
  exact hapart a ha b (hperm.mem_iff.mpr hb)

end Comparison

/-! ### Dropping repetitions -/

section Distinct

variable {α : Type} [BEq α]

/-- What is kept when repetitions are dropped keeps its order. -/
theorem eraseDups_sublist (xs : List α) : xs.eraseDups.Sublist xs := by
  -- on the length: the tail is filtered before the recursion goes on
  induction hn : xs.length using Nat.strong_induction_on generalizing xs with
  | _ n ih =>
    cases xs with
    | nil => simp
    | cons x rest =>
      rw [List.eraseDups_cons]
      have hfilter := List.filter_sublist (p := fun b => !b == x) (l := rest)
      have hlength : (rest.filter fun b => !b == x).length < n := by
        rw [← hn, List.length_cons]
        exact Nat.lt_succ_of_le hfilter.length_le
      exact ((ih _ hlength _ rfl).trans hfilter).cons_cons x

/-- Nothing stands twice once repetitions are dropped. -/
theorem nodup_eraseDups [LawfulBEq α] (xs : List α) : xs.eraseDups.Nodup := by
  induction hn : xs.length using Nat.strong_induction_on generalizing xs with
  | _ n ih =>
    cases xs with
    | nil => simp
    | cons x rest =>
      rw [List.eraseDups_cons, List.nodup_cons]
      have hlength : (rest.filter fun b => !b == x).length < n := by
        rw [← hn, List.length_cons]
        exact Nat.lt_succ_of_le List.filter_sublist.length_le
      refine ⟨fun hmem => ?_, ih _ hlength _ rfl⟩
      rw [List.mem_eraseDups, List.mem_filter] at hmem
      simp at hmem

theorem mem_sorted_distinct [LawfulBEq α] {le : α → α → Bool} {xs : List α} {a : α} :
    a ∈ (xs.mergeSort le).eraseDups ↔ a ∈ xs := by
  rw [List.mem_eraseDups, List.mem_mergeSort]

end Distinct

/-! ### Sorted by a linear order -/

section Linear

variable {α : Type} [LinearOrder α] {le : α → α → Bool}

theorem sorted_mergeSort (hle : ∀ a b, le a b = true ↔ a ≤ b) (xs : List α) :
    (xs.mergeSort le).Pairwise (· ≤ ·) := by
  have hsorted : (xs.mergeSort le).Pairwise fun a b => le a b = true := by
    refine List.pairwise_mergeSort (fun a b c hab hbc => ?_) (fun a b => ?_) xs
    · rw [hle] at hab hbc ⊢
      exact hab.trans hbc
    · rw [Bool.or_eq_true, hle, hle]
      exact le_total a b
  exact hsorted.imp fun h => (hle _ _).mp h

/-- Sorting and then dropping repetitions leaves a strictly ascending list. -/
theorem ascending_sorted_distinct [BEq α] [LawfulBEq α] (hle : ∀ a b, le a b = true ↔ a ≤ b)
    (xs : List α) : ((xs.mergeSort le).eraseDups).Pairwise (· < ·) := by
  have hsorted := (sorted_mergeSort hle xs).sublist (eraseDups_sublist _)
  have hdistinct : ((xs.mergeSort le).eraseDups).Pairwise (· ≠ ·) := nodup_eraseDups _
  exact hsorted.imp₂ (fun _ _ hab hne => lt_of_le_of_ne hab hne) hdistinct

end Linear

end Quorum.Order

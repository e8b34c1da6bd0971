/-
  Quorum/Proofs/Run/Instants.lean
  ===============================
  **Instants in order.**

  Instants are ordered by time and, at one time, by step, and this order is linear.  What
  takes place after an instant is later than it, whether it takes time or not
  (`lt_after`).  The earliest and the latest of several instants are what their names say,
  and time stamps, though they are rounded, keep the order (`micros_timestamp_mono`).
-/
import Quorum.Proofs.Decimal.Nearest
import Quorum.Run.Tier

namespace Quorum

namespace Instant

theorem le_iff {a b : Instant} : a ≤ b ↔ a.time < b.time ∨ (a.time = b.time ∧ a.step ≤ b.step) :=
  Iff.rfl

theorem lt_iff {a b : Instant} : a < b ↔ a.time < b.time ∨ (a.time = b.time ∧ a.step < b.step) :=
  Iff.rfl

instance : LinearOrder Instant where
  le_refl a := Or.inr ⟨rfl, Nat.le_refl _⟩
  le_trans a b c hab hbc := by
    rw [le_iff] at hab hbc ⊢
    rcases hab with hab | ⟨hab, hsteps⟩ <;> rcases hbc with hbc | ⟨hbc, hsteps'⟩
    · exact Or.inl (hab.trans hbc)
    · exact Or.inl (hbc ▸ hab)
    · exact Or.inl (hab ▸ hbc)
    · exact Or.inr ⟨hab.trans hbc, hsteps.trans hsteps'⟩
  le_antisymm a b hab hba := by
    cases a
    cases b
    simp only [le_iff, mk.injEq] at *
    grind
  le_total a b := by
    rw [le_iff, le_iff]
    rcases lt_trichotomy a.time b.time with h | h | h
    · exact Or.inl (Or.inl h)
    · rcases Nat.le_total a.step b.step with hsteps | hsteps
      · exact Or.inl (Or.inr ⟨h, hsteps⟩)
      · exact Or.inr (Or.inr ⟨h.symm, hsteps⟩)
    · exact Or.inr (Or.inl h)
  lt_iff_le_not_ge a b := by
    rw [le_iff, le_iff, lt_iff]
    grind
  toDecidableLE := inferInstance
  toDecidableEq := inferInstance
  toDecidableLT := inferInstance

theorem time_le {a b : Instant} (h : a ≤ b) : a.time ≤ b.time := by
  rcases h with h | ⟨h, -⟩
  · exact h.le
  · exact h.le

/-- Whatever comes after an instant is later, if only by a step. -/
theorem lt_after (t : Instant) (length : Rat) : t < t.after length := by
  unfold after
  split
  · rename_i hlength
    exact Or.inl (by simpa using hlength)
  · exact Or.inr ⟨rfl, Nat.lt_succ_self _⟩

theorem le_after (t : Instant) (length : Rat) : t ≤ t.after length := (lt_after t length).le

theorem earlier_eq_min (a b : Instant) : earlier a b = min a b := by
  rw [earlier, min_def]

theorem later_eq_max (a b : Instant) : later a b = max a b := by
  rw [later, max_def]

/-! ### The earliest and the latest -/

theorem foldl_earlier_spec (t : Instant) (ts : List Instant) :
    ts.foldl earlier t ∈ t :: ts ∧ ∀ s ∈ t :: ts, ts.foldl earlier t ≤ s := by
  induction ts generalizing t with
  | nil => simp
  | cons u rest ih =>
    obtain ⟨hmem, hle⟩ := ih (earlier t u)
    rw [List.foldl_cons]
    rw [earlier_eq_min] at hmem hle ⊢
    constructor
    · rcases List.mem_cons.mp hmem with heq | hmem
      · rw [heq]
        rcases min_choice t u with h | h <;> simp [h]
      · simp [hmem]
    · intro s hs
      have hfirst := hle (min t u) List.mem_cons_self
      simp only [List.mem_cons] at hs
      rcases hs with rfl | rfl | hs
      · exact hfirst.trans (min_le_left _ _)
      · exact hfirst.trans (min_le_right _ _)
      · exact hle s (List.mem_cons_of_mem _ hs)

theorem earliest?_eq_none {ts : List Instant} : earliest? ts = none ↔ ts = [] := by
  cases ts <;> simp [earliest?]

/-- The earliest of some instants is one of them, and none is earlier. -/
theorem earliest?_spec {ts : List Instant} {t : Instant} (h : earliest? ts = some t) :
    t ∈ ts ∧ ∀ s ∈ ts, t ≤ s := by
  cases ts with
  | nil => simp [earliest?] at h
  | cons u rest =>
    simp only [earliest?, Option.some.injEq] at h
    subst h
    exact foldl_earlier_spec u rest

/-- The latest instant from a start on is not before the start, nor before any other. -/
theorem latestFrom_spec (start : Instant) (ts : List Instant) :
    start ≤ latestFrom start ts ∧ ∀ t ∈ ts, t ≤ latestFrom start ts := by
  unfold latestFrom
  induction ts generalizing start with
  | nil => simp
  | cons u rest ih =>
    obtain ⟨hstart, hrest⟩ := ih (later start u)
    rw [List.foldl_cons]
    rw [later_eq_max] at hstart hrest ⊢
    constructor
    · exact (le_max_left _ _).trans hstart
    · intro t ht
      rcases List.mem_cons.mp ht with rfl | ht
      · exact (le_max_right _ _).trans hstart
      · exact hrest t ht

end Instant

/-! ### Time stamps -/

/-- Of two instants the later one has no smaller time stamp. -/
theorem Executor.micros_timestamp_mono (x : Executor) {s t : Instant} (h : s ≤ t) :
    (x.timestamp s).micros ≤ (x.timestamp t).micros := by
  have hscaled : s.time * 1000000 ≤ t.time * 1000000 :=
    mul_le_mul_of_nonneg_right (Instant.time_le h) (by norm_num)
  have hrounded := Decimal.roundRat_mono hscaled
  simp only [timestamp, Timestamp.after]
  omega

end Quorum

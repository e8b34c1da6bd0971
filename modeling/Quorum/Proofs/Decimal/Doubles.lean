/-
  Quorum/Proofs/Decimal/Doubles.lean
  ==================================
  **What can be relied on in the arithmetic of doubles.**

  Doubles are not the real numbers: sums round, and there is a value that is no number.  What
  holds all the same is read off their unpacked forms.  A number has a place on the line, and
  doubles compare as their places do (`le_iff_place`), so they compare transitively.  What is
  at least zero keeps its sign when it is added and packed (`nonneg_add`), and only what is no
  number can spoil such a sum (`zero_le_sum_iff`).  A double over itself is one or no number
  (`div_self_cases`).
-/
import Mathlib
import Quorum.Consensus.Verdict

namespace Quorum.Decimal

open Float.Model Float.Model.UnpackedFloat

/-! ### Order -/

theorem le_iff_unpacked {x y : Float} :
    x ≤ y ↔ x.toModel.unpack.le y.toModel.unpack = true := decide_eq_true_iff

theorem lt_iff_unpacked {x y : Float} :
    x < y ↔ x.toModel.unpack.lt y.toModel.unpack = true := decide_eq_true_iff

/-- A place on the line: first the kind of number, then its exponent, then its mantissa. -/
abbrev Place := ℤ ×ₗ ℤ ×ₗ ℤ

/-- Where an unpacked double stands; what is no number stands nowhere. -/
def place? : UnpackedFloat → Option Place
  | .notANumber => none
  | .infinity .negative => some (toLex (-2, toLex (0, 0)))
  | .finite .negative m e _ => some (toLex (-1, toLex (-e, -m)))
  | .zero _ => some (toLex (0, toLex (0, 0)))
  | .finite .positive m e _ => some (toLex (1, toLex (e, m)))
  | .infinity .positive => some (toLex (2, toLex (0, 0)))

theorem isLE_then_iff {e e' : ℤ} {m m' : ℕ} :
    ((compare e e').then (compare m m')).isLE = true ↔ e < e' ∨ e = e' ∧ m ≤ m' := by
  rw [Ordering.isLE_then_iff_or, Int.compare_eq_lt, Int.compare_eq_eq, Nat.isLE_compare]

theorem isGE_then_iff {e e' : ℤ} {m m' : ℕ} :
    ((compare e e').then (compare m m')).isGE = true ↔ e' < e ∨ e = e' ∧ m' ≤ m := by
  rw [← Ordering.isLE_swap, Ordering.swap_then, Int.compare_swap, Nat.compare_swap,
    isLE_then_iff, eq_comm (a := e)]

theorem le_iff_place {a b : UnpackedFloat} :
    a.le b = true ↔ ∃ p ∈ place? a, ∃ q ∈ place? b, p ≤ q := by
  unfold UnpackedFloat.le
  rcases a with (_ | _) | _ | _ | ⟨_ | _, m, e, hm⟩ <;>
  rcases b with (_ | _) | _ | _ | ⟨_ | _, m', e', hm'⟩ <;>
  simp [place?, UnpackedFloat.compare, Prod.Lex.toLex_le_toLex, isLE_then_iff, isGE_then_iff]
  -- what is left compares signs of infinities
  all_goals rfl

theorem le_trans_double {x y z : Float} (hxy : x ≤ y) (hyz : y ≤ z) : x ≤ z := by
  rw [le_iff_unpacked, le_iff_place] at *
  obtain ⟨p, hp, q, hq, hpq⟩ := hxy
  obtain ⟨q', hq', r, hr, hqr⟩ := hyz
  obtain rfl := Option.mem_unique hq hq'
  exact ⟨p, hp, r, hr, hpq.trans hqr⟩

/-! ### Doubles that are at least zero -/

/-- An unpacked double that compares with zero, and not below it. -/
def NonNegative : UnpackedFloat → Prop
  | .zero _ => True
  | .finite .positive .. => True
  | .infinity .positive => True
  | _ => False

theorem zero_le_iff {x : Float} : 0 ≤ x ↔ NonNegative x.toModel.unpack := by
  have hzero : (0 : Float).toModel.unpack = .zero .positive := rfl
  rw [le_iff_unpacked, hzero]
  generalize x.toModel.unpack = u
  rcases u with (_ | _) | _ | _ | ⟨_ | _, m, e, hm⟩ <;>
    simp [UnpackedFloat.le, UnpackedFloat.compare, NonNegative]

theorem isNaN_iff_unpacked {x : Float} : x.isNaN = true ↔ x.toModel.unpack = .notANumber :=
  UnpackedFloat.isNaN_iff

theorem not_isNaN_of_zero_le {x : Float} (hx : 0 ≤ x) : x.isNaN = false := by
  rw [← Bool.not_eq_true, isNaN_iff_unpacked]
  intro hnan
  rw [zero_le_iff, hnan] at hx
  exact hx

theorem zero_le_or_isNaN {x : Float} (hx : ¬ x < 0) : 0 ≤ x ∨ x.isNaN = true := by
  have hzero : (0 : Float).toModel.unpack = .zero .positive := rfl
  rw [lt_iff_unpacked, hzero] at hx
  rw [zero_le_iff, isNaN_iff_unpacked]
  revert hx
  generalize x.toModel.unpack = u
  rcases u with (_ | _) | _ | _ | ⟨_ | _, m, e, hm⟩ <;>
    simp [UnpackedFloat.lt, UnpackedFloat.compare, NonNegative]

theorem NonNegative.infinity_eq {s : Sign} (h : NonNegative (.infinity s)) : s = .positive := by
  cases s with
  | negative => exact h.elim
  | positive => rfl

theorem NonNegative.finite_eq {m : Nat} {e : Int} {hm : 0 < m} {s : Sign}
    (h : NonNegative (.finite s m e hm)) : s = .positive := by
  cases s with
  | negative => exact h.elim
  | positive => rfl

/-! ### Sums -/

theorem nonNegative_round (spec : Format) (m : Nat) (e : Int) (a : Accuracy) :
    NonNegative (roundWithAccuracy spec .positive m e a) := by
  unfold roundWithAccuracy
  dsimp only
  split <;> exact trivial

theorem nonNegative_normalize (spec : Format) {m : Int} (e : Int) (hm : 0 ≤ m) :
    NonNegative (UnpackedFloat.normalize spec m e .positive) := by
  unfold UnpackedFloat.normalize
  split
  · rename_i hless
    rw [Int.compare_eq_lt] at hless
    omega
  · exact trivial
  · exact nonNegative_round ..

theorem nonNegative_add (spec : Format) {u v : UnpackedFloat} (hu : NonNegative u)
    (hv : NonNegative v) : NonNegative (UnpackedFloat.add spec u v) := by
  fun_cases UnpackedFloat.add spec u v with
  | case1 => exact hu
  | case2 => exact hv
  | case3 => exact hu
  | case4 s t hne =>
    -- infinities of two signs
    obtain rfl := hu.infinity_eq
    obtain rfl := hv.infinity_eq
    exact absurd rfl hne
  | case5 => exact hu
  | case6 => exact hv
  | case7 => exact trivial
  | case8 => exact trivial
  | case9 => exact hv
  | case10 => exact hu
  | case11 s m e hm t n e' hn smaller m' _ hm' n' _ hn' mantissa =>
    obtain rfl := hu.finite_eq
    obtain rfl := hv.finite_eq
    apply nonNegative_normalize
    exact Int.add_nonneg (Int.natCast_nonneg _) (Int.natCast_nonneg _)

/-! ### Packing keeps the sign -/

section Packing

variable {spec : Format}

/-- Bits with a positive sign are a double that is at least zero, unless the exponent is the
    largest and the mantissa is not zero. -/
theorem nonNegative_components {e : BitVec spec.exponentBits}
    {m : BitVec spec.mantissaBitsWithoutImplicit} (h : e = -1#_ → m = 0#_) :
    NonNegative (UnpackedFloat.unpack spec (packComponents spec .positive e m)) := by
  unfold UnpackedFloat.unpack
  simp only [unpackMantissa_packComponents, unpackExponent_packComponents,
    unpackSign_packComponents, Sign.ofBitVec_toBitVec]
  split
  · rename_i hlargest
    rw [if_pos (h hlargest)]
    exact trivial
  · split
    · split <;> exact trivial
    · exact trivial

theorem nonNegative_pack {u : UnpackedFloat} (hu : NonNegative u) :
    NonNegative (UnpackedFloat.unpack spec (UnpackedFloat.pack spec u)) := by
  fun_cases UnpackedFloat.pack spec u with
  | case1 => exact hu.elim
  | case2 s =>
    obtain rfl := hu.infinity_eq
    exact nonNegative_components fun _ => rfl
  | case3 s =>
    rw [unpack_packedZero]
    exact trivial
  | case4 s m e hm biased hlarge =>
    -- too large for the format, so packed as infinity
    obtain rfl := hu.finite_eq
    exact nonNegative_components fun _ => rfl
  | case5 s m e hm bits biased hsmall hnormal =>
    obtain rfl := hu.finite_eq
    apply nonNegative_components
    intro hlargest
    rw [BitVec.neg_one_eq_allOnes, ← BitVec.toNat_inj, BitVec.toNat_ofNat, BitVec.toNat_allOnes,
      Nat.mod_eq_of_lt (by omega)] at hlargest
    omega
  | case6 s m e hm bits biased hsmall hnormal =>
    obtain rfl := hu.finite_eq
    apply nonNegative_components
    intro hlargest
    exact absurd (BitVec.zero_eq_neg_one_iff.mp hlargest) spec.he.ne'

end Packing

theorem nonneg_add {x y : Float} (hx : 0 ≤ x) (hy : 0 ≤ y) : 0 ≤ x + y := by
  rw [zero_le_iff] at *
  exact nonNegative_pack (nonNegative_add _ hx hy)

theorem add_notANumber {u v : UnpackedFloat} (h : u = .notANumber ∨ v = .notANumber) :
    UnpackedFloat.add Format.binary64 u v = .notANumber := by
  rcases h with rfl | rfl
  · cases v <;> rfl
  · cases u <;> simp [UnpackedFloat.add]

theorem isNaN_add {x y : Float} (h : x.isNaN = true ∨ y.isNaN = true) : (x + y).isNaN = true := by
  have hadd : (x + y).toModel.unpack = UnpackedFloat.unpack Format.binary64
      (UnpackedFloat.pack Format.binary64
        (UnpackedFloat.add Format.binary64 x.toModel.unpack y.toModel.unpack)) := rfl
  simp only [isNaN_iff_unpacked] at h ⊢
  rw [hadd, add_notANumber h]
  rfl

/-- A sum from the first number to the last is at least zero exactly if all of them are,
    given that none of them is below zero. -/
theorem zero_le_sum_iff {numbers : List Float} {start : Float}
    (hstart : 0 ≤ start ∨ start.isNaN = true) (h : ∀ x ∈ numbers, 0 ≤ x ∨ x.isNaN = true) :
    0 ≤ numbers.foldl (· + ·) start ↔ 0 ≤ start ∧ ∀ x ∈ numbers, 0 ≤ x := by
  induction numbers generalizing start with
  | nil => simp
  | cons x rest ih =>
    rw [List.forall_mem_cons] at h
    obtain ⟨hx, hrest⟩ := h
    have hsum : 0 ≤ start + x ↔ 0 ≤ start ∧ 0 ≤ x := by
      constructor
      · intro hsum
        have hnumber := not_isNaN_of_zero_le hsum
        constructor
        · refine hstart.resolve_right fun hnan => ?_
          rw [isNaN_add (Or.inl hnan)] at hnumber
          cases hnumber
        · refine hx.resolve_right fun hnan => ?_
          rw [isNaN_add (Or.inr hnan)] at hnumber
          cases hnumber
      · rintro ⟨hstart, hx⟩
        exact nonneg_add hstart hx
    have hnext : 0 ≤ start + x ∨ (start + x).isNaN = true := by
      rcases hstart with hstart | hnan
      · rcases hx with hx | hnan
        · exact Or.inl (nonneg_add hstart hx)
        · exact Or.inr (isNaN_add (Or.inr hnan))
      · exact Or.inr (isNaN_add (Or.inl hnan))
    rw [List.foldl_cons, ih hnext hrest, hsum, List.forall_mem_cons, and_assoc]

/-! ### Quotients -/

theorem divCore_self {m : Nat} (hm : 0 < m) (e : Int) :
    divCore Format.binary64 m e m e = (2 ^ 53, -53, .exact) := by
  have htarget : min (0 : ℤ) (Format.binary64.targetExponent 0) = -53 := rfl
  have hshift : ((0 : ℤ) - -53).toNat = 53 := rfl
  have hself : m * 2 ^ 53 / m = 2 ^ 53 := Nat.mul_div_cancel_left _ hm
  simp only [divCore, Int.sub_self, htarget, hshift, Nat.shiftLeft_eq, Nat.mul_mod_right, hself,
    accuracyOfFraction, if_true]

theorem div_self_cases (x : Float) : x / x = 1.0 ∨ x / x = 0.0 / 0.0 := by
  have hdiv : x / x = .ofModel (Float.Model.pack
    (UnpackedFloat.div Format.binary64 x.toModel.unpack x.toModel.unpack)) := rfl
  rw [hdiv]
  generalize x.toModel.unpack = u
  cases u with
  | notANumber => exact Or.inr rfl
  | infinity s => exact Or.inr rfl
  | zero s => exact Or.inr rfl
  | finite s m e hm =>
    left
    have hsign : s / s = .positive := by cases s <;> rfl
    have hquotient : UnpackedFloat.div Format.binary64 (.finite s m e hm) (.finite s m e hm) =
        roundWithAccuracy Format.binary64 .positive (2 ^ 53) (-53) .exact := by
      simp only [UnpackedFloat.div, divCore_self hm, hsign]
    rw [hquotient]
    rfl

end Quorum.Decimal

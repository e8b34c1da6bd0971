/-
  Quorum/Proofs/Value/Same.lean
  =============================
  **When two values are the same.**

  The order of the entries of an object is no part of what the object says, at any depth;
  everything else is.  `Same` relates values that differ in the order of entries only.  It
  is meant for values whose objects have one entry per key (`WellKeyed`), as everything that
  comes from a text or from an agent does.  Doubles count as the same when their texts
  agree: zero and minus zero are two values, and what is no number is one.
-/
import Mathlib
import Quorum.Decimal.Style
import Quorum.Value.Basic

namespace Quorum.Value

/-! ### Induction over values -/

/-- What holds of a list or an object as soon as it holds of its members holds of every
    value that is built from the ones without members. -/
@[elab_as_elim, induction_eliminator]
theorem memberInduction {motive : Value → Prop} (null : motive .null)
    (bool : ∀ b, motive (.bool b)) (int : ∀ i, motive (.int i)) (float : ∀ x, motive (.float x))
    (text : ∀ s, motive (.text s))
    (list : ∀ items, (∀ v ∈ items, motive v) → motive (.list items))
    (object : ∀ entries : List (String × Value),
      (∀ e ∈ entries, motive e.2) → motive (.object entries)) (v : Value) : motive v :=
  @Value.rec motive (fun items => ∀ v ∈ items, motive v)
    (fun entries => ∀ e ∈ entries, motive e.2) (fun e => motive e.2)
    null bool int float text list object
    (fun _ hv => absurd hv List.not_mem_nil)
    (fun _ _ hhead htail _ hv => (List.mem_cons.mp hv).elim (fun h => h ▸ hhead) (htail _))
    (fun _ he => absurd he List.not_mem_nil)
    (fun _ _ hhead htail _ he => (List.mem_cons.mp he).elim (fun h => h ▸ hhead) (htail _))
    (fun _ _ hv => hv) v

/-! ### One entry per key -/

/-- No object has two entries under one key, at any depth. -/
inductive WellKeyed : Value → Prop
  | null : WellKeyed .null
  | bool (b : Bool) : WellKeyed (.bool b)
  | int (i : Int) : WellKeyed (.int i)
  | float (x : Float) : WellKeyed (.float x)
  | text (s : String) : WellKeyed (.text s)
  | list {items : List Value} (hitems : ∀ v ∈ items, WellKeyed v) : WellKeyed (.list items)
  | object {entries : List (String × Value)} (hkeys : (entries.map Prod.fst).Nodup)
      (hvalues : ∀ e ∈ entries, WellKeyed e.2) : WellKeyed (.object entries)

/-- Under one key there is one entry. -/
theorem entry_eq_of_key_eq {α : Type} {entries : List (String × α)}
    (hkeys : (entries.map Prod.fst).Nodup) {e f : String × α} (he : e ∈ entries)
    (hf : f ∈ entries) (hkey : e.1 = f.1) : e = f :=
  List.inj_on_of_nodup_map hkeys he hf hkey

/-! ### Sameness -/

/-- Two values that differ in the order of entries only. -/
inductive Same : Value → Value → Prop
  | null : Same .null .null
  | bool (b : Bool) : Same (.bool b) (.bool b)
  | int (i : Int) : Same (.int i) (.int i)
  | float {x y : Float} (htext : Decimal.Style.json.write x = Decimal.Style.json.write y) :
      Same (.float x) (.float y)
  | text (s : String) : Same (.text s) (.text s)
  | list {vs ws : List Value} (hlength : vs.length = ws.length)
      (hitems : ∀ p ∈ vs.zip ws, Same p.1 p.2) : Same (.list vs) (.list ws)
  | object {es fs : List (String × Value)} (hkeys : (es.map Prod.fst).Perm (fs.map Prod.fst))
      (hvalues : ∀ e ∈ es, ∀ f ∈ fs, e.1 = f.1 → Same e.2 f.2) : Same (.object es) (.object fs)

/-- Sameness keeps the kind of a value. -/
theorem Same.kindName_eq {v w : Value} (hsame : Same v w) : v.kindName = w.kindName := by
  cases hsame <;> rfl

theorem Same.text_eq {v : Value} {s : String} (hsame : Same v (.text s)) : v = .text s := by
  cases hsame
  rfl

theorem Same.of_forall₂ {vs ws : List Value} (hitems : List.Forall₂ Same vs ws) :
    Same (.list vs) (.list ws) := by
  obtain ⟨hlength, hzip⟩ := List.forall₂_iff_zip.mp hitems
  exact .list hlength fun _ hp => hzip hp

theorem Same.refl {v : Value} (hv : v.WellKeyed) : Same v v := by
  induction hv with
  | null => exact .null
  | bool b => exact .bool b
  | int i => exact .int i
  | float x => exact .float rfl
  | text s => exact .text s
  | list _ ih => exact Same.of_forall₂ (List.forall₂_same.mpr ih)
  | object hkeys _ ih =>
    refine .object (List.Perm.refl _) fun e he f hf hkey => ?_
    rw [← entry_eq_of_key_eq hkeys he hf hkey]
    exact ih e he

/-! ### Entries in another order -/

section Reordered

variable {es fs : List (String × Value)}

theorem WellKeyed.of_perm (hobject : (Value.object es).WellKeyed) (hperm : es.Perm fs) :
    (Value.object fs).WellKeyed := by
  cases hobject with
  | object hkeys hvalues =>
    exact .object ((hperm.map Prod.fst).nodup_iff.mp hkeys)
      fun e he => hvalues e (hperm.mem_iff.mpr he)

/-- Putting the entries of an object in another order leaves the object the same. -/
theorem Same.of_perm (hobject : (Value.object es).WellKeyed) (hperm : es.Perm fs) :
    Same (.object es) (.object fs) := by
  cases hobject with
  | object hkeys hvalues =>
    refine .object (hperm.map Prod.fst) fun e he f hf hkey => ?_
    rw [← entry_eq_of_key_eq hkeys he (hperm.mem_iff.mpr hf) hkey]
    exact Same.refl (hvalues e he)

end Reordered

end Quorum.Value

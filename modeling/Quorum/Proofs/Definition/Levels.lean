/-
  Quorum/Proofs/Definition/Levels.lean
  ====================================
  **How the reading of a level fails.**

  A step fails only for reasons of a kind (`FailsOnly`), and what is said so of the steps is
  said of them together.  A level is read from a mapping or is at fault; beyond that only a
  number that cannot be written out stops it (`ofDatum_fails`).  What is found under a key
  is a part of the whole, so a reason found there counts for the whole (`because_outward`).
-/
import Quorum.Definition.Level
import Quorum.Proofs.Check.Passed
import Quorum.Proofs.Value.Entries

namespace Quorum

/-- The error is reported as a fault of the definition. -/
def LoadError.IsFault (e : LoadError) : Prop :=
  ∃ fault, e.fault? = some fault ∧ fault.kind = .configuration

/-! ### Steps that fail for known reasons -/

/-- Whatever error a step ends with has a property. -/
def FailsOnly {α : Type} (P : LoadError → Prop) (step : Except LoadError α) : Prop :=
  ∀ e, step = .error e → P e

namespace FailsOnly

variable {α β ε : Type} {P Q : LoadError → Prop}

theorem ok (a : α) : FailsOnly P (.ok a) := by
  intro e h
  cases h

theorem error {e : LoadError} (h : P e) : FailsOnly P (.error e : Except LoadError α) := by
  intro e' he
  cases he
  exact h

theorem imp {step : Except LoadError α} (h : FailsOnly P step) (hPQ : ∀ e, P e → Q e) :
    FailsOnly Q step :=
  fun e he => hPQ e (h e he)

/-- What follows a step may use that the step has succeeded. -/
theorem bind {step : Except LoadError α} {rest : α → Except LoadError β}
    (hstep : FailsOnly P step) (hrest : ∀ a, step = .ok a → FailsOnly P (rest a)) :
    FailsOnly P (step >>= rest) := by
  intro e he
  cases h : step with
  | error e' =>
    rw [h] at he
    cases he
    exact hstep e h
  | ok a =>
    rw [h] at he
    exact hrest a h e he

theorem mapError {step : Except ε α} {f : ε → LoadError}
    (h : ∀ problem, step = .error problem → P (f problem)) : FailsOnly P (step.mapError f) := by
  intro e he
  cases hstep : step with
  | error problem =>
    rw [hstep] at he
    cases he
    exact h problem hstep
  | ok a =>
    rw [hstep] at he
    cases he

theorem map {step : Except LoadError α} {f : α → β} (h : FailsOnly P step) :
    FailsOnly P (step.map f) := by
  intro e he
  cases hstep : step with
  | error e' =>
    rw [hstep] at he
    cases he
    exact h e hstep
  | ok a =>
    rw [hstep] at he
    cases he

theorem mapM {items : List α} {f : α → Except LoadError β}
    (h : ∀ item ∈ items, FailsOnly P (f item)) : FailsOnly P (items.mapM f) := by
  induction items with
  | nil => exact ok []
  | cons item rest ih =>
    rw [List.mapM_cons]
    apply bind (h item List.mem_cons_self)
    intro b _
    apply bind (ih fun other hother => h other (List.mem_cons_of_mem _ hother))
    intro bs _
    exact ok (b :: bs)

end FailsOnly

/-! ### Data that can be written out -/

namespace Datum

theorem orElse_eq {d other e : Datum} (h : d.orElse other = e) : d = e ∨ other = e := by
  unfold orElse at h
  split at h
  · exact .inl h
  · exact .inr h

theorem isWritable_of_mem_items {items : List Datum} (h : areWritable items = true) {d : Datum}
    (hd : d ∈ items) : d.isWritable = true := by
  induction items with
  | nil => cases hd
  | cons first rest ih =>
    rw [areWritable, Bool.and_eq_true] at h
    rcases List.mem_cons.mp hd with rfl | hd
    · exact h.1
    · exact ih h.2 hd

theorem isWritable_of_mem_entries {entries : List (Datum × Datum)}
    (h : entriesWritable entries = true) {entry : Datum × Datum} (hentry : entry ∈ entries) :
    entry.1.isWritable = true ∧ entry.2.isWritable = true := by
  induction entries with
  | nil => cases hentry
  | cons first rest ih =>
    rw [entriesWritable, Bool.and_eq_true, Bool.and_eq_true] at h
    rcases List.mem_cons.mp hentry with rfl | hentry
    · exact h.1
    · exact ih h.2 hentry

end Datum

namespace Definition

open FailsOnly

/-! ### Reasons for a step to fail -/

/-- The error is a fault, or it is there because a number inside the datum cannot be written
    out. -/
def Plain (d : Datum) (e : LoadError) : Prop :=
  e.IsFault ∨ (d.isWritable = false ∧ e = .conversion .unwritable)

theorem Plain.fault {d : Datum} {message : String} {details : List (String × Value)} :
    Plain d (.fault (Fault.configuration message details)) :=
  .inl ⟨_, rfl, rfl⟩

/-- A datum that can be written out has only parts that can be. -/
theorem Plain.outward {part whole : Datum}
    (h : whole.isWritable = true → part.isWritable = true) {e : LoadError} (he : Plain part e) :
    Plain whole e := by
  rcases he with hfault | ⟨hpart, rfl⟩
  · exact .inl hfault
  · right
    refine ⟨?_, rfl⟩
    by_contra hwhole
    rw [h (Bool.not_eq_false _ ▸ hwhole)] at hpart
    cases hpart

theorem plain_outward {α : Type} {part whole : Datum} {step : Except LoadError α}
    (h : FailsOnly (Plain part) step) (hpart : whole.isWritable = true → part.isWritable = true) :
    FailsOnly (Plain whole) step :=
  h.imp fun _ he => he.outward hpart

/-- The error is plain, or the datum does not fit in a way that leads to it. -/
def Because (d : Datum) (misfit : LoadError → Prop) (e : LoadError) : Prop :=
  Plain d e ∨ misfit e

theorem plain_because {α : Type} {d : Datum} {misfit : LoadError → Prop}
    {step : Except LoadError α} (h : FailsOnly (Plain d) step) :
    FailsOnly (Because d misfit) step :=
  h.imp fun _ he => .inl he

/-- What stops a step at a part of a datum stops it at the whole. -/
theorem because_outward {α : Type} {part whole : Datum} {inner outer : LoadError → Prop}
    {step : Except LoadError α} (h : FailsOnly (Because part inner) step)
    (hpart : whole.isWritable = true → part.isWritable = true)
    (hmisfit : ∀ e, inner e → outer e) : FailsOnly (Because whole outer) step := by
  intro e he
  rcases h e he with hplain | hinner
  · exact .inl (hplain.outward hpart)
  · exact .inr (hmisfit e hinner)

theorem written_fails (d : Datum) : FailsOnly (Plain d) (d.written.mapError .conversion) := by
  apply FailsOnly.mapError
  intro problem h
  unfold Datum.written at h
  split at h
  · cases h
  · rename_i hunwritable
    cases h
    exact .inr ⟨Bool.not_eq_true _ ▸ hunwritable, rfl⟩

/-! ### Levels -/

theorem ofDatum_fails (d : Datum) : FailsOnly (Plain d) (Level.ofDatum d) := by
  unfold Level.ofDatum
  split
  · exact ok []
  · split
    · rename_i entries _
      apply FailsOnly.map
      apply FailsOnly.mapM
      intro entry hentry
      apply FailsOnly.bind
      · apply plain_outward (written_fails entry.1)
        intro hwritable
        exact (Datum.isWritable_of_mem_entries hwritable hentry).1
      · intro key _
        exact ok _
    · exact error Plain.fault

theorem mem_of_mapM_spelled {entries : List (Datum × Datum)} {level : Level}
    (h : entries.mapM Level.spelled = .ok level) {entry : String × Datum} (hentry : entry ∈ level) :
    ∃ key, (key, entry.2) ∈ entries := by
  induction entries generalizing level with
  | nil =>
    cases h
    cases hentry
  | cons first rest ih =>
    rw [List.mapM_cons] at h
    obtain ⟨spelled, hfirst, h⟩ := bind_eq_ok.mp h
    obtain ⟨others, hothers, h⟩ := bind_eq_ok.mp h
    cases h
    rcases List.mem_cons.mp hentry with rfl | hentry
    · obtain ⟨key, -, hspelled⟩ := bind_eq_ok.mp hfirst
      have hvalue : entry.2 = first.2 := by
        rw [← Except.ok.inj hspelled]
      rw [hvalue]
      exact ⟨first.1, List.mem_cons_self⟩
    · obtain ⟨key, hkey⟩ := ih hothers hentry
      exact ⟨key, List.mem_cons_of_mem _ hkey⟩

/-- What is found under a key of a level stands in the datum, or it is null. -/
theorem get_of_ofDatum {d : Datum} {level : Level} (h : Level.ofDatum d = .ok level)
    (key : String) : level.get key = .null ∨
      ∃ entries k, d = .mapping entries ∧ (k, level.get key) ∈ entries := by
  unfold Level.ofDatum at h
  split at h
  · cases h
    exact .inl rfl
  · split at h
    · rename_i entries _
      cases hspelled : entries.mapM Level.spelled with
      | error e =>
        rw [hspelled] at h
        cases h
      | ok spelled =>
        rw [hspelled] at h
        cases h
        unfold Level.get
        cases hlookup : List.lookup key (Entries.ofList spelled) with
        | none => exact .inl rfl
        | some value =>
          right
          have hmem := Entries.mem_ofList (Entries.mem_of_lookup hlookup)
          obtain ⟨k, hk⟩ := mem_of_mapM_spelled hspelled hmem
          exact ⟨entries, k, rfl, hk⟩
    · cases h

/-- What is found under a key can be written out if the whole can. -/
theorem get_isWritable {d : Datum} {level : Level} (h : Level.ofDatum d = .ok level)
    (key : String) (hd : d.isWritable = true) : (level.get key).isWritable = true := by
  rcases get_of_ofDatum h key with hnull | ⟨entries, k, rfl, hmem⟩
  · rw [hnull]
    rfl
  · exact (Datum.isWritable_of_mem_entries hd hmem).2

/-- A datum stands under a path of keys in another one. -/
inductive At : Datum → List String → Datum → Prop where
  | here {d : Datum} : At d [] d
  | under {d e : Datum} {level : Level} {key : String} {path : List String}
      (hlevel : Level.ofDatum d = .ok level) (hrest : At (level.get key) path e) :
      At d (key :: path) e

end Definition

end Quorum

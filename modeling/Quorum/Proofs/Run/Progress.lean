/-
  Quorum/Proofs/Run/Progress.lean
  ===============================
  **What a run has left behind stays.**

  A run leaves reports, notices and calls.  What it does between two calls takes none of
  them back: log entries and announcements only add notices, and time goes on
  (`Journey.Continues`).
-/
import Quorum.Proofs.Run.Instants
import Quorum.Run.FleetRun

namespace Quorum

/-! ### Going on -/

namespace Journey

/-- A run has got further: what it has recorded and told stays. -/
structure Grows (j j' : Journey) : Prop where
  tiers : j.tiers <+: j'.tiers
  notices : j.notices <+: j'.notices

/-- A run has got further without calling anybody. -/
structure Keeps (j j' : Journey) : Prop extends Grows j j' where
  calls : j'.calls = j.calls
  invocations : j'.invocations = j.invocations

/-- A run has got further without calling anybody, and time has not gone back. -/
structure Continues (j j' : Journey) : Prop extends Keeps j j' where
  clock : j.clock ≤ j'.clock

theorem Continues.refl (j : Journey) : j.Continues j :=
  ⟨⟨⟨List.prefix_rfl, List.prefix_rfl⟩, rfl, rfl⟩, le_rfl⟩

variable {j j' k : Journey}

theorem Grows.trans (h : j.Grows j') (h' : j'.Grows k) : j.Grows k :=
  ⟨h.tiers.trans h'.tiers, h.notices.trans h'.notices⟩

theorem Keeps.trans (h : j.Keeps j') (h' : j'.Keeps k) : j.Keeps k :=
  ⟨h.toGrows.trans h'.toGrows, h'.calls.trans h.calls, h'.invocations.trans h.invocations⟩

theorem Continues.trans (h : j.Continues j') (h' : j'.Continues k) : j.Continues k :=
  ⟨h.toKeeps.trans h'.toKeeps, h.clock.trans h'.clock⟩

theorem note_continues (j : Journey) (entry : LogEntry) : j.Continues (j.note entry) :=
  ⟨⟨⟨List.prefix_rfl, List.prefix_append _ _⟩, rfl, rfl⟩, le_rfl⟩

theorem tell_continues (j : Journey) (type : EventType) (message : String)
    (tier : Option Int) (agent : Option String) (data : List (String × Value)) :
    j.Continues (j.tell type message tier agent data) :=
  ⟨⟨⟨List.prefix_rfl, List.prefix_append _ _⟩, rfl, rfl⟩, le_rfl⟩

theorem foldl_continues {α : Type} {f : Journey → α → Journey}
    (hf : ∀ j a, Continues j (f j a)) (items : List α) (j : Journey) :
    j.Continues (items.foldl f j) := by
  induction items generalizing j with
  | nil => exact Continues.refl j
  | cons a rest ih => exact (hf j a).trans (ih (f j a))

/-- The observers have been told by an instant that a tier is done. -/
def Told (j : Journey) (tier : Int) (t : Instant) : Prop :=
  ∃ e, Notice.event e ∈ j.notices ∧ e.type = .tierCompleted ∧ e.tier = some tier ∧ e.time ≤ t

theorem Told.mono {tier : Int} {t t' : Instant} (h : j.Told tier t) (hj : j.Grows j')
    (ht : t ≤ t') : j'.Told tier t' := by
  obtain ⟨e, he, htype, htier, htime⟩ := h
  exact ⟨e, hj.notices.subset he, htype, htier, htime.trans ht⟩

end Journey

/-! ### Announcements -/

namespace Mission

variable (m : Mission)

theorem announceTier_continues (p : TierPlan) (j : Journey) : j.Continues (announceTier p j) :=
  j.tell_continues _ _ _ _ _

theorem announceFailures_continues (e : Execution) (j : Journey) :
    j.Continues (announceFailures e j) :=
  Journey.foldl_continues (fun j _ => j.tell_continues _ _ _ _ _) _ j

theorem noteExhaustion_continues (p : TierPlan) (status : TierStatus) (j : Journey) :
    j.Continues (noteExhaustion p status j) := by
  unfold noteExhaustion
  split
  · exact j.note_continues _
  · exact Journey.Continues.refl j

theorem announceVerdict_continues (report : TierReport) (j : Journey) :
    j.Continues (announceVerdict report j) := by
  unfold announceVerdict
  simp only
  split
  · exact (j.tell_continues _ _ _ _ _).trans (Journey.tell_continues _ _ _ _ _ _)
  · exact j.tell_continues _ _ _ _ _

theorem announceVerdict_told (report : TierReport) (j : Journey) :
    (announceVerdict report j).Told report.tier j.clock := by
  unfold announceVerdict
  simp only
  split
  · exact ⟨_, List.mem_append_right _ (List.mem_singleton_self _), rfl, rfl, le_rfl⟩
  · exact ⟨_, List.mem_append_right _ (List.mem_singleton_self _), rfl, rfl, le_rfl⟩

theorem announceDone_continues (j : Journey) : j.Continues (m.announceDone j) :=
  (j.note_continues _).trans (Journey.tell_continues _ _ _ _ _ _)

theorem announceFailure_continues (f : Fault) (j : Journey) :
    j.Continues (m.announceFailure f j) :=
  (j.note_continues _).trans (Journey.tell_continues _ _ _ _ _ _)

end Mission

end Quorum

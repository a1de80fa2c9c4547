import TurretMaster.FireCount
import TurretMaster.DestructionNotice

/-!
# What the history says

A turret tracks a target if it has admitted it and not lost it since.  It hears
of the target's death only if nobody has lost the target since: whoever drops a
target clears its delegate for all.

* `tracks_admission_iff`, `bound_admission_iff` — one event;
* `tracks_and_bound_since` — a whole run.
-/

namespace TurretMaster

open Runs

section History

variable {ι α K : Type} [DecidableEq ι] [DecidableEq α]
variable [Field K] [LinearOrder K] [FloorRing K] [Engine K]
variable {L : Level ι α K} {w w' w₀ : World ι α K}

/-- Turret `a` loses target `t`. -/
def LostBy (L : Level ι α K) (a : ι) (t : α)
    (x : Transition (World ι α K) (Event ι α K)) : Prop :=
  Removes L x.source a t x.event

/-- Some turret loses target `t`. -/
def LostBySome (L : Level ι α K) (t : α)
    (x : Transition (World ι α K) (Event ι α K)) : Prop :=
  ∃ b, LostBy L b t x

/-- Tracking begins with an admission and ends with a loss. -/
theorem tracks_admission_iff {e : Event ι α K} (hwf : WellFormed L w) (hstep : Step L w e w')
    (a : ι) (t : α) :
    Tracks w' a t ↔
      admissions a t ⟨w, e, w'⟩ = true ∨ (Tracks w a t ∧ ¬ LostBy L a t ⟨w, e, w'⟩) := by
  rw [tracks_step_iff hwf hstep, admissions_iff hwf hstep]
  have hnever : Enters L a t e → ¬ Removes L w a t e :=
    fun henters hremoves => not_enters_of_removes hremoves henters
  unfold LostBy
  tauto

/-- A binding begins with an admission too, and ends with anybody's loss. -/
theorem bound_admission_iff {e : Event ι α K} (hwf : WellFormed L w) (hstep : Step L w e w')
    (a : ι) (t : α) :
    a ∈ w'.onTargetDestroyed t ↔
      admissions a t ⟨w, e, w'⟩ = true ∨
        (a ∈ w.onTargetDestroyed t ∧ ¬ LostBySome L t ⟨w, e, w'⟩) := by
  rw [bound_step_iff hwf hstep, admissions_iff hwf hstep]
  have hnever : Enters L a t e → ∀ b, ¬ Removes L w b t e :=
    fun henters b hremoves => not_enters_of_removes hremoves henters
  unfold LostBySome LostBy
  rw [not_exists]
  tauto

variable {trace : List (Transition (World ι α K) (Event ι α K))}

/-- **What a turret tracks, and what it hears of.** In every run a turret tracks
a target exactly if it has admitted it and not lost it since, and is bound to
its destruction exactly if it has admitted it and no turret has lost it since. -/
theorem tracks_and_bound_since (hinit : Initial w₀) (hrun : Run (Step L) w₀ trace w) (a : ι)
    (t : α) :
    (Tracks w a t ↔ Since (LostBy L a t) (fun x => admissions a t x = true) trace) ∧
    (a ∈ w.onTargetDestroyed t ↔
      Since (LostBySome L t) (fun x => admissions a t x = true) trace) := by
  have hwf : WellFormed L w₀ := wellFormed_initial hinit
  constructor
  · refine hrun.since_iff (I := WellFormed L) (P := fun s => Tracks s a t)
      (fun s e s' hs hstep => wellFormed_step hs hstep)
      (fun s e s' hs hstep => tracks_admission_iff hs hstep a t) hwf ?_
    simp [Tracks, hinit.activeTargets a]
  · refine hrun.since_iff (I := WellFormed L) (P := fun s => a ∈ s.onTargetDestroyed t)
      (fun s e s' hs hstep => wellFormed_step hs hstep)
      (fun s e s' hs hstep => bound_admission_iff hs hstep a t) hwf ?_
    simp [hinit.onTargetDestroyed t]

end History

section Alley

attribute [local instance] atan2Engine

/-- Turret 0 loses actor 1, which turret 1 has admitted: turret 1 still tracks
it, and hears of it no longer. -/
theorem tracks_and_bound_since_alley : ∃ trace w, Run (Step alley) alleyStart trace w ∧
    Since (LostBy alley 1 1) (fun x => admissions 1 1 x = true) trace ∧
    ¬ Since (LostBySome alley 1) (fun x => admissions 1 1 x = true) trace := by
  obtain ⟨trace, hpair, -⟩ := alleyPair_run
  have hrun := hpair.snoc (alley_leave (w := alleyPair) (a := 0) (t := 1) (k := 0))
  obtain ⟨htracks, hbound⟩ := tracks_and_bound_since alleyStart_initial hrun 1 1
  refine ⟨_, _, hrun, htracks.mp ?_, fun hsince => ?_⟩
  · rw [tracks_removeTarget, alleyPair_tracks]
    simp
  · have hmem := hbound.mpr hsince
    simp at hmem

end Alley

end TurretMaster

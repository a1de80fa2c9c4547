import TurretMaster.Tracking
import TurretMaster.ShootingAlley

/-!
# Components and actors

Overlap events arrive for each component of an actor, the list of a turret
holds actors.  The runs here carry, beside the world, the components of one
actor that overlap one turret's area, as the engine knows them.

* `OverlapStep` — a step between an actor's coming near and its being shot,
  rejected or dead;
* `agrees_step_iff` — which event keeps the list in agreement with the
  overlapping components;
* `tracked_iff_overlapping` — the same for a whole run.
-/

namespace TurretMaster

open Runs

section Overlap

variable {ι α K : Type} [DecidableEq ι] [DecidableEq α]
variable [Field K] [LinearOrder K] [FloorRing K] [Engine K]
variable {L : Level ι α K} {w w₀ : World ι α K} {a : ι} {t : α}
variable {s s' : World ι α K × Finset ℕ}

/-- The components of `t` that overlap the area of `a` after the event. -/
def overlapAfter (a : ι) (t : α) (overlapping : Finset ℕ) : Event ι α K → Finset ℕ
  | .beginOverlap _ b otherActor otherComp =>
      if b = a ∧ otherActor = some t then insert otherComp overlapping else overlapping
  | .endOverlap _ b otherActor otherComp =>
      if b = a ∧ otherActor = some t then overlapping.erase otherComp else overlapping
  | _ => overlapping

/-- A component begins to overlap while it does not overlap and ends while it
does, the actor is eligible whenever it is shown, and `a` neither rejects nor
shoots it and it does not die. -/
def Undisturbed (L : Level ι α K) (a : ι) (t : α) (s : World ι α K × Finset ℕ) :
    Event ι α K → Prop
  | .beginOverlap c b otherActor otherComp =>
      b = a → otherActor = some t →
        otherComp ∉ s.2 ∧ c.isTargetable t = true ∧
          (L.targetableTags a).hasAnyExact (c.targetTags t) = true
  | .endOverlap _ b otherActor otherComp =>
      b = a → otherActor = some t → otherComp ∈ s.2
  | .death _ r => r ≠ t
  | .tick c b =>
      ¬ (b = a ∧ (s.1.turret a).currentTarget.key = none ∧
        t ∈ rejectedTargets L c a (s.1.turret a))
  | .spawned _ => ¬ (s.1.spawning = some a ∧ (s.1.turret a).currentTarget.key = some t)

/-- A step of the system together with the overlapping components. -/
def OverlapStep (L : Level ι α K) (a : ι) (t : α) (s : World ι α K × Finset ℕ)
    (e : Event ι α K) (s' : World ι α K × Finset ℕ) : Prop :=
  Step L s.1 e s'.1 ∧ Undisturbed L a t s e ∧ s'.2 = overlapAfter a t s.2 e

/-- The actor is in the list exactly if one of its components overlaps. -/
def Agrees (a : ι) (t : α) (s : World ι α K × Finset ℕ) : Prop :=
  some t ∈ (s.1.turret a).activeTargets ↔ s.2.Nonempty

/-- A component of `t` leaves the area of `a` only as the last one. -/
def LeavesAsLast (a : ι) (t : α) (s : World ι α K × Finset ℕ) : Event ι α K → Prop
  | .endOverlap _ b otherActor otherComp =>
      b = a → otherActor = some t → s.2.erase otherComp = ∅
  | _ => True

/-- An event that concerns neither the list entry nor the components. -/
theorem agrees_of_untouched {e : Event ι α K} (hwf : WellFormed L s.1)
    (h : Agrees a t s) (hstep : OverlapStep L a t s e s') (henters : ¬ Enters L a t e)
    (hremoves : ¬ Removes L s.1 a t e) (hsame : overlapAfter a t s.2 e = s.2) :
    Agrees a t s' := by
  have htracks := tracks_step_iff hwf hstep.1 a t
  simp only [henters, hremoves, false_or, not_false_eq_true, and_true] at htracks
  unfold Agrees
  rw [hstep.2.2, hsame]
  exact htracks.trans h

/-- **One event** keeps the agreement exactly if it is not the end overlap of a
component that leaves others behind. -/
theorem agrees_step_iff {e : Event ι α K} (himplements : L.implements t = true)
    (hwf : WellFormed L s.1) (h : Agrees a t s) (hstep : OverlapStep L a t s e s') :
    Agrees a t s' ↔ LeavesAsLast a t s e := by
  have htracks := tracks_step_iff hwf hstep.1 a t
  have hvalid := hstep.2.1
  have hoverlap := hstep.2.2
  cases e with
  | beginOverlap c b otherActor k =>
      by_cases hshown : b = a ∧ otherActor = some t
      · have heligible := hvalid hshown.1 hshown.2
        have henters : Enters L a t (.beginOverlap c b otherActor k) :=
          ⟨hshown.1, hshown.2, himplements, heligible.2⟩
        rw [overlapAfter, if_pos hshown] at hoverlap
        have hnonempty : s'.2.Nonempty := ⟨k, by rw [hoverlap]; simp⟩
        exact iff_of_true (iff_of_true (htracks.mpr (Or.inl henters)) hnonempty) trivial
      · refine iff_of_true (agrees_of_untouched hwf h hstep ?_ id (if_neg hshown)) trivial
        intro henters
        exact hshown ⟨henters.1, henters.2.1⟩
  | endOverlap c b otherActor k =>
      by_cases hshown : b = a ∧ otherActor = some t
      · have hgone : ¬ Tracks s'.1 a t := by
          intro hafter
          rcases htracks.mp hafter with henters | hkept
          · exact henters
          · exact hkept.2 ⟨hshown.1, hshown.2, himplements⟩
        rw [overlapAfter, if_pos hshown] at hoverlap
        constructor
        · intro hagrees _ _
          rw [← hoverlap, ← Finset.not_nonempty_iff_eq_empty]
          exact fun hnonempty => hgone (hagrees.mpr hnonempty)
        · intro hlast
          have hempty : s'.2 = ∅ := hoverlap.trans (hlast hshown.1 hshown.2)
          refine iff_of_false hgone ?_
          rw [hempty]
          exact Finset.not_nonempty_empty
      · refine iff_of_true (agrees_of_untouched hwf h hstep id ?_ (if_neg hshown)) ?_
        · intro hremoves
          exact hshown ⟨hremoves.1, hremoves.2.1⟩
        · intro hb hother
          exact absurd ⟨hb, hother⟩ hshown
  | death c r =>
      have hkept : ¬ Removes L s.1 a t (.death c r) := fun hremoves => hvalid hremoves.1
      exact iff_of_true (agrees_of_untouched hwf h hstep id hkept rfl) trivial
  | tick c b => exact iff_of_true (agrees_of_untouched hwf h hstep id hvalid rfl) trivial
  | spawned c => exact iff_of_true (agrees_of_untouched hwf h hstep id hvalid rfl) trivial

/-- **When the list agrees with the overlapping components.** Take a reachable
state in which an actor is away from a turret, and a run in which the actor
stays eligible, is not shot or rejected by the turret and does not die.  The
actor is in the list exactly while one of its components overlaps, after each
event of the run, if and only if each component that leaves is the last one. -/
theorem tracked_iff_overlapping {before : List (Transition (World ι α K) (Event ι α K))}
    {trace : List (Transition (World ι α K × Finset ℕ) (Event ι α K))}
    (himplements : L.implements t = true) (hinit : Initial w₀)
    (hreach : Run (Step L) w₀ before w) (haway : some t ∉ (w.turret a).activeTargets)
    (hrun : Run (OverlapStep L a t) (w, ∅) trace s) :
    Always (Agrees a t) trace ↔ Along (LeavesAsLast a t) trace := by
  refine hrun.always_iff_along (I := fun s => WellFormed L s.1) ?_ ?_
    (wellFormed_run hinit hreach) ?_
  · intro s e s' hwf hstep
    exact wellFormed_step hwf hstep.1
  · intro s e s' hwf h hstep
    exact agrees_step_iff himplements hwf h hstep
  · exact iff_of_false haway Finset.not_nonempty_empty

end Overlap

section Alley

attribute [local instance] atan2Engine

/-- The mesh of actor 1 comes into the area of turret 0. -/
theorem alley_mesh_enters : OverlapStep alley 0 1 (alleyStart, ∅)
    (.beginOverlap alleyScene 0 (some 1) 0)
    (admitTarget alleyScene alleyStart 0 1, {0}) := by
  refine ⟨alleyStart_enter, ?_, ?_⟩
  · exact fun _ _ => ⟨by simp, rfl, alley_tags 1⟩
  · simp [overlapAfter]

/-- Its collider follows; the actor is in the list already. -/
theorem alley_collider_enters : OverlapStep alley 0 1
    (admitTarget alleyScene alleyStart 0 1, {0})
    (.beginOverlap alleyScene 0 (some 1) 1)
    (updateTickState alleyScene (admitTarget alleyScene alleyStart 0 1) 0, {0, 1}) := by
  have hmem : some 1 ∈
      ((admitTarget alleyScene alleyStart 0 1).turret 0).activeTargets := by
    simp [admitTarget_sameTargeting.activeTargets]
  have himplements : alley.implements 1 = true := rfl
  refine ⟨⟨trivial, ?_⟩, ?_, ?_⟩
  · simp [handle, onBeginOverlap, himplements, hmem]
  · exact fun _ _ => ⟨by simp, rfl, alley_tags 1⟩
  · simp [overlapAfter, Finset.pair_comm]

/-- The mesh alone leaves again. -/
theorem alley_mesh_leaves : OverlapStep alley 0 1
    (admitTarget alleyScene alleyStart 0 1, {0}) (.endOverlap alleyScene 0 (some 1) 0)
    (removeTarget alleyScene (admitTarget alleyScene alleyStart 0 1) 0 1, ∅) := by
  refine ⟨alley_leave, fun _ _ => by simp, ?_⟩
  simp [overlapAfter]

/-- The mesh leaves and the collider stays. -/
theorem alley_mesh_leaves_first (w : World ℕ ℕ ℝ) : OverlapStep alley 0 1 (w, {0, 1})
    (.endOverlap alleyScene 0 (some 1) 0) (removeTarget alleyScene w 0 1, {1}) := by
  refine ⟨alley_leave, fun _ _ => by simp, ?_⟩
  simp only [overlapAfter, and_self, if_true]
  decide

/-- Where the only component leaves, list and components agree; where one of
two leaves, they do not. -/
theorem tracked_iff_overlapping_alley :
    (∃ trace s, Run (OverlapStep alley 0 1) (alleyStart, ∅) trace s ∧ s.2 = ∅ ∧
      Always (Agrees 0 1) trace) ∧
    ∃ trace s, Run (OverlapStep alley 0 1) (alleyStart, ∅) trace s ∧ s.2 = {1} ∧
      ¬ Always (Agrees 0 1) trace := by
  have haway : some 1 ∉ (alleyStart.turret 0).activeTargets := by
    simp [alleyStart_initial.activeTargets 0]
  constructor
  · have hrun := (Run.single alley_mesh_enters).snoc alley_mesh_leaves
    refine ⟨_, _, hrun, rfl, (tracked_iff_overlapping rfl alleyStart_initial (Run.nil _) haway
      hrun).mpr ?_⟩
    simp [Along, LeavesAsLast]
  · have hrun := ((Run.single alley_mesh_enters).snoc alley_collider_enters).snoc
      (alley_mesh_leaves_first _)
    refine ⟨_, _, hrun, rfl, (tracked_iff_overlapping rfl alleyStart_initial (Run.nil _) haway
      hrun).not.mpr fun halong => ?_⟩
    have hlast : ({0, 1} : Finset ℕ).erase 0 = ∅ := (along_concat.mp halong).2 rfl rfl
    revert hlast
    decide

/-- The mesh leaves: the collider still overlaps and the actor is gone. -/
theorem mesh_leaves_collider :
    ∃ trace s, Run (OverlapStep alley 0 1) (alleyStart, ∅) trace s ∧
      s.2 = {1} ∧ some 1 ∉ (s.1.turret 0).activeTargets := by
  have hrun := (Run.single alley_mesh_enters).snoc alley_collider_enters
  exact ⟨_, _, hrun.snoc (alley_mesh_leaves_first _), rfl, by simp⟩

end Alley

end TurretMaster

import TurretMaster.Tracking
import TurretMaster.SelectionAim

/-!
# The target lock

Once a tick has selected a target, the turret stays locked on it with the aim
it computed then.  Only three events end a lock: the target leaves the
turret's area, the turret is told of its death, or the turret fires.
-/

namespace TurretMaster

open Runs

section Lock

variable {ι α K : Type} [Field K] [LinearOrder K] [Engine K]
variable {L : Level ι α K} {c : Scene ι α K} {w w' w₀ : World ι α K}

/-- The events that end the lock of `a` on `t`: an end overlap of `t` with the
area of `a`, a death of `t` of which `a` is told, a tick in which `a` fires. -/
def LockEnds (L : Level ι α K) (a : ι) (t : α)
    (x : Transition (World ι α K) (Event ι α K)) : Prop :=
  match x.event with
  | .beginOverlap _ _ _ _ => False
  | .endOverlap _ b otherActor _ => b = a ∧ otherActor = some t
  | .death _ s =>
      s = t ∧ (L.broadcastOrder (x.source.onTargetDestroyed t)).head? = some a
  | .tick _ b => b = a ∧ x.target.spawning = some a
  | .spawned _ => False

/-- Nothing else removes a locked target while no shot of its turret is under
way. -/
theorem not_removes_of_open {e : Event ι α K} {a : ι} {t : α}
    (hkey : (w.turret a).currentTarget.key = some t) (hquiet : w.spawning ≠ some a)
    (hopen : ¬ LockEnds L a t ⟨w, e, w'⟩) : ¬ Removes L w a t e := by
  intro hremoves
  cases e with
  | beginOverlap c b otherActor k => exact hremoves
  | endOverlap c b otherActor k => exact hopen ⟨hremoves.1, hremoves.2.1⟩
  | death c s => exact hopen hremoves
  | tick c b =>
      rw [hremoves.2.1] at hkey
      cases hkey
  | spawned c => exact hquiet hremoves.1

variable [DecidableEq ι] [DecidableEq α] [FloorRing K]

/-- Without such an event no shot of the turret gets under way. -/
theorem quiet_step {e : Event ι α K} {a : ι} {t : α} (hwf : WellFormed L w)
    (hquiet : w.spawning ≠ some a) (hopen : ¬ LockEnds L a t ⟨w, e, w'⟩)
    (hstep : Step L w e w') : w'.spawning ≠ some a := by
  intro hshot
  cases e with
  | beginOverlap c b otherActor k =>
      rw [spawning_kept hstep (by simp) (by simp)] at hshot
      exact hquiet hshot
  | endOverlap c b otherActor k =>
      rw [spawning_kept hstep (by simp) (by simp)] at hshot
      exact hquiet hshot
  | death c s =>
      rw [spawning_kept hstep (by simp) (by simp)] at hshot
      exact hquiet hshot
  | tick c b =>
      obtain ⟨rfl, -⟩ := tick_shoots hwf hstep hshot
      exact hopen ⟨rfl, hshot⟩
  | spawned c =>
      rw [spawned_quiet hstep] at hshot
      cases hshot

/-- **A target lock is stable.** From a reachable state in which turret `a` is
locked on `t` and no shot of it is under way, any run without an event that
ends the lock leaves the current target, its tag and the aim of `a` unchanged
in every state. -/
theorem target_lock_stable {before trace : List (Transition (World ι α K) (Event ι α K))}
    {a : ι} {t : α} (hinit : Initial w₀) (hreach : Run (Step L) w₀ before w)
    (hkey : (w.turret a).currentTarget.key = some t) (hquiet : w.spawning ≠ some a)
    (hrun : Run (Step L) w trace w') (hopen : ∀ x ∈ trace, ¬ LockEnds L a t x) :
    ∀ x ∈ trace,
      (x.target.turret a).currentTarget = (w.turret a).currentTarget ∧
      (x.target.turret a).targetInterceptionRotation =
        (w.turret a).targetInterceptionRotation := by
  have hkept (x : Transition (World ι α K) (Event ι α K))
      (h : WellFormed L x.source ∧ x.source.spawning ≠ some a ∧
        SameLock (w.turret a) (x.source.turret a))
      (hx : ¬ LockEnds L a t x) (hstep : Step L x.source x.event x.target) :
      WellFormed L x.target ∧ x.target.spawning ≠ some a ∧
        SameLock (w.turret a) (x.target.turret a) := by
    obtain ⟨hwf, hstill, hsame⟩ := h
    have hlocked : (x.source.turret a).currentTarget.key = some t := by
      rw [hsame.currentTarget]
      exact hkey
    have hlock := lock_kept hwf hstep hlocked (not_removes_of_open hlocked hstill hx)
    exact ⟨wellFormed_step hwf hstep, quiet_step hwf hstill hx hstep, hsame.trans hlock⟩
  have hstart : WellFormed L w ∧ w.spawning ≠ some a ∧
      SameLock (w.turret a) (w.turret a) :=
    ⟨wellFormed_run hinit hreach, hquiet, rfl, rfl⟩
  have halways := (Run.always (I := fun s => WellFormed L s ∧ s.spawning ≠ some a ∧
    SameLock (w.turret a) (s.turret a)) hkept hrun hstart hopen).1
  intro x hx
  obtain ⟨-, -, hlock⟩ := halways x hx
  exact ⟨hlock.currentTarget, hlock.targetInterceptionRotation⟩

end Lock

section Alley

attribute [local instance] atan2Engine

/-- Turret 0 tracks actor 1 only. -/
noncomputable def alleyOne : World ℕ ℕ ℝ := admitTarget alleyScene alleyStart 0 1

/-- The state is reached. -/
theorem alleyOne_run : ∃ trace, Run (Step alley) alleyStart trace alleyOne :=
  ⟨_, Run.single (alleyStart_enter (k := 0))⟩

/-- Turret 0 tracks actor 1, is free and looks ahead. -/
theorem alleyOne_turret : (alleyOne.turret 0).activeTargets = [some 1] ∧
    (alleyOne.turret 0).currentTarget.key = none ∧
    (alleyOne.turret 0).rotationPoint = 0 := by
  refine ⟨?_, ?_, ?_⟩
  · simp [alleyOne, admitTarget_sameTargeting.activeTargets,
      alleyStart_initial.activeTargets 0]
  · simp [alleyOne, admitTarget_sameTargeting.currentTarget,
      alleyStart_initial.currentTarget 0]
  · simp [alleyOne, admitTarget, updateTickState, ATurret.updateTickState_eq, alleyStart,
      freshTurret]

/-- The first tick locks turret 0 on actor 1, which it is not aligned with. -/
theorem alleyOne_tick : ∃ w, Step alley alleyOne (.tick alleyScene 0) w ∧
    (w.turret 0).currentTarget.key = some 1 ∧ w.spawning = none := by
  obtain ⟨hactive, hnone, hrotation⟩ := alleyOne_turret
  obtain ⟨trace, hrun⟩ := alleyOne_run
  have hwf := wellFormed_run alleyStart_initial hrun
  obtain ⟨w₁, hw₁, hselect, hkey, haim⟩ := alley_selects (hwf 0) hactive (alley_acceptable_one _)
  have hspawning : w₁.spawning = none := hselect.spawning
  have hfar : ¬ (w₁.turret 0).rotationPoint.equals
      (w₁.turret 0).targetInterceptionRotation 0.5 = true := by
    have hyaw : (w₁.turret 0).targetInterceptionRotation.yaw = 90 := by
      rw [haim]
      exact alley_aimFor_one_yaw _
    have hdelta : |FRotator.normalizeAxis ((0 : ℝ) - 90)| = 90 := by
      rw [FRotator.abs_normalizeAxis] <;> norm_num [abs_of_neg]
    rw [hselect.rotationPoint, hrotation]
    intro hequals
    simp only [FRotator.equals, hyaw, Bool.and_eq_true, decide_eq_true_eq] at hequals
    have hclose : |FRotator.normalizeAxis ((0 : ℝ) - 90)| ≤ 0.5 := hequals.1.2
    rw [hdelta] at hclose
    norm_num at hclose
  refine ⟨rotateOrFire alley alleyScene w₁ 0, ⟨rfl, ?_⟩, ?_, ?_⟩
  · simp [handle, tick, hactive, hnone, hw₁, Except.map]
  · rw [(sameTargeting_rotateOrFire 0).currentTarget]
    exact hkey
  · unfold rotateOrFire
    dsimp only
    split_ifs with haim haligned
    · exact hspawning
    · exact absurd (by simpa using haligned) hfar
    · exact hspawning

/-- Locked on actor 1, turret 0 lets actor 2 in. -/
theorem target_lock_stable_alley :
    ∃ w, (w.turret 0).currentTarget.key = some 1 ∧
      ((admitTarget alleyScene w 0 2).turret 0).currentTarget =
        (w.turret 0).currentTarget := by
  obtain ⟨trace, hbefore⟩ := alleyOne_run
  obtain ⟨w, hstep, hkey, hspawning⟩ := alleyOne_tick
  have hreach := hbefore.snoc hstep
  have hactive : some 2 ∉ (w.turret 0).activeTargets := by
    intro hmem
    have hold := (tracks_step_iff (wellFormed_run alleyStart_initial hbefore) hstep 0 2).mp hmem
    simp [Enters, Tracks, alleyOne_turret.1] at hold
  have hrun : Run (Step alley) w _ (admitTarget alleyScene w 0 2) :=
    Run.single (alley_enter (k := 0) hactive)
  have hkept := target_lock_stable (a := 0) (t := 1) alleyStart_initial hreach hkey
    (by simp [hspawning]) hrun (by simp [LockEnds])
  exact ⟨w, hkey, (hkept _ List.mem_cons_self).1⟩

end Alley

end TurretMaster

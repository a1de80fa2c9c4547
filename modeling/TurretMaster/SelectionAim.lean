import TurretMaster.WellFormed
import TurretMaster.ShootingAlley

/-!
# The aim a selection leaves behind

Every level of `DetermineNewTarget` sets the aim from its own interception
point, and the outermost level does so last.  After rejections the aim
therefore belongs to the first target of the list, not to the one that was
accepted.
-/

namespace TurretMaster

section Aim

variable {ι α K : Type} [DecidableEq α]
variable [Field K] [LinearOrder K] [FloorRing K] [Engine K]
variable (L : Level ι α K) (c : Scene ι α K)

/-- The aim computed for a target itself. -/
def aimFor (a : ι) (turretRot : FRotator K) (t : α) : FRotator K :=
  interceptionRotation c a (interceptionOf L c a turretRot t).2

/-- The target that a selection accepts is the first acceptable one. -/
theorem selection_key {w w' : World ι α K} {a : ι} (h : Selection L c w a w') :
    (w'.turret a).currentTarget.key =
      (w.turret a).targets.find? (acceptable L c a (w.turret a).rotationPoint) := by
  rw [h.currentTarget, currentOf, remainingTargets, List.find?_eq_head?_dropWhile_not]
  cases ((w.turret a).targets.dropWhile
    (fun t => !acceptable L c a (w.turret a).rotationPoint t)).head? <;> rfl

variable [DecidableEq ι]

/-- **When the aim belongs to the target.** A selection aims at the target it
leaves as the current one exactly if that target and the first one of the list
have the same aim. -/
theorem determineNewTarget_aim_iff {w w' : World ι α K} {a : ι}
    (hnull : none ∉ (w.turret a).activeTargets)
    (hnodup : (w.turret a).activeTargets.Nodup)
    (hne : (w.turret a).activeTargets ≠ [])
    (h : determineNewTarget L c w a = .ok w') :
    (∀ t, (w'.turret a).currentTarget.key = some t →
      (w'.turret a).targetInterceptionRotation =
        aimFor L c a (w.turret a).rotationPoint t) ↔
    ∀ s t, (w.turret a).targets.head? = some s →
      (w.turret a).targets.find? (acceptable L c a (w.turret a).rotationPoint) = some t →
      aimFor L c a (w.turret a).rotationPoint s =
        aimFor L c a (w.turret a).rotationPoint t := by
  have hselect := determineNewTarget_selection L c hnull hnodup hne h
  rw [selection_key L c hselect]
  constructor
  · intro haim s t hs ht
    rw [← haim t ht, hselect.targetInterceptionRotation s hs, aimFor]
  · intro hsame t ht
    obtain ⟨s, hs⟩ : ∃ s, (w.turret a).targets.head? = some s := by
      cases hlist : (w.turret a).targets with
      | nil => simp [hlist] at ht
      | cons s rest => exact ⟨s, rfl⟩
    rw [hselect.targetInterceptionRotation s hs, ← hsame s t hs ht, aimFor]

end Aim

section Alley

attribute [local instance] atan2Engine

/-- Turret 0 tracks the untyped actor 0 and, behind it, the stationary
actor 1. -/
noncomputable def alleyQueue : World ℕ ℕ ℝ :=
  admitTarget alleyScene (admitTarget alleyScene alleyStart 0 0) 0 1

/-- The list of turret 0. -/
theorem alleyQueue_activeTargets :
    (alleyQueue.turret 0).activeTargets = [some 0, some 1] := by
  simp [alleyQueue, admitTarget_sameTargeting.activeTargets,
    alleyStart_initial.activeTargets 0]

/-- It has no current target yet. -/
theorem alleyQueue_key : (alleyQueue.turret 0).currentTarget.key = none := by
  simp [alleyQueue, admitTarget_sameTargeting.currentTarget,
    alleyStart_initial.currentTarget 0]

/-- Actor 1 is accepted from any pose. -/
theorem alley_acceptable_one (rotation : FRotator ℝ) :
    acceptable alley alleyScene 0 rotation 1 = true := by
  have hrange : isPointWithinRange alley alleyScene 0 ⟨0, 100 * (1 : ℕ), 100⟩ = true :=
    alley_inRange rfl (by norm_num [FVector.dot])
  rw [acceptable, alley_interceptionOf_stationary rotation one_ne_zero]
  simp only [hrange, Bool.and_self]

/-- Actor 1 stands a quarter turn to the right of turret 0. -/
theorem alley_aimFor_one_yaw (rotation : FRotator ℝ) :
    (aimFor alley alleyScene 0 rotation 1).yaw = 90 := by
  have hpoint : (⟨0, 100 * (1 : ℕ), 100⟩ : FVector ℝ) - alleyScene.rotationPointLocation 0 =
      ⟨0, 100, 0⟩ := by
    simp [alleyScene, FVector.sub_def]
  rw [aimFor, alley_interceptionOf_stationary rotation one_ne_zero, interceptionRotation_yaw,
    hpoint]
  exact atan2Degrees_pos_zero (by norm_num)

/-- With actor 1 alone in its list turret 0 selects it, if it is acceptable. -/
theorem alley_selects {c : Scene ℕ ℕ ℝ} {w : World ℕ ℕ ℝ}
    (hwf : (w.turret 0).WellFormed alley) (hactive : (w.turret 0).activeTargets = [some 1])
    (hacceptable : acceptable alley c 0 (w.turret 0).rotationPoint 1 = true) :
    ∃ w', determineNewTarget alley c w 0 = .ok w' ∧ Selection alley c w 0 w' ∧
      (w'.turret 0).currentTarget.key = some 1 ∧
      (w'.turret 0).targetInterceptionRotation =
        aimFor alley c 0 (w.turret 0).rotationPoint 1 := by
  have htargets : (w.turret 0).targets = [1] :=
    ATurret.targets_of_map (by simpa using hactive)
  obtain ⟨w', hw', hselect⟩ := determineNewTarget_wellFormed (c := c) hwf (by simp [hactive])
  refine ⟨w', hw', hselect, ?_, ?_⟩
  · rw [selection_key alley c hselect, htargets]
    simp [hacceptable]
  · exact hselect.targetInterceptionRotation 1 (by simp [htargets])

/-- The aim computed for the untyped actor points down, the one for the
stationary actor does not. -/
theorem alley_aimFor_ne (rotation : FRotator ℝ) :
    aimFor alley alleyScene 0 rotation 0 ≠ aimFor alley alleyScene 0 rotation 1 := by
  have hzero : ¬ 0 ≤ (aimFor alley alleyScene 0 rotation 0).pitch := by
    rw [aimFor, alley_interceptionOf_zero, interceptionRotation_pitch,
      directionPitch_nonneg_iff]
    norm_num [alleyScene, FVector.sub_def]
  have hone : 0 ≤ (aimFor alley alleyScene 0 rotation 1).pitch := by
    rw [aimFor, alley_interceptionOf_stationary rotation one_ne_zero,
      interceptionRotation_pitch, directionPitch_nonneg_iff]
    norm_num [alleyScene, FVector.sub_def]
  intro heq
  rw [heq] at hzero
  exact hzero hone

/-- The selection from the queue returns. -/
theorem alleyQueue_selects :
    ∃ w', determineNewTarget alley alleyScene alleyQueue 0 = .ok w' := by
  have hactive := alleyQueue_activeTargets
  exact determineNewTarget_total alley alleyScene (by simp [hactive]) (by simp [hactive])
    (by simp [hactive]) (fun _ _ => rfl)

/-- For the queue neither side of the equivalence holds. -/
theorem determineNewTarget_aim_iff_alley :
    ∃ w', determineNewTarget alley alleyScene alleyQueue 0 = .ok w' ∧
      ((∀ t, (w'.turret 0).currentTarget.key = some t →
        (w'.turret 0).targetInterceptionRotation =
          aimFor alley alleyScene 0 (alleyQueue.turret 0).rotationPoint t) ↔
      ∀ s t, (alleyQueue.turret 0).targets.head? = some s →
        (alleyQueue.turret 0).targets.find?
          (acceptable alley alleyScene 0 (alleyQueue.turret 0).rotationPoint) = some t →
        aimFor alley alleyScene 0 (alleyQueue.turret 0).rotationPoint s =
          aimFor alley alleyScene 0 (alleyQueue.turret 0).rotationPoint t) := by
  have hactive := alleyQueue_activeTargets
  obtain ⟨w', hw'⟩ := alleyQueue_selects
  exact ⟨w', hw', determineNewTarget_aim_iff alley alleyScene (by simp [hactive])
    (by simp [hactive]) (by simp [hactive]) hw'⟩

/-- Actor 0 is rejected and actor 1 accepted; the aim is the one of actor 0,
straight down to the world origin. -/
theorem selection_aims_at_rejected :
    (alleyQueue.turret 0).currentTarget.key = none ∧
    (alleyQueue.turret 0).activeTargets = [some 0, some 1] ∧
    ∃ w', determineNewTarget alley alleyScene alleyQueue 0 = .ok w' ∧
      (w'.turret 0).currentTarget.key = some 1 ∧
      (w'.turret 0).targetInterceptionRotation ≠
        aimFor alley alleyScene 0 (alleyQueue.turret 0).rotationPoint 1 := by
  have hactive := alleyQueue_activeTargets
  have htargets : (alleyQueue.turret 0).targets = [0, 1] :=
    ATurret.targets_of_map (by simpa using hactive)
  obtain ⟨w', hw'⟩ := alleyQueue_selects
  have hselect := determineNewTarget_selection alley alleyScene (by simp [hactive])
    (by simp [hactive]) (by simp [hactive]) hw'
  refine ⟨alleyQueue_key, hactive, w', hw', ?_, ?_⟩
  · rw [selection_key alley alleyScene hselect, htargets]
    have hzero : acceptable alley alleyScene 0 (alleyQueue.turret 0).rotationPoint 0 = false :=
      rfl
    simp [hzero, alley_acceptable_one]
  · rw [hselect.targetInterceptionRotation 0 (by simp [htargets])]
    exact alley_aimFor_ne _

end Alley

end TurretMaster

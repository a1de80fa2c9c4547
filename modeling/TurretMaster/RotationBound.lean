import TurretMaster.RotationAgreement

/-!
# The rotation time bounds the frames

For any tolerance the time of `CalculateRotationTime` is enough: a turret that
turns for that long, in frames of any lengths, ends within the tolerance of the
rotation in pitch and in yaw, and on the way no frame passes the rotation or
moves away from it.  Above the snap of the interpolation no shorter time is
enough.

* `closes_turnTowards` — one frame;
* `within_tolerance_of_time` — all frames;
* `rotationTimeTo_le_iff_within` — the least time that is enough.
-/

namespace TurretMaster

open ClampedDecay

section Frames

variable {α K : Type} [Field K] [LinearOrder K]

/-- From one rotation to the next neither the pitch error nor the yaw error
changes sign or grows. -/
def Closes (target rotation next : FRotator K) : Prop :=
  Shrinks (target.pitch - rotation.pitch) (target.pitch - next.pitch) ∧
    Shrinks (target.yaw - rotation.yaw) (target.yaw - next.yaw)

/-- One more frame is one more turn. -/
theorem turnFrames_snoc (u : ATurret α K) (target : FRotator K) (turnSpeed : K)
    (before : List K) (deltaSeconds : K) :
    u.turnFrames target turnSpeed (before ++ [deltaSeconds]) =
      (u.turnFrames target turnSpeed before).turnTowards target deltaSeconds turnSpeed := by
  rw [ATurret.turnFrames, List.foldl_append]
  rfl

variable [IsStrictOrderedRing K]

/-- **One frame** neither passes the rotation nor moves away from it. -/
theorem closes_turnTowards {turnSpeed : K} (hspeed : 0 < turnSpeed) {target : FRotator K}
    (htarget : target.pitch ∈ Set.Icc (-70) 80) {u : ATurret α K}
    (hpitch : u.rotationPoint.pitch ∈ Set.Icc (-70) 80) (deltaSeconds : K) :
    Closes target u.rotationPoint
      (u.turnTowards target deltaSeconds turnSpeed).rotationPoint := by
  obtain ⟨-, hpitchError, hyawError, -⟩ :=
    turnFrames_rotationPoint hspeed htarget [deltaSeconds] u hpitch
  change target.pitch - (u.turnTowards target deltaSeconds turnSpeed).rotationPoint.pitch =
    snapStep _ _ _ at hpitchError
  change target.yaw - (u.turnTowards target deltaSeconds turnSpeed).rotationPoint.yaw =
    snapStep _ _ _ at hyawError
  rw [Closes, hpitchError, hyawError]
  exact ⟨shrinks_snapStep _ _ _, shrinks_snapStep _ _ _⟩

/-- Every frame of a sequence is such a frame. -/
theorem closes_turnFrames {turnSpeed : K} (hspeed : 0 < turnSpeed) {target : FRotator K}
    (htarget : target.pitch ∈ Set.Icc (-70) 80) {u : ATurret α K}
    (hpitch : u.rotationPoint.pitch ∈ Set.Icc (-70) 80) (before : List K) (deltaSeconds : K) :
    Closes target (u.turnFrames target turnSpeed before).rotationPoint
      (u.turnFrames target turnSpeed (before ++ [deltaSeconds])).rotationPoint := by
  obtain ⟨hbefore, -⟩ := turnFrames_rotationPoint hspeed htarget before u hpitch
  rw [turnFrames_snoc]
  exact closes_turnTowards hspeed htarget hbefore deltaSeconds

end Frames

section Time

variable {α : Type} [ExactEngine] {u : ATurret α ℝ} {target : FRotator ℝ}
variable {turnSpeed tolerance : ℝ}

/-- Pitch and yaw after frames that use up the predicted time. -/
theorem errors_le_of_time (hspeed : 0 < turnSpeed) (htolerance : 0 < tolerance)
    (hstart : u.rotationPoint.pitch ∈ Set.Icc (-70) 80)
    (htarget : target.pitch ∈ Set.Icc (-70) 80)
    (hyaw : |target.yaw - u.rotationPoint.yaw| ≤ 180) {frames : List ℝ}
    (htime : InterceptionHandler.rotationTimeTo u.rotationPoint target turnSpeed tolerance ≤
      frames.sum) :
    |target.pitch - (u.turnFrames target turnSpeed frames).rotationPoint.pitch| ≤ tolerance ∧
    |target.yaw - (u.turnFrames target turnSpeed frames).rotationPoint.yaw| ≤ tolerance := by
  obtain ⟨-, hpitchError, hyawError, -⟩ :=
    turnFrames_rotationPoint hspeed htarget frames u hstart
  have hdecayed := decayed_le_of_time hspeed htolerance htime
  rw [maxAngularDistance_eq_max hyaw (abs_pitchDifference_le hstart htarget),
    max_mul_of_nonneg _ _ (decay_nonneg _), max_le_iff] at hdecayed
  rw [hpitchError, hyawError]
  exact ⟨(abs_foldl_snapStep_le_decay _ _ _).trans hdecayed.2,
    (abs_foldl_snapStep_le_decay _ _ _).trans hdecayed.1⟩

/-- **The rotation time bounds the frames.** Frames that add up to the time
that is predicted for a tolerance leave pitch and yaw within the tolerance of
the rotation, and at no frame does either error change sign or grow. -/
theorem within_tolerance_of_time (hspeed : 0 < turnSpeed) (htolerance : 0 < tolerance)
    (hstart : u.rotationPoint.pitch ∈ Set.Icc (-70) 80)
    (htarget : target.pitch ∈ Set.Icc (-70) 80)
    (hyaw : |target.yaw - u.rotationPoint.yaw| ≤ 180) {frames : List ℝ}
    (htime : InterceptionHandler.rotationTimeTo u.rotationPoint target turnSpeed tolerance ≤
      frames.sum) :
    |target.pitch - (u.turnFrames target turnSpeed frames).rotationPoint.pitch| ≤ tolerance ∧
    |target.yaw - (u.turnFrames target turnSpeed frames).rotationPoint.yaw| ≤ tolerance ∧
    ∀ before deltaSeconds after, frames = before ++ deltaSeconds :: after →
      Closes target (u.turnFrames target turnSpeed before).rotationPoint
        (u.turnFrames target turnSpeed (before ++ [deltaSeconds])).rotationPoint := by
  obtain ⟨hpitchWithin, hyawWithin⟩ :=
    errors_le_of_time hspeed htolerance hstart htarget hyaw htime
  refine ⟨hpitchWithin, hyawWithin, ?_⟩
  intro before deltaSeconds after _
  exact closes_turnFrames hspeed htarget hstart before deltaSeconds

/-- **The least time that is enough.** For a tolerance above the snap of the
interpolation, all frames that add up to a given time end within the tolerance
exactly if the time is at least the predicted one. -/
theorem rotationTimeTo_le_iff_within (hspeed : 0 < turnSpeed) (htolerance : 0 < tolerance)
    (hsnap : smallNumber ≤ tolerance ^ 2)
    (hstart : u.rotationPoint.pitch ∈ Set.Icc (-70) 80)
    (htarget : target.pitch ∈ Set.Icc (-70) 80)
    (hyaw : |target.yaw - u.rotationPoint.yaw| ≤ 180) {total : ℝ} (htotal : 0 ≤ total) :
    InterceptionHandler.rotationTimeTo u.rotationPoint target turnSpeed tolerance ≤ total ↔
      ∀ frames : List ℝ, (∀ deltaSeconds ∈ frames, 0 ≤ deltaSeconds) → frames.sum = total →
        |target.pitch - (u.turnFrames target turnSpeed frames).rotationPoint.pitch| ≤
            tolerance ∧
          |target.yaw - (u.turnFrames target turnSpeed frames).rotationPoint.yaw| ≤
            tolerance := by
  constructor
  · intro htime frames _ hsum
    rw [← hsum] at htime
    exact errors_le_of_time hspeed htolerance hstart htarget hyaw htime
  · intro hall
    by_contra hshort
    obtain ⟨frames, hnonneg, hsum, hgt⟩ :=
      exists_frames_gt hspeed htolerance htotal (not_le.mp hshort)
    obtain ⟨-, hpitchError, hyawError, -⟩ :=
      turnFrames_rotationPoint hspeed htarget frames u hstart
    have hwithin := hall frames hnonneg hsum
    rw [hpitchError, hyawError, abs_foldl_snapStep_le_iff htolerance.le hsnap,
      abs_foldl_snapStep_le_iff htolerance.le hsnap] at hwithin
    rw [maxAngularDistance_eq_max hyaw (abs_pitchDifference_le hstart htarget),
      max_mul_of_nonneg _ _ (decay_nonneg _), lt_max_iff] at hgt
    rcases hgt with hgt | hgt
    · exact absurd hwithin.2 (not_le.mpr hgt)
    · exact absurd hwithin.1 (not_le.mpr hgt)

/-- **`CalculateRotationTime` for a point**: frames that add up to it leave pitch
and yaw within its tolerance of the rotation towards the point. -/
theorem looks_at_of_calculateRotationTime (currentLoc point : FVector ℝ) (hspeed : 0 < turnSpeed)
    (htolerance : 0 < tolerance) (hstart : u.rotationPoint.pitch ∈ Set.Icc (-70) 80)
    (htarget : (InterceptionHandler.rotationTowards currentLoc point).pitch ∈ Set.Icc (-70) 80)
    (hyaw : |(InterceptionHandler.rotationTowards currentLoc point).yaw - u.rotationPoint.yaw| ≤
      180) {frames : List ℝ}
    (htime : InterceptionHandler.calculateRotationTime currentLoc u.rotationPoint point turnSpeed
      tolerance ≤ frames.sum) :
    |(InterceptionHandler.rotationTowards currentLoc point).pitch -
        (u.turnFrames (InterceptionHandler.rotationTowards currentLoc point) turnSpeed
          frames).rotationPoint.pitch| ≤ tolerance ∧
    |(InterceptionHandler.rotationTowards currentLoc point).yaw -
        (u.turnFrames (InterceptionHandler.rotationTowards currentLoc point) turnSpeed
          frames).rotationPoint.yaw| ≤ tolerance :=
  errors_le_of_time hspeed htolerance hstart htarget hyaw htime

end Time

section Alley

attribute [local instance] atan2Engine

/-- A quarter turn to the right at a turn speed for which it takes one second,
in four uneven frames. -/
theorem within_tolerance_of_time_alley :
    InterceptionHandler.rotationTimeTo freshTurret.rotationPoint (⟨0, 90, 0⟩ : FRotator ℝ)
        (Real.log 90) 1 ≤ [1 / 2, 1 / 5, 1 / 10, 1 / 5].sum ∧
    |90 - (freshTurret.turnFrames ⟨0, 90, 0⟩ (Real.log 90)
        [1 / 2, 1 / 5, 1 / 10, 1 / 5]).rotationPoint.yaw| ≤ 1 := by
  have hspeed : 0 < Real.log 90 := Real.log_pos (by norm_num)
  have hstart : freshTurret.rotationPoint.pitch ∈ Set.Icc (-70) 80 := by
    norm_num [freshTurret]
  have htarget : (⟨0, 90, 0⟩ : FRotator ℝ).pitch ∈ Set.Icc (-70) 80 := by norm_num
  have hyaw : |(⟨0, 90, 0⟩ : FRotator ℝ).yaw - freshTurret.rotationPoint.yaw| ≤ 180 := by
    norm_num [freshTurret]
  have hdistance : InterceptionHandler.maxAngularDistance freshTurret.rotationPoint
      (⟨0, 90, 0⟩ : FRotator ℝ) = 90 := by
    rw [maxAngularDistance_eq_max hyaw (abs_pitchDifference_le hstart htarget)]
    norm_num [freshTurret]
  have htime : InterceptionHandler.rotationTimeTo freshTurret.rotationPoint
      (⟨0, 90, 0⟩ : FRotator ℝ) (Real.log 90) 1 ≤ [1 / 2, 1 / 5, 1 / 10, 1 / 5].sum := by
    rw [rotationTimeTo_eq hspeed one_pos, hdistance, div_one, max_eq_right (by norm_num),
      div_self hspeed.ne']
    norm_num
  obtain ⟨-, hwithin, -⟩ :=
    within_tolerance_of_time hspeed one_pos hstart htarget hyaw htime
  exact ⟨htime, hwithin⟩

end Alley

end TurretMaster

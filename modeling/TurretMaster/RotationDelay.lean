import TurretMaster.RotationAgreement

/-!
# The rotation delay and the delayed intercept

`PredictInterceptionPoint` takes its delay from the direction of the undelayed
intercept and returns the delayed one.  Turning to the returned point can take
longer than the delay that was assumed for it.

* `calculateRotationTime_le_iff` — comparing two rotation times is comparing
  two angular distances above the tolerance;
* `delay_too_short` — a target that crosses while the turret turns.
-/

namespace TurretMaster

open InterceptionHandler

section Delay

variable [ExactEngine] {turretPos targetPos targetVel out : FVector ℝ}
variable {turretRot : FRotator ℝ} {projectileSpeed rotateSpeed turretRadius : ℝ}

/-- The larger one of the yaw and pitch differences to a point. -/
noncomputable def angularDistanceTo (turretPos : FVector ℝ) (turretRot : FRotator ℝ)
    (point : FVector ℝ) : ℝ :=
  maxAngularDistance turretRot (rotationTowards turretPos point)

/-- The rotation time is a logarithm of the angular distance. -/
theorem calculateRotationTime_eq (hspeed : 0 < rotateSpeed) (point : FVector ℝ) :
    calculateRotationTime turretPos turretRot point rotateSpeed =
      Real.log (max 1 (angularDistanceTo turretPos turretRot point)) / rotateSpeed := by
  rw [calculateRotationTime, rotationTimeTo_eq hspeed one_pos, div_one, angularDistanceTo]

/-- **Comparing rotation times.** -/
theorem calculateRotationTime_le_iff (hspeed : 0 < rotateSpeed) (point other : FVector ℝ) :
    calculateRotationTime turretPos turretRot point rotateSpeed ≤
        calculateRotationTime turretPos turretRot other rotateSpeed ↔
      angularDistanceTo turretPos turretRot point ≤
        max 1 (angularDistanceTo turretPos turretRot other) := by
  have hpoint : (0 : ℝ) < max 1 (angularDistanceTo turretPos turretRot point) :=
    lt_max_of_lt_left one_pos
  have hother : (0 : ℝ) < max 1 (angularDistanceTo turretPos turretRot other) :=
    lt_max_of_lt_left one_pos
  rw [calculateRotationTime_eq hspeed, calculateRotationTime_eq hspeed,
    div_le_div_iff_of_pos_right hspeed, Real.log_le_log_iff hpoint hother, max_le_iff]
  exact and_iff_right (le_max_left _ _)

/-- A target at rest is met where it is, whatever the delay. -/
theorem quadraticEquationInterception_at_rest (turretPos targetPos : FVector ℝ)
    (projectileSpeed timeDelay : ℝ) :
    quadraticEquationInterception turretPos targetPos 0 projectileSpeed timeDelay =
      if projectileSpeed ≤ 0 then (false, 0) else (true, targetPos) := by
  have hrest : (0 : FVector ℝ).isNearlyZero kindaSmallNumber = true := by
    norm_num [FVector.isNearlyZero, kindaSmallNumber]
  have hstay : targetPos + (0 : FVector ℝ) * timeDelay = targetPos := by
    ext <;> simp [FVector.add_def, FVector.mul_def]
  unfold quadraticEquationInterception
  dsimp only
  rw [hstay, if_pos hrest]

end Delay

section Alley

attribute [local instance] atan2Engine

/-- A target crosses from right to left five units ahead; an undelayed shot
meets it straight to the side. -/
theorem crossing_undelayed :
    quadraticEquationInterception (0 : FVector ℝ) ⟨3, 5, 0⟩ ⟨-3, 0, 0⟩ 5 0 =
      (true, ⟨0, 5, 0⟩) := by
  have hsqrt : √(2500 : ℝ) = 50 := by
    rw [Real.sqrt_eq_iff_mul_self_eq] <;> norm_num
  norm_num [quadraticEquationInterception, FVector.add_def, FVector.sub_def, FVector.mul_def,
    FVector.dot, FVector.isNearlyZero, FMath.isNearlyZero,
    kindaSmallNumber, ExactEngine.sqrt_eq, hsqrt, smallestPositiveTime]

/-- After one second the shot meets it to the rear. -/
theorem crossing_delayed :
    quadraticEquationInterception (0 : FVector ℝ) ⟨3, 5, 0⟩ ⟨-3, 0, 0⟩ 5 1 =
      (true, ⟨-15 / 4, 5, 0⟩) := by
  have hsqrt : √(1600 : ℝ) = 40 := by
    rw [Real.sqrt_eq_iff_mul_self_eq] <;> norm_num
  norm_num [quadraticEquationInterception, FVector.add_def, FVector.sub_def, FVector.mul_def,
    FVector.dot, FVector.isNearlyZero, FMath.isNearlyZero,
    kindaSmallNumber, ExactEngine.sqrt_eq, hsqrt, smallestPositiveTime]

/-- The angular distance from a level turret at the origin to a level point is
the way in yaw. -/
theorem angularDistanceTo_level (point : FVector ℝ) (yaw : ℝ) (hlevel : point.z = 0)
    (hfar : smallNumber ≤ point.dot point) (hyaw : |directionYaw point - yaw| ≤ 180) :
    angularDistanceTo 0 ⟨0, yaw, 0⟩ point = |directionYaw point - yaw| := by
  obtain ⟨k, hk, hnormal⟩ := FVector.exists_getSafeNormal_eq hfar
  have hrotation : rotationTowards 0 point = ⟨0, directionYaw point, 0⟩ := by
    rw [rotationTowards, FVector.sub_zero_eq, hnormal]
    ext
    · exact (directionPitch_mul hk point).trans (directionPitch_level hlevel)
    · exact directionYaw_mul hk point
    · rfl
  have hpitch : |(0 : ℝ) - 0| ≤ 180 := by norm_num
  rw [angularDistanceTo, maxAngularDistance, hrotation, abs_findDeltaAngleDegrees hyaw,
    abs_findDeltaAngleDegrees hpitch, sub_zero, abs_zero, max_eq_left (abs_nonneg _)]

/-- The undelayed intercept lies a quarter turn to the side. -/
theorem directionYaw_undelayed : directionYaw (⟨0, 5, 0⟩ : FVector ℝ) = 90 :=
  atan2Degrees_pos_zero (by norm_num)

/-- The delayed one lies behind that. -/
theorem directionYaw_delayed :
    90 < directionYaw (⟨-15 / 4, 5, 0⟩ : FVector ℝ) ∧
      directionYaw (⟨-15 / 4, 5, 0⟩ : FVector ℝ) ≤ 180 := by
  have hleft : 0 ≤ directionYaw (⟨-15 / 4, 5, 0⟩ : FVector ℝ) :=
    directionYaw_nonneg_iff.mpr (by norm_num)
  rw [← abs_of_nonneg hleft]
  exact ⟨lt_abs_directionYaw (by norm_num), abs_directionYaw_le _⟩

/-- From a turret that looks ahead it is a quarter turn to the undelayed
intercept. -/
theorem angularDistanceTo_undelayed :
    angularDistanceTo 0 0 (⟨0, 5, 0⟩ : FVector ℝ) = 90 := by
  have hturn := angularDistanceTo_level ⟨0, 5, 0⟩ 0 rfl
    (by norm_num [smallNumber, FVector.dot]) (by rw [directionYaw_undelayed]; norm_num [abs_of_pos])
  rw [directionYaw_undelayed] at hturn
  exact hturn.trans (by norm_num [abs_of_pos])

/-- To the delayed one it is more. -/
theorem angularDistanceTo_delayed :
    90 < angularDistanceTo 0 0 (⟨-15 / 4, 5, 0⟩ : FVector ℝ) := by
  obtain ⟨hlower, hupper⟩ := directionYaw_delayed
  have hturn := angularDistanceTo_level ⟨-15 / 4, 5, 0⟩ 0 rfl
    (by norm_num [smallNumber, FVector.dot]) (by rw [sub_zero, abs_le]; constructor <;> linarith)
  rw [sub_zero, abs_of_pos (by linarith)] at hturn
  rw [← hturn] at hlower
  exact hlower

/-- From a turret that looks to the rear it is less. -/
theorem angularDistanceTo_rear :
    angularDistanceTo 0 ⟨0, 180, 0⟩ (⟨0, 5, 0⟩ : FVector ℝ) = 90 ∧
      angularDistanceTo 0 ⟨0, 180, 0⟩ (⟨-15 / 4, 5, 0⟩ : FVector ℝ) ≤ 90 := by
  obtain ⟨hlower, hupper⟩ := directionYaw_delayed
  have hundelayed := angularDistanceTo_level ⟨0, 5, 0⟩ 180 rfl
    (by norm_num [smallNumber, FVector.dot]) (by rw [directionYaw_undelayed]; norm_num [abs_of_neg])
  have hdelayed := angularDistanceTo_level ⟨-15 / 4, 5, 0⟩ 180 rfl
    (by norm_num [smallNumber, FVector.dot]) (by rw [abs_le]; constructor <;> linarith)
  rw [hundelayed, hdelayed, directionYaw_undelayed, abs_le]
  refine ⟨by norm_num [abs_of_neg], ?_, ?_⟩ <;> linarith

/-- A quarter turn takes time. -/
theorem log_ninety_pos : 0 < Real.log 90 := Real.log_pos (by norm_num)

/-- The time for a quarter turn at this turn speed is one second. -/
theorem crossing_rotationTime {turretRot : FRotator ℝ}
    (hquarter : angularDistanceTo 0 turretRot ⟨0, 5, 0⟩ = 90) :
    calculateRotationTime 0 turretRot (⟨0, 5, 0⟩ : FVector ℝ) (Real.log 90) = 1 := by
  rw [calculateRotationTime_eq log_ninety_pos, hquarter, max_eq_right (by norm_num),
    div_self log_ninety_pos.ne']

/-- A turret that has a quarter turn to make is told the delayed intercept. -/
theorem crossing_predicted {turretRot : FRotator ℝ}
    (hquarter : angularDistanceTo 0 turretRot ⟨0, 5, 0⟩ = 90) :
    predictInterceptionPoint 0 turretRot ⟨3, 5, 0⟩ ⟨-3, 0, 0⟩ 5 (Real.log 90) 100 =
      (true, ⟨-15 / 4, 5, 0⟩) := by
  have hrange : √(25 : ℝ) < 100 := by
    rw [Real.sqrt_lt' (by norm_num)]
    norm_num
  have hinRange : pointInRange (⟨0, 5, 0⟩ : FVector ℝ) 0 100 = true := by
    norm_num [pointInRange, FVector.dist, FVector.sub_def, FVector.dot, ExactEngine.sqrt_eq,
      hrange]
  have hnotZero : (⟨0, 5, 0⟩ : FVector ℝ).isZero = false := by
    norm_num [FVector.isZero]
  unfold predictInterceptionPoint
  simp only [crossing_undelayed, crossing_rotationTime hquarter, bufferTime, add_zero,
    crossing_delayed, hinRange, hnotZero]
  rfl

/-- The delay assumed for the crossing target is too short for the returned
point. -/
theorem delay_too_short :
    0 < Real.log 90 ∧
    predictInterceptionPoint 0 0 ⟨3, 5, 0⟩ ⟨-3, 0, 0⟩ 5 (Real.log 90) 100 =
      (true, ⟨-15 / 4, 5, 0⟩) ∧
    quadraticEquationInterception (0 : FVector ℝ) ⟨3, 5, 0⟩ ⟨-3, 0, 0⟩ 5 0 =
      (true, ⟨0, 5, 0⟩) ∧
    calculateRotationTime 0 0 (⟨0, 5, 0⟩ : FVector ℝ) (Real.log 90) + bufferTime <
      calculateRotationTime 0 0 (⟨-15 / 4, 5, 0⟩ : FVector ℝ) (Real.log 90) := by
  refine ⟨log_ninety_pos, crossing_predicted angularDistanceTo_undelayed, crossing_undelayed, ?_⟩
  rw [bufferTime, add_zero, ← not_le, calculateRotationTime_le_iff log_ninety_pos,
    angularDistanceTo_undelayed, max_eq_right (by norm_num), not_le]
  exact angularDistanceTo_delayed

end Alley

end TurretMaster

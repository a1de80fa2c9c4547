import TurretMaster.RotationAgreement

/-!
# Turning the short way

The angle tests of the turret measure modulo full turns, but a step of `SetYaw`
interpolates between plain numbers.  Where the two yaws lie on different sides
of the half turn the step goes the long way round.

* `abs_findDeltaAngleDegrees_wrapped`, `abs_normalizeAxis_wrapped` — both
  measures are the shorter way round;
* `short_way_iff` — when a share of the plain difference is no longer a way;
* `setYaw_short_way_iff` — when a step of `SetYaw` does not lose ground.
-/

namespace TurretMaster

open ClampedDecay

section Way

variable {α K : Type} [Field K] [LinearOrder K] [IsStrictOrderedRing K]

/-! ## The two measures -/

/-- The shorter way round between two angles less than a turn apart. -/
theorem abs_findDeltaAngleDegrees_wrapped {a1 a2 : K} (h : |a2 - a1| ≤ 360) :
    |FMath.findDeltaAngleDegrees a1 a2| = min |a2 - a1| (360 - |a2 - a1|) := by
  obtain ⟨hlower, hupper⟩ := abs_le.mp h
  unfold FMath.findDeltaAngleDegrees
  split_ifs with hright hleft
  · rw [abs_of_pos (by linarith : 0 < a2 - a1), abs_of_nonpos (by linarith),
      min_eq_right (by linarith)]
    ring
  · rw [abs_of_neg (by linarith : a2 - a1 < 0), abs_of_nonneg (by linarith),
      min_eq_right (by linarith)]
    ring
  · have hhalf : |a2 - a1| ≤ 180 := abs_le.mpr ⟨not_lt.mp hleft, not_lt.mp hright⟩
    rw [min_eq_left (by linarith)]

/-- Within a full turn normalising takes the shorter way round. -/
theorem abs_normalizeAxis_wrapped [FloorRing K] {angle : K} (h : |angle| ≤ 360) :
    |FRotator.normalizeAxis angle| = min |angle| (360 - |angle|) := by
  rcases le_or_gt |angle| 180 with hhalf | hhalf
  · rw [FRotator.abs_normalizeAxis hhalf, min_eq_left (by linarith)]
  · rw [min_eq_right (by linarith)]
    rcases le_or_gt 0 angle with hsign | hsign
    · rw [abs_of_nonneg hsign] at h hhalf ⊢
      rcases h.lt_or_eq with hlt | hturn
      · have hfloor : ⌊angle / 360⌋ = 0 := by
          rw [Int.floor_eq_zero_iff]
          constructor <;> linarith
        have hclamp : FRotator.clampAxis angle = angle := by simp [FRotator.clampAxis, hfloor]
        rw [FRotator.normalizeAxis, hclamp, if_pos hhalf, abs_of_neg (by linarith)]
        ring
      · have hclamp : FRotator.clampAxis angle = 0 := by
          rw [hturn, FRotator.clampAxis, div_self (by norm_num), Int.floor_one]
          norm_num
        rw [FRotator.normalizeAxis, hclamp, if_neg (by norm_num), hturn]
        norm_num
    · rw [abs_of_neg hsign] at h hhalf ⊢
      have hfloor : ⌊angle / 360⌋ = -1 := by
        rw [Int.floor_eq_iff]
        constructor <;> push_cast <;> linarith
      have hclamp : FRotator.clampAxis angle = angle + 360 := by
        rw [FRotator.clampAxis, hfloor]
        push_cast
        ring
      rw [FRotator.normalizeAxis, hclamp, if_neg (by linarith), abs_of_nonneg (by linarith)]
      ring

/-! ## One step -/

/-- **When a share of the way is no longer a way.** -/
theorem short_way_iff {x r : K} (hx : 0 ≤ x) (hr : r ≤ 1) :
    min (x * r) (360 - x * r) ≤ min x (360 - x) ↔ x ≤ 180 ∨ r = 1 ∨ x * (1 + r) ≤ 360 := by
  rcases le_or_gt x 180 with hhalf | hhalf
  · have hshare : x * r ≤ x := mul_le_of_le_one_right hx hr
    have hmin : min x (360 - x) = x := min_eq_left (by linarith)
    rw [hmin]
    exact iff_of_true ((min_le_left _ _).trans hshare) (Or.inl hhalf)
  · have hmin : min x (360 - x) = 360 - x := min_eq_right (by linarith)
    rw [hmin, min_le_iff]
    constructor
    · intro h
      rcases h with hshort | hlong
      · exact Or.inr (Or.inr (by linarith))
      · have hone : 1 ≤ r := by
          have hpos : 0 < x := by linarith
          exact le_of_mul_le_mul_left (by linarith) hpos
        exact Or.inr (Or.inl (le_antisymm hr hone))
    · intro h
      rcases h with hless | rfl | hshort
      · exact absurd hless (not_le.mpr hhalf)
      · exact Or.inr (by linarith)
      · exact Or.inl (by linarith)

/-- A step leaves a share of the plain difference, which it does not enlarge. -/
theorem abs_setYaw_error {turnSpeed : K} (hspeed : 0 < turnSpeed) (u : ATurret α K)
    (targetYaw deltaSeconds : K) :
    |targetYaw - (u.setYaw targetYaw deltaSeconds turnSpeed).rotationPoint.yaw| =
      if (targetYaw - u.rotationPoint.yaw) ^ 2 < smallNumber then 0
      else |targetYaw - u.rotationPoint.yaw| * remaining (deltaSeconds * turnSpeed) := by
  change |targetYaw - FMath.fInterpTo u.rotationPoint.yaw targetYaw deltaSeconds turnSpeed| = _
  rw [fInterpTo_error hspeed, snapStep]
  split_ifs
  · exact abs_zero
  · rw [abs_mul, abs_of_nonneg (remaining_nonneg (deltaSeconds * turnSpeed))]

/-- A clamped step is empty only in a frame without duration. -/
theorem remaining_eq_one_iff {deltaSeconds turnSpeed : K} (hspeed : 0 < turnSpeed)
    (hdelta : 0 ≤ deltaSeconds) :
    remaining (deltaSeconds * turnSpeed) = 1 ↔ deltaSeconds = 0 := by
  rw [remaining, sub_eq_self]
  constructor
  · intro h
    by_contra hne
    have hpos : 0 < deltaSeconds * turnSpeed :=
      mul_pos (lt_of_le_of_ne hdelta (Ne.symm hne)) hspeed
    have hstep : 0 < max 0 (min (deltaSeconds * turnSpeed) 1) :=
      lt_max_of_lt_right (lt_min hpos one_pos)
    exact hstep.ne' h
  · intro hzero
    subst hzero
    simp

/-- The shorter way after a step is no longer than before exactly under the
condition on the step. -/
theorem setYaw_min_iff {u : ATurret α K} {targetYaw deltaSeconds turnSpeed : K}
    (hspeed : 0 < turnSpeed) (hdelta : 0 ≤ deltaSeconds) :
    min |targetYaw - (u.setYaw targetYaw deltaSeconds turnSpeed).rotationPoint.yaw|
        (360 - |targetYaw - (u.setYaw targetYaw deltaSeconds turnSpeed).rotationPoint.yaw|) ≤
      min |targetYaw - u.rotationPoint.yaw| (360 - |targetYaw - u.rotationPoint.yaw|) ↔
    |targetYaw - u.rotationPoint.yaw| ≤ 180 ∨ deltaSeconds = 0 ∨
      |targetYaw - u.rotationPoint.yaw| *
        (2 - FMath.clamp (deltaSeconds * turnSpeed) 0 1) ≤ 360 := by
  have hshare : 2 - FMath.clamp (deltaSeconds * turnSpeed) 0 1 =
      1 + remaining (deltaSeconds * turnSpeed) := by
    rw [clamp_eq_one_sub_remaining]
    ring
  rw [abs_setYaw_error hspeed, hshare, ← remaining_eq_one_iff hspeed hdelta]
  split_ifs with hsnap
  · have hsmall : |targetYaw - u.rotationPoint.yaw| ≤ 1 := by
      rw [← sq_le_one_iff_abs_le_one]
      have hnumber : smallNumber ≤ (1 : K) := by norm_num [smallNumber]
      exact hsnap.le.trans hnumber
    have hnonneg := abs_nonneg (targetYaw - u.rotationPoint.yaw)
    refine iff_of_true ?_ (Or.inl (by linarith))
    exact (min_le_left _ _).trans (le_min hnonneg (by linarith))
  · exact short_way_iff (abs_nonneg _) (remaining_le_one _)

/-- **When the turret turns the short way.** For yaws in the half circle, a
step of `SetYaw` does not enlarge the angular distance to the target yaw, in
either measure, exactly if the plain difference is at most a half turn, the
frame has no duration, or the step is long enough to come out on the other
side of the half turn no further away. -/
theorem setYaw_short_way_iff [FloorRing K] {u : ATurret α K}
    {targetYaw deltaSeconds turnSpeed : K}
    (hcurrent : u.rotationPoint.yaw ∈ Set.Icc (-180) 180)
    (htarget : targetYaw ∈ Set.Icc (-180) 180)
    (hspeed : 0 < turnSpeed) (hdelta : 0 ≤ deltaSeconds) :
    (|FMath.findDeltaAngleDegrees
          (u.setYaw targetYaw deltaSeconds turnSpeed).rotationPoint.yaw targetYaw| ≤
        |FMath.findDeltaAngleDegrees u.rotationPoint.yaw targetYaw| ↔
      |targetYaw - u.rotationPoint.yaw| ≤ 180 ∨ deltaSeconds = 0 ∨
        |targetYaw - u.rotationPoint.yaw| *
          (2 - FMath.clamp (deltaSeconds * turnSpeed) 0 1) ≤ 360) ∧
    (|FRotator.normalizeAxis
          ((u.setYaw targetYaw deltaSeconds turnSpeed).rotationPoint.yaw - targetYaw)| ≤
        |FRotator.normalizeAxis (u.rotationPoint.yaw - targetYaw)| ↔
      |targetYaw - u.rotationPoint.yaw| ≤ 180 ∨ deltaSeconds = 0 ∨
        |targetYaw - u.rotationPoint.yaw| *
          (2 - FMath.clamp (deltaSeconds * turnSpeed) 0 1) ≤ 360) := by
  have hbefore : |targetYaw - u.rotationPoint.yaw| ≤ 360 := by
    rw [abs_le]
    constructor <;> linarith [hcurrent.1, hcurrent.2, htarget.1, htarget.2]
  have hafter :
      |targetYaw - (u.setYaw targetYaw deltaSeconds turnSpeed).rotationPoint.yaw| ≤ 360 := by
    rw [abs_setYaw_error hspeed]
    split_ifs
    · norm_num
    · exact (mul_le_of_le_one_right (abs_nonneg _) (remaining_le_one _)).trans hbefore
  have hbeforeSymm := hbefore
  have hafterSymm := hafter
  rw [abs_sub_comm] at hbeforeSymm hafterSymm
  constructor
  · rw [abs_findDeltaAngleDegrees_wrapped hbefore, abs_findDeltaAngleDegrees_wrapped hafter]
    exact setYaw_min_iff hspeed hdelta
  · rw [abs_normalizeAxis_wrapped hbeforeSymm, abs_normalizeAxis_wrapped hafterSymm,
      abs_sub_comm u.rotationPoint.yaw, abs_sub_comm _ targetYaw]
    exact setYaw_min_iff hspeed hdelta

end Way

section Alley

/-- A turret at a given yaw. -/
noncomputable def yawedTurret (yaw : ℝ) : ATurret ℕ ℝ :=
  { freshTurret with rotationPoint := ⟨0, yaw, 0⟩ }

/-- A quarter of the turn to 90 degrees is a step the short way. -/
theorem setYaw_short_way_iff_alley :
    |FMath.findDeltaAngleDegrees
        ((yawedTurret 170).setYaw 90 (1 / 20) 5).rotationPoint.yaw 90| ≤
      |FMath.findDeltaAngleDegrees (yawedTurret 170).rotationPoint.yaw 90| ∧
    |FRotator.normalizeAxis
        (((yawedTurret 170).setYaw 90 (1 / 20) 5).rotationPoint.yaw - 90)| ≤
      |FRotator.normalizeAxis ((yawedTurret 170).rotationPoint.yaw - 90)| := by
  have hcurrent : (yawedTurret 170).rotationPoint.yaw ∈ Set.Icc (-180) 180 := by
    norm_num [yawedTurret]
  have htarget : (90 : ℝ) ∈ Set.Icc (-180) 180 := by norm_num
  have hspeed : (0 : ℝ) < 5 := by norm_num
  have hdelta : (0 : ℝ) ≤ 1 / 20 := by norm_num
  have hdifference : |90 - (yawedTurret 170).rotationPoint.yaw| ≤ 180 := by
    norm_num [yawedTurret]
  obtain ⟨hfind, hnormal⟩ := setYaw_short_way_iff hcurrent htarget hspeed hdelta
  exact ⟨hfind.mpr (Or.inl hdifference), hnormal.mpr (Or.inl hdifference)⟩

/-- From 170 to -170 degrees the short way is 20 degrees; the first frame
turns the other way. -/
theorem setYaw_long_way :
    (yawedTurret 170).rotationPoint.yaw ∈ Set.Icc (-180) 180 ∧
    |FMath.findDeltaAngleDegrees (yawedTurret 170).rotationPoint.yaw (-170)| <
      |FMath.findDeltaAngleDegrees
        ((yawedTurret 170).setYaw (-170) (1 / 20) 5).rotationPoint.yaw (-170)| ∧
    |FRotator.normalizeAxis ((yawedTurret 170).rotationPoint.yaw - -170)| <
      |FRotator.normalizeAxis
        (((yawedTurret 170).setYaw (-170) (1 / 20) 5).rotationPoint.yaw - -170)| := by
  have hyaw : (yawedTurret 170).rotationPoint.yaw = 170 := rfl
  have hstep : ((yawedTurret 170).setYaw (-170) (1 / 20) 5).rotationPoint.yaw = 85 := by
    change FMath.fInterpTo 170 (-170) (1 / 20) 5 = 85
    norm_num [FMath.fInterpTo, FMath.clamp, smallNumber]
  have hbefore : min |(170 : ℝ) - -170| (360 - |170 - -170|) = 20 := by norm_num
  have hafter : min |(85 : ℝ) - -170| (360 - |85 - -170|) = 105 := by norm_num
  rw [hstep, hyaw, abs_findDeltaAngleDegrees_wrapped (by norm_num),
    abs_findDeltaAngleDegrees_wrapped (by norm_num), abs_normalizeAxis_wrapped (by norm_num),
    abs_normalizeAxis_wrapped (by norm_num), abs_sub_comm (-170) (170 : ℝ),
    abs_sub_comm (-170) (85 : ℝ), hbefore, hafter]
  norm_num

end Alley

end TurretMaster

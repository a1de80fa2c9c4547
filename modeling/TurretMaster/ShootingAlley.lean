import TurretMaster.System

/-!
# A shooting alley

An engine in exact real arithmetic whose rotators come from the two-argument
arctangent, and a level of turrets with the default range and turn speed that
shoot at enemies.  All actors are native targets; actor 0 has no target type,
the others are stationary at their distance along the alley.
-/

namespace TurretMaster

/-- `FMath::Atan2` in degrees. -/
noncomputable def atan2Degrees (y x : ℝ) : ℝ :=
  FMath.radiansToDegrees (Complex.arg ⟨x, y⟩)

/-- The pitch of a direction, in degrees. -/
noncomputable def directionPitch (v : FVector ℝ) : ℝ :=
  atan2Degrees v.z √(v.x ^ 2 + v.y ^ 2)

/-- The yaw of a direction, in degrees. -/
noncomputable def directionYaw (v : FVector ℝ) : ℝ := atan2Degrees v.y v.x

/-- The roll of the frame that `MakeFromX` builds from a unit vector and the up
vector, or the forward vector where the unit vector is nearly vertical. -/
noncomputable def frameRoll (v : FVector ℝ) : ℝ :=
  let yaw := Complex.arg ⟨v.x, v.y⟩
  let newY : FVector ℝ :=
    if |v.z| < 1 - kindaSmallNumber then ⟨-v.y, v.x, 0⟩ else ⟨0, -v.z, v.y⟩
  let newZ : FVector ℝ :=
    ⟨v.y * newY.z - v.z * newY.y, v.z * newY.x - v.x * newY.z,
      v.x * newY.y - v.y * newY.x⟩
  let side : FVector ℝ := ⟨-Real.sin yaw, Real.cos yaw, 0⟩
  atan2Degrees (newZ.dot side) (newY.dot side)

/-- The angle is not negative exactly on the upper half plane. -/
theorem atan2Degrees_nonneg_iff {x y : ℝ} : 0 ≤ atan2Degrees y x ↔ 0 ≤ y := by
  have hpos : (0 : ℝ) < 180 / Real.pi := by positivity
  rw [atan2Degrees, FMath.radiansToDegrees, mul_nonneg_iff_of_pos_right hpos]
  exact Complex.arg_nonneg_iff

/-- A direction is pitched up, or level, exactly if it does not point down. -/
theorem directionPitch_nonneg_iff {v : FVector ℝ} : 0 ≤ directionPitch v ↔ 0 ≤ v.z :=
  atan2Degrees_nonneg_iff

/-- Straight to the side. -/
theorem atan2Degrees_pos_zero {y : ℝ} (hy : 0 < y) : atan2Degrees y 0 = 90 := by
  have harg : Complex.arg ⟨0, y⟩ = Real.pi / 2 :=
    Complex.arg_eq_pi_div_two_iff.mpr ⟨rfl, hy⟩
  rw [atan2Degrees, harg, FMath.radiansToDegrees]
  field_simp
  norm_num

/-- Straight ahead. -/
theorem atan2Degrees_eq_zero_iff {x y : ℝ} : atan2Degrees y x = 0 ↔ 0 ≤ x ∧ y = 0 := by
  have hscale : 180 / Real.pi ≠ 0 := by positivity
  rw [atan2Degrees, FMath.radiansToDegrees, mul_eq_zero, or_iff_left hscale]
  exact Complex.arg_eq_zero_iff

/-- The angle does not depend on the length. -/
theorem atan2Degrees_mul {k : ℝ} (hk : 0 < k) (y x : ℝ) :
    atan2Degrees (y * k) (x * k) = atan2Degrees y x := by
  have hscaled : (⟨x * k, y * k⟩ : ℂ) = (k : ℂ) * ⟨x, y⟩ := by
    apply Complex.ext <;> simp [mul_comm]
  rw [atan2Degrees, hscaled, Complex.arg_real_mul _ hk]
  rfl

/-- The yaw does not depend on the length. -/
theorem directionYaw_mul {k : ℝ} (hk : 0 < k) (v : FVector ℝ) :
    directionYaw (v * k) = directionYaw v := atan2Degrees_mul hk _ _

/-- Nor does the pitch. -/
theorem directionPitch_mul {k : ℝ} (hk : 0 < k) (v : FVector ℝ) :
    directionPitch (v * k) = directionPitch v := by
  have hlength : √((v.x * k) ^ 2 + (v.y * k) ^ 2) = √(v.x ^ 2 + v.y ^ 2) * k := by
    rw [mul_pow, mul_pow, ← add_mul, Real.sqrt_mul (by positivity), Real.sqrt_sq hk.le]
  rw [directionPitch, FVector.mul_def, hlength]
  exact atan2Degrees_mul hk _ _

/-- Normalizing scales by a positive factor. -/
theorem FVector.exists_normalize_eq [ExactEngine] (v : FVector ℝ) :
    ∃ k : ℝ, 0 < k ∧ v.normalize = v * k := by
  rw [FVector.normalize, ExactEngine.sqrt_eq]
  split_ifs with hlarge
  · have hroot : 0 < √(v.dot v) := Real.sqrt_pos.mpr (smallNumber_pos.trans hlarge)
    exact ⟨_, one_div_pos.mpr hroot, rfl⟩
  · exact ⟨1, one_pos, v.mul_one_eq.symm⟩

/-- So does the safe normal of a vector that is not too short. -/
theorem FVector.exists_getSafeNormal_eq [ExactEngine] {v : FVector ℝ}
    (hlarge : smallNumber ≤ v.dot v) : ∃ k : ℝ, 0 < k ∧ v.getSafeNormal = v * k := by
  rw [FVector.getSafeNormal, ExactEngine.sqrt_eq]
  split_ifs with hunit hsmall
  · exact ⟨1, one_pos, v.mul_one_eq.symm⟩
  · exact absurd hlarge (not_le.mpr hsmall)
  · have hroot : 0 < √(v.dot v) := Real.sqrt_pos.mpr (smallNumber_pos.trans_le hlarge)
    exact ⟨_, one_div_pos.mpr hroot, rfl⟩

/-- A level direction has no pitch. -/
theorem directionPitch_level {v : FVector ℝ} (hz : v.z = 0) : directionPitch v = 0 := by
  rw [directionPitch, hz]
  exact atan2Degrees_eq_zero_iff.mpr ⟨Real.sqrt_nonneg _, rfl⟩

/-- A direction is turned to the right, or straight, exactly if it does not point to
the left. -/
theorem directionYaw_nonneg_iff {v : FVector ℝ} : 0 ≤ directionYaw v ↔ 0 ≤ v.y :=
  atan2Degrees_nonneg_iff

/-- The size of the yaw. -/
theorem abs_directionYaw (v : FVector ℝ) :
    |directionYaw v| = |Complex.arg ⟨v.x, v.y⟩| * (180 / Real.pi) := by
  have hpos : (0 : ℝ) < 180 / Real.pi := by positivity
  rw [directionYaw, atan2Degrees, FMath.radiansToDegrees, abs_mul, abs_of_pos hpos]

/-- It is at most a half turn. -/
theorem abs_directionYaw_le (v : FVector ℝ) : |directionYaw v| ≤ 180 := by
  rw [abs_directionYaw, ← mul_div_assoc, div_le_iff₀ Real.pi_pos, mul_comm 180]
  exact mul_le_mul_of_nonneg_right (Complex.abs_arg_le_pi _) (by norm_num)

/-- What lies behind is more than a quarter turn away. -/
theorem lt_abs_directionYaw {v : FVector ℝ} (hbehind : v.x < 0) : 90 < |directionYaw v| := by
  have harg : Real.pi / 2 < |Complex.arg ⟨v.x, v.y⟩| := by
    rw [← not_le, Complex.abs_arg_le_pi_div_two_iff]
    exact not_le.mpr hbehind
  rw [abs_directionYaw, ← mul_div_assoc, lt_div_iff₀ Real.pi_pos]
  linarith

/-- Exact real arithmetic with the arctangent rotators. -/
@[reducible] noncomputable def atan2Engine : ExactEngine where
  sqrt := Real.sqrt
  loge := Real.log
  rotation v := ⟨directionPitch v, directionYaw v, 0⟩
  makeFromX v := ⟨directionPitch v, directionYaw v, frameRoll v⟩
  sqrt_eq _ := rfl
  loge_eq _ := rfl

attribute [local instance] atan2Engine

/-- The aim at a point has the pitch and the yaw of the way to it. -/
theorem interceptionRotation_pitch (c : Scene ℕ ℕ ℝ) (a : ℕ) (point : FVector ℝ) :
    (interceptionRotation c a point).pitch =
      directionPitch (point - c.rotationPointLocation a) := by
  obtain ⟨k, hk, hnormalize⟩ :=
    (point - c.rotationPointLocation a).exists_normalize_eq
  rw [interceptionRotation, hnormalize]
  exact directionPitch_mul hk _

/-- The yaw of the aim is the one of the direction to the point. -/
theorem interceptionRotation_yaw (c : Scene ℕ ℕ ℝ) (a : ℕ) (point : FVector ℝ) :
    (interceptionRotation c a point).yaw =
      directionYaw (point - c.rotationPointLocation a) := by
  obtain ⟨k, hk, hnormalize⟩ :=
    (point - c.rotationPointLocation a).exists_normalize_eq
  rw [interceptionRotation, hnormalize]
  exact directionYaw_mul hk _

/-- Every turret shoots at enemies; broadcasts walk the invocation list from
its end. -/
noncomputable def alley : Level ℕ ℕ ℝ where
  implements _ := true
  native _ := true
  native_implements _ _ := rfl
  targetableTags _ := [TMGameplayTags.targetEnemy]
  range _ := 5000
  turnSpeed _ := 5
  broadcastOrder := List.reverse
  broadcastOrder_perm := List.reverse_perm

/-- The alley while nobody moves: actor `t` stands `100 * t` units to the right.
-/
noncomputable def alleyScene : Scene ℕ ℕ ℝ where
  isTargetable _ := true
  targetTags t :=
    if t = 0 then [TMGameplayTags.targetEnemy]
    else [TMGameplayTags.targetEnemy, TMGameplayTags.targetTypeStationary]
  targetData t := ⟨⟨0, 100 * t, 100⟩, 0⟩
  actorLocation _ := 0
  actorForwardVector _ := ⟨1, 0, 0⟩
  rotationPointLocation _ := ⟨0, 0, 100⟩
  centerMuzzleLocation _ := ⟨0, 0, 100⟩
  turretAreaRadius _ := 5000
  deltaSeconds := 1 / 60

/-- The alley with every actor standing at one point. -/
noncomputable def alleySceneAt (point : FVector ℝ) : Scene ℕ ℕ ℝ :=
  { alleyScene with targetData := fun _ => ⟨point, 0⟩ }

/-- A turret before its `BeginPlay`. -/
noncomputable def freshTurret : ATurret ℕ ℝ where
  rotationPoint := 0
  activeTargets := []
  currentTarget := ⟨none, FGameplayTag.empty⟩
  targetInterceptionRotation := 0
  actorTickEnabled := true

/-- The alley after every `BeginPlay`. -/
noncomputable def alleyStart : World ℕ ℕ ℝ where
  turret a := freshTurret.updateTickState (getIdleRotation alleyScene a)
  onTargetDestroyed _ := []
  spawning := none

/-- The start is a first state. -/
theorem alleyStart_initial : Initial alleyStart := by
  constructor <;> simp [alleyStart, freshTurret, ATurret.updateTickState_eq]

variable {w : World ℕ ℕ ℝ} {a b t k : ℕ}

/-- Every turret accepts the tags of every actor. -/
theorem alley_tags (t : ℕ) :
    (alley.targetableTags a).hasAnyExact (alleyScene.targetTags t) = true := by
  by_cases ht : t = 0 <;> simp [alley, alleyScene, ht, FGameplayTagContainer.hasAnyExact]

/-- The untyped actor has no valid interception point. -/
theorem alley_interceptionOf_zero (rotation : FRotator ℝ) :
    interceptionOf alley alleyScene a rotation 0 = (false, 0) := rfl

/-- Every actor but 0 is stationary. -/
theorem alley_determinedType (ht : t ≠ 0) :
    determinedType alleyScene t = TMGameplayTags.targetTypeStationary := by
  simp only [determinedType, alleyScene, ht, if_false]
  rfl

/-- The point of a stationary actor is where it stands. -/
theorem alley_interceptionOf_stationary (rotation : FRotator ℝ) (ht : t ≠ 0) :
    interceptionOf alley alleyScene a rotation t =
      (isPointWithinRange alley alleyScene a ⟨0, 100 * t, 100⟩, ⟨0, 100 * t, 100⟩) := by
  rw [interceptionOf, alley_determinedType ht]
  rfl

/-- The range of a turret at the world origin. -/
theorem alley_inRange {c : Scene ℕ ℕ ℝ} (horigin : c.actorLocation a = 0) {point : FVector ℝ}
    (hpoint : point.dot point ≤ 5000 ^ 2) : isPointWithinRange alley c a point = true := by
  have hoffset : point - c.actorLocation a = point := by
    rw [horigin, FVector.sub_zero_eq]
  have hdist : √(point.dot point) ≤ 5000 := by
    rw [Real.sqrt_le_left (by norm_num)]
    exact hpoint
  rw [isPointWithinRange, FVector.dist, hoffset]
  exact decide_eq_true hdist

/-- Any actor that a turret does not track yet is admitted. -/
theorem alley_enter (hnew : some t ∉ (w.turret a).activeTargets) :
    Step alley w (.beginOverlap alleyScene a (some t) k) (admitTarget alleyScene w a t) := by
  refine ⟨trivial, ?_⟩
  have htags := alley_tags (a := a) t
  have htargetable : alleyScene.isTargetable t = true := rfl
  have himplements : alley.implements t = true := rfl
  have hnative : alley.native t = true := rfl
  simp [handle, onBeginOverlap, himplements, hnative, hnew, htargetable, htags, admitTarget]

/-- At the start every actor is new. -/
theorem alleyStart_enter : Step alley alleyStart (.beginOverlap alleyScene a (some t) k)
    (admitTarget alleyScene alleyStart a t) :=
  alley_enter (by simp [alleyStart_initial.activeTargets a])

/-- Any actor that leaves is removed. -/
theorem alley_leave :
    Step alley w (.endOverlap alleyScene a (some t) k) (removeTarget alleyScene w a t) :=
  ⟨trivial, rfl⟩

/-- A death reaches the turret that was bound last. -/
theorem alley_death (hlast : (w.onTargetDestroyed t).getLast? = some a) :
    Step alley w (.death alleyScene t) (removeTarget alleyScene w a t) := by
  refine ⟨rfl, ?_⟩
  have hfirst : (alley.broadcastOrder (w.onTargetDestroyed t)).head? = some a := by
    simpa [alley] using hlast
  simp only [handle, death_eq alleyScene (L := alley) (t := t) rfl, hfirst]

end TurretMaster

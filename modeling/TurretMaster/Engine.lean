import Mathlib

/-!
# Engine arithmetic

The vectors, rotators and scalar helpers of the engine that the turret code
calls.  Scalars are any ordered field: `float` and `double` are one type here
and conversions between them are the identity.  What the engine computes
outside field arithmetic (square root, logarithm, the rotator of a direction)
is the class `Engine`; `ExactEngine` is the case of exact real arithmetic.
-/

namespace TurretMaster

/-- `KINDA_SMALL_NUMBER`: the default tolerance. -/
def kindaSmallNumber {K : Type} [Field K] : K := 1 / 10 ^ 4

/-- `SMALL_NUMBER`: the tolerance of normalisation and of `FInterpTo`. -/
def smallNumber {K : Type} [Field K] : K := 1 / 10 ^ 8

/-- `BIG_NUMBER`: the rotation time of a turret that cannot turn. -/
def bigNumber {K : Type} [Field K] : K := 34 * 10 ^ 37

/-- The default tolerance is positive. -/
theorem kindaSmallNumber_pos {K : Type} [Field K] [LinearOrder K] [IsStrictOrderedRing K] :
    (0 : K) < kindaSmallNumber := by
  rw [kindaSmallNumber]
  positivity

/-- So is the smaller one. -/
theorem smallNumber_pos {K : Type} [Field K] [LinearOrder K] [IsStrictOrderedRing K] :
    (0 : K) < smallNumber := by
  rw [smallNumber]
  positivity

/-- A vector of the engine. -/
@[ext]
structure FVector (K : Type) where
  x : K
  y : K
  z : K
deriving DecidableEq

/-- A rotation of the engine, in degrees. -/
@[ext]
structure FRotator (K : Type) where
  pitch : K
  yaw : K
  roll : K
deriving DecidableEq

/-- The engine functions that are no field arithmetic: `FMath::Sqrt`,
`FMath::Loge`, `FVector::Rotation` and `FRotationMatrix::MakeFromX(v).Rotator()`. -/
class Engine (K : Type) where
  sqrt : K → K
  loge : K → K
  rotation : FVector K → FRotator K
  makeFromX : FVector K → FRotator K

/-- Exact real arithmetic: the true square root and logarithm.  The two
rotator functions stay those of whichever engine it is. -/
class ExactEngine extends Engine ℝ where
  sqrt_eq : ∀ x, sqrt x = √x
  loge_eq : ∀ x, loge x = Real.log x

variable {K : Type} [Field K]

namespace FVector

/-- `FVector::ZeroVector`. -/
instance : Zero (FVector K) := ⟨⟨0, 0, 0⟩⟩

instance : Add (FVector K) := ⟨fun v w => ⟨v.x + w.x, v.y + w.y, v.z + w.z⟩⟩

instance : Sub (FVector K) := ⟨fun v w => ⟨v.x - w.x, v.y - w.y, v.z - w.z⟩⟩

instance : HMul (FVector K) K (FVector K) :=
  ⟨fun v k => ⟨v.x * k, v.y * k, v.z * k⟩⟩

@[simp] theorem zero_x : (0 : FVector K).x = 0 := rfl

@[simp] theorem zero_y : (0 : FVector K).y = 0 := rfl

@[simp] theorem zero_z : (0 : FVector K).z = 0 := rfl

/-- Vectors are added by components. -/
theorem add_def (v w : FVector K) :
    v + w = ⟨v.x + w.x, v.y + w.y, v.z + w.z⟩ := rfl

/-- Vectors are subtracted by components. -/
theorem sub_def (v w : FVector K) :
    v - w = ⟨v.x - w.x, v.y - w.y, v.z - w.z⟩ := rfl

/-- Vectors are scaled by components. -/
theorem mul_def (v : FVector K) (k : K) :
    v * k = ⟨v.x * k, v.y * k, v.z * k⟩ := rfl

/-- Scaling by one changes nothing. -/
theorem mul_one_eq (v : FVector K) : v * (1 : K) = v := by
  ext <;> simp [mul_def]

/-- Nor does subtracting the zero vector. -/
theorem sub_zero_eq (v : FVector K) : v - 0 = v := by
  ext <;> simp [sub_def]

/-- `FVector::DotProduct`. -/
def dot (v w : FVector K) : K := v.x * w.x + v.y * w.y + v.z * w.z

variable [LinearOrder K]

/-- Every component is within the tolerance of zero. -/
def isNearlyZero (v : FVector K) (tolerance : K) : Bool :=
  |v.x| ≤ tolerance && |v.y| ≤ tolerance && |v.z| ≤ tolerance

/-- `FVector::IsZero`: the exact test. -/
def isZero (v : FVector K) : Bool := v.x = 0 && v.y = 0 && v.z = 0

variable [Engine K]

/-- `FVector::Dist`. -/
def dist (v w : FVector K) : K := Engine.sqrt ((v - w).dot (v - w))

/-- `GetSafeNormal` with its default tolerance. -/
def getSafeNormal (v : FVector K) : FVector K :=
  if v.dot v = 1 then v
  else if v.dot v < smallNumber then 0
  else v * (1 / Engine.sqrt (v.dot v))

/-- `Normalize` with its default tolerance; a nearly zero vector is left
as it is. -/
def normalize (v : FVector K) : FVector K :=
  if smallNumber < v.dot v then v * (1 / Engine.sqrt (v.dot v)) else v

end FVector

namespace FMath

variable [LinearOrder K]

/-- `FMath::Clamp`. -/
def clamp (x lo hi : K) : K := max lo (min x hi)

/-- `FMath::IsNearlyZero`. -/
def isNearlyZero (x tolerance : K) : Bool := |x| ≤ tolerance

/-- The angle from `a1` to `a2`, wrapped once into the half circle. -/
def findDeltaAngleDegrees (a1 a2 : K) : K :=
  if 180 < a2 - a1 then a2 - a1 - 360
  else if a2 - a1 < -180 then a2 - a1 + 360
  else a2 - a1

/-- One frame of interpolation between two plain numbers. -/
def fInterpTo (current target deltaTime interpSpeed : K) : K :=
  if interpSpeed ≤ 0 then target
  else if (target - current) ^ 2 < smallNumber then target
  else current + (target - current) * clamp (deltaTime * interpSpeed) 0 1

/-- `FMath::RadiansToDegrees`. -/
noncomputable def radiansToDegrees (radians : ℝ) : ℝ := radians * (180 / Real.pi)

/-- `FMath::DegreesToRadians`. -/
noncomputable def degreesToRadians (degrees : ℝ) : ℝ := degrees * (Real.pi / 180)

end FMath

namespace FRotator

/-- `FRotator::ZeroRotator`. -/
instance : Zero (FRotator K) := ⟨⟨0, 0, 0⟩⟩

@[simp] theorem zero_pitch : (0 : FRotator K).pitch = 0 := rfl

@[simp] theorem zero_yaw : (0 : FRotator K).yaw = 0 := rfl

@[simp] theorem zero_roll : (0 : FRotator K).roll = 0 := rfl

variable [LinearOrder K] [FloorRing K]

/-- The angle modulo 360, in `[0, 360)`. -/
def clampAxis (angle : K) : K := angle - 360 * ⌊angle / 360⌋

/-- The angle modulo 360, in `(-180, 180]`. -/
def normalizeAxis (angle : K) : K :=
  if 180 < clampAxis angle then clampAxis angle - 360 else clampAxis angle

/-- `FRotator::Equals`: componentwise, modulo full turns. -/
def equals (r s : FRotator K) (tolerance : K) : Bool :=
  |normalizeAxis (r.pitch - s.pitch)| ≤ tolerance &&
  |normalizeAxis (r.yaw - s.yaw)| ≤ tolerance &&
  |normalizeAxis (r.roll - s.roll)| ≤ tolerance

/-- The zero angle is normalised. -/
@[simp] theorem normalizeAxis_zero [IsStrictOrderedRing K] :
    normalizeAxis (0 : K) = 0 := by
  simp [normalizeAxis, clampAxis]

/-- The normal form of an angle is some full turns away from it. -/
theorem exists_normalizeAxis_eq (angle : K) :
    ∃ turns : ℤ, normalizeAxis angle = angle + turns * 360 := by
  rw [normalizeAxis, clampAxis]
  split_ifs with hhalf
  · refine ⟨-⌊angle / 360⌋ - 1, ?_⟩
    push_cast
    ring
  · refine ⟨-⌊angle / 360⌋, ?_⟩
    push_cast
    ring

/-- An angle of less than a full turn is small if its normal form is. -/
theorem abs_le_of_normalizeAxis [IsStrictOrderedRing K] {angle tolerance : K}
    (hangle : |angle| + tolerance < 360) (h : |normalizeAxis angle| ≤ tolerance) :
    |angle| ≤ tolerance := by
  obtain ⟨turns, hturns⟩ := exists_normalizeAxis_eq angle
  rw [hturns] at h
  rcases eq_or_ne turns 0 with rfl | hne
  · simpa using h
  · have hone : (1 : K) ≤ |(turns : K)| := by
      rw [← Int.cast_abs]
      exact_mod_cast Int.one_le_abs hne
    have hfull : |(turns : K) * 360| ≤ |angle + turns * 360| + |angle| := by
      have hsub := abs_sub (angle + turns * 360) angle
      rwa [add_sub_cancel_left] at hsub
    rw [abs_mul, abs_of_pos (by norm_num : (0 : K) < 360)] at hfull
    linarith

/-- Inside the half circle an angle is its own normal form, up to the sign of
a half turn. -/
theorem abs_normalizeAxis [IsStrictOrderedRing K] {angle : K} (h : |angle| ≤ 180) :
    |normalizeAxis angle| = |angle| := by
  obtain ⟨hlower, hupper⟩ := abs_le.mp h
  rcases le_or_gt 0 angle with hsign | hsign
  · have hfloor : ⌊angle / 360⌋ = 0 := by
      rw [Int.floor_eq_zero_iff]
      constructor <;> linarith
    have hclamp : clampAxis angle = angle := by simp [clampAxis, hfloor]
    rw [normalizeAxis, hclamp, if_neg (not_lt.mpr hupper)]
  · have hfloor : ⌊angle / 360⌋ = -1 := by
      rw [Int.floor_eq_iff]
      constructor <;> push_cast <;> linarith
    have hclamp : clampAxis angle = angle + 360 := by
      rw [clampAxis, hfloor]
      push_cast
      ring
    rw [normalizeAxis, hclamp]
    split_ifs with hhalf
    · rw [add_sub_cancel_right]
    · have hhalfTurn : angle = -180 := by linarith
      rw [hhalfTurn]
      norm_num

end FRotator

end TurretMaster

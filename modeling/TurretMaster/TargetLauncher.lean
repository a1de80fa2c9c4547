import TurretMaster.ShotAccuracy

/-!
# The target launcher

`ATargetLauncher::LaunchTarget` and the random spread of its targets.  Two
draws turn the rotation of the arrow by up to `MaxSpreadAngle` in yaw and in
pitch, each on its own; the directions that come out are no cone about the
arrow.

* `launchTarget_isSome_iff` — when anything is launched;
* `launches_iff` — which launches the draws can give;
* `launch_spread` — how far the directions are from the arrow;
* `spread_leaves_cone` — that some are further away than the spread angle.
-/

namespace TurretMaster

open Directions InnerProductGeometry FMath

/-! ## Launching -/

/-- What `LaunchTarget` reads of an arrow component. -/
structure UArrowComponent (K : Type) where
  componentRotation : FRotator K
  componentLocation : FVector K
  forwardVector : FVector K

/-- The fields of a launcher; the classes of targets are named by `κ`. -/
structure ATargetLauncher (κ K : Type) [NatCast K] where
  forwardArrow : UArrowComponent K
  projectileClass : Option κ
  maxSpreadAngle : K := 5

/-- The arguments of `SpawnActor`. -/
structure SpawnRequest (κ K : Type) where
  projectileClass : κ
  location : FVector K
  rotation : FRotator K

/-- What `FMath::FRand` can return. -/
abbrev FRand (K : Type) [Field K] [LinearOrder K] : Type := Set.Icc (0 : K) 1

section Launch

variable {κ K : Type} [Field K] [LinearOrder K]

/-- `FMath::RandRange` with the result of `FRand`. -/
def FMath.randRange (lo hi : K) (fRand : FRand K) : K := lo + (hi - lo) * fRand

/-- What is spawned, if anything is. `GetWorld()` is null in a launcher that
has no world. -/
def launchTarget (launcher : ATargetLauncher κ K) (hasWorld : Bool) (yawRand pitchRand : FRand K) :
    Option (SpawnRequest κ K) :=
  match launcher.projectileClass with
  | none => none
  | some projectileClass =>
      if !hasWorld then none
      else
        let spread := launcher.maxSpreadAngle
        let randomYaw := FMath.randRange (-spread) spread yawRand
        let randomPitch := FMath.randRange (-spread) spread pitchRand
        let arrow := launcher.forwardArrow
        let adjustedRotation : FRotator K :=
          { arrow.componentRotation with
            yaw := arrow.componentRotation.yaw + randomYaw
            pitch := arrow.componentRotation.pitch + randomPitch }
        let adjustedLocation := arrow.componentLocation + arrow.forwardVector * (30 : K)
        some ⟨projectileClass, adjustedLocation, adjustedRotation⟩

variable {launcher : ATargetLauncher κ K} {request : SpawnRequest κ K} {hasWorld : Bool}
variable {yawRand pitchRand : FRand K}

/-- Nothing is launched without a class or without a world. -/
theorem launchTarget_isSome_iff :
    (launchTarget launcher hasWorld yawRand pitchRand).isSome = true ↔
      launcher.projectileClass ≠ none ∧ hasWorld = true := by
  unfold launchTarget
  cases launcher.projectileClass <;> cases hasWorld <;> simp

variable [IsStrictOrderedRing K]

/-- The draws of a symmetric range are the numbers that are not larger. -/
theorem exists_randRange_iff (spread x : K) :
    (∃ fRand : FRand K, FMath.randRange (-spread) spread fRand = x) ↔ |x| ≤ |spread| := by
  constructor
  · rintro ⟨⟨r, hr0, hr1⟩, rfl⟩
    have hshape : FMath.randRange (-spread) spread ⟨r, hr0, hr1⟩ = spread * (2 * r - 1) := by
      rw [FMath.randRange]
      ring
    have hr : |2 * r - 1| ≤ 1 := by
      rw [abs_le]
      constructor <;> linarith
    rw [hshape, abs_mul]
    exact mul_le_of_le_one_right (abs_nonneg _) hr
  · intro hx
    by_cases hspread : spread = 0
    · subst hspread
      have hzero : x = 0 := abs_nonpos_iff.mp (by simpa using hx)
      exact ⟨⟨0, le_rfl, zero_le_one⟩, by simp [FMath.randRange, hzero]⟩
    · have hratio : |x / spread| ≤ 1 := by
        rw [abs_div]
        exact div_le_one_of_le₀ hx (abs_nonneg _)
      obtain ⟨hlo, hhi⟩ := abs_le.mp hratio
      refine ⟨⟨(1 + x / spread) / 2, by linarith, by linarith⟩, ?_⟩
      rw [FMath.randRange]
      field_simp
      ring

/-- **Which launches the draws can give**: the rotations in the square about
the one of the arrow, with its roll, all from the same place. -/
theorem launches_iff :
    (∃ yawRand pitchRand, launchTarget launcher true yawRand pitchRand = some request) ↔
      launcher.projectileClass = some request.projectileClass ∧
      request.location = launcher.forwardArrow.componentLocation +
        launcher.forwardArrow.forwardVector * (30 : K) ∧
      request.rotation.roll = launcher.forwardArrow.componentRotation.roll ∧
      |request.rotation.yaw - launcher.forwardArrow.componentRotation.yaw| ≤
        |launcher.maxSpreadAngle| ∧
      |request.rotation.pitch - launcher.forwardArrow.componentRotation.pitch| ≤
        |launcher.maxSpreadAngle| := by
  obtain ⟨arrow, projectileClass, spread⟩ := launcher
  obtain ⟨requestClass, location, pitch, yaw, roll⟩ := request
  cases projectileClass with
  | none => simp [launchTarget]
  | some k =>
      rw [← exists_randRange_iff, ← exists_randRange_iff]
      simp only [launchTarget, Bool.not_true, Bool.false_eq_true, if_false, Option.some.injEq,
        SpawnRequest.mk.injEq, FRotator.mk.injEq, eq_sub_iff_add_eq']
      constructor
      · rintro ⟨yawRand, pitchRand, hclass, hlocation, hpitch, hyaw, hroll⟩
        exact ⟨hclass, hlocation.symm, hroll.symm, ⟨yawRand, hyaw⟩, ⟨pitchRand, hpitch⟩⟩
      · rintro ⟨hclass, hlocation, hroll, ⟨yawRand, hyaw⟩, ⟨pitchRand, hpitch⟩⟩
        exact ⟨yawRand, pitchRand, hclass, hlocation.symm, hpitch, hyaw, hroll.symm⟩

/-- Any turn within the spread is launched by some draws. -/
theorem exists_launch (launcher : ATargetLauncher κ K) {k : κ}
    (hclass : launcher.projectileClass = some k) {yaw pitch : K}
    (hyaw : |yaw| ≤ |launcher.maxSpreadAngle|) (hpitch : |pitch| ≤ |launcher.maxSpreadAngle|) :
    ∃ yawRand pitchRand, launchTarget launcher true yawRand pitchRand =
      some ⟨k, launcher.forwardArrow.componentLocation +
          launcher.forwardArrow.forwardVector * (30 : K),
        ⟨launcher.forwardArrow.componentRotation.pitch + pitch,
          launcher.forwardArrow.componentRotation.yaw + yaw,
          launcher.forwardArrow.componentRotation.roll⟩⟩ := by
  refine launches_iff.mpr ⟨hclass, rfl, rfl, ?_, ?_⟩
  · rwa [add_sub_cancel_left]
  · rwa [add_sub_cancel_left]

end Launch

/-! ## The spread -/

section Spread

variable {κ : Type} {launcher : ATargetLauncher κ ℝ} {request : SpawnRequest κ ℝ}
variable {hasWorld : Bool} {yawRand pitchRand : FRand ℝ} {k : κ}

/-- What is launched is launched in a world. -/
theorem launched_of_some
    (h : launchTarget launcher hasWorld yawRand pitchRand = some request) :
    launchTarget launcher true yawRand pitchRand = some request := by
  have hsome : (launchTarget launcher hasWorld yawRand pitchRand).isSome = true := by rw [h]; rfl
  rw [← (launchTarget_isSome_iff.mp hsome).2]
  exact h

/-- The way from the arrow to the place of the launch is the one of the arrow,
for its length. -/
theorem launch_way (harrow : launcher.forwardArrow.forwardVector =
      launcher.forwardArrow.componentRotation.vector)
    (hlocation : request.location = launcher.forwardArrow.componentLocation +
      launcher.forwardArrow.forwardVector * (30 : ℝ)) :
    request.location.toSpace - launcher.forwardArrow.componentLocation.toSpace =
      (30 : ℝ) • launcher.forwardArrow.componentRotation.vector.toSpace := by
  rw [hlocation, harrow, FVector.toSpace_add, FVector.toSpace_mul, add_sub_cancel_left]

/-- From below the horizon to the far corner of the square above it. -/
theorem exists_widest_launch (spread : ℝ) (k : κ) :
    ∃ (launcher : ATargetLauncher κ ℝ) (yawRand pitchRand : FRand ℝ) (request : SpawnRequest κ ℝ),
      launcher.maxSpreadAngle = spread ∧ launcher.projectileClass = some k ∧
      launcher.forwardArrow.forwardVector = launcher.forwardArrow.componentRotation.vector ∧
      launchTarget launcher true yawRand pitchRand = some request ∧
      angle request.rotation.vector.toSpace
          (request.location.toSpace - launcher.forwardArrow.componentLocation.toSpace) =
        widest (degreesToRadians (min |spread| 180)) := by
  -- the draws cannot exceed the spread, and need not exceed a half turn
  have hturn : |min |spread| 180| ≤ |spread| := by
    rw [abs_of_nonneg (le_min (abs_nonneg _) (by norm_num))]
    exact min_le_left _ _
  generalize min |spread| 180 = turn at hturn ⊢
  have hup : -(turn / 2) + turn = turn / 2 := by ring
  obtain ⟨yawRand, pitchRand, hlaunch⟩ := exists_launch
    (⟨⟨⟨-(turn / 2), 0, 0⟩, 0, (⟨-(turn / 2), 0, 0⟩ : FRotator ℝ).vector⟩, some k, spread⟩ :
      ATargetLauncher κ ℝ) rfl hturn hturn
  refine ⟨_, yawRand, pitchRand, _, rfl, rfl, rfl, hlaunch, ?_⟩
  dsimp only
  rw [hup, zero_add, FVector.toSpace_add, FVector.toSpace_mul, add_sub_cancel_left,
    angle_smul_right_of_pos _ _ (by norm_num), angle_comm]
  exact FRotator.angle_vector_widest turn

/-- Turns by at most the spread leave a direction within its largest angle,
which beyond half a turn is any. -/
theorem angle_vector_le_of_spread {r s : FRotator ℝ} {spread : ℝ}
    (hyaw : |r.yaw - s.yaw| ≤ |spread|) (hpitch : |r.pitch - s.pitch| ≤ |spread|) :
    angle r.vector.toSpace s.vector.toSpace ≤
      widest (degreesToRadians (min |spread| 180)) := by
  rcases le_total |spread| 180 with hsmall | hlarge
  · have hturn : degreesToRadians |spread| ≤ Real.pi := by
      rw [← degreesToRadians_half_turn]
      exact degreesToRadians_le hsmall
    rw [min_eq_left hsmall, FRotator.toSpace_vector, FRotator.toSpace_vector]
    refine angle_direction_le hturn ?_ ?_
    · rw [← degreesToRadians_sub, abs_degreesToRadians]
      exact degreesToRadians_le hpitch
    · rw [← degreesToRadians_sub, abs_degreesToRadians]
      exact degreesToRadians_le hyaw
  · rw [min_eq_right hlarge, degreesToRadians_half_turn, widest_pi]
    exact angle_le_pi _ _

/-- **How far a target is off.** Whatever the draws, a launched target starts
30 units in front of the arrow, and its direction is at most the largest angle
of the spread away from the line between the two; and for every spread there
are launchers and draws that are off by that much. -/
theorem launch_spread (spread : ℝ) (k : κ) :
    (∀ (launcher : ATargetLauncher κ ℝ) (hasWorld : Bool) (yawRand pitchRand : FRand ℝ)
        (request : SpawnRequest κ ℝ), launcher.maxSpreadAngle = spread →
      launcher.forwardArrow.forwardVector = launcher.forwardArrow.componentRotation.vector →
      launchTarget launcher hasWorld yawRand pitchRand = some request →
      ‖request.location.toSpace - launcher.forwardArrow.componentLocation.toSpace‖ = 30 ∧
      angle request.rotation.vector.toSpace
          (request.location.toSpace - launcher.forwardArrow.componentLocation.toSpace) ≤
        widest (degreesToRadians (min |spread| 180))) ∧
    ∃ (launcher : ATargetLauncher κ ℝ) (yawRand pitchRand : FRand ℝ) (request : SpawnRequest κ ℝ),
      launcher.maxSpreadAngle = spread ∧ launcher.projectileClass = some k ∧
      launcher.forwardArrow.forwardVector = launcher.forwardArrow.componentRotation.vector ∧
      launchTarget launcher true yawRand pitchRand = some request ∧
      angle request.rotation.vector.toSpace
          (request.location.toSpace - launcher.forwardArrow.componentLocation.toSpace) =
        widest (degreesToRadians (min |spread| 180)) := by
  refine ⟨?_, exists_widest_launch spread k⟩
  rintro launcher hasWorld yawRand pitchRand request rfl harrow hlaunch
  obtain ⟨-, hlocation, -, hyaw, hpitch⟩ :=
    launches_iff.mp ⟨yawRand, pitchRand, launched_of_some hlaunch⟩
  rw [launch_way harrow hlocation, angle_smul_right_of_pos _ _ (by norm_num), norm_smul,
    FRotator.norm_vector]
  exact ⟨by norm_num, angle_vector_le_of_spread hyaw hpitch⟩

/-- **No cone.** If the arrow is not vertical and the spread less than a right
angle, some draws launch a target further away from the arrow's direction than
`MaxSpreadAngle`. -/
theorem spread_leaves_cone (hclass : launcher.projectileClass = some k)
    (harrow : launcher.forwardArrow.forwardVector =
      launcher.forwardArrow.componentRotation.vector)
    (hsteep : |launcher.forwardArrow.componentRotation.pitch| < 90)
    (hpos : 0 < launcher.maxSpreadAngle) (hlt : launcher.maxSpreadAngle < 90) :
    ∃ yawRand pitchRand request, launchTarget launcher true yawRand pitchRand = some request ∧
      degreesToRadians launcher.maxSpreadAngle <
        angle request.rotation.vector.toSpace launcher.forwardArrow.forwardVector.toSpace := by
  have hquarter : degreesToRadians 90 = Real.pi / 2 := by
    rw [← degreesToRadians_half_turn, ← degreesToRadians_half]
    norm_num
  have hlt' : degreesToRadians launcher.maxSpreadAngle < Real.pi / 2 := by
    rw [← hquarter]
    exact degreesToRadians_strictMono hlt
  have hpos' : 0 < degreesToRadians launcher.maxSpreadAngle := by
    rw [degreesToRadians]
    positivity
  have hsteep' : |degreesToRadians launcher.forwardArrow.componentRotation.pitch| <
      Real.pi / 2 := by
    rw [abs_degreesToRadians, ← hquarter]
    exact degreesToRadians_strictMono hsteep
  obtain ⟨p', hdiff, hangle⟩ := exists_angle_gt hsteep' hpos' hlt'
    (degreesToRadians launcher.forwardArrow.componentRotation.yaw)
  have hback := degreesToRadians_radiansToDegrees p'
  have hpitch : |radiansToDegrees p' - launcher.forwardArrow.componentRotation.pitch| =
      launcher.maxSpreadAngle := by
    apply degreesToRadians_strictMono.injective
    rw [← abs_degreesToRadians, degreesToRadians_sub, hback, hdiff]
  obtain ⟨yawRand, pitchRand, hlaunch⟩ :=
    exists_launch launcher hclass le_rfl (hpitch.trans_le (le_abs_self _))
  refine ⟨yawRand, pitchRand, _, hlaunch, ?_⟩
  rw [harrow, FRotator.toSpace_vector, FRotator.toSpace_vector, angle_comm, add_sub_cancel, hback,
    degreesToRadians_add]
  exact hangle

end Spread

section Default

/-- A launcher whose arrow is level. -/
noncomputable def levelLauncher (spread : ℝ) : ATargetLauncher Unit ℝ where
  forwardArrow := ⟨0, 0, (0 : FRotator ℝ).vector⟩
  projectileClass := some ()
  maxSpreadAngle := spread

/-- With the default spread it launches no target further off than the largest
angle of five degrees, and some launcher with that spread does launch one that far off. -/
theorem launch_spread_default :
    (∀ yawRand pitchRand request,
      launchTarget (levelLauncher 5) true yawRand pitchRand = some request →
      angle request.rotation.vector.toSpace
          (request.location.toSpace - (levelLauncher 5).forwardArrow.componentLocation.toSpace) ≤
        widest (degreesToRadians 5)) ∧
    ∃ (launcher : ATargetLauncher Unit ℝ) (request : SpawnRequest Unit ℝ),
      launcher.maxSpreadAngle = 5 ∧
      ‖request.location.toSpace - launcher.forwardArrow.componentLocation.toSpace‖ = 30 ∧
      angle request.rotation.vector.toSpace
          (request.location.toSpace - launcher.forwardArrow.componentLocation.toSpace) =
        widest (degreesToRadians 5) := by
  obtain ⟨hbound, launcher, yawRand, pitchRand, request, hspread, -, harrow, hlaunch, hwidest⟩ :=
    launch_spread 5 ()
  have hfive : min |(5 : ℝ)| 180 = 5 := by norm_num
  rw [hfive] at hbound hwidest
  refine ⟨fun yawRand pitchRand request h =>
    (hbound (levelLauncher 5) true yawRand pitchRand request rfl rfl h).2,
    launcher, request, hspread,
    (hbound launcher true yawRand pitchRand request hspread harrow hlaunch).1, hwidest⟩

/-- It launches some of them outside the cone. -/
theorem spread_leaves_cone_default :
    ∃ yawRand pitchRand request,
      launchTarget (levelLauncher 5) true yawRand pitchRand = some request ∧
      degreesToRadians (levelLauncher 5).maxSpreadAngle <
        angle request.rotation.vector.toSpace
          (levelLauncher 5).forwardArrow.forwardVector.toSpace :=
  spread_leaves_cone rfl rfl (by norm_num [levelLauncher]) (by norm_num [levelLauncher])
    (by norm_num [levelLauncher])

end Default

end TurretMaster

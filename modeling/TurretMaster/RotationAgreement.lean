import TurretMaster.ClampedDecay
import TurretMaster.ShootingAlley

/-!
# Predicted and executed rotation

The interception handler predicts how long a turret turns towards a rotation
until it is within one degree; `Tick` fires once the turret is within half a
degree.  Both describe the same decay, frame by frame the executed one is never
slower than the prediction, but they stop at different angles.

* `turnFrames_rotationPoint` — the rotation after any frames;
* `decayed_le_of_time`, `exists_frames_gt` — the predicted time is enough for
  all frames, and no shorter time is;
* `aligned_after_frames_iff` — when the time until one degree is.
-/

namespace TurretMaster

open ClampedDecay

section Frames

variable {α K : Type} [Field K]

/-- The step of each frame, before it is clamped. -/
def frameSteps (turnSpeed : K) (frames : List K) : List K := frames.map (· * turnSpeed)

/-- Together they are the step of the whole time. -/
theorem sum_frameSteps (turnSpeed : K) (frames : List K) :
    (frameSteps turnSpeed frames).sum = frames.sum * turnSpeed := by
  rw [frameSteps, List.sum_map_mul_right, List.map_id']

variable [LinearOrder K]

/-- `SetPitch` and `SetYaw` towards `target`, once for each frame. -/
def ATurret.turnFrames (u : ATurret α K) (target : FRotator K) (turnSpeed : K)
    (frames : List K) : ATurret α K :=
  frames.foldl (fun u deltaSeconds => u.turnTowards target deltaSeconds turnSpeed) u

/-- The share of the way that a step covers. -/
theorem clamp_eq_one_sub_remaining (step : K) :
    FMath.clamp step 0 1 = 1 - remaining step := by
  rw [remaining, FMath.clamp]
  ring

/-- One frame leaves the error that one clamped step leaves. -/
theorem fInterpTo_error {interpSpeed : K} (hspeed : 0 < interpSpeed)
    (current target deltaTime : K) :
    target - FMath.fInterpTo current target deltaTime interpSpeed =
      snapStep smallNumber (target - current) (deltaTime * interpSpeed) := by
  unfold FMath.fInterpTo snapStep
  rw [if_neg (not_le.mpr hspeed)]
  split_ifs with hsnap
  · rw [sub_self]
  · rw [clamp_eq_one_sub_remaining]
    ring

variable [IsStrictOrderedRing K]

/-- Interpolation stays between its ends. -/
theorem fInterpTo_mem_Icc {lo hi current target : K} (hcurrent : current ∈ Set.Icc lo hi)
    (htarget : target ∈ Set.Icc lo hi) (deltaTime interpSpeed : K) :
    FMath.fInterpTo current target deltaTime interpSpeed ∈ Set.Icc lo hi := by
  unfold FMath.fInterpTo
  split_ifs with hspeed hsnap
  · exact htarget
  · exact htarget
  · have hlower := remaining_nonneg (deltaTime * interpSpeed)
    have hupper := remaining_le_one (deltaTime * interpSpeed)
    rw [clamp_eq_one_sub_remaining]
    generalize remaining (deltaTime * interpSpeed) = r at hlower hupper
    have hpoint : current + (target - current) * (1 - r) =
        current * r + target * (1 - r) := by ring
    obtain ⟨hcurrentLo, hcurrentHi⟩ := hcurrent
    obtain ⟨htargetLo, htargetHi⟩ := htarget
    rw [hpoint]
    constructor
    · nlinarith
    · nlinarith

/-- **The rotation after any frames.** Pitch and yaw approach their targets
independently, the roll stays, and the pitch limits never bite. -/
theorem turnFrames_rotationPoint {turnSpeed : K} (hspeed : 0 < turnSpeed)
    {target : FRotator K} (htarget : target.pitch ∈ Set.Icc (-70) 80) (frames : List K)
    (u : ATurret α K) (hpitch : u.rotationPoint.pitch ∈ Set.Icc (-70) 80) :
    (u.turnFrames target turnSpeed frames).rotationPoint.pitch ∈ Set.Icc (-70) 80 ∧
    target.pitch - (u.turnFrames target turnSpeed frames).rotationPoint.pitch =
      (frameSteps turnSpeed frames).foldl (snapStep smallNumber)
        (target.pitch - u.rotationPoint.pitch) ∧
    target.yaw - (u.turnFrames target turnSpeed frames).rotationPoint.yaw =
      (frameSteps turnSpeed frames).foldl (snapStep smallNumber)
        (target.yaw - u.rotationPoint.yaw) ∧
    (u.turnFrames target turnSpeed frames).rotationPoint.roll = u.rotationPoint.roll := by
  induction frames generalizing u with
  | nil => exact ⟨hpitch, rfl, rfl, rfl⟩
  | cons deltaSeconds frames ih =>
      have hmem := fInterpTo_mem_Icc hpitch htarget deltaSeconds turnSpeed
      have hclamp : (u.turnTowards target deltaSeconds turnSpeed).rotationPoint.pitch =
          FMath.fInterpTo u.rotationPoint.pitch target.pitch deltaSeconds turnSpeed := by
        show FMath.clamp _ (-70) 80 = _
        rw [FMath.clamp, min_eq_left hmem.2, max_eq_right hmem.1]
      have hyaw : (u.turnTowards target deltaSeconds turnSpeed).rotationPoint.yaw =
          FMath.fInterpTo u.rotationPoint.yaw target.yaw deltaSeconds turnSpeed := rfl
      have hrest := ih (u.turnTowards target deltaSeconds turnSpeed)
        (by rw [hclamp]; exact hmem)
      rw [hclamp, hyaw, fInterpTo_error hspeed, fInterpTo_error hspeed] at hrest
      exact hrest

/-- Two rotations of equal roll within the limits of the turret, less than a
half turn apart in yaw. -/
structure Unwrapped (start target : FRotator K) : Prop where
  roll : start.roll = target.roll
  startPitch : start.pitch ∈ Set.Icc (-70) 80
  targetPitch : target.pitch ∈ Set.Icc (-70) 80
  startYaw : start.yaw ∈ Set.Icc (-180) 180
  targetYaw : target.yaw ∈ Set.Icc (-180) 180
  yawDifference : |target.yaw - start.yaw| ≤ 180

/-- Angles that differ by at most a half turn are not wrapped. -/
theorem abs_findDeltaAngleDegrees {a1 a2 : K} (h : |a2 - a1| ≤ 180) :
    |FMath.findDeltaAngleDegrees a1 a2| = |a2 - a1| := by
  obtain ⟨hlower, hupper⟩ := abs_le.mp h
  rw [FMath.findDeltaAngleDegrees, if_neg (not_lt.mpr hupper), if_neg (not_lt.mpr hlower)]

/-- Pitches within the limits of the turret are less than a half turn apart. -/
theorem abs_pitchDifference_le {start target : FRotator K}
    (hstart : start.pitch ∈ Set.Icc (-70) 80) (htarget : target.pitch ∈ Set.Icc (-70) 80) :
    |target.pitch - start.pitch| ≤ 180 := by
  obtain ⟨hstartLo, hstartHi⟩ := hstart
  obtain ⟨htargetLo, htargetHi⟩ := htarget
  rw [abs_le]
  constructor <;> linarith

/-- Without wrapping the angular distance is the larger plain difference. -/
theorem maxAngularDistance_eq_max {start target : FRotator K}
    (hyaw : |target.yaw - start.yaw| ≤ 180) (hpitch : |target.pitch - start.pitch| ≤ 180) :
    InterceptionHandler.maxAngularDistance start target =
      max |target.yaw - start.yaw| |target.pitch - start.pitch| := by
  rw [InterceptionHandler.maxAngularDistance, abs_findDeltaAngleDegrees hyaw,
    abs_findDeltaAngleDegrees hpitch]

/-- The angular distance is not negative. -/
theorem maxAngularDistance_nonneg (start target : FRotator K) :
    0 ≤ InterceptionHandler.maxAngularDistance start target :=
  (abs_nonneg _).trans (le_max_left _ _)

/-- Unwrapped pitches differ by at most a half turn. -/
theorem Unwrapped.pitchDifference {start target : FRotator K} (h : Unwrapped start target) :
    |target.pitch - start.pitch| ≤ 180 :=
  abs_pitchDifference_le h.startPitch h.targetPitch

/-- The angular distance of unwrapped rotations. -/
theorem Unwrapped.maxAngularDistance_eq {start target : FRotator K}
    (h : Unwrapped start target) :
    InterceptionHandler.maxAngularDistance start target =
      max |target.yaw - start.yaw| |target.pitch - start.pitch| :=
  maxAngularDistance_eq_max h.yawDifference h.pitchDifference

variable [FloorRing K]

/-- **The test of `Tick` after any frames**: the decayed first distance is at
most half a degree. -/
theorem aligned_iff_decay {turnSpeed : K} (hspeed : 0 < turnSpeed) {u : ATurret α K}
    {target : FRotator K} (h : Unwrapped u.rotationPoint target) (frames : List K) :
    (u.turnFrames target turnSpeed frames).rotationPoint.equals target 0.5 = true ↔
      InterceptionHandler.maxAngularDistance u.rotationPoint target *
        decay (frameSteps turnSpeed frames) ≤ 0.5 := by
  obtain ⟨-, hpitch, hyaw, hroll⟩ :=
    turnFrames_rotationPoint hspeed h.targetPitch frames u h.startPitch
  generalize (u.turnFrames target turnSpeed frames).rotationPoint = reached at hpitch hyaw hroll
  have hwithin (error : K) :
      |(frameSteps turnSpeed frames).foldl (snapStep smallNumber) error| ≤ 0.5 ↔
        |error| * decay (frameSteps turnSpeed frames) ≤ 0.5 := by
    refine abs_foldl_snapStep_le_iff (by norm_num) ?_ error _
    norm_num [smallNumber]
  have hpitchNormal : |FRotator.normalizeAxis (reached.pitch - target.pitch)| =
      |target.pitch - reached.pitch| := by
    rw [abs_sub_comm target.pitch]
    apply FRotator.abs_normalizeAxis
    rw [abs_sub_comm, hpitch]
    exact (abs_foldl_snapStep_le _ _ _).trans h.pitchDifference
  have hyawNormal : |FRotator.normalizeAxis (reached.yaw - target.yaw)| =
      |target.yaw - reached.yaw| := by
    rw [abs_sub_comm target.yaw]
    apply FRotator.abs_normalizeAxis
    rw [abs_sub_comm, hyaw]
    exact (abs_foldl_snapStep_le _ _ _).trans h.yawDifference
  have hrollNormal : |FRotator.normalizeAxis (reached.roll - target.roll)| = 0 := by
    rw [hroll, h.roll, sub_self, FRotator.normalizeAxis_zero, abs_zero]
  rw [h.maxAngularDistance_eq, max_mul_of_nonneg _ _ (decay_nonneg _), max_le_iff,
    ← hwithin, ← hwithin, ← hpitch, ← hyaw]
  simp only [FRotator.equals, Bool.and_eq_true, decide_eq_true_eq, hpitchNormal, hyawNormal,
    hrollNormal]
  constructor
  · rintro ⟨⟨hp, hy⟩, -⟩
    exact ⟨hy, hp⟩
  · rintro ⟨hy, hp⟩
    exact ⟨⟨hp, hy⟩, by norm_num⟩

end Frames

section Time

variable {α : Type} [ExactEngine] {u : ATurret α ℝ} {start target : FRotator ℝ}
variable {turnSpeed : ℝ}

/-- The predicted time until a tolerance, as one formula. -/
theorem rotationTimeTo_eq (hspeed : 0 < turnSpeed) {tolerance : ℝ} (htolerance : 0 < tolerance)
    (start : FRotator ℝ) :
    InterceptionHandler.rotationTimeTo start target turnSpeed tolerance =
      Real.log (max 1 (InterceptionHandler.maxAngularDistance start target / tolerance)) /
        turnSpeed := by
  unfold InterceptionHandler.rotationTimeTo
  rw [ExactEngine.loge_eq]
  generalize InterceptionHandler.maxAngularDistance start target = distance
  split_ifs with hclose hstill
  · rw [max_eq_left ((div_le_one htolerance).mpr hclose), Real.log_one, zero_div]
  · exact absurd hspeed (not_lt.mpr hstill)
  · have hfar : 1 ≤ distance / tolerance :=
      (one_le_div htolerance).mpr (not_le.mp hclose).le
    rw [max_eq_right hfar, max_eq_right]
    exact div_nonneg (Real.log_nonneg hfar) hspeed.le

/-- The predicted time is the one after which an exponential decay has reached
the tolerance. -/
theorem rotationTimeTo_le_iff (hspeed : 0 < turnSpeed) {tolerance total : ℝ}
    (htolerance : 0 < tolerance) (htotal : 0 ≤ total) :
    InterceptionHandler.rotationTimeTo start target turnSpeed tolerance ≤ total ↔
      InterceptionHandler.maxAngularDistance start target *
        Real.exp (-(total * turnSpeed)) ≤ tolerance := by
  have hpos : (0 : ℝ) < max 1 (InterceptionHandler.maxAngularDistance start target / tolerance) :=
    lt_max_of_lt_left one_pos
  have hone : 1 ≤ Real.exp (total * turnSpeed) :=
    Real.one_le_exp (mul_nonneg htotal hspeed.le)
  rw [rotationTimeTo_eq hspeed htolerance, div_le_iff₀ hspeed, Real.log_le_iff_le_exp hpos,
    max_le_iff, and_iff_right hone, Real.exp_neg, ← div_eq_mul_inv,
    div_le_iff₀ htolerance, div_le_iff₀ (Real.exp_pos _), mul_comm tolerance]

/-- The rotation time is not negative. -/
theorem rotationTimeTo_nonneg (hspeed : 0 < turnSpeed) {tolerance : ℝ}
    (htolerance : 0 < tolerance) :
    0 ≤ InterceptionHandler.rotationTimeTo start target turnSpeed tolerance := by
  rw [rotationTimeTo_eq hspeed htolerance]
  exact div_nonneg (Real.log_nonneg (le_max_left _ _)) hspeed.le

/-- **The predicted time is enough for every pattern of frames.** -/
theorem decayed_le_of_time (hspeed : 0 < turnSpeed) {tolerance : ℝ} (htolerance : 0 < tolerance)
    {frames : List ℝ}
    (htime : InterceptionHandler.rotationTimeTo start target turnSpeed tolerance ≤ frames.sum) :
    InterceptionHandler.maxAngularDistance start target *
      decay (frameSteps turnSpeed frames) ≤ tolerance := by
  have htotal : 0 ≤ frames.sum := (rotationTimeTo_nonneg hspeed htolerance).trans htime
  have hdecay := decay_le_exp (frameSteps turnSpeed frames)
  rw [sum_frameSteps] at hdecay
  exact (mul_le_mul_of_nonneg_left hdecay (maxAngularDistance_nonneg _ _)).trans
    ((rotationTimeTo_le_iff hspeed htolerance htotal).mp htime)

/-- **No shorter time is**: some frames that add up to less leave more than the
tolerance. -/
theorem exists_frames_gt (hspeed : 0 < turnSpeed) {tolerance total : ℝ}
    (htolerance : 0 < tolerance) (htotal : 0 ≤ total)
    (hshort : total < InterceptionHandler.rotationTimeTo start target turnSpeed tolerance) :
    ∃ frames : List ℝ, (∀ deltaSeconds ∈ frames, 0 ≤ deltaSeconds) ∧ frames.sum = total ∧
      tolerance < InterceptionHandler.maxAngularDistance start target *
        decay (frameSteps turnSpeed frames) := by
  have hfar := mt (rotationTimeTo_le_iff hspeed htolerance htotal).mpr (not_le.mpr hshort)
  rw [not_le] at hfar
  have hpos : 0 < InterceptionHandler.maxAngularDistance start target := by
    apply pos_of_mul_pos_left (htolerance.trans hfar) (Real.exp_pos _).le
  have hbound : tolerance / InterceptionHandler.maxAngularDistance start target <
      Real.exp (-(total * turnSpeed)) := (div_lt_iff₀' hpos).mpr hfar
  obtain ⟨steps, hnonneg, hsum, hgt⟩ := exists_decay_gt (mul_nonneg htotal hspeed.le) hbound
  have hsteps : frameSteps turnSpeed (steps.map (· / turnSpeed)) = steps := by
    rw [frameSteps, List.map_map]
    have hid : (fun x : ℝ => x * turnSpeed) ∘ (fun x => x / turnSpeed) = id := by
      funext x
      exact div_mul_cancel₀ x hspeed.ne'
    rw [hid, List.map_id]
  refine ⟨steps.map (· / turnSpeed), ?_, ?_, ?_⟩
  · intro deltaSeconds hmem
    obtain ⟨step, hstep, rfl⟩ := List.mem_map.mp hmem
    exact div_nonneg (hnonneg step hstep) hspeed.le
  · apply mul_right_cancel₀ hspeed.ne'
    rw [← sum_frameSteps, hsteps, hsum]
  · rw [hsteps]
    exact (div_lt_iff₀' hpos).mp hgt

/-- For the test of `Tick` the time until half a degree is enough. -/
theorem aligned_of_half_degree_time (hspeed : 0 < turnSpeed)
    (h : Unwrapped u.rotationPoint target) {frames : List ℝ}
    (htime : InterceptionHandler.rotationTimeTo u.rotationPoint target turnSpeed 0.5 ≤
      frames.sum) :
    (u.turnFrames target turnSpeed frames).rotationPoint.equals target 0.5 = true := by
  rw [aligned_iff_decay hspeed h]
  exact decayed_le_of_time hspeed (by norm_num) htime

/-- Beyond half a degree some frames that use up the predicted time leave the
turret unaligned. -/
theorem exists_frames_unaligned (hspeed : 0 < turnSpeed)
    (hfar : 0.5 < InterceptionHandler.maxAngularDistance u.rotationPoint target) :
    ∃ frames : List ℝ, (∀ deltaSeconds ∈ frames, 0 ≤ deltaSeconds) ∧
      InterceptionHandler.rotationTimeTo u.rotationPoint target turnSpeed 1 ≤ frames.sum ∧
      0.5 < InterceptionHandler.maxAngularDistance u.rotationPoint target *
        decay (frameSteps turnSpeed frames) := by
  have hshort : InterceptionHandler.rotationTimeTo u.rotationPoint target turnSpeed 1 <
      InterceptionHandler.rotationTimeTo u.rotationPoint target turnSpeed 0.5 := by
    rw [rotationTimeTo_eq hspeed one_pos, rotationTimeTo_eq hspeed (by norm_num), div_one]
    apply div_lt_div_of_pos_right _ hspeed
    apply Real.log_lt_log (lt_max_of_lt_left one_pos)
    apply max_lt
    · apply lt_max_of_lt_right
      exact (one_lt_div (by norm_num)).mpr hfar
    · apply lt_max_of_lt_right
      rw [lt_div_iff₀ (by norm_num)]
      linarith
  obtain ⟨frames, hnonneg, hsum, hgt⟩ :=
    exists_frames_gt hspeed (by norm_num) (rotationTimeTo_nonneg hspeed one_pos) hshort
  exact ⟨frames, hnonneg, hsum.ge, hgt⟩

/-- All frames that use up the predicted time align the turret exactly if it
was within half a degree from the start. -/
theorem predicted_time_suffices_iff (hspeed : 0 < turnSpeed)
    (h : Unwrapped u.rotationPoint target) :
    (∀ frames : List ℝ, (∀ deltaSeconds ∈ frames, 0 ≤ deltaSeconds) →
        InterceptionHandler.rotationTimeTo u.rotationPoint target turnSpeed 1 ≤ frames.sum →
        (u.turnFrames target turnSpeed frames).rotationPoint.equals target 0.5 = true) ↔
      InterceptionHandler.maxAngularDistance u.rotationPoint target ≤ 0.5 := by
  constructor
  · intro hall
    by_contra hfar
    obtain ⟨frames, hnonneg, htime, hgt⟩ := exists_frames_unaligned hspeed (not_le.mp hfar)
    have hle := (aligned_iff_decay hspeed h frames).mp (hall frames hnonneg htime)
    exact absurd hle (not_le.mpr hgt)
  · intro hclose frames _ _
    rw [aligned_iff_decay hspeed h]
    have hnonneg := maxAngularDistance_nonneg u.rotationPoint target
    exact (mul_le_of_le_one_right hnonneg (decay_le_one _)).trans hclose

/-- **When the predicted delay is enough.** After given frames the turret
passes the test of `Tick` exactly if the angular distance decays to half a
degree; and all frames that use up the predicted time make it pass exactly if
it was within half a degree from the start. -/
theorem aligned_after_frames_iff (hspeed : 0 < turnSpeed)
    (h : Unwrapped u.rotationPoint target) :
    (∀ frames : List ℝ,
      (u.turnFrames target turnSpeed frames).rotationPoint.equals target 0.5 = true ↔
        InterceptionHandler.maxAngularDistance u.rotationPoint target *
          decay (frameSteps turnSpeed frames) ≤ 0.5) ∧
    ((∀ frames : List ℝ, (∀ deltaSeconds ∈ frames, 0 ≤ deltaSeconds) →
        InterceptionHandler.rotationTimeTo u.rotationPoint target turnSpeed 1 ≤ frames.sum →
        (u.turnFrames target turnSpeed frames).rotationPoint.equals target 0.5 = true) ↔
      InterceptionHandler.maxAngularDistance u.rotationPoint target ≤ 0.5) :=
  ⟨aligned_iff_decay hspeed h, predicted_time_suffices_iff hspeed h⟩

/-- **`CalculateRotationTime`** with its default tolerance, for a point: frames
that use up its time align the turret with the rotation towards the point
exactly if it was within half a degree of that from the start. -/
theorem calculateRotationTime_suffices_iff (currentLoc point : FVector ℝ)
    (hspeed : 0 < turnSpeed)
    (h : Unwrapped u.rotationPoint (InterceptionHandler.rotationTowards currentLoc point)) :
    (∀ frames : List ℝ, (∀ deltaSeconds ∈ frames, 0 ≤ deltaSeconds) →
        InterceptionHandler.calculateRotationTime currentLoc u.rotationPoint point turnSpeed ≤
          frames.sum →
        (u.turnFrames (InterceptionHandler.rotationTowards currentLoc point) turnSpeed
          frames).rotationPoint.equals
            (InterceptionHandler.rotationTowards currentLoc point) 0.5 = true) ↔
      InterceptionHandler.maxAngularDistance u.rotationPoint
        (InterceptionHandler.rotationTowards currentLoc point) ≤ 0.5 :=
  predicted_time_suffices_iff hspeed h

end Time

section Alley

attribute [local instance] atan2Engine

/-- A turret at rest that is to turn by four fifths of a degree. -/
theorem unwrapped_four_fifths :
    Unwrapped freshTurret.rotationPoint (⟨0, 4 / 5, 0⟩ : FRotator ℝ) := by
  constructor <;> norm_num [freshTurret, abs_of_pos]

/-- The turret is four fifths of a degree away. -/
theorem maxAngularDistance_four_fifths :
    InterceptionHandler.maxAngularDistance freshTurret.rotationPoint
      (⟨0, 4 / 5, 0⟩ : FRotator ℝ) = 4 / 5 := by
  rw [unwrapped_four_fifths.maxAngularDistance_eq]
  norm_num [freshTurret, abs_of_pos]

/-- For that turn the predicted time is not enough. -/
theorem aligned_after_frames_iff_alley :
    ¬ ∀ frames : List ℝ, (∀ deltaSeconds ∈ frames, 0 ≤ deltaSeconds) →
      InterceptionHandler.rotationTimeTo freshTurret.rotationPoint
        (⟨0, 4 / 5, 0⟩ : FRotator ℝ) 5 1 ≤ frames.sum →
      (freshTurret.turnFrames ⟨0, 4 / 5, 0⟩ 5 frames).rotationPoint.equals
        ⟨0, 4 / 5, 0⟩ 0.5 = true := by
  rw [(aligned_after_frames_iff (by norm_num) unwrapped_four_fifths).2,
    maxAngularDistance_four_fifths]
  norm_num

/-- The predicted time is zero, and after no frames the turret is not yet
within half a degree. -/
theorem no_time_unaligned :
    Unwrapped freshTurret.rotationPoint (⟨0, 4 / 5, 0⟩ : FRotator ℝ) ∧
    InterceptionHandler.rotationTimeTo freshTurret.rotationPoint
      (⟨0, 4 / 5, 0⟩ : FRotator ℝ) 5 1 ≤ ([] : List ℝ).sum ∧
    (freshTurret.turnFrames ⟨0, 4 / 5, 0⟩ 5 []).rotationPoint.equals
      ⟨0, 4 / 5, 0⟩ 0.5 = false := by
  refine ⟨unwrapped_four_fifths, ?_, ?_⟩
  · rw [InterceptionHandler.rotationTimeTo, maxAngularDistance_four_fifths]
    norm_num
  · have hdecay := aligned_iff_decay (by norm_num : (0 : ℝ) < 5) unwrapped_four_fifths []
    rw [frameSteps, List.map_nil, decay_nil, maxAngularDistance_four_fifths] at hdecay
    rw [← Bool.not_eq_true, hdecay]
    norm_num

end Alley

end TurretMaster

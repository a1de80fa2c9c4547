import TurretMaster.EarliestIntercept

/-!
# What a predicted point is worth

The solver treats slow targets, short ways and equal speeds apart, each up to a
tolerance.  On any input, a point that it returns is where the target is when
the projectile gets there, up to these tolerances.

* `exists_meetsAt` — every returned point is where the target is at a time that
  is fixed by the inputs;
* `quadraticEquationInterception_returns` — every way to return a point;
* `solver_miss_le` — how far the target is off the point of the solver;
* `prediction_miss_le` — and off the point of the prediction.
-/

namespace TurretMaster

/-! ## Targets that keep their velocity -/

section Motion

/-- The squared length along a line. -/
theorem dot_along (d v : FVector ℝ) (t : ℝ) :
    (d + v * t).dot (d + v * t) = d.dot d + 2 * d.dot v * t + v.dot v * t ^ 2 := by
  simp only [FVector.dot, FVector.add_def, FVector.mul_def]
  ring

/-- The offset along a line. -/
theorem offset_along (p v s : FVector ℝ) (t : ℝ) : p + v * t - s = p - s + v * t := by
  ext <;> simp only [FVector.add_def, FVector.sub_def, FVector.mul_def] <;> ring

/-- A target that keeps its velocity, at two times. -/
theorem norm_along_sub (targetPos targetVel : FVector ℝ) (s t : ℝ) :
    ‖(targetPos + targetVel * s).toSpace - (targetPos + targetVel * t).toSpace‖ =
      ‖targetVel.toSpace‖ * |t - s| := by
  have hsplit : (targetPos + targetVel * s).toSpace - (targetPos + targetVel * t).toSpace =
      (s - t) • targetVel.toSpace := by
    simp only [FVector.toSpace_add, FVector.toSpace_mul, sub_smul]
    abel
  rw [hsplit, norm_smul, Real.norm_eq_abs, abs_sub_comm, mul_comm]

/-- Two stretches of a line are one. -/
theorem along_add (p v : FVector ℝ) (s t : ℝ) : p + v * s + v * t = p + v * (s + t) := by
  ext <;> simp only [FVector.add_def, FVector.mul_def] <;> ring

/-- A vector that is nearly zero is short. -/
theorem norm_le_of_isNearlyZero {v : FVector ℝ} (h : v.isNearlyZero kindaSmallNumber = true) :
    ‖v.toSpace‖ ≤ 2 * kindaSmallNumber := by
  simp only [FVector.isNearlyZero, Bool.and_eq_true, decide_eq_true_eq] at h
  obtain ⟨⟨hx, hy⟩, hz⟩ := h
  have hsmall : (0 : ℝ) < kindaSmallNumber := kindaSmallNumber_pos
  have hsq {x : ℝ} (hx : |x| ≤ kindaSmallNumber) : x * x ≤ kindaSmallNumber ^ 2 := by
    rw [← sq]
    exact sq_le_sq' (abs_le.mp hx).1 (abs_le.mp hx).2
  refine abs_le_of_sq_le_sq' ?_ (by positivity) |>.2
  rw [FVector.norm_toSpace_sq, FVector.dot]
  linarith [hsq hx, hsq hy, hsq hz, sq_nonneg (kindaSmallNumber : ℝ)]

/-- Speeds whose squares are close are close, at one unit per second or more. -/
theorem abs_speed_sub_le {v speed : ℝ} (hv : 0 ≤ v) (hspeed : 1 ≤ speed)
    (hclose : |v ^ 2 - speed ^ 2| ≤ kindaSmallNumber) : |v - speed| ≤ kindaSmallNumber := by
  have hfactor : v ^ 2 - speed ^ 2 = (v - speed) * (v + speed) := by ring
  rw [hfactor, abs_mul, abs_of_nonneg (by linarith : 0 ≤ v + speed)] at hclose
  exact (le_mul_of_one_le_right (abs_nonneg _) (by linarith)).trans hclose

end Motion

namespace InterceptionHandler

/-! ## The solver on any input -/

/-- `RotationTime` of `PredictInterceptionPoint`. -/
def assumedDelay {K : Type} [Field K] [LinearOrder K] [Engine K] (turretPos : FVector K)
    (turretRot : FRotator K) (targetPos targetVel : FVector K)
    (projectileSpeed rotateSpeed : K) : K :=
  calculateRotationTime turretPos turretRot
    (quadraticEquationInterception turretPos targetPos targetVel projectileSpeed 0).2
    rotateSpeed + bufferTime

section Tolerance

variable [ExactEngine] {turretPos targetPos targetVel point out : FVector ℝ}
variable {turretRot : FRotator ℝ}
variable {projectileSpeed timeDelay flight rotateSpeed turretRadius : ℝ}

/-- When a projectile has to leave to be where the target is at a given time. -/
noncomputable def launchTime (turretPos targetPos targetVel : FVector ℝ)
    (projectileSpeed t : ℝ) : ℝ :=
  t - (targetPos + targetVel * t).dist turretPos / projectileSpeed

/-- The time at which the solver takes the target to be met by a projectile
that leaves after the delay. -/
inductive MeetsAt (turretPos targetPos targetVel : FVector ℝ) (projectileSpeed delay : ℝ) :
    ℝ → Prop
  /-- A target that hardly moves is met at once. -/
  | rest (hrest : targetVel.isNearlyZero kindaSmallNumber = true) :
      MeetsAt turretPos targetPos targetVel projectileSpeed delay delay
  /-- So is one next to the turret, if it moves across at the speed of the
  projectile. -/
  | near (hmoving : targetVel.isNearlyZero kindaSmallNumber = false)
      (hequal : FMath.isNearlyZero (targetVel.dot targetVel - projectileSpeed ^ 2)
        kindaSmallNumber = true)
      (hflat : FMath.isNearlyZero (2 * (targetPos + targetVel * delay - turretPos).dot targetVel)
        kindaSmallNumber = true)
      (hnear : (targetPos + targetVel * delay - turretPos).dot
        (targetPos + targetVel * delay - turretPos) < kindaSmallNumber) :
      MeetsAt turretPos targetPos targetVel projectileSpeed delay delay
  /-- One as fast as the projectile is met where the linear equation says. -/
  | linear {t : ℝ} (hmoving : targetVel.isNearlyZero kindaSmallNumber = false)
      (hequal : FMath.isNearlyZero (targetVel.dot targetVel - projectileSpeed ^ 2)
        kindaSmallNumber = true)
      (hslope : FMath.isNearlyZero (2 * (targetPos + targetVel * delay - turretPos).dot targetVel)
        kindaSmallNumber = false)
      (hlater : delay < t)
      (hroot : 2 * (targetPos + targetVel * delay - turretPos).dot targetVel * (t - delay) +
        (targetPos + targetVel * delay - turretPos).dot
          (targetPos + targetVel * delay - turretPos) = 0) :
      MeetsAt turretPos targetPos targetVel projectileSpeed delay t
  /-- Any other one is met when the projectile can first be where it is. -/
  | pursuit {t : ℝ} (hmoving : targetVel.isNearlyZero kindaSmallNumber = false)
      (hunequal : FMath.isNearlyZero (targetVel.dot targetVel - projectileSpeed ^ 2)
        kindaSmallNumber = false)
      (hleast : IsLeast {s | delay < s ∧
        launchTime turretPos targetPos targetVel projectileSpeed s = delay} t) :
      MeetsAt turretPos targetPos targetVel projectileSpeed delay t

/-- The launch time is that of a pursuit from the turret. -/
theorem launchTime_eq_pursuit (t : ℝ) :
    launchTime turretPos targetPos targetVel projectileSpeed t =
      Pursuit.launchTime (targetPos - turretPos).toSpace targetVel.toSpace projectileSpeed t := by
  rw [launchTime, Pursuit.launchTime, FVector.dist, ExactEngine.sqrt_eq, offset_along,
    ← FVector.toSpace_mul, ← FVector.toSpace_add, FVector.norm_toSpace]

/-- The flight times after a delay are the ways from the launch to the meeting. -/
theorem mem_meetingTimes_iff_launchTime (hspeed : 0 < projectileSpeed) (t : ℝ) :
    t ∈ meetingTimes turretPos targetPos targetVel projectileSpeed timeDelay ↔
      0 < t ∧ launchTime turretPos targetPos targetVel projectileSpeed (timeDelay + t) =
        timeDelay := by
  rw [meetingTimes_eq_pursuit, offset_along, FVector.toSpace_add, FVector.toSpace_mul,
    Pursuit.mem_meetingTimes_delayed_iff hspeed, launchTime_eq_pursuit]

/-- The first meeting, counted from the launch and from the start. -/
theorem isLeast_launch_of_meeting (hspeed : 0 < projectileSpeed) {t : ℝ}
    (h : IsLeast (meetingTimes turretPos targetPos targetVel projectileSpeed timeDelay) t) :
    IsLeast {s | timeDelay < s ∧
      launchTime turretPos targetPos targetVel projectileSpeed s = timeDelay} (timeDelay + t) := by
  obtain ⟨hmem, hle⟩ := h
  obtain ⟨hpos, hlaunch⟩ := (mem_meetingTimes_iff_launchTime hspeed t).mp hmem
  refine ⟨⟨lt_add_of_pos_right _ hpos, hlaunch⟩, ?_⟩
  intro s hs
  have hflight : s - timeDelay ∈
      meetingTimes turretPos targetPos targetVel projectileSpeed timeDelay := by
    rw [mem_meetingTimes_iff_launchTime hspeed, add_sub_cancel]
    exact ⟨sub_pos.mpr hs.1, hs.2⟩
  exact le_sub_iff_add_le'.mp (hle hflight)

/-- **Where a returned point lies**, for any input: on the way of the target, at
the time at which the solver takes it to be met. -/
theorem exists_meetsAt
    (h : quadraticEquationInterception turretPos targetPos targetVel projectileSpeed timeDelay =
      (true, point)) :
    ∃ t, MeetsAt turretPos targetPos targetVel projectileSpeed timeDelay t ∧
      point = targetPos + targetVel * t := by
  have hspeed := speed_pos_of_ok h
  have hsolve := h
  unfold quadraticEquationInterception at hsolve
  dsimp only at hsolve
  rw [if_neg (not_le.mpr hspeed)] at hsolve
  split_ifs at hsolve with hrest hat hequal hflat hnear htime hnone
  · exact ⟨timeDelay, .rest hrest, (Prod.mk.inj hsolve).2.symm⟩
  · cases hsolve
  · exact ⟨timeDelay, .near (Bool.eq_false_iff.mpr hrest) hequal hflat hnear,
      (Prod.mk.inj hsolve).2.symm⟩
  · cases hsolve
  · refine ⟨_, .linear (Bool.eq_false_iff.mpr hrest) hequal (Bool.eq_false_iff.mpr hflat)
      (lt_add_of_pos_right _ htime) ?_, ?_⟩
    · rw [add_sub_cancel_left, mul_div_cancel₀ _ (ne_zero_of_not_isNearlyZero hflat),
        neg_add_cancel]
    · rw [← along_add]
      exact (Prod.mk.inj hsolve).2.symm
  · cases hsolve
  · cases hsolve
  · have hlarge : kindaSmallNumber < |targetVel.dot targetVel - projectileSpeed ^ 2| := by
      simpa [FMath.isNearlyZero] using hequal
    rcases quadraticEquationInterception_cases hspeed
      ⟨Bool.eq_false_iff.mpr hrest, Bool.eq_false_iff.mpr hat, Or.inl hlarge⟩ with
      ⟨t, hleast, hquad⟩ | ⟨-, hquad⟩
    · rw [hquad, Prod.mk.injEq, along_add] at h
      exact ⟨timeDelay + t, .pursuit (Bool.eq_false_iff.mpr hrest) (Bool.eq_false_iff.mpr hequal)
        (isLeast_launch_of_meeting hspeed hleast), h.2.symm⟩
    · rw [hquad] at h
      cases h

/-- Every way in which the solver returns a point: where the target is, where
the linear equation has its root, or at a meeting. -/
theorem quadraticEquationInterception_returns (hspeed : 0 < projectileSpeed)
    (h : quadraticEquationInterception turretPos targetPos targetVel projectileSpeed timeDelay =
      (true, point)) :
    (targetVel.isNearlyZero kindaSmallNumber = true ∧ point = targetPos + targetVel * timeDelay) ∨
    (|targetVel.dot targetVel - projectileSpeed ^ 2| ≤ kindaSmallNumber ∧
      point = targetPos + targetVel * timeDelay ∧
      (point - turretPos).dot (point - turretPos) < kindaSmallNumber) ∨
    (|targetVel.dot targetVel - projectileSpeed ^ 2| ≤ kindaSmallNumber ∧
      ∃ t, 0 < t ∧ point = targetPos + targetVel * timeDelay + targetVel * t ∧
        (point - turretPos).dot (point - turretPos) = targetVel.dot targetVel * t ^ 2) ∨
    ∃ t ∈ meetingTimes turretPos targetPos targetVel projectileSpeed timeDelay,
      point = targetPos + targetVel * timeDelay + targetVel * t := by
  obtain ⟨t, hmeets, rfl⟩ := exists_meetsAt h
  have hsplit : targetPos + targetVel * t =
      targetPos + targetVel * timeDelay + targetVel * (t - timeDelay) := by
    rw [along_add, add_sub_cancel]
  cases hmeets with
  | rest hrest => exact Or.inl ⟨hrest, rfl⟩
  | near _ hequal _ hnear =>
      exact Or.inr (Or.inl ⟨by simpa [FMath.isNearlyZero] using hequal, rfl, hnear⟩)
  | linear _ hequal _ hlater hroot =>
      refine Or.inr (Or.inr (Or.inl ⟨by simpa [FMath.isNearlyZero] using hequal, t - timeDelay,
        sub_pos.mpr hlater, hsplit, ?_⟩))
      rw [hsplit, offset_along, dot_along, add_comm (FVector.dot _ _), hroot, zero_add]
  | pursuit _ _ hleast =>
      refine Or.inr (Or.inr (Or.inr ⟨t - timeDelay, ?_, hsplit⟩))
      rw [mem_meetingTimes_iff_launchTime hspeed, add_sub_cancel]
      exact ⟨sub_pos.mpr hleast.1.1, hleast.1.2⟩

/-- **What a returned point is worth**, for any input: when a projectile of at
least one unit per second gets there, the target is there up to the tolerances
of the solver. -/
theorem solver_miss_le (hspeed : 1 ≤ projectileSpeed)
    (h : quadraticEquationInterception turretPos targetPos targetVel projectileSpeed timeDelay =
      (true, point))
    (hflight : ‖(point - turretPos).toSpace‖ = projectileSpeed * flight) :
    ‖point.toSpace - (targetPos + targetVel * (timeDelay + flight)).toSpace‖ ≤
      2 * kindaSmallNumber * flight + 1 / 50 := by
  have hpos : 0 < projectileSpeed := zero_lt_one.trans_le hspeed
  have hsmall : (0 : ℝ) < kindaSmallNumber := kindaSmallNumber_pos
  have hnonneg : 0 ≤ flight :=
    nonneg_of_mul_nonneg_right (hflight ▸ norm_nonneg _) hpos
  have hslack : 0 ≤ 2 * kindaSmallNumber * flight := by positivity
  have hlength : (point - turretPos).dot (point - turretPos) = (projectileSpeed * flight) ^ 2 := by
    rw [← hflight, FVector.norm_toSpace_sq]
  rcases quadraticEquationInterception_returns hpos h with ⟨hrest, rfl⟩ | ⟨hclose, rfl, hnear⟩ |
    ⟨hclose, t, ht, hpoint, hdot⟩ | ⟨t, ht, hpoint⟩
  · -- the target hardly moves during the flight
    rw [norm_along_sub, add_sub_cancel_left, abs_of_nonneg hnonneg]
    have hslow := mul_le_mul_of_nonneg_right (norm_le_of_isNearlyZero hrest) hnonneg
    linarith
  · -- the flight is short
    rw [norm_along_sub, add_sub_cancel_left, abs_of_nonneg hnonneg]
    have hshort : projectileSpeed * flight ≤ 1 / 100 := by
      refine (abs_le_of_sq_le_sq' ?_ (by norm_num)).2
      rw [← hlength]
      exact hnear.le.trans (by norm_num [kindaSmallNumber])
    have hfast := (abs_speed_sub_le (norm_nonneg targetVel.toSpace) hspeed
      (by rwa [FVector.norm_toSpace_sq])).trans (by norm_num [kindaSmallNumber] :
        (kindaSmallNumber : ℝ) ≤ 1)
    have hdouble : ‖targetVel.toSpace‖ ≤ 2 * projectileSpeed := by
      linarith [(abs_le.mp hfast).2]
    have hway := mul_le_mul_of_nonneg_right hdouble hnonneg
    linarith
  · -- the target is nearly as fast as the projectile
    have hsame : projectileSpeed * flight = ‖targetVel.toSpace‖ * t := by
      rw [← sq_eq_sq₀ (by positivity) (by positivity), ← hlength, hdot, mul_pow,
        FVector.norm_toSpace_sq]
    have hspeeds := abs_speed_sub_le (norm_nonneg targetVel.toSpace) hspeed
      (by rwa [FVector.norm_toSpace_sq])
    rw [hpoint, along_add, norm_along_sub, add_sub_add_left_eq_sub]
    calc ‖targetVel.toSpace‖ * |flight - t|
        = |‖targetVel.toSpace‖ * flight - ‖targetVel.toSpace‖ * t| := by
          rw [← mul_sub, abs_mul, abs_of_nonneg (norm_nonneg _)]
      _ = |‖targetVel.toSpace‖ - projectileSpeed| * flight := by
          rw [← hsame, ← sub_mul, abs_mul, abs_of_nonneg hnonneg]
      _ ≤ kindaSmallNumber * flight := mul_le_mul_of_nonneg_right hspeeds hnonneg
      _ ≤ 2 * kindaSmallNumber * flight + 1 / 50 := by linarith
  · -- the flight is the one of the meeting
    have hmeet : ‖(point - turretPos).toSpace‖ = projectileSpeed * t := by
      rw [FVector.norm_toSpace, hpoint, offset_along]
      exact ht.2
    have hsame : flight = t := mul_left_cancel₀ hpos.ne' (hflight.symm.trans hmeet)
    rw [hpoint, along_add, hsame, sub_self, norm_zero]
    rw [hsame] at hslack
    linarith

/-! ## The prediction -/

/-- A returned point is the solution for the assumed delay. -/
theorem predicted_solve
    (h : predictInterceptionPoint turretPos turretRot targetPos targetVel projectileSpeed
      rotateSpeed turretRadius = (true, out)) :
    quadraticEquationInterception turretPos targetPos targetVel projectileSpeed
      (assumedDelay turretPos turretRot targetPos targetVel projectileSpeed rotateSpeed) =
        (true, out) := by
  obtain ⟨initial, hinitial, hdelayed, -, -⟩ := predictInterceptionPoint_ok h
  rw [assumedDelay, hinitial]
  exact hdelayed

/-- **What a predicted point is worth**, for any input: a projectile of at least
one unit per second that leaves after the assumed delay and flies straight to
the returned point finds the target there, up to the tolerances of the
solver. -/
theorem prediction_miss_le (hspeed : 1 ≤ projectileSpeed)
    (h : predictInterceptionPoint turretPos turretRot targetPos targetVel projectileSpeed
      rotateSpeed turretRadius = (true, out))
    (hflight : ‖(out - turretPos).toSpace‖ = projectileSpeed * flight) :
    ‖out.toSpace - (targetPos + targetVel * (assumedDelay turretPos turretRot targetPos targetVel
        projectileSpeed rotateSpeed + flight)).toSpace‖ ≤
      2 * kindaSmallNumber * flight + 1 / 50 :=
  solver_miss_le hspeed (predicted_solve h) hflight

end Tolerance

section Alley

attribute [local instance] atan2Engine

/-- The crossing target, with its flight of five quarters of a second. -/
theorem prediction_miss_le_alley :
    ‖(⟨-15 / 4, 5, 0⟩ : FVector ℝ).toSpace - ((⟨3, 5, 0⟩ : FVector ℝ) + (⟨-3, 0, 0⟩ : FVector ℝ) *
        (assumedDelay 0 0 ⟨3, 5, 0⟩ ⟨-3, 0, 0⟩ 5 (Real.log 90) + 5 / 4)).toSpace‖ ≤
      2 * kindaSmallNumber * (5 / 4) + 1 / 50 := by
  refine prediction_miss_le (by norm_num) (crossing_predicted angularDistanceTo_undelayed) ?_
  have hroot : √(625 / 16 : ℝ) = 25 / 4 := by
    rw [Real.sqrt_eq_iff_mul_self_eq] <;> norm_num
  rw [FVector.norm_toSpace]
  norm_num [FVector.sub_def, FVector.dot, hroot]

end Alley

end InterceptionHandler

end TurretMaster

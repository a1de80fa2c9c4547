import TurretMaster.PredictedPoint

/-!
# The turn to the delayed intercept

`PredictInterceptionPoint` grants the turret the time of the turn to where the
target is met by a shot at once, and returns where it is met by a shot after
that time.  Meanwhile the target has gone on, and the turn to the returned
point can take longer.

* `MeetsAt.unique` — the time of a meeting is fixed by the inputs;
* `delayCovers_of_stays` — a target that stays within the angles of the turn;
* `covers_iff_of_slower` — a slower target, and which turret is fast enough;
* `delay_suffices_iff` — when the granted time covers the returned point.
-/

namespace TurretMaster

namespace InterceptionHandler

section Turn

variable [ExactEngine] {turretPos targetPos targetVel out : FVector ℝ}
variable {turretRot : FRotator ℝ}
variable {projectileSpeed rotateSpeed turretRadius delay first later s t : ℝ}

/-- How far the turret has to turn to look at where the target is at a given
time. -/
noncomputable def turnAngle (turretPos : FVector ℝ) (turretRot : FRotator ℝ)
    (targetPos targetVel : FVector ℝ) (t : ℝ) : ℝ :=
  angularDistanceTo turretPos turretRot (targetPos + targetVel * t)

/-- How far it can turn in the time that it takes to turn there: at least by
the tolerance of one degree. -/
noncomputable def turnLimit (turretPos : FVector ℝ) (turretRot : FRotator ℝ)
    (targetPos targetVel : FVector ℝ) (t : ℝ) : ℝ :=
  max 1 (turnAngle turretPos turretRot targetPos targetVel t)

/-- The target, where a shot after the turn to its first meeting meets it, has
not left the angles that the turret can turn by in that time. -/
def DelayCovers (turretPos : FVector ℝ) (turretRot : FRotator ℝ)
    (targetPos targetVel : FVector ℝ) (projectileSpeed rotateSpeed : ℝ) : Prop :=
  ∃ first later, MeetsAt turretPos targetPos targetVel projectileSpeed 0 first ∧
    MeetsAt turretPos targetPos targetVel projectileSpeed
      (Real.log (turnLimit turretPos turretRot targetPos targetVel first) / rotateSpeed) later ∧
    turnAngle turretPos turretRot targetPos targetVel later ≤
      turnLimit turretPos turretRot targetPos targetVel first

/-- The inputs fix the time of a meeting. -/
theorem MeetsAt.unique (hs : MeetsAt turretPos targetPos targetVel projectileSpeed delay s)
    (ht : MeetsAt turretPos targetPos targetVel projectileSpeed delay t) : s = t := by
  cases hs with
  | rest hrest =>
      cases ht with
      | rest => rfl
      | _ hmoving => simp [hrest] at hmoving
  | near hmoving hequal hflat =>
      cases ht with
      | rest hrest => simp [hrest] at hmoving
      | near => rfl
      | linear _ _ hslope => simp [hflat] at hslope
      | pursuit _ hunequal => simp [hequal] at hunequal
  | linear hmoving hequal hslope _ hroot =>
      cases ht with
      | rest hrest => simp [hrest] at hmoving
      | near _ _ hflat => simp [hflat] at hslope
      | linear _ _ _ _ hroot' =>
          have hsame := hroot.trans hroot'.symm
          rw [add_left_inj] at hsame
          exact sub_left_injective
            (mul_left_cancel₀ (ne_zero_of_not_isNearlyZero (Bool.eq_false_iff.mp hslope)) hsame)
      | pursuit _ hunequal => simp [hequal] at hunequal
  | pursuit hmoving hunequal hleast =>
      cases ht with
      | rest hrest => simp [hrest] at hmoving
      | near _ hequal => simp [hequal] at hunequal
      | linear _ hequal => simp [hequal] at hunequal
      | pursuit _ _ hleast' => exact hleast.unique hleast'

/-- The condition in terms of the two meetings. -/
theorem delayCovers_iff (hfirst : MeetsAt turretPos targetPos targetVel projectileSpeed 0 first)
    (hlater : MeetsAt turretPos targetPos targetVel projectileSpeed
      (Real.log (turnLimit turretPos turretRot targetPos targetVel first) / rotateSpeed) later) :
    DelayCovers turretPos turretRot targetPos targetVel projectileSpeed rotateSpeed ↔
      turnAngle turretPos turretRot targetPos targetVel later ≤
        turnLimit turretPos turretRot targetPos targetVel first := by
  constructor
  · rintro ⟨first', later', hfirst', hlater', hangle⟩
    obtain rfl := hfirst'.unique hfirst
    obtain rfl := hlater'.unique hlater
    exact hangle
  · exact fun hangle => ⟨first, later, hfirst, hlater, hangle⟩

/-- No meeting comes before the launch. -/
theorem MeetsAt.delay_le (h : MeetsAt turretPos targetPos targetVel projectileSpeed delay t) :
    delay ≤ t := by
  cases h with
  | rest => exact le_rfl
  | near => exact le_rfl
  | linear _ _ _ hlater => exact hlater.le
  | pursuit _ _ hleast => exact hleast.1.1.le

/-- A target that stays within the angles of the turn from the end of the delay
on has not left them when it is met. -/
theorem delayCovers_of_stays
    (hfirst : MeetsAt turretPos targetPos targetVel projectileSpeed 0 first)
    (hlater : MeetsAt turretPos targetPos targetVel projectileSpeed
      (Real.log (turnLimit turretPos turretRot targetPos targetVel first) / rotateSpeed) later)
    (hstays : ∀ t,
      Real.log (turnLimit turretPos turretRot targetPos targetVel first) / rotateSpeed ≤ t →
        turnAngle turretPos turretRot targetPos targetVel t ≤
          turnLimit turretPos turretRot targetPos targetVel first) :
    DelayCovers turretPos turretRot targetPos targetVel projectileSpeed rotateSpeed :=
  (delayCovers_iff hfirst hlater).mpr (hstays later hlater.delay_le)

/-! ## Slower targets -/

/-- A slower target is met the later, the later the projectile leaves. -/
theorem launchTime_strictMono (hspeed : 0 < projectileSpeed)
    (hslower : targetVel.dot targetVel < projectileSpeed ^ 2) :
    StrictMono (launchTime turretPos targetPos targetVel projectileSpeed) := by
  have hslow : ‖targetVel.toSpace‖ < projectileSpeed := by
    rw [← sq_lt_sq₀ (norm_nonneg _) hspeed.le, FVector.norm_toSpace_sq]
    exact hslower
  intro s t hst
  rw [launchTime_eq_pursuit, launchTime_eq_pursuit]
  exact Pursuit.launchTime_strictMono hspeed hslow hst

/-- Off the tolerances a meeting has its launch time. -/
theorem MeetsAt.launchTime_eq (hmoving : targetVel.isNearlyZero kindaSmallNumber = false)
    (hslower : targetVel.dot targetVel < projectileSpeed ^ 2 - kindaSmallNumber)
    (h : MeetsAt turretPos targetPos targetVel projectileSpeed delay t) :
    launchTime turretPos targetPos targetVel projectileSpeed t = delay := by
  have hsmall : (0 : ℝ) < kindaSmallNumber := kindaSmallNumber_pos
  have hunequal : FMath.isNearlyZero (targetVel.dot targetVel - projectileSpeed ^ 2)
      kindaSmallNumber = false := by
    have hlarge : kindaSmallNumber < |targetVel.dot targetVel - projectileSpeed ^ 2| :=
      lt_abs.mpr (Or.inr (by linarith))
    simpa [FMath.isNearlyZero] using hlarge
  cases h with
  | rest hrest => simp [hrest] at hmoving
  | near _ hequal => simp [hequal] at hunequal
  | linear _ hequal => simp [hequal] at hunequal
  | pursuit _ _ hleast => exact hleast.1.2

/-- **A slower target.**  The granted time covers the turn exactly if it is the
launch time of a place of the target that the turret can turn to; and where the
target leaves these places for good at some time, exactly if the turret is fast
enough for the launch time of that moment. -/
theorem covers_iff_of_slower (hprojectile : 0 < projectileSpeed) (hspeed : 0 < rotateSpeed)
    (hmoving : targetVel.isNearlyZero kindaSmallNumber = false)
    (hslower : targetVel.dot targetVel < projectileSpeed ^ 2 - kindaSmallNumber)
    (hfirst : MeetsAt turretPos targetPos targetVel projectileSpeed 0 first)
    (hlater : MeetsAt turretPos targetPos targetVel projectileSpeed
      (Real.log (turnLimit turretPos turretRot targetPos targetVel first) / rotateSpeed) later) :
    (DelayCovers turretPos turretRot targetPos targetVel projectileSpeed rotateSpeed ↔
      ∃ t, turnAngle turretPos turretRot targetPos targetVel t ≤
          turnLimit turretPos turretRot targetPos targetVel first ∧
        rotateSpeed * launchTime turretPos targetPos targetVel projectileSpeed t =
          Real.log (turnLimit turretPos turretRot targetPos targetVel first)) ∧
    ∀ leaves, (∀ t, first ≤ t → (turnAngle turretPos turretRot targetPos targetVel t ≤
        turnLimit turretPos turretRot targetPos targetVel first ↔ t ≤ leaves)) →
      (DelayCovers turretPos turretRot targetPos targetVel projectileSpeed rotateSpeed ↔
        Real.log (turnLimit turretPos turretRot targetPos targetVel first) ≤
          rotateSpeed * launchTime turretPos targetPos targetVel projectileSpeed leaves) := by
  have hmono : StrictMono (launchTime turretPos targetPos targetVel projectileSpeed) :=
    launchTime_strictMono hprojectile (hslower.trans (sub_lt_self _ kindaSmallNumber_pos))
  have hlaunch := hlater.launchTime_eq hmoving hslower
  have hstart := hfirst.launchTime_eq hmoving hslower
  rw [delayCovers_iff hfirst hlater]
  constructor
  · constructor
    · intro hangle
      exact ⟨later, hangle, by rw [hlaunch, mul_div_cancel₀ _ hspeed.ne']⟩
    · rintro ⟨t, hangle, htime⟩
      have hsame : launchTime turretPos targetPos targetVel projectileSpeed t =
          launchTime turretPos targetPos targetVel projectileSpeed later := by
        rw [hlaunch, eq_div_iff hspeed.ne', mul_comm, htime]
      rwa [← hmono.injective hsame]
  · intro leaves hleaves
    have hdelay : 0 ≤ Real.log (turnLimit turretPos turretRot targetPos targetVel first) /
        rotateSpeed := div_nonneg (Real.log_nonneg (le_max_left _ _)) hspeed.le
    have hafter : first ≤ later := by
      rw [← hmono.le_iff_le, hstart, hlaunch]
      exact hdelay
    rw [hleaves later hafter, ← hmono.le_iff_le, hlaunch, div_le_iff₀' hspeed]

/-! ## The returned point -/

/-- **When the assumed delay is long enough.**  Whenever a point is returned, the
turret can turn to it within the delay that was assumed for it exactly if the
target has not left the angles of that turn when the delayed shot meets it.  A
target that stays within them from the end of the delay on has not; a slower
target has not exactly if the delay is the launch time of one of its places
within these angles; if it leaves them for good, the turret has to be fast
enough for the launch time of that moment. -/
theorem delay_suffices_iff (hspeed : 0 < rotateSpeed)
    (h : predictInterceptionPoint turretPos turretRot targetPos targetVel projectileSpeed
      rotateSpeed turretRadius = (true, out)) :
    quadraticEquationInterception turretPos targetPos targetVel projectileSpeed
      (assumedDelay turretPos turretRot targetPos targetVel projectileSpeed rotateSpeed) =
        (true, out) ∧
    (calculateRotationTime turretPos turretRot out rotateSpeed ≤
        assumedDelay turretPos turretRot targetPos targetVel projectileSpeed rotateSpeed ↔
      DelayCovers turretPos turretRot targetPos targetVel projectileSpeed rotateSpeed) ∧
    ∃ first, MeetsAt turretPos targetPos targetVel projectileSpeed 0 first ∧
      ((∀ t,
        Real.log (turnLimit turretPos turretRot targetPos targetVel first) / rotateSpeed ≤ t →
          turnAngle turretPos turretRot targetPos targetVel t ≤
            turnLimit turretPos turretRot targetPos targetVel first) →
        DelayCovers turretPos turretRot targetPos targetVel projectileSpeed rotateSpeed) ∧
      (targetVel.isNearlyZero kindaSmallNumber = false →
        targetVel.dot targetVel < projectileSpeed ^ 2 - kindaSmallNumber →
        (DelayCovers turretPos turretRot targetPos targetVel projectileSpeed rotateSpeed ↔
          ∃ t, turnAngle turretPos turretRot targetPos targetVel t ≤
              turnLimit turretPos turretRot targetPos targetVel first ∧
            rotateSpeed * launchTime turretPos targetPos targetVel projectileSpeed t =
              Real.log (turnLimit turretPos turretRot targetPos targetVel first)) ∧
        ∀ leaves, (∀ t, first ≤ t → (turnAngle turretPos turretRot targetPos targetVel t ≤
            turnLimit turretPos turretRot targetPos targetVel first ↔ t ≤ leaves)) →
          (DelayCovers turretPos turretRot targetPos targetVel projectileSpeed rotateSpeed ↔
            Real.log (turnLimit turretPos turretRot targetPos targetVel first) ≤
              rotateSpeed *
                launchTime turretPos targetPos targetVel projectileSpeed leaves)) := by
  obtain ⟨initial, hinitial, -, -, -⟩ := predictInterceptionPoint_ok h
  have hdelayed := predicted_solve h
  have hprojectile := speed_pos_of_ok hdelayed
  obtain ⟨first, hfirst, rfl⟩ := exists_meetsAt hinitial
  obtain ⟨later, hlater, rfl⟩ := exists_meetsAt hdelayed
  have hassumed : assumedDelay turretPos turretRot targetPos targetVel projectileSpeed
      rotateSpeed = calculateRotationTime turretPos turretRot (targetPos + targetVel * first)
        rotateSpeed := by
    rw [assumedDelay, hinitial, bufferTime, add_zero]
  have hdelay : assumedDelay turretPos turretRot targetPos targetVel projectileSpeed
      rotateSpeed = Real.log (turnLimit turretPos turretRot targetPos targetVel first) /
        rotateSpeed := by
    rw [hassumed, calculateRotationTime_eq hspeed]
    rfl
  rw [hdelay] at hlater
  refine ⟨hdelayed, ?_, first, hfirst, delayCovers_of_stays hfirst hlater, ?_⟩
  · rw [hassumed, calculateRotationTime_le_iff hspeed, delayCovers_iff hfirst hlater]
    rfl
  · intro hmoving hslower
    exact covers_iff_of_slower hprojectile hspeed hmoving hslower hfirst hlater

end Turn

section Alley

attribute [local instance] atan2Engine

/-- A turret that looks to the rear has the crossing target come nearer to
where it looks, and the delay is long enough. -/
theorem delay_suffices_iff_alley :
    DelayCovers 0 ⟨0, 180, 0⟩ ⟨3, 5, 0⟩ ⟨-3, 0, 0⟩ 5 (Real.log 90) := by
  obtain ⟨hquarter, hnearer⟩ := angularDistanceTo_rear
  rw [← (delay_suffices_iff log_ninety_pos (crossing_predicted hquarter)).2.1, assumedDelay,
    crossing_undelayed, bufferTime, add_zero, calculateRotationTime_le_iff log_ninety_pos, hquarter,
    max_eq_right (by norm_num)]
  exact hnearer

end Alley

end InterceptionHandler

end TurretMaster

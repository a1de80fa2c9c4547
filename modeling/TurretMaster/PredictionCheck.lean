import TurretMaster.EarliestIntercept

/-!
# The last check of a prediction

`PredictInterceptionPoint` ends with a check of its output that reads the
undelayed intercept twice: it measures the range of that point instead of the
returned one, and it takes the world origin for "no point".

* `predictInterceptionPoint_eq` — the verdict after two successful solves;
* `inRange_iff_metWithin` — the range test in terms of the inputs;
* `predicts_inRange_iff` — when the verdict judges the returned point;
* `translation_invariant_iff` — when the prediction moves with the world.
-/

namespace TurretMaster

namespace InterceptionHandler

/-! ## The verdict -/

section Verdict

variable {K : Type} [Field K] [LinearOrder K] [Engine K]
variable {turretPos targetPos targetVel initial delayed : FVector K} {turretRot : FRotator K}
variable {projectileSpeed rotateSpeed turretRadius : K}

/-- After two successful solves only the last check decides. -/
theorem predictInterceptionPoint_eq
    (hinitial : quadraticEquationInterception turretPos targetPos targetVel projectileSpeed 0 =
      (true, initial))
    (hdelayed : quadraticEquationInterception turretPos targetPos targetVel projectileSpeed
      (calculateRotationTime turretPos turretRot initial rotateSpeed + bufferTime) =
        (true, delayed)) :
    predictInterceptionPoint turretPos turretRot targetPos targetVel projectileSpeed
        rotateSpeed turretRadius =
      if initial.isZero || !pointInRange initial turretPos turretRadius then (false, 0)
      else (true, delayed) := by
  unfold predictInterceptionPoint
  simp only [hinitial, hdelayed]
  rfl

/-- Without two successful solves there is no prediction. -/
theorem predictInterceptionPoint_fails
    (h : ∀ initial delayed,
      quadraticEquationInterception turretPos targetPos targetVel projectileSpeed 0 =
          (true, initial) →
        quadraticEquationInterception turretPos targetPos targetVel projectileSpeed
            (calculateRotationTime turretPos turretRot initial rotateSpeed + bufferTime) ≠
          (true, delayed)) :
    predictInterceptionPoint turretPos turretRot targetPos targetVel projectileSpeed
        rotateSpeed turretRadius = (false, 0) := by
  unfold predictInterceptionPoint
  dsimp only
  split_ifs with hinitial hdelayed hcheck
  · rfl
  · rfl
  · rfl
  · simp only [Bool.not_eq_true', Bool.not_eq_false] at hinitial hdelayed
    exact (h _ _ (Prod.ext hinitial rfl) (Prod.ext hdelayed rfl)).elim

end Verdict

/-! ## The range of an intercept -/

section Range

variable {turretPos targetPos targetVel initial delayed point : FVector ℝ}
variable {turretRot : FRotator ℝ}
variable {projectileSpeed timeDelay rotateSpeed turretRadius : ℝ}

/-- A shot after the delay meets the target within the radius: the target is
inside when the shot has flown the radius, or it outruns the shot and has been
met before. -/
def metWithin (turretPos targetPos targetVel : FVector ℝ)
    (projectileSpeed timeDelay radius : ℝ) : Prop :=
  let d := targetPos + targetVel * timeDelay - turretPos
  let time := radius / projectileSpeed
  0 < radius ∧
    (√((d + targetVel * time).dot (d + targetVel * time)) < radius ∨
      (projectileSpeed ^ 2 < targetVel.dot targetVel ∧
        -d.dot targetVel < (targetVel.dot targetVel - projectileSpeed ^ 2) * time))

/-- The first meeting is within the radius in the terms of the inputs. -/
theorem flight_lt_iff_metWithin (hspeed : 0 < projectileSpeed)
    (haway : (targetPos + targetVel * timeDelay - turretPos).isNearlyZero
      kindaSmallNumber = false) {t : ℝ}
    (hleast : IsLeast (meetingTimes turretPos targetPos targetVel projectileSpeed timeDelay) t) :
    projectileSpeed * t < turretRadius ↔
      metWithin turretPos targetPos targetVel projectileSpeed timeDelay turretRadius := by
  have hflown : 0 < projectileSpeed * t := mul_pos hspeed hleast.1.1
  rcases le_or_gt turretRadius 0 with hradius | hradius
  · refine iff_of_false (not_lt.mpr (hradius.trans hflown.le)) ?_
    intro hmet
    exact absurd hmet.1 (not_lt.mpr hradius)
  · have hfaster : projectileSpeed < ‖targetVel.toSpace‖ ↔
        projectileSpeed ^ 2 < targetVel.dot targetVel := by
      rw [← FVector.norm_toSpace_sq, sq_lt_sq₀ hspeed.le (norm_nonneg _)]
    have hradiusTime : projectileSpeed * (turretRadius / projectileSpeed) = turretRadius :=
      mul_div_cancel₀ _ hspeed.ne'
    rw [meetingTimes_eq_pursuit] at hleast
    rw [mul_comm, ← lt_div_iff₀ hspeed,
      Pursuit.isLeast_lt_iff (FVector.toSpace_ne_zero haway) hspeed.le
        (div_pos hradius hspeed) hleast,
      hfaster, FVector.norm_toSpace_sq, FVector.inner_toSpace, ← FVector.toSpace_mul,
      ← FVector.toSpace_add, FVector.norm_toSpace, hradiusTime]
    exact (and_iff_right hradius).symm

variable [ExactEngine]

/-- **The range test in terms of the inputs.** -/
theorem inRange_iff_metWithin
    (h : OffTolerance turretPos targetPos targetVel projectileSpeed timeDelay)
    (hquad : quadraticEquationInterception turretPos targetPos targetVel projectileSpeed
      timeDelay = (true, point)) :
    pointInRange point turretPos turretRadius = true ↔
      metWithin turretPos targetPos targetVel projectileSpeed timeDelay turretRadius := by
  have hspeed := speed_pos_of_ok hquad
  rcases quadraticEquationInterception_cases hspeed h with ⟨t, hleast, ht⟩ | ⟨-, hnone⟩
  · obtain rfl := (Prod.mk.inj (hquad.symm.trans ht)).2
    have hoffset : targetPos + targetVel * timeDelay + targetVel * t - turretPos =
        targetPos + targetVel * timeDelay - turretPos + targetVel * t := by
      ext <;> simp only [FVector.add_def, FVector.sub_def] <;> ring
    have hdist : (targetPos + targetVel * timeDelay + targetVel * t).dist turretPos =
        projectileSpeed * t := by
      rw [FVector.dist, ExactEngine.sqrt_eq, hoffset]
      exact hleast.1.2
    rw [pointInRange, hdist, decide_eq_true_eq]
    exact flight_lt_iff_metWithin hspeed h.away hleast
  · rw [hquad] at hnone
    cases hnone

/-- **When the verdict judges the returned point.** After two successful
solves, the undelayed intercept not being the world origin, a prediction is
made exactly if the returned point is in range under the condition that the
radius does not separate the two intercepts.  Away from the tolerances the
condition compares two shots, at once and after the rotation. -/
theorem predicts_inRange_iff
    (hinitial : quadraticEquationInterception turretPos targetPos targetVel projectileSpeed 0 =
      (true, initial))
    (hdelayed : quadraticEquationInterception turretPos targetPos targetVel projectileSpeed
      (calculateRotationTime turretPos turretRot initial rotateSpeed + bufferTime) =
        (true, delayed))
    (horigin : initial.isZero = false) :
    ((predictInterceptionPoint turretPos turretRot targetPos targetVel projectileSpeed
        rotateSpeed turretRadius).1 = true →
      (predictInterceptionPoint turretPos turretRot targetPos targetVel projectileSpeed
        rotateSpeed turretRadius).2 = delayed) ∧
    (((predictInterceptionPoint turretPos turretRot targetPos targetVel projectileSpeed
          rotateSpeed turretRadius).1 = true ↔
        pointInRange delayed turretPos turretRadius = true) ↔
      (pointInRange initial turretPos turretRadius = true ↔
        pointInRange delayed turretPos turretRadius = true)) ∧
    (OffTolerance turretPos targetPos targetVel projectileSpeed 0 →
      OffTolerance turretPos targetPos targetVel projectileSpeed
        (calculateRotationTime turretPos turretRot initial rotateSpeed + bufferTime) →
      (((predictInterceptionPoint turretPos turretRot targetPos targetVel projectileSpeed
            rotateSpeed turretRadius).1 = true ↔
          pointInRange delayed turretPos turretRadius = true) ↔
        (metWithin turretPos targetPos targetVel projectileSpeed 0 turretRadius ↔
          metWithin turretPos targetPos targetVel projectileSpeed
            (calculateRotationTime turretPos turretRot initial rotateSpeed + bufferTime)
            turretRadius))) := by
  have hpredict : predictInterceptionPoint turretPos turretRot targetPos targetVel
      projectileSpeed rotateSpeed turretRadius =
        if initial.isZero || !pointInRange initial turretPos turretRadius then (false, 0)
        else (true, delayed) := predictInterceptionPoint_eq hinitial hdelayed
  have hverdict : (predictInterceptionPoint turretPos turretRot targetPos targetVel
      projectileSpeed rotateSpeed turretRadius).1 = true ↔
        pointInRange initial turretPos turretRadius = true := by
    rw [hpredict, horigin]
    cases pointInRange initial turretPos turretRadius <;> simp
  refine ⟨?_, by rw [hverdict], ?_⟩
  · intro hvalid
    rw [hpredict, horigin, hverdict.mp hvalid]
    rfl
  · intro hoff hoffDelayed
    rw [hverdict, inRange_iff_metWithin hoff hinitial,
      inRange_iff_metWithin hoffDelayed hdelayed]

end Range

/-! ## Moving the world -/

section Translation

variable {K : Type} [Field K]

/-- Moving both points keeps their offset. -/
theorem offset_translate (v s w : FVector K) : v + w - (s + w) = v - s := by
  ext <;> simp only [FVector.add_def, FVector.sub_def] <;> ring

/-- Moving and going on commute. -/
theorem add_right_comm_vector (p v w : FVector K) : p + w + v = p + v + w := by
  ext <;> simp only [FVector.add_def] <;> ring

/-- The result of a call, with the point of a successful one moved. -/
def moved (w : FVector K) : Bool × FVector K → Bool × FVector K
  | (true, point) => (true, point + w)
  | (false, point) => (false, point)

/-- A success in the moved world is a moved success. -/
theorem moved_eq_true_iff {w point : FVector K} {result : Bool × FVector K} :
    moved w result = (true, point) ↔ ∃ point', result = (true, point') ∧ point = point' + w := by
  obtain ⟨valid, point'⟩ := result
  cases valid with
  | false => simp [moved]
  | true => simp [moved, eq_comm]

variable [LinearOrder K] [Engine K]

/-- The solver moves with the world. -/
theorem quadraticEquationInterception_translate
    (turretPos targetPos targetVel w : FVector K) (projectileSpeed timeDelay : K) :
    quadraticEquationInterception (turretPos + w) (targetPos + w) targetVel projectileSpeed
        timeDelay =
      moved w (quadraticEquationInterception turretPos targetPos targetVel projectileSpeed
        timeDelay) := by
  have hactual : targetPos + w + targetVel * timeDelay =
      targetPos + targetVel * timeDelay + w := add_right_comm_vector _ _ _
  have hmeeting (t : K) : targetPos + targetVel * timeDelay + w + targetVel * t =
      targetPos + targetVel * timeDelay + targetVel * t + w := add_right_comm_vector _ _ _
  unfold quadraticEquationInterception
  simp only [hactual, hmeeting, offset_translate]
  split_ifs
  · rfl
  · rfl
  · rfl
  · rfl
  · rfl
  · rfl
  · rfl
  · rfl
  · generalize smallestPositiveTime (_ : K) _ = validTime
    cases validTime <;> rfl

/-- The rotation time does not depend on the place of the world. -/
theorem calculateRotationTime_translate (turretPos point w : FVector K)
    (turretRot : FRotator K) (rotateSpeed : K) :
    calculateRotationTime (turretPos + w) turretRot (point + w) rotateSpeed =
      calculateRotationTime turretPos turretRot point rotateSpeed := by
  rw [calculateRotationTime, rotationTowards, offset_translate]
  rfl

/-- Nor does the range test. -/
theorem pointInRange_translate (point turretPos w : FVector K) (turretRadius : K) :
    pointInRange (point + w) (turretPos + w) turretRadius =
      pointInRange point turretPos turretRadius := by
  rw [pointInRange, FVector.dist, offset_translate]
  rfl

/-- **When a prediction moves with the world**: exactly if no undelayed
intercept that the other tests let through is the world origin before or after
the move, unless it is both times. -/
theorem translation_invariant_iff (turretPos targetPos targetVel w : FVector K)
    (turretRot : FRotator K) (projectileSpeed rotateSpeed turretRadius : K) :
    ((predictInterceptionPoint (turretPos + w) turretRot (targetPos + w) targetVel
          projectileSpeed rotateSpeed turretRadius).1 =
        (predictInterceptionPoint turretPos turretRot targetPos targetVel projectileSpeed
          rotateSpeed turretRadius).1 ∧
      ((predictInterceptionPoint turretPos turretRot targetPos targetVel projectileSpeed
          rotateSpeed turretRadius).1 = true →
        (predictInterceptionPoint (turretPos + w) turretRot (targetPos + w) targetVel
            projectileSpeed rotateSpeed turretRadius).2 =
          (predictInterceptionPoint turretPos turretRot targetPos targetVel projectileSpeed
            rotateSpeed turretRadius).2 + w)) ↔
    ∀ initial delayed,
      quadraticEquationInterception turretPos targetPos targetVel projectileSpeed 0 =
          (true, initial) →
        quadraticEquationInterception turretPos targetPos targetVel projectileSpeed
            (calculateRotationTime turretPos turretRot initial rotateSpeed + bufferTime) =
          (true, delayed) →
        pointInRange initial turretPos turretRadius = true →
        initial.isZero = (initial + w).isZero := by
  by_cases hsolved : ∃ initial delayed,
      quadraticEquationInterception turretPos targetPos targetVel projectileSpeed 0 =
          (true, initial) ∧
        quadraticEquationInterception turretPos targetPos targetVel projectileSpeed
            (calculateRotationTime turretPos turretRot initial rotateSpeed + bufferTime) =
          (true, delayed)
  · obtain ⟨initial, delayed, hinitial, hdelayed⟩ := hsolved
    have hinitial' : quadraticEquationInterception (turretPos + w) (targetPos + w) targetVel
        projectileSpeed 0 = (true, initial + w) := by
      rw [quadraticEquationInterception_translate, hinitial]
      rfl
    have hdelayed' : quadraticEquationInterception (turretPos + w) (targetPos + w) targetVel
        projectileSpeed (calculateRotationTime (turretPos + w) turretRot (initial + w)
          rotateSpeed + bufferTime) = (true, delayed + w) := by
      rw [quadraticEquationInterception_translate, calculateRotationTime_translate, hdelayed]
      rfl
    have honly : (∀ initial' delayed',
        quadraticEquationInterception turretPos targetPos targetVel projectileSpeed 0 =
            (true, initial') →
          quadraticEquationInterception turretPos targetPos targetVel projectileSpeed
              (calculateRotationTime turretPos turretRot initial' rotateSpeed + bufferTime) =
            (true, delayed') →
          pointInRange initial' turretPos turretRadius = true →
          initial'.isZero = (initial' + w).isZero) ↔
        (pointInRange initial turretPos turretRadius = true →
          initial.isZero = (initial + w).isZero) := by
      constructor
      · intro hall
        exact hall initial delayed hinitial hdelayed
      · intro hone initial' delayed' h _
        rw [hinitial] at h
        obtain rfl := (Prod.mk.inj h).2
        exact hone
    rw [honly, predictInterceptionPoint_eq hinitial hdelayed,
      predictInterceptionPoint_eq hinitial' hdelayed', pointInRange_translate]
    cases pointInRange initial turretPos turretRadius <;> cases initial.isZero <;>
      cases (initial + w).isZero <;> simp
  · push Not at hsolved
    have hfails : predictInterceptionPoint turretPos turretRot targetPos targetVel
        projectileSpeed rotateSpeed turretRadius = (false, 0) :=
      predictInterceptionPoint_fails hsolved
    have hfails' : predictInterceptionPoint (turretPos + w) turretRot (targetPos + w) targetVel
        projectileSpeed rotateSpeed turretRadius = (false, 0) := by
      apply predictInterceptionPoint_fails
      intro initial' delayed' h hdelayed'
      rw [quadraticEquationInterception_translate] at h hdelayed'
      obtain ⟨initial, hinitial, rfl⟩ := moved_eq_true_iff.mp h
      rw [calculateRotationTime_translate] at hdelayed'
      obtain ⟨delayed, hdelayed, -⟩ := moved_eq_true_iff.mp hdelayed'
      exact hsolved initial delayed hinitial hdelayed
    rw [hfails, hfails']
    constructor
    · intro _ initial delayed hinitial hdelayed
      exact absurd hdelayed (hsolved initial delayed hinitial)
    · intro _
      exact ⟨rfl, fun h => absurd h Bool.false_ne_true⟩

end Translation

section Alley

attribute [local instance] atan2Engine

/-- The delay of the crossing target is the time to turn to its side. -/
theorem crossing_delayed_solve :
    quadraticEquationInterception (0 : FVector ℝ) ⟨3, 5, 0⟩ ⟨-3, 0, 0⟩ 5
      (calculateRotationTime 0 0 (⟨0, 5, 0⟩ : FVector ℝ) (Real.log 90) + bufferTime) =
        (true, ⟨-15 / 4, 5, 0⟩) := by
  rw [crossing_rotationTime angularDistanceTo_undelayed, bufferTime, add_zero]
  exact crossing_delayed

/-- The point of a shot at once is in range. -/
theorem crossing_undelayed_inRange :
    pointInRange (⟨0, 5, 0⟩ : FVector ℝ) 0 6 = true := by
  have hsqrt : √(25 : ℝ) < 6 := by
    rw [Real.sqrt_lt' (by norm_num)]
    norm_num
  norm_num [pointInRange, FVector.dist, FVector.sub_def, FVector.dot, ExactEngine.sqrt_eq, hsqrt]

/-- The returned point is not. -/
theorem crossing_delayed_outOfRange :
    pointInRange (⟨-15 / 4, 5, 0⟩ : FVector ℝ) 0 6 = false := by
  have hsqrt : √(625 / 16 : ℝ) = 25 / 4 := by
    rw [Real.sqrt_eq_iff_mul_self_eq] <;> norm_num
  norm_num [pointInRange, FVector.dist, FVector.sub_def, FVector.dot, ExactEngine.sqrt_eq, hsqrt]

/-- The crossing target and a radius of six. -/
theorem predicts_inRange_iff_alley :
    (((predictInterceptionPoint 0 0 ⟨3, 5, 0⟩ ⟨-3, 0, 0⟩ 5 (Real.log 90) 6).1 = true ↔
        pointInRange (⟨-15 / 4, 5, 0⟩ : FVector ℝ) 0 6 = true) ↔
      (pointInRange (⟨0, 5, 0⟩ : FVector ℝ) 0 6 = true ↔
        pointInRange (⟨-15 / 4, 5, 0⟩ : FVector ℝ) 0 6 = true)) ∧
    (((predictInterceptionPoint 0 0 ⟨3, 5, 0⟩ ⟨-3, 0, 0⟩ 5 (Real.log 90) 6).1 = true ↔
        pointInRange (⟨-15 / 4, 5, 0⟩ : FVector ℝ) 0 6 = true) ↔
      (metWithin 0 ⟨3, 5, 0⟩ ⟨-3, 0, 0⟩ 5 0 6 ↔
        metWithin 0 ⟨3, 5, 0⟩ ⟨-3, 0, 0⟩ 5
          (calculateRotationTime 0 0 (⟨0, 5, 0⟩ : FVector ℝ) (Real.log 90) + bufferTime) 6)) := by
  have horigin : (⟨0, 5, 0⟩ : FVector ℝ).isZero = false := by norm_num [FVector.isZero]
  obtain ⟨-, hsolved, hoff⟩ :=
    predicts_inRange_iff crossing_undelayed crossing_delayed_solve horigin
  exact ⟨hsolved, hoff crossing_offTolerance crossing_offTolerance⟩

/-- The undelayed intercept of the crossing target is five away, the returned
point more than six. -/
theorem verdict_on_undelayed :
    quadraticEquationInterception (0 : FVector ℝ) ⟨3, 5, 0⟩ ⟨-3, 0, 0⟩ 5 0 =
      (true, ⟨0, 5, 0⟩) ∧
    quadraticEquationInterception (0 : FVector ℝ) ⟨3, 5, 0⟩ ⟨-3, 0, 0⟩ 5
      (calculateRotationTime 0 0 (⟨0, 5, 0⟩ : FVector ℝ) (Real.log 90) + bufferTime) =
        (true, ⟨-15 / 4, 5, 0⟩) ∧
    (⟨0, 5, 0⟩ : FVector ℝ).isZero = false ∧
    predictInterceptionPoint 0 0 ⟨3, 5, 0⟩ ⟨-3, 0, 0⟩ 5 (Real.log 90) 6 =
      (true, ⟨-15 / 4, 5, 0⟩) ∧
    pointInRange (⟨-15 / 4, 5, 0⟩ : FVector ℝ) 0 6 = false := by
  have horigin : (⟨0, 5, 0⟩ : FVector ℝ).isZero = false := by norm_num [FVector.isZero]
  refine ⟨crossing_undelayed, crossing_delayed_solve, horigin, ?_, crossing_delayed_outOfRange⟩
  rw [predictInterceptionPoint_eq crossing_undelayed crossing_delayed_solve, horigin,
    crossing_undelayed_inRange]
  rfl

/-- A target at rest is predicted where it is. -/
theorem predictInterceptionPoint_rest (turretPos targetPos : FVector ℝ) :
    predictInterceptionPoint turretPos 0 targetPos 0 5 5 100 =
      if targetPos.isZero || !pointInRange targetPos turretPos 100 then (false, 0)
      else (true, targetPos) := by
  have hsolve (timeDelay : ℝ) :
      quadraticEquationInterception turretPos targetPos 0 5 timeDelay = (true, targetPos) := by
    rw [quadraticEquationInterception_at_rest, if_neg (by norm_num)]
  exact predictInterceptionPoint_eq (hsolve 0) (hsolve _)

/-- A target that rests at the world origin is refused; one unit further, with
the turret moved along, it is accepted. -/
theorem refused_at_origin :
    predictInterceptionPoint (⟨0, -5, 0⟩ : FVector ℝ) 0 0 0 5 5 100 = (false, 0) ∧
    predictInterceptionPoint ((⟨0, -5, 0⟩ : FVector ℝ) + ⟨1, 0, 0⟩) 0
      ((0 : FVector ℝ) + ⟨1, 0, 0⟩) 0 5 5 100 = (true, (0 : FVector ℝ) + ⟨1, 0, 0⟩) := by
  have horigin : (0 : FVector ℝ).isZero = true := by simp [FVector.isZero]
  have haway : ((0 : FVector ℝ) + ⟨1, 0, 0⟩).isZero = false := by
    simp [FVector.isZero, FVector.add_def]
  have hinRange : pointInRange ((0 : FVector ℝ) + ⟨1, 0, 0⟩)
      ((⟨0, -5, 0⟩ : FVector ℝ) + ⟨1, 0, 0⟩) 100 = true := by
    have hsqrt : √(25 : ℝ) < 100 := by
      rw [Real.sqrt_lt' (by norm_num)]
      norm_num
    norm_num [pointInRange, FVector.dist, FVector.sub_def, FVector.add_def, FVector.dot,
      ExactEngine.sqrt_eq, hsqrt]
  rw [predictInterceptionPoint_rest, predictInterceptionPoint_rest, horigin, haway, hinRange]
  exact ⟨rfl, rfl⟩

end Alley

end InterceptionHandler

end TurretMaster

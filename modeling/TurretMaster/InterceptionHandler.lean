import TurretMaster.Engine

/-!
# The interception handler

`quadraticEquationInterception` solves for the point at which a projectile
fired after a delay meets a target in linear motion, `calculateRotationTime`
estimates how long the turret turns towards a point, and
`predictInterceptionPoint` puts the two together.  A `bool` result with an out
parameter is a pair; a failing call leaves the zero vector in the second part.

`quadraticEquationInterceptionChecked` is the same solver with divisions and
square roots that can be undefined, and `flightTime` the time it solves for.
-/

namespace TurretMaster

namespace InterceptionHandler

variable {K : Type} [Field K] [LinearOrder K]

/-- `BUFFER_TIME`, the extra room added to the rotation delay. -/
def bufferTime : K := 0

/-- The least positive one of two times, when there is one. -/
def smallestPositiveTime (t1 t2 : K) : Option K :=
  if 0 < t1 ∧ 0 < t2 then some (min t1 t2)
  else if 0 < t1 then some t1
  else if 0 < t2 then some t2
  else none

variable [Engine K]

/-- `QuadraticEquationInterception`. -/
def quadraticEquationInterception
    (turretPos targetPos targetVel : FVector K) (projectileSpeed timeDelay : K) :
    Bool × FVector K :=
  if projectileSpeed ≤ 0 then (false, 0)
  else
    -- the target when the shot leaves, seen from the turret
    let actualTargetPos := targetPos + targetVel * timeDelay
    let d := actualTargetPos - turretPos
    let psSq := projectileSpeed ^ 2
    let vtSq := targetVel.dot targetVel
    let a := vtSq - psSq
    let b := 2 * d.dot targetVel
    let c := d.dot d
    if targetVel.isNearlyZero kindaSmallNumber then (true, actualTargetPos)
    else if d.isNearlyZero kindaSmallNumber then (false, 0)
    else if FMath.isNearlyZero a kindaSmallNumber then
      -- target and projectile are equally fast: `b * t + c = 0`
      if FMath.isNearlyZero b kindaSmallNumber then
        if c < kindaSmallNumber then (true, actualTargetPos) else (false, 0)
      else
        let t := -c / b
        if 0 < t then (true, actualTargetPos + targetVel * t) else (false, 0)
    else
      let discriminant := b * b - 4 * a * c
      if discriminant < 0 then (false, 0)
      else
        let sqrtD := Engine.sqrt discriminant
        let t1 := (-b + sqrtD) / (2 * a)
        let t2 := (-b - sqrtD) / (2 * a)
        match smallestPositiveTime t1 t2 with
        | some validTime => (true, actualTargetPos + targetVel * validTime)
        | none => (false, 0)

/-- Division with an undefined result at a zero divisor. -/
def checkedDiv (x y : K) : Option K := if y = 0 then none else some (x / y)

/-- A square root with an undefined result below zero. -/
def checkedSqrt (x : K) : Option K := if x < 0 then none else some (Engine.sqrt x)

/-- `quadraticEquationInterception` with checked divisions and square roots. -/
def quadraticEquationInterceptionChecked
    (turretPos targetPos targetVel : FVector K) (projectileSpeed timeDelay : K) :
    Option (Bool × FVector K) :=
  if projectileSpeed ≤ 0 then some (false, 0)
  else
    let actualTargetPos := targetPos + targetVel * timeDelay
    let d := actualTargetPos - turretPos
    let psSq := projectileSpeed ^ 2
    let vtSq := targetVel.dot targetVel
    let a := vtSq - psSq
    let b := 2 * d.dot targetVel
    let c := d.dot d
    if targetVel.isNearlyZero kindaSmallNumber then some (true, actualTargetPos)
    else if d.isNearlyZero kindaSmallNumber then some (false, 0)
    else if FMath.isNearlyZero a kindaSmallNumber then
      if FMath.isNearlyZero b kindaSmallNumber then
        if c < kindaSmallNumber then some (true, actualTargetPos) else some (false, 0)
      else
        (checkedDiv (-c) b).map fun t =>
          if 0 < t then (true, actualTargetPos + targetVel * t) else (false, 0)
    else
      let discriminant := b * b - 4 * a * c
      if discriminant < 0 then some (false, 0)
      else
        (checkedSqrt discriminant).bind fun sqrtD =>
          (checkedDiv (-b + sqrtD) (2 * a)).bind fun t1 =>
            (checkedDiv (-b - sqrtD) (2 * a)).map fun t2 =>
              (smallestPositiveTime t1 t2).elim (false, 0)
                fun validTime => (true, actualTargetPos + targetVel * validTime)

/-- The time that is solved for where the tolerances do not decide: the root
of the linear equation or the least positive root of the quadratic one. -/
def flightTime (a b c : K) : Option K :=
  if FMath.isNearlyZero a kindaSmallNumber then
    if 0 < -c / b then some (-c / b) else none
  else if discrim a b c < 0 then none
  else
    smallestPositiveTime ((-b + Engine.sqrt (discrim a b c)) / (2 * a))
      ((-b - Engine.sqrt (discrim a b c)) / (2 * a))

/-- A successful solve had a projectile that moves. -/
theorem speed_pos_of_ok {turretPos targetPos targetVel point : FVector K}
    {projectileSpeed timeDelay : K}
    (h : quadraticEquationInterception turretPos targetPos targetVel projectileSpeed timeDelay =
      (true, point)) : 0 < projectileSpeed := by
  by_contra hnot
  unfold quadraticEquationInterception at h
  rw [if_pos (not_lt.mp hnot)] at h
  cases h

/-- The larger one of the yaw and pitch differences of two rotations. -/
def maxAngularDistance (currentRot targetRot : FRotator K) : K :=
  max |FMath.findDeltaAngleDegrees currentRot.yaw targetRot.yaw|
    |FMath.findDeltaAngleDegrees currentRot.pitch targetRot.pitch|

/-- The part of `CalculateRotationTime` after the target rotation is known. -/
def rotationTimeTo (currentRot targetRot : FRotator K)
    (rotateSpeed angleTolerance : K) : K :=
  if maxAngularDistance currentRot targetRot ≤ angleTolerance then 0
  else if rotateSpeed ≤ 0 then bigNumber
  else max 0 (Engine.loge (maxAngularDistance currentRot targetRot / angleTolerance)
    / rotateSpeed)

/-- The rotation by which a turret at `currentLoc` looks at `targetLoc`. -/
def rotationTowards (currentLoc targetLoc : FVector K) : FRotator K :=
  Engine.rotation (targetLoc - currentLoc).getSafeNormal

/-- `CalculateRotationTime`. -/
def calculateRotationTime (currentLoc : FVector K) (currentRot : FRotator K)
    (targetLoc : FVector K) (rotateSpeed : K) (angleTolerance : K := 1) : K :=
  rotationTimeTo currentRot (rotationTowards currentLoc targetLoc)
    rotateSpeed angleTolerance

/-- `PointInRange`: closer than the range. -/
def pointInRange (point center : FVector K) (range : K) : Bool :=
  point.dist center < range

/-- `PredictInterceptionPoint`. -/
def predictInterceptionPoint (turretPos : FVector K) (turretRot : FRotator K)
    (targetPos targetVel : FVector K)
    (projectileSpeed rotateSpeed turretRadius : K) : Bool × FVector K :=
  let initial :=
    quadraticEquationInterception turretPos targetPos targetVel projectileSpeed 0
  if !initial.1 then (false, 0)
  else
    let rotationTime :=
      calculateRotationTime turretPos turretRot initial.2 rotateSpeed + bufferTime
    let delayed :=
      quadraticEquationInterception turretPos targetPos targetVel projectileSpeed
        rotationTime
    if !delayed.1 then (false, 0)
    -- the range test reads the undelayed intercept, the output is the delayed one
    else if initial.2.isZero || !pointInRange initial.2 turretPos turretRadius then
      (false, 0)
    else (true, delayed.2)

/-- **What a returned point is**: the intercept after the delay that the
undelayed intercept calls for. -/
theorem predictInterceptionPoint_ok {turretPos : FVector K} {turretRot : FRotator K}
    {targetPos targetVel out : FVector K} {projectileSpeed rotateSpeed turretRadius : K}
    (h : predictInterceptionPoint turretPos turretRot targetPos targetVel projectileSpeed
      rotateSpeed turretRadius = (true, out)) :
    ∃ initial,
      quadraticEquationInterception turretPos targetPos targetVel projectileSpeed 0 =
        (true, initial) ∧
      quadraticEquationInterception turretPos targetPos targetVel projectileSpeed
        (calculateRotationTime turretPos turretRot initial rotateSpeed + bufferTime) =
          (true, out) ∧
      initial.isZero = false ∧ pointInRange initial turretPos turretRadius = true := by
  unfold predictInterceptionPoint at h
  dsimp only at h
  split_ifs at h with hinitial hdelayed hrange
  · simp at h
  · simp at h
  · simp at h
  · simp only [Bool.not_eq_true', Bool.not_eq_false, Bool.or_eq_true, not_or] at *
    refine ⟨_, Prod.ext hinitial rfl, Prod.ext hdelayed (Prod.mk.inj h).2, ?_, hrange.2⟩
    exact Bool.eq_false_iff.mpr hrange.1

end InterceptionHandler

end TurretMaster

import TurretMaster.ShotAccuracy
import TurretMaster.PredictedPoint
import TurretMaster.PredictionCheck
import TurretMaster.Engagement

/-!
# How far a shot misses

A target that keeps its velocity is met if the shot leaves exactly after the
delay that the prediction assumed, from where the prediction put the muzzle and
in the direction of the predicted point.  `Tick` fires when the turret is
aligned, whenever that is, along its rotation point.

* `miss_le` — the errors of a shot add up;
* `miss_distance_le` — the budget of every shot of every run.
-/

namespace TurretMaster

open Runs Directions InnerProductGeometry InterceptionHandler

/-- The embedding keeps differences. -/
theorem FVector.toSpace_sub (v w : FVector ℝ) : (v - w).toSpace = v.toSpace - w.toSpace := by
  ext i
  fin_cases i <;> rfl

/-! ## The budget of a shot -/

/-- Vectors that are apart are embedded apart. -/
theorem toSpace_ne_of_apart {v w : FVector ℝ} (h : smallNumber < (v - w).dot (v - w)) :
    v.toSpace ≠ w.toSpace := by
  intro heq
  have hpos := smallNumber_pos.trans h
  rw [← FVector.norm_toSpace_sq, FVector.toSpace_sub, heq, sub_self, norm_zero] at hpos
  norm_num at hpos

/-- The errors of a shot add up: the one of the ray, the one of the prediction
and the one of the time. -/
theorem miss_le {rotation : FRotator ℝ} {start eye point targetPos targetVel : FVector ℝ}
    {speed flight expected slack : ℝ}
    (hangle : angle rotation.vector.toSpace (point - eye).toSpace ≤
      widest (FMath.degreesToRadians 0.5))
    (hne : point.toSpace ≠ eye.toSpace) (hlength : ‖(point - start).toSpace‖ = speed * flight)
    (hpoint : ‖point.toSpace - (targetPos + targetVel * expected).toSpace‖ ≤ slack)
    (muzzle : FVector ℝ) (time : ℝ) :
    ‖muzzle.toSpace + (speed * flight) • rotation.vector.toSpace -
        (targetPos + targetVel * time).toSpace‖ ≤
      ‖targetVel.toSpace‖ * |time - expected| + slack +
        (‖(muzzle - eye).toSpace‖ + ‖(start - eye).toSpace‖ +
          speed * flight * (2 * Real.sin (widest (FMath.degreesToRadians 0.5) / 2))) := by
  have htiming := norm_along_sub targetPos targetVel expected time
  simp only [FVector.toSpace_sub] at hangle hlength ⊢
  have hray := norm_ray_sub_le (widest_mem _).2 rotation.norm_vector hne hangle
    start.toSpace muzzle.toSpace
  rw [hlength] at hray
  have hnear := norm_sub_le_norm_sub_add_norm_sub point.toSpace
    (targetPos + targetVel * expected).toSpace (targetPos + targetVel * time).toSpace
  have hsum := norm_sub_le_norm_sub_add_norm_sub
    (muzzle.toSpace + (speed * flight) • rotation.vector.toSpace) point.toSpace
    (targetPos + targetVel * time).toSpace
  rw [htiming] at hnear
  linarith

section Budget

variable {ι α : Type} [ExactEngine]
variable {L : Level ι α ℝ} {c : Scene ι α ℝ} {w w' w₀ : World ι α ℝ} {a : ι}
variable {trace : List (Transition (World ι α ℝ) (Event ι α ℝ))}

/-- The point of an accepted projectile is the one of its prediction. -/
theorem interceptionOf_projectile {t : α} {turretRot : FRotator ℝ}
    (htype : determinedType c t = TMGameplayTags.targetTypeProjectileNoGravity) :
    interceptionOf L c a turretRot t =
      predictInterceptionPoint (c.centerMuzzleLocation a) turretRot (c.targetData t).location
        (c.targetData t).velocity 3000 (L.turnSpeed a) (c.turretAreaRadius a) := by
  rw [interceptionOf, htype]
  rfl

variable [DecidableEq ι] [DecidableEq α]

/-- **The miss budget.** Let a turret fire in a run at a projectile that was at
the head of its list when it was selected.  Where the shot has covered the
predicted distance, if it left the muzzle along the rotation point, it and the
target, if that has kept its velocity, are at most this far apart: the way of
the target in the difference between the time since the selection and the
assumed delay with the flight, the tolerances of the solver, the distances of
the muzzle from the rotation point now and then, and what the alignment within
half a degree allows. -/
theorem miss_distance_le
    (hframe : ∀ v : FVector ℝ, v.dot v = 1 → (Engine.makeFromX v).vector = v)
    (hinit : Initial w₀) (hrun : Run (Step L) w₀ trace w)
    (hstep : Step L w (.tick c a) w') (hfire : w'.spawning = some a)
    {x : Transition (World ι α ℝ) (Event ι α ℝ)} {t : α} {c' : Scene ι α ℝ}
    (hlocked : LockedBy L a t c' x w') (hhead : (x.source.turret a).targets.head? = some t)
    (htype : determinedType c' t = TMGameplayTags.targetTypeProjectileNoGravity)
    {eye start point : FVector ℝ} {delay flight : ℝ} (heye : eye = c'.rotationPointLocation a)
    (hstart : start = c'.centerMuzzleLocation a)
    (hpoint : point = (interceptionOf L c' a (x.source.turret a).rotationPoint t).2)
    (hdelay : delay = assumedDelay start (x.source.turret a).rotationPoint
      (c'.targetData t).location (c'.targetData t).velocity 3000 (L.turnSpeed a))
    (hflight : ‖(point - start).toSpace‖ = 3000 * flight)
    (hapart : smallNumber < (point - eye).dot (point - eye)) (time : ℝ) :
    ‖(c.centerMuzzleLocation a).toSpace +
        (3000 * flight) • (w'.turret a).rotationPoint.vector.toSpace -
        ((c'.targetData t).location + (c'.targetData t).velocity * time).toSpace‖ ≤
      ‖(c'.targetData t).velocity.toSpace‖ * |time - (delay + flight)| +
        (2 * kindaSmallNumber * flight + 1 / 50) +
        (‖(c.centerMuzzleLocation a - eye).toSpace‖ + ‖(start - eye).toSpace‖ +
          3000 * flight * (2 * Real.sin (widest (FMath.degreesToRadians 0.5) / 2))) := by
  subst heye hstart hpoint hdelay
  have hready := fire_conditions (wellFormed_run hinit hrun) hstep hfire
  have hvalid : (interceptionOf L c' a (x.source.turret a).rotationPoint t).1 = true := by
    have hacceptable := List.find?_some hlocked.first
    simp only [acceptable, Bool.and_eq_true] at hacceptable
    exact hacceptable.1
  have hangle := angle_of_ready hframe hready (hlocked.targetInterceptionRotation hhead) hapart
  rw [interceptionOf_projectile htype] at hvalid hangle hapart hflight
  have hsolve := predicted_solve (Prod.ext hvalid rfl)
  exact miss_le hangle (toSpace_ne_of_apart hapart) hflight
    (solver_miss_le (by norm_num) hsolve hflight) _ time

end Budget

section Alley

attribute [local instance] atan2Engine

/-- The alley with every actor in flight towards the turrets from their right, at
the height of the rotation point, and the muzzle 50 units to the right of it. -/
noncomputable def alleyFlight : Scene ℕ ℕ ℝ :=
  { alleyScene with
    targetTags := fun _ => [TMGameplayTags.targetTypeProjectileNoGravity]
    targetData := fun _ =>
      ⟨⟨0, 4050, (alleyScene.rotationPointLocation 0).z⟩, ⟨0, -1000, 0⟩⟩
    centerMuzzleLocation := fun a => ⟨0, 50, (alleyScene.rotationPointLocation a).z⟩
    deltaSeconds := 1 }

/-- Actor 1 is a projectile. -/
theorem flight_type : determinedType alleyFlight 1 =
    TMGameplayTags.targetTypeProjectileNoGravity := rfl

/-- The time for a quarter turn. -/
noncomputable def quarterTurn : ℝ := Real.log 90 / alley.turnSpeed 0

/-- The turn speed is the default one. -/
theorem quarterTurn_eq : quarterTurn = Real.log 90 / 5 := rfl

/-- The quarter turn takes time. -/
theorem quarterTurn_pos : 0 < quarterTurn := by
  rw [quarterTurn_eq]
  exact div_pos log_ninety_pos (by norm_num)

/-- It takes at most a second. -/
theorem quarterTurn_le : quarterTurn ≤ 1 := by
  have hexp : (90 : ℝ) ≤ Real.exp 5 := by
    have hpow : Real.exp 1 ^ 5 = Real.exp 5 := by rw [← Real.exp_nat_mul]; norm_num
    have hbase : (2.7 : ℝ) ^ 5 ≤ Real.exp 1 ^ 5 :=
      pow_le_pow_left₀ (by norm_num) (by linarith [Real.exp_one_gt_d9]) 5
    rw [← hpow]
    exact le_trans (by norm_num) hbase
  rw [quarterTurn_eq, div_le_one (by norm_num)]
  exact (Real.log_le_iff_le_exp (by norm_num)).mpr hexp

/-- A shot after the delay meets the actor a quarter of it earlier than one at
once. -/
theorem charge_solve {delay : ℝ} (hdelay : delay ≤ 1) :
    quadraticEquationInterception (⟨0, 50, 100⟩ : FVector ℝ) ⟨0, 4050, 100⟩ ⟨0, -1000, 0⟩ 3000
      delay = (true, ⟨0, 3050 - 750 * delay, 100⟩) := by
  have hroots (t : ℝ) : t ∈ meetingTimes ⟨0, 50, 100⟩ ⟨0, 4050, 100⟩ ⟨0, -1000, 0⟩ 3000 delay ↔
      t = 1 - delay / 4 := by
    rw [meetingTimes_eq_roots (by norm_num)]
    simp only [Set.mem_ofPred_eq, FVector.dot, FVector.add_def, FVector.sub_def, FVector.mul_def]
    constructor
    · rintro ⟨hpos, hroot⟩
      have hfactor : (4 - delay - 4 * t) * (4 - delay + 2 * t) = 0 := by
        linear_combination hroot / 1000000
      rcases mul_eq_zero.mp hfactor with hzero | hzero <;> linarith
    · rintro rfl
      exact ⟨by linarith, by ring⟩
  have hoff : OffTolerance (⟨0, 50, 100⟩ : FVector ℝ) ⟨0, 4050, 100⟩ ⟨0, -1000, 0⟩ 3000 delay := by
    refine ⟨?_, ?_, Or.inl ?_⟩
    · norm_num [FVector.isNearlyZero, kindaSmallNumber]
    · have hfar : (1 / 10 ^ 4 : ℝ) < |4050 - 1000 * delay - 50| := lt_abs.mpr (Or.inl (by linarith))
      simpa [FVector.isNearlyZero, kindaSmallNumber, FVector.add_def, FVector.mul_def,
        FVector.sub_def, sub_eq_add_neg, mul_comm] using hfar
    · norm_num [FVector.dot, kindaSmallNumber]
  rcases quadraticEquationInterception_cases (by norm_num) hoff with
    ⟨t, hleast, hsolve⟩ | ⟨hempty, -⟩
  · obtain rfl := (hroots t).mp hleast.1
    rw [hsolve]
    ext <;> simp only [FVector.add_def, FVector.mul_def] <;> ring
  · have hmem := (hroots _).mpr rfl
    rw [hempty] at hmem
    cases hmem

/-- The turret, which looks ahead, has a quarter turn to make to where a shot at
once meets the actor. -/
theorem charge_delay : calculateRotationTime (⟨0, 50, 100⟩ : FVector ℝ) 0 ⟨0, 3050, 100⟩ 5 =
    quarterTurn := by
  have hrotation : rotationTowards (⟨0, 50, 100⟩ : FVector ℝ) ⟨0, 3050, 100⟩ = ⟨0, 90, 0⟩ := by
    have hway : (⟨0, 3050, 100⟩ : FVector ℝ) - ⟨0, 50, 100⟩ = ⟨0, 3000, 0⟩ := by
      norm_num [FVector.sub_def]
    have hfar : smallNumber ≤ (⟨0, 3000, 0⟩ : FVector ℝ).dot ⟨0, 3000, 0⟩ := by
      norm_num [smallNumber, FVector.dot]
    obtain ⟨k, hk, hnormal⟩ := FVector.exists_getSafeNormal_eq hfar
    rw [rotationTowards, hway, hnormal]
    ext
    · exact (directionPitch_mul hk _).trans (directionPitch_level rfl)
    · exact (directionYaw_mul hk _).trans (atan2Degrees_pos_zero (by norm_num))
    · rfl
  have hquarter : angularDistanceTo (⟨0, 50, 100⟩ : FVector ℝ) 0 ⟨0, 3050, 100⟩ = 90 := by
    rw [angularDistanceTo, hrotation, ahead_unwrapped.maxAngularDistance_eq]
    norm_num
  rw [calculateRotationTime_eq (by norm_num), hquarter, max_eq_right (by norm_num), quarterTurn_eq]

/-- A shot at once would meet the target 3050 units to the right. -/
theorem charge_undelayed :
    quadraticEquationInterception (⟨0, 50, 100⟩ : FVector ℝ) ⟨0, 4050, 100⟩ ⟨0, -1000, 0⟩ 3000 0 =
      (true, ⟨0, 3050, 100⟩) :=
  (charge_solve zero_le_one).trans (by norm_num)

/-- The assumed delay is the time of the quarter turn. -/
theorem charge_assumedDelay :
    assumedDelay (⟨0, 50, 100⟩ : FVector ℝ) 0 ⟨0, 4050, 100⟩ ⟨0, -1000, 0⟩ 3000 5 =
      quarterTurn := by
  rw [assumedDelay, charge_undelayed, charge_delay, bufferTime, add_zero]

/-- Turret 0 is told where a shot after the quarter turn meets the actor. -/
theorem charge_interceptionOf : interceptionOf alley alleyFlight 0 0 1 =
    (true, ⟨0, 3050 - 750 * quarterTurn, 100⟩) := by
  have hdelayed := charge_solve quarterTurn_le
  rw [← charge_assumedDelay, assumedDelay, charge_undelayed] at hdelayed
  have hnotZero : (⟨0, 3050, 100⟩ : FVector ℝ).isZero = false := by norm_num [FVector.isZero]
  have hroot : √(9000000 : ℝ) = 3000 := by
    rw [Real.sqrt_eq_iff_mul_self_eq] <;> norm_num
  have hinRange : pointInRange (⟨0, 3050, 100⟩ : FVector ℝ) ⟨0, 50, 100⟩ 5000 = true := by
    norm_num [pointInRange, FVector.dist, FVector.sub_def, FVector.dot, ExactEngine.sqrt_eq,
      hroot]
  rw [interceptionOf_projectile flight_type]
  refine (predictInterceptionPoint_eq charge_undelayed hdelayed).trans ?_
  simp [hnotZero, hinRange, alleyFlight, alleyScene, charge_delay, bufferTime]

/-- The target is accepted. -/
theorem charge_acceptable : acceptable alley alleyFlight 0 0 1 = true := by
  have hdelay := quarterTurn_pos
  have hdelay' := quarterTurn_le
  have hrange : isPointWithinRange alley alleyFlight 0 ⟨0, 3050 - 750 * quarterTurn, 100⟩ =
      true := by
    refine alley_inRange rfl ?_
    simp only [FVector.dot]
    nlinarith
  rw [acceptable, charge_interceptionOf, hrange]
  rfl

/-- The aim is to the right. -/
theorem charge_aim : aimFor alley alleyFlight 0 0 1 = ⟨0, 90, 0⟩ := by
  have hway : (⟨0, 3050 - 750 * quarterTurn, 100⟩ : FVector ℝ) -
      alleyFlight.rotationPointLocation 0 = ⟨0, 3050 - 750 * quarterTurn, 0⟩ := by
    norm_num [alleyFlight, alleyScene, FVector.sub_def]
  rw [aimFor, charge_interceptionOf, interceptionRotation, hway,
    normalize_right (by linarith [quarterTurn_le]), makeFromX_right]

/-- A shot at the actor in flight.  The turret turns to it first, and the muzzle
is 50 units away from the rotation point. -/
theorem miss_distance_le_alley : 0 < quarterTurn ∧ ∃ w : World ℕ ℕ ℝ, w.spawning = some 0 ∧
    ∀ time : ℝ,
    ‖(⟨0, 50, 100⟩ : FVector ℝ).toSpace +
        (3000 * (1 - quarterTurn / 4) : ℝ) • (w.turret 0).rotationPoint.vector.toSpace -
        ((⟨0, 4050, 100⟩ : FVector ℝ) + (⟨0, -1000, 0⟩ : FVector ℝ) * time).toSpace‖ ≤
      ‖(⟨0, -1000, 0⟩ : FVector ℝ).toSpace‖ * |time - (quarterTurn + (1 - quarterTurn / 4))| +
        (2 * kindaSmallNumber * (1 - quarterTurn / 4) + 1 / 50) +
        (‖((⟨0, 50, 100⟩ : FVector ℝ) - ⟨0, 0, 100⟩).toSpace‖ +
          ‖((⟨0, 50, 100⟩ : FVector ℝ) - ⟨0, 0, 100⟩).toSpace‖ +
          3000 * (1 - quarterTurn / 4) *
            (2 * Real.sin (widest (FMath.degreesToRadians 0.5) / 2))) := by
  have hturn := quarterTurn_le
  obtain ⟨hactive, hfree, hrotation⟩ := alleyOne_turret
  obtain ⟨before, hbefore⟩ := alleyOne_run
  have hwf := wellFormed_run alleyStart_initial hbefore
  obtain ⟨v, hlock, hlocked, hquiet, hpose⟩ :=
    alley_locks charge_acceptable charge_aim right_nonzero right_unaligned
  rw [show alleyFlight.deltaSeconds = 1 from rfl, alley_turned le_rfl] at hpose
  have hwf' := wellFormed_step hwf hlock
  obtain ⟨w, hstep, hshot, hsame⟩ := alley_fires hwf' hlocked hquiet hpose alleyFlight
  have hnew : ¬ SameLock (alleyOne.turret 0) (v.turret 0) := by
    intro h
    have hkey := hlocked.key
    rw [h.currentTarget, hfree] at hkey
    cases hkey
  obtain ⟨c', hselected⟩ := selected_of_new_lock hwf hlock hlocked.key hnew
  obtain rfl : alleyFlight = c' := by simpa using hselected.event
  have htargets : (alleyOne.turret 0).targets = [1] :=
    ATurret.targets_of_map (by simpa using hactive)
  have hpoint := congrArg Prod.snd charge_interceptionOf.symm
  rw [← hrotation] at hpoint
  have hdelay := charge_assumedDelay.symm
  rw [← hrotation] at hdelay
  have hflight : ‖((⟨0, 3050 - 750 * quarterTurn, 100⟩ : FVector ℝ) - ⟨0, 50, 100⟩).toSpace‖ =
      3000 * (1 - quarterTurn / 4) := by
    have hway : (0 : ℝ) ≤ 3000 - 750 * quarterTurn := by linarith
    have hsquare : ((⟨0, 3050 - 750 * quarterTurn, 100⟩ : FVector ℝ) - ⟨0, 50, 100⟩).dot
        (⟨0, 3050 - 750 * quarterTurn, 100⟩ - ⟨0, 50, 100⟩) = (3000 - 750 * quarterTurn) ^ 2 := by
      simp only [FVector.sub_def, FVector.dot]
      ring
    rw [FVector.norm_toSpace, hsquare, Real.sqrt_sq hway]
    ring
  refine ⟨quarterTurn_pos, w, hshot, miss_distance_le atan2_frame alleyStart_initial
    (hbefore.snoc hlock) hstep hshot ⟨hselected, hsame⟩ (by rw [htargets]; rfl) flight_type
    rfl rfl hpoint hdelay hflight ?_⟩
  simp only [FVector.sub_def, FVector.dot, smallNumber]
  nlinarith

end Alley

end TurretMaster

import TurretMaster.Pursuit
import TurretMaster.RotationDelay

/-!
# The intercept is the earliest meeting point

Away from its tolerances `quadraticEquationInterception` solves the pursuit of
the target: it succeeds exactly if the projectile can meet the target after the
delay, and returns the first point at which it can.

* `quadraticEquationInterceptionChecked_eq` — no division by zero and no root
  of a negative number on the way;
* `flightTime_cases` — the flight time is the least positive root;
* `quadraticEquationInterception_spec` — verdict and point;
* `delay_never_helps` — an earlier shot meets the target no later;
* `slower_target_hit` — a target slower than the projectile is always hit.
-/

namespace TurretMaster

/-! ## Vectors in Euclidean space -/

namespace FVector

/-- The vector as a point of Euclidean space. -/
noncomputable def toSpace (v : FVector ℝ) : EuclideanSpace ℝ (Fin 3) :=
  (EuclideanSpace.equiv (Fin 3) ℝ).symm ![v.x, v.y, v.z]

/-- The embedding is additive. -/
theorem toSpace_add (v w : FVector ℝ) : (v + w).toSpace = v.toSpace + w.toSpace := by
  ext i
  fin_cases i <;> rfl

/-- The embedding keeps scaling. -/
theorem toSpace_mul (v : FVector ℝ) (k : ℝ) : (v * k).toSpace = k • v.toSpace := by
  ext i
  fin_cases i <;> simp [toSpace, mul_def, mul_comm]

/-- The inner product is the dot product of the source. -/
theorem inner_toSpace (v w : FVector ℝ) : inner ℝ v.toSpace w.toSpace = v.dot w := by
  simp [toSpace, dot, PiLp.inner_apply, Fin.sum_univ_three, mul_comm]

/-- The norm is the length of the source. -/
theorem norm_toSpace (v : FVector ℝ) : ‖v.toSpace‖ = √(v.dot v) := by
  rw [← inner_toSpace, ← norm_eq_sqrt_real_inner]

/-- The squared norm is the squared length. -/
theorem norm_toSpace_sq (v : FVector ℝ) : ‖v.toSpace‖ ^ 2 = v.dot v := by
  rw [← inner_toSpace, real_inner_self_eq_norm_sq]

/-- Only the zero vector is embedded as zero. -/
theorem eq_zero_of_toSpace {v : FVector ℝ} (h : v.toSpace = 0) : v = 0 := by
  have hdot : v.x * v.x + v.y * v.y + v.z * v.z = 0 := by
    change v.dot v = 0
    rw [← norm_toSpace_sq, h, norm_zero, sq, mul_zero]
  have hx := mul_self_nonneg v.x
  have hy := mul_self_nonneg v.y
  have hz := mul_self_nonneg v.z
  ext
  · exact mul_self_eq_zero.mp (by linarith)
  · exact mul_self_eq_zero.mp (by linarith)
  · exact mul_self_eq_zero.mp (by linarith)

/-- A vector that is not nearly zero is not zero. -/
theorem toSpace_ne_zero {v : FVector ℝ} (h : v.isNearlyZero kindaSmallNumber = false) :
    v.toSpace ≠ 0 := by
  intro hspace
  have hzero : (0 : FVector ℝ).isNearlyZero kindaSmallNumber = true := by
    simp [isNearlyZero, kindaSmallNumber]
  rw [eq_zero_of_toSpace hspace, hzero] at h
  cases h

end FVector

namespace InterceptionHandler

/-! ## Checked evaluation -/

section Checked

variable {K : Type} [Field K] [LinearOrder K]

/-- What is not nearly zero is not zero. -/
theorem ne_zero_of_not_isNearlyZero [IsStrictOrderedRing K] {x : K}
    (h : FMath.isNearlyZero x kindaSmallNumber ≠ true) : x ≠ 0 := by
  intro hzero
  subst hzero
  apply h
  simp [FMath.isNearlyZero, kindaSmallNumber]

variable [Engine K] [IsStrictOrderedRing K]

/-- **The branches guard every division and root.** -/
theorem quadraticEquationInterceptionChecked_eq
    (turretPos targetPos targetVel : FVector K) (projectileSpeed timeDelay : K) :
    quadraticEquationInterceptionChecked turretPos targetPos targetVel projectileSpeed
        timeDelay =
      some (quadraticEquationInterception turretPos targetPos targetVel projectileSpeed
        timeDelay) := by
  unfold quadraticEquationInterceptionChecked quadraticEquationInterception
  dsimp only
  split_ifs with hspeed hrest hat ha hb hc ht hdisc
  · rfl
  · rfl
  · rfl
  · rfl
  · rfl
  · rw [checkedDiv, if_neg (ne_zero_of_not_isNearlyZero hb), Option.map_some, if_pos ht]
  · rw [checkedDiv, if_neg (ne_zero_of_not_isNearlyZero hb), Option.map_some, if_neg ht]
  · rfl
  · have hdivisor := mul_ne_zero two_ne_zero (ne_zero_of_not_isNearlyZero ha)
    simp only [checkedSqrt, if_neg hdisc, checkedDiv, if_neg hdivisor, Option.bind_some,
      Option.map_some]
    generalize smallestPositiveTime (_ : K) _ = validTime
    cases validTime <;> rfl

end Checked

/-! ## The flight time -/

section FlightTime

variable {K : Type} [Field K] [LinearOrder K]

/-- The smaller one of two times if both are positive, else the positive one. -/
theorem smallestPositiveTime_cases (t1 t2 : K) :
    (∃ t, smallestPositiveTime t1 t2 = some t ∧
      IsLeast {x | 0 < x ∧ (x = t1 ∨ x = t2)} t) ∨
    (smallestPositiveTime t1 t2 = none ∧ {x | 0 < x ∧ (x = t1 ∨ x = t2)} = ∅) := by
  unfold smallestPositiveTime
  split_ifs with hboth hfirst hsecond
  · refine Or.inl ⟨_, rfl, ⟨lt_min hboth.1 hboth.2, min_choice t1 t2⟩, ?_⟩
    intro x hx
    rcases hx with ⟨-, rfl | rfl⟩
    · exact min_le_left _ _
    · exact min_le_right _ _
  · refine Or.inl ⟨_, rfl, ⟨hfirst, Or.inl rfl⟩, ?_⟩
    intro x hmem
    rcases hmem with ⟨hx, rfl | rfl⟩
    · exact le_rfl
    · exact absurd ⟨hfirst, hx⟩ hboth
  · refine Or.inl ⟨_, rfl, ⟨hsecond, Or.inr rfl⟩, ?_⟩
    intro x hmem
    rcases hmem with ⟨hx, rfl | rfl⟩
    · exact absurd hx hfirst
    · exact le_rfl
  · refine Or.inr ⟨rfl, Set.eq_empty_of_forall_notMem ?_⟩
    intro x hmem
    rcases hmem with ⟨hx, rfl | rfl⟩
    · exact hfirst hx
    · exact hsecond hx

variable [Engine K]

/-- The flight time in the terms of the source. -/
theorem flightTime_eq (a b c : K) :
    flightTime a b c =
      if FMath.isNearlyZero a kindaSmallNumber then
        if 0 < -c / b then some (-c / b) else none
      else if b * b - 4 * a * c < 0 then none
      else
        smallestPositiveTime ((-b + Engine.sqrt (b * b - 4 * a * c)) / (2 * a))
          ((-b - Engine.sqrt (b * b - 4 * a * c)) / (2 * a)) := by
  rw [flightTime, discrim, sq]

/-- With a moving target that is away from the turret, and a coefficient to
divide by, the solver returns the point that belongs to its flight time. -/
theorem quadraticEquationInterception_eq
    {turretPos targetPos targetVel : FVector K} {projectileSpeed timeDelay : K}
    (hspeed : 0 < projectileSpeed)
    (hmoving : targetVel.isNearlyZero kindaSmallNumber = false)
    (haway : (targetPos + targetVel * timeDelay - turretPos).isNearlyZero
      kindaSmallNumber = false)
    (hdivisor : FMath.isNearlyZero (targetVel.dot targetVel - projectileSpeed ^ 2)
        kindaSmallNumber = true →
      FMath.isNearlyZero (2 * (targetPos + targetVel * timeDelay - turretPos).dot targetVel)
        kindaSmallNumber = false) :
    quadraticEquationInterception turretPos targetPos targetVel projectileSpeed timeDelay =
      (flightTime (targetVel.dot targetVel - projectileSpeed ^ 2)
        (2 * (targetPos + targetVel * timeDelay - turretPos).dot targetVel)
        ((targetPos + targetVel * timeDelay - turretPos).dot
          (targetPos + targetVel * timeDelay - turretPos))).elim (false, 0)
        (fun t => (true, targetPos + targetVel * timeDelay + targetVel * t)) := by
  unfold quadraticEquationInterception
  dsimp only
  rw [flightTime_eq, if_neg (not_le.mpr hspeed), if_neg (Bool.eq_false_iff.mp hmoving),
    if_neg (Bool.eq_false_iff.mp haway)]
  by_cases ha : FMath.isNearlyZero (targetVel.dot targetVel - projectileSpeed ^ 2)
      kindaSmallNumber = true
  · rw [if_pos ha, if_pos ha, if_neg (Bool.eq_false_iff.mp (hdivisor ha))]
    split_ifs <;> rfl
  · rw [if_neg ha, if_neg ha]
    split_ifs with hdisc
    · rfl
    · generalize smallestPositiveTime (_ : K) _ = validTime
      cases validTime <;> rfl

end FlightTime

section Exact

variable {turretPos targetPos targetVel : FVector ℝ} {projectileSpeed timeDelay : ℝ}

/-- The flight times after which a projectile fired after the delay can be
where the target is. -/
def meetingTimes (turretPos targetPos targetVel : FVector ℝ)
    (projectileSpeed timeDelay : ℝ) : Set ℝ :=
  let d := targetPos + targetVel * timeDelay - turretPos
  {t | 0 < t ∧ √((d + targetVel * t).dot (d + targetVel * t)) = projectileSpeed * t}

/-- The inputs are away from the tolerances of the solver: the target moves
and is not at the turret, and the equation has a leading coefficient. -/
structure OffTolerance (turretPos targetPos targetVel : FVector ℝ)
    (projectileSpeed timeDelay : ℝ) : Prop where
  moving : targetVel.isNearlyZero kindaSmallNumber = false
  away : (targetPos + targetVel * timeDelay - turretPos).isNearlyZero
    kindaSmallNumber = false
  coefficients :
    kindaSmallNumber < |targetVel.dot targetVel - projectileSpeed ^ 2| ∨
      (targetVel.dot targetVel - projectileSpeed ^ 2 = 0 ∧
        kindaSmallNumber <
          |2 * (targetPos + targetVel * timeDelay - turretPos).dot targetVel|)

/-- The meeting times are those of a pursuit from the turret. -/
theorem meetingTimes_eq_pursuit :
    meetingTimes turretPos targetPos targetVel projectileSpeed timeDelay =
      Pursuit.meetingTimes (targetPos + targetVel * timeDelay - turretPos).toSpace
        targetVel.toSpace projectileSpeed := by
  ext t
  have hnorm := FVector.norm_toSpace
    (targetPos + targetVel * timeDelay - turretPos + targetVel * t)
  rw [FVector.toSpace_add, FVector.toSpace_mul] at hnorm
  change _ ↔ 0 < t ∧ _
  rw [hnorm]
  rfl

/-- The meeting times are the positive roots of the quadratic of the source. -/
theorem meetingTimes_eq_roots (hspeed : 0 < projectileSpeed) :
    meetingTimes turretPos targetPos targetVel projectileSpeed timeDelay =
      {t | 0 < t ∧ (targetVel.dot targetVel - projectileSpeed ^ 2) * (t * t) +
        2 * (targetPos + targetVel * timeDelay - turretPos).dot targetVel * t +
        (targetPos + targetVel * timeDelay - turretPos).dot
          (targetPos + targetVel * timeDelay - turretPos) = 0} := by
  ext t
  rw [meetingTimes_eq_pursuit, Pursuit.mem_meetingTimes_iff hspeed.le,
    FVector.norm_toSpace_sq, FVector.norm_toSpace_sq, FVector.inner_toSpace]
  rfl

/-- The returned point of a moving target determines the flight time. -/
theorem flightTime_unique (hmoving : targetVel.isNearlyZero kindaSmallNumber = false)
    {point : FVector ℝ} {s t : ℝ} (h : point + targetVel * s = point + targetVel * t) :
    s = t := by
  have hspace := congrArg FVector.toSpace h
  rw [FVector.toSpace_add, FVector.toSpace_add, add_right_inj, FVector.toSpace_mul,
    FVector.toSpace_mul] at hspace
  exact smul_left_injective ℝ (FVector.toSpace_ne_zero hmoving) hspace

variable [ExactEngine]

/-- **The flight time is the least positive root.** -/
theorem flightTime_cases {a b c : ℝ}
    (hcoefficients : kindaSmallNumber < |a| ∨ (a = 0 ∧ kindaSmallNumber < |b|)) :
    (∃ t, flightTime a b c = some t ∧
      IsLeast {x | 0 < x ∧ a * (x * x) + b * x + c = 0} t) ∨
    (flightTime a b c = none ∧ {x | 0 < x ∧ a * (x * x) + b * x + c = 0} = ∅) := by
  have hsmall : (0 : ℝ) < kindaSmallNumber := kindaSmallNumber_pos
  rw [flightTime_eq]
  rcases hcoefficients with hquadratic | ⟨rfl, hlinear⟩
  · have ha : a ≠ 0 := abs_pos.mp (hsmall.trans hquadratic)
    have hnear : ¬ FMath.isNearlyZero a kindaSmallNumber = true := by
      simpa [FMath.isNearlyZero] using hquadratic
    rw [if_neg hnear]
    split_ifs with hdisc
    · refine Or.inr ⟨rfl, Set.eq_empty_of_forall_notMem ?_⟩
      intro x hx
      exact Pursuit.no_root hdisc x hx.2
    · have hsqrt : Engine.sqrt (b * b - 4 * a * c) * Engine.sqrt (b * b - 4 * a * c) =
          b * b - 4 * a * c := by
        rw [ExactEngine.sqrt_eq]
        exact Real.mul_self_sqrt (not_lt.mp hdisc)
      have hset := Set.ext fun x => Pursuit.positive_root_iff ha hsqrt x
      change {x | 0 < x ∧ a * (x * x) + b * x + c = 0} = {x | 0 < x ∧ _} at hset
      rw [hset]
      exact smallestPositiveTime_cases _ _
  · have hb : b ≠ 0 := abs_pos.mp (hsmall.trans hlinear)
    have hnear : FMath.isNearlyZero (0 : ℝ) kindaSmallNumber = true := by
      simp [FMath.isNearlyZero, hsmall.le]
    have hset : {x | 0 < x ∧ 0 * (x * x) + b * x + c = 0} = {x | 0 < x ∧ x = -c / b} := by
      ext x
      rw [Set.mem_ofPred_eq, zero_mul, zero_add]
      exact Pursuit.positive_linear_root_iff hb x
    rw [if_pos hnear, hset]
    split_ifs with hpos
    · refine Or.inl ⟨_, rfl, ⟨hpos, rfl⟩, ?_⟩
      intro x hx
      exact hx.2.ge
    · refine Or.inr ⟨rfl, Set.eq_empty_of_forall_notMem ?_⟩
      intro x hx
      exact hpos (hx.2 ▸ hx.1)

/-! ## The solver and the pursuit -/

/-- Either there is a first meeting and its point is returned, or there is no
meeting and the call fails. -/
theorem quadraticEquationInterception_cases (hspeed : 0 < projectileSpeed)
    (h : OffTolerance turretPos targetPos targetVel projectileSpeed timeDelay) :
    (∃ t, IsLeast (meetingTimes turretPos targetPos targetVel projectileSpeed timeDelay) t ∧
      quadraticEquationInterception turretPos targetPos targetVel projectileSpeed timeDelay =
        (true, targetPos + targetVel * timeDelay + targetVel * t)) ∨
    (meetingTimes turretPos targetPos targetVel projectileSpeed timeDelay = ∅ ∧
      quadraticEquationInterception turretPos targetPos targetVel projectileSpeed timeDelay =
        (false, 0)) := by
  have hsmall : (0 : ℝ) < kindaSmallNumber := kindaSmallNumber_pos
  have hdivisor : FMath.isNearlyZero (targetVel.dot targetVel - projectileSpeed ^ 2)
        kindaSmallNumber = true →
      FMath.isNearlyZero (2 * (targetPos + targetVel * timeDelay - turretPos).dot targetVel)
        kindaSmallNumber = false := by
    intro hnear
    rcases h.coefficients with hlarge | ⟨-, hlarge⟩
    · simp only [FMath.isNearlyZero, decide_eq_true_eq] at hnear
      exact absurd hlarge (not_lt.mpr hnear)
    · simpa [FMath.isNearlyZero] using hlarge
  rw [quadraticEquationInterception_eq hspeed h.moving h.away hdivisor,
    meetingTimes_eq_roots hspeed]
  rcases flightTime_cases h.coefficients with ⟨t, ht, hleast⟩ | ⟨hnone, hempty⟩
  · exact Or.inl ⟨t, hleast, by rw [ht, Option.elim_some]⟩
  · exact Or.inr ⟨hempty, by rw [hnone, Option.elim_none]⟩

/-- **What the solver computes.** Away from the tolerances it returns true
exactly if the projectile can meet the target, its point is where it first can,
and the evaluation divides by no zero and takes no root of a negative number. -/
theorem quadraticEquationInterception_spec (hspeed : 0 < projectileSpeed)
    (h : OffTolerance turretPos targetPos targetVel projectileSpeed timeDelay) :
    ((quadraticEquationInterception turretPos targetPos targetVel projectileSpeed
        timeDelay).1 = true ↔
      ∃ t, t ∈ meetingTimes turretPos targetPos targetVel projectileSpeed timeDelay) ∧
    ((quadraticEquationInterception turretPos targetPos targetVel projectileSpeed
        timeDelay).1 = true →
      ∃ t₀, IsLeast (meetingTimes turretPos targetPos targetVel projectileSpeed timeDelay) t₀ ∧
        (quadraticEquationInterception turretPos targetPos targetVel projectileSpeed
          timeDelay).2 = targetPos + targetVel * timeDelay + targetVel * t₀) ∧
    quadraticEquationInterceptionChecked turretPos targetPos targetVel projectileSpeed
        timeDelay =
      some (quadraticEquationInterception turretPos targetPos targetVel projectileSpeed
        timeDelay) := by
  refine ⟨?_, ?_, quadraticEquationInterceptionChecked_eq _ _ _ _ _⟩
  · rcases quadraticEquationInterception_cases hspeed h with
      ⟨t, hleast, hquad⟩ | ⟨hempty, hquad⟩
    · rw [hquad]
      exact iff_of_true rfl ⟨t, hleast.1⟩
    · rw [hquad, hempty]
      exact iff_of_false Bool.false_ne_true (fun ⟨_, ht⟩ => ht)
  · intro hvalid
    rcases quadraticEquationInterception_cases hspeed h with ⟨t, hleast, hquad⟩ | ⟨-, hquad⟩
    · exact ⟨t, hleast, by rw [hquad]⟩
    · rw [hquad] at hvalid
      cases hvalid

/-! ## Delaying the shot -/

/-- **Delaying the shot never helps.** If the shot can meet the target after
the longer delay, it can after the shorter one, and does so no later. -/
theorem delay_never_helps {delay₁ delay₂ t₂ : ℝ} (hspeed : 0 < projectileSpeed)
    (hdelay : delay₁ ≤ delay₂)
    (h₁ : OffTolerance turretPos targetPos targetVel projectileSpeed delay₁)
    (h₂ : OffTolerance turretPos targetPos targetVel projectileSpeed delay₂)
    (hlater : quadraticEquationInterception turretPos targetPos targetVel projectileSpeed
      delay₂ = (true, targetPos + targetVel * delay₂ + targetVel * t₂)) :
    ∃ t₁, 0 < t₁ ∧
      quadraticEquationInterception turretPos targetPos targetVel projectileSpeed delay₁ =
        (true, targetPos + targetVel * delay₁ + targetVel * t₁) ∧
      delay₁ + t₁ ≤ delay₂ + t₂ := by
  have ht₂ : t₂ ∈ meetingTimes turretPos targetPos targetVel projectileSpeed delay₂ := by
    rcases quadraticEquationInterception_cases hspeed h₂ with ⟨t, hleast, hquad⟩ | ⟨-, hquad⟩
    · rw [hlater] at hquad
      rw [flightTime_unique h₂.moving (Prod.mk.inj hquad).2]
      exact hleast.1
    · rw [hlater] at hquad
      cases hquad
  -- the later offset is the earlier one, carried along for the rest of the delay
  have hoffset : (targetPos + targetVel * delay₂ - turretPos).toSpace =
      (targetPos + targetVel * delay₁ - turretPos).toSpace +
        (delay₂ - delay₁) • targetVel.toSpace := by
    rw [← FVector.toSpace_mul, ← FVector.toSpace_add]
    congr 1
    ext <;> simp only [FVector.add_def, FVector.sub_def, FVector.mul_def] <;> ring
  rw [meetingTimes_eq_pursuit, hoffset] at ht₂
  obtain ⟨s, hs, hle⟩ := Pursuit.exists_meeting_of_delayed
    (FVector.toSpace_ne_zero h₁.away) hspeed.le (sub_nonneg.mpr hdelay) ht₂
  rw [← meetingTimes_eq_pursuit] at hs
  rcases quadraticEquationInterception_cases hspeed h₁ with ⟨t₁, hleast, hquad⟩ | ⟨hempty, -⟩
  · have hfirst := hleast.2 hs
    exact ⟨t₁, hleast.1.1, hquad, by linarith⟩
  · rw [hempty] at hs
    exact hs.elim

/-! ## Slower targets -/

/-- **A slower target can always be hit.** The solver succeeds, and the flight
time lies between those of a target that comes straight at the turret and of
one that flees straight from it. -/
theorem slower_target_hit (hspeed : 0 < projectileSpeed)
    (hmoving : targetVel.isNearlyZero kindaSmallNumber = false)
    (hslower : targetVel.dot targetVel < projectileSpeed ^ 2 - kindaSmallNumber)
    (haway : (targetPos + targetVel * timeDelay - turretPos).isNearlyZero
      kindaSmallNumber = false) :
    ∃ t, quadraticEquationInterception turretPos targetPos targetVel projectileSpeed
        timeDelay = (true, targetPos + targetVel * timeDelay + targetVel * t) ∧
      √((targetPos + targetVel * timeDelay - turretPos).dot
          (targetPos + targetVel * timeDelay - turretPos)) /
        (projectileSpeed + √(targetVel.dot targetVel)) ≤ t ∧
      t ≤ √((targetPos + targetVel * timeDelay - turretPos).dot
          (targetPos + targetVel * timeDelay - turretPos)) /
        (projectileSpeed - √(targetVel.dot targetVel)) := by
  have hsmall : (0 : ℝ) < kindaSmallNumber := kindaSmallNumber_pos
  have hcoefficient : kindaSmallNumber < |targetVel.dot targetVel - projectileSpeed ^ 2| :=
    lt_abs.mpr (Or.inr (by linarith))
  have hslow : ‖targetVel.toSpace‖ < projectileSpeed := by
    rw [← sq_lt_sq₀ (norm_nonneg _) hspeed.le, FVector.norm_toSpace_sq]
    linarith
  rw [← FVector.norm_toSpace, ← FVector.norm_toSpace]
  rcases quadraticEquationInterception_cases hspeed ⟨hmoving, haway, Or.inl hcoefficient⟩ with
    ⟨t, hleast, hquad⟩ | ⟨hempty, -⟩
  · have ht := hleast.1
    rw [meetingTimes_eq_pursuit] at ht
    exact ⟨t, hquad, Pursuit.le_of_mem_meetingTimes hspeed ht,
      Pursuit.le_of_mem_meetingTimes_of_slow hslow ht⟩
  · obtain ⟨t, ht⟩ := Pursuit.exists_meeting_of_slow (FVector.toSpace_ne_zero haway) hslow
    rw [← meetingTimes_eq_pursuit, hempty] at ht
    exact ht.elim

end Exact

section Alley

attribute [local instance] atan2Engine

/-- The crossing target is off the tolerances. -/
theorem crossing_offTolerance {timeDelay : ℝ} :
    OffTolerance (0 : FVector ℝ) ⟨3, 5, 0⟩ ⟨-3, 0, 0⟩ 5 timeDelay := by
  refine ⟨?_, ?_, Or.inl ?_⟩
  · norm_num [FVector.isNearlyZero, kindaSmallNumber]
  · norm_num [FVector.isNearlyZero, kindaSmallNumber, FVector.add_def, FVector.mul_def,
      FVector.sub_def]
  · norm_num [FVector.dot, kindaSmallNumber]

/-- The undelayed shot at the crossing target. -/
theorem quadraticEquationInterception_spec_alley :
    ((quadraticEquationInterception (0 : FVector ℝ) ⟨3, 5, 0⟩ ⟨-3, 0, 0⟩ 5 0).1 = true ↔
      ∃ t, t ∈ meetingTimes 0 ⟨3, 5, 0⟩ ⟨-3, 0, 0⟩ 5 0) ∧
    ∃ t₀, IsLeast (meetingTimes 0 ⟨3, 5, 0⟩ ⟨-3, 0, 0⟩ 5 0) t₀ ∧
      ⟨0, 5, 0⟩ = (⟨3, 5, 0⟩ : FVector ℝ) + (⟨-3, 0, 0⟩ : FVector ℝ) * (0 : ℝ) +
          (⟨-3, 0, 0⟩ : FVector ℝ) * t₀ := by
  obtain ⟨hiff, hleast, -⟩ :=
    quadraticEquationInterception_spec (by norm_num) crossing_offTolerance
  rw [crossing_undelayed] at hleast
  exact ⟨hiff, hleast rfl⟩

/-- A shot at the crossing target after one second and the shot at once. -/
theorem delay_never_helps_alley :
    ∃ t₁ : ℝ, 0 < t₁ ∧
      quadraticEquationInterception (0 : FVector ℝ) ⟨3, 5, 0⟩ ⟨-3, 0, 0⟩ 5 0 =
        (true, (⟨3, 5, 0⟩ : FVector ℝ) + (⟨-3, 0, 0⟩ : FVector ℝ) * (0 : ℝ) +
          (⟨-3, 0, 0⟩ : FVector ℝ) * t₁) ∧
      0 + t₁ ≤ 1 + 5 / 4 := by
  have hpoint : ⟨-15 / 4, 5, 0⟩ = (⟨3, 5, 0⟩ : FVector ℝ) + (⟨-3, 0, 0⟩ : FVector ℝ) * (1 : ℝ) +
      (⟨-3, 0, 0⟩ : FVector ℝ) * (5 / 4 : ℝ) := by
    norm_num [FVector.add_def, FVector.mul_def]
  have hlater := crossing_delayed
  rw [hpoint] at hlater
  exact delay_never_helps (by norm_num) (by norm_num) crossing_offTolerance
    crossing_offTolerance hlater

/-- The crossing target is slower than the projectile. -/
theorem slower_target_hit_alley :
    (⟨-3, 0, 0⟩ : FVector ℝ).dot ⟨-3, 0, 0⟩ < 5 ^ 2 - kindaSmallNumber ∧
    ∃ t, quadraticEquationInterception (0 : FVector ℝ) ⟨3, 5, 0⟩ ⟨-3, 0, 0⟩ 5 0 =
        (true, (⟨3, 5, 0⟩ : FVector ℝ) + (⟨-3, 0, 0⟩ : FVector ℝ) * (0 : ℝ) +
          (⟨-3, 0, 0⟩ : FVector ℝ) * t) ∧
      √(34 : ℝ) / (5 + 3) ≤ t ∧ t ≤ √(34 : ℝ) / (5 - 3) := by
  have hslower : (⟨-3, 0, 0⟩ : FVector ℝ).dot ⟨-3, 0, 0⟩ < 5 ^ 2 - kindaSmallNumber := by
    norm_num [FVector.dot, kindaSmallNumber]
  have hoff : OffTolerance (0 : FVector ℝ) ⟨3, 5, 0⟩ ⟨-3, 0, 0⟩ 5 0 := crossing_offTolerance
  obtain ⟨t, hquad, hlower, hupper⟩ :=
    slower_target_hit (by norm_num) hoff.moving hslower hoff.away
  have hdistance : ((⟨3, 5, 0⟩ : FVector ℝ) + (⟨-3, 0, 0⟩ : FVector ℝ) * (0 : ℝ) - 0).dot
      ((⟨3, 5, 0⟩ : FVector ℝ) + (⟨-3, 0, 0⟩ : FVector ℝ) * (0 : ℝ) - 0) = 34 := by
    norm_num [FVector.dot, FVector.add_def, FVector.mul_def, FVector.sub_def]
  have htargetSpeed : √((⟨-3, 0, 0⟩ : FVector ℝ).dot ⟨-3, 0, 0⟩) = 3 := by
    rw [Real.sqrt_eq_iff_mul_self_eq] <;> norm_num [FVector.dot]
  rw [hdistance, htargetSpeed] at hlower hupper
  exact ⟨hslower, t, hquad, hlower, hupper⟩

end Alley

end InterceptionHandler

end TurretMaster

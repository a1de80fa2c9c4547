import TurretMaster.Directions
import TurretMaster.EarliestIntercept
import TurretMaster.FireCount
import TurretMaster.AimProvenance

/-!
# Where a shot points

`Tick` compares rotations axis by axis: it fires when pitch, yaw and roll are
each within half a degree of the aim.  As directions the two may then differ by
more, by `Directions.widest` of half a degree at most.

* `angle_vector_le_of_equals`, `exists_equals_widest` — what `Equals` says
  about directions;
* `shot_accuracy` — every shot of every run against the line to the point it
  was aimed at.
-/

namespace TurretMaster

open Runs Directions InnerProductGeometry

/-! ## Rotators as directions -/

namespace FMath

/-- The conversion is strictly monotone. -/
theorem degreesToRadians_strictMono : StrictMono degreesToRadians :=
  strictMono_mul_right_of_pos (by positivity)

/-- So it keeps bounds. -/
theorem degreesToRadians_le {x y : ℝ} (h : x ≤ y) : degreesToRadians x ≤ degreesToRadians y :=
  degreesToRadians_strictMono.monotone h

/-- A half turn. -/
theorem degreesToRadians_half_turn : degreesToRadians 180 = Real.pi := by
  rw [degreesToRadians]
  field_simp

/-- The conversion is additive. -/
theorem degreesToRadians_add (x y : ℝ) :
    degreesToRadians (x + y) = degreesToRadians x + degreesToRadians y := add_mul _ _ _

/-- It keeps differences. -/
theorem degreesToRadians_sub (x y : ℝ) :
    degreesToRadians (x - y) = degreesToRadians x - degreesToRadians y := sub_mul _ _ _

/-- Whole turns. -/
theorem degreesToRadians_turns (j : ℤ) :
    degreesToRadians (j * 360) = j * (2 * Real.pi) := by
  rw [degreesToRadians]
  ring

/-- It keeps absolute values. -/
theorem abs_degreesToRadians (x : ℝ) : |degreesToRadians x| = degreesToRadians |x| := by
  have hpos : (0 : ℝ) ≤ Real.pi / 180 := by positivity
  rw [degreesToRadians, degreesToRadians, abs_mul, abs_of_nonneg hpos]

/-- It keeps halves. -/
theorem degreesToRadians_half (x : ℝ) : degreesToRadians (x / 2) = degreesToRadians x / 2 := by
  rw [degreesToRadians, degreesToRadians]
  ring

/-- It keeps signs. -/
theorem degreesToRadians_neg (x : ℝ) : degreesToRadians (-x) = -degreesToRadians x :=
  neg_mul _ _

/-- It undoes the conversion to degrees. -/
theorem degreesToRadians_radiansToDegrees (x : ℝ) :
    degreesToRadians (radiansToDegrees x) = x := by
  rw [degreesToRadians, radiansToDegrees]
  field_simp

end FMath

namespace FRotator

open FMath

/-- `FRotator::Vector`. -/
noncomputable def vector (r : FRotator ℝ) : FVector ℝ :=
  ⟨Real.cos (degreesToRadians r.pitch) * Real.cos (degreesToRadians r.yaw),
    Real.cos (degreesToRadians r.pitch) * Real.sin (degreesToRadians r.yaw),
    Real.sin (degreesToRadians r.pitch)⟩

/-- The forward vector of a rotation is its direction. -/
theorem toSpace_vector (r : FRotator ℝ) :
    r.vector.toSpace = direction (degreesToRadians r.pitch) (degreesToRadians r.yaw) := by
  ext i
  fin_cases i <;> rfl

/-- The forward vector has length one. -/
theorem norm_vector (r : FRotator ℝ) : ‖r.vector.toSpace‖ = 1 := by
  rw [toSpace_vector, norm_direction]

/-- **What `Equals` says about directions.** -/
theorem angle_vector_le_of_equals {r s : FRotator ℝ} {tolerance : ℝ} (htol : tolerance ≤ 180)
    (h : r.equals s tolerance = true) :
    angle r.vector.toSpace s.vector.toSpace ≤ widest (degreesToRadians tolerance) := by
  simp only [equals, Bool.and_eq_true, decide_eq_true_eq] at h
  obtain ⟨⟨hpitch, hyaw⟩, -⟩ := h
  obtain ⟨i, hi⟩ := exists_normalizeAxis_eq (r.pitch - s.pitch)
  obtain ⟨j, hj⟩ := exists_normalizeAxis_eq (r.yaw - s.yaw)
  have hnear {x y : ℝ} {k : ℤ} (hk : |x - y + k * 360| ≤ tolerance) :
      |degreesToRadians x + k * (2 * Real.pi) - degreesToRadians y| ≤
        degreesToRadians tolerance := by
    rw [← degreesToRadians_turns, ← degreesToRadians_add, ← degreesToRadians_sub,
      abs_degreesToRadians, add_sub_right_comm]
    exact degreesToRadians_le hk
  have hmax : degreesToRadians tolerance ≤ Real.pi := by
    rw [← degreesToRadians_half_turn]
    exact degreesToRadians_le htol
  rw [toSpace_vector, toSpace_vector,
    ← direction_add_turns (degreesToRadians r.pitch) (degreesToRadians r.yaw) i j]
  exact angle_direction_le hmax (hnear (hi ▸ hpitch)) (hnear (hj ▸ hyaw))

/-- The widest angle is attained across the horizon. -/
theorem angle_vector_widest (tolerance : ℝ) :
    angle (⟨-(tolerance / 2), 0, 0⟩ : FRotator ℝ).vector.toSpace
        (⟨tolerance / 2, tolerance, 0⟩ : FRotator ℝ).vector.toSpace =
      widest (degreesToRadians tolerance) := by
  have hzero : degreesToRadians 0 = 0 := zero_mul _
  have hwidest := angle_direction_widest 0 (degreesToRadians tolerance)
  rw [zero_add] at hwidest
  simp only [toSpace_vector, degreesToRadians_neg, degreesToRadians_half, hzero]
  exact hwidest

/-- Some rotations that are equal up to the tolerance are that far apart. -/
theorem exists_equals_widest {tolerance : ℝ} (htol : tolerance ∈ Set.Icc 0 180) :
    ∃ r s : FRotator ℝ, r.equals s tolerance = true ∧
      angle r.vector.toSpace s.vector.toSpace = widest (degreesToRadians tolerance) := by
  obtain ⟨hnonneg, hle⟩ := htol
  have habs : |-tolerance| ≤ 180 := by
    rw [abs_neg, abs_of_nonneg hnonneg]
    exact hle
  have hdiff : |normalizeAxis (-tolerance)| = tolerance := by
    rw [abs_normalizeAxis habs, abs_neg, abs_of_nonneg hnonneg]
  have hpitch : -(tolerance / 2) - tolerance / 2 = -tolerance := by ring
  refine ⟨_, _, ?_, angle_vector_widest tolerance⟩
  simp only [equals, hpitch, zero_sub, sub_zero, hdiff, normalizeAxis_zero, abs_zero,
    Bool.and_eq_true, decide_eq_true_eq]
  exact ⟨⟨le_rfl, le_rfl⟩, hnonneg⟩

end FRotator

/-! ## The shot and its point -/

section Accuracy

variable {ι α : Type} [ExactEngine]
variable {L : Level ι α ℝ} {c : Scene ι α ℝ} {w w' w₀ : World ι α ℝ} {a : ι}
variable {trace : List (Transition (World ι α ℝ) (Event ι α ℝ))}

/-- A vector that is long enough is normalised to length one. -/
theorem dot_normalize {v : FVector ℝ} (hlarge : smallNumber < v.dot v) :
    v.normalize.dot v.normalize = 1 := by
  have hpos : 0 < v.dot v := smallNumber_pos.trans hlarge
  have hsqrt := Real.mul_self_sqrt hpos.le
  rw [FVector.normalize, if_pos hlarge, ExactEngine.sqrt_eq]
  calc (v * (1 / √(v.dot v))).dot (v * (1 / √(v.dot v)))
      = v.dot v / (√(v.dot v) * √(v.dot v)) := by
        simp only [FVector.dot, FVector.mul_def]
        ring
    _ = 1 := by rw [hsqrt, div_self hpos.ne']

/-- The rotator of a point looks along the way to it. -/
theorem angle_interceptionRotation
    (hframe : ∀ v : FVector ℝ, v.dot v = 1 → (Engine.makeFromX v).vector = v)
    {point : FVector ℝ}
    (hlarge : smallNumber <
      (point - c.rotationPointLocation a).dot (point - c.rotationPointLocation a))
    (u : EuclideanSpace ℝ (Fin 3)) :
    angle u (interceptionRotation c a point).vector.toSpace =
      angle u (point - c.rotationPointLocation a).toSpace := by
  rw [interceptionRotation, hframe _ (dot_normalize hlarge)]
  obtain ⟨k, hk, hnormalize⟩ := (point - c.rotationPointLocation a).exists_normalize_eq
  rw [hnormalize, FVector.toSpace_mul, angle_smul_right_of_pos _ _ hk]

/-- A turret that is ready to fire at a point looks along the way to it. -/
theorem angle_of_ready
    (hframe : ∀ v : FVector ℝ, v.dot v = 1 → (Engine.makeFromX v).vector = v)
    {u : ATurret α ℝ} (hready : ReadyToFire u) {point : FVector ℝ}
    (haim : u.targetInterceptionRotation = interceptionRotation c a point)
    (hlarge : smallNumber <
      (point - c.rotationPointLocation a).dot (point - c.rotationPointLocation a)) :
    angle u.rotationPoint.vector.toSpace (point - c.rotationPointLocation a).toSpace ≤
      widest (FMath.degreesToRadians 0.5) := by
  have haligned := FRotator.angle_vector_le_of_equals (by norm_num) hready.aligned
  rwa [haim, angle_interceptionRotation hframe hlarge] at haligned

/-- The tick `x` has made the lock that turret `a` has in `w`. -/
structure LockedBy (L : Level ι α ℝ) (a : ι) (t : α) (c : Scene ι α ℝ)
    (x : Transition (World ι α ℝ) (Event ι α ℝ)) (w : World ι α ℝ) : Prop
    extends SelectedBy L a t c x where
  same : SameLock (x.target.turret a) (w.turret a)

/-- The aim of a lock is the one at the head of the list. -/
theorem LockedBy.targetInterceptionRotation {t s : α}
    {x : Transition (World ι α ℝ) (Event ι α ℝ)} (h : LockedBy L a t c x w)
    (hs : (x.source.turret a).targets.head? = some s) :
    (w.turret a).targetInterceptionRotation =
      interceptionRotation c a (interceptionOf L c a (x.source.turret a).rotationPoint s).2 := by
  obtain ⟨s', hs', haim⟩ := h.aim
  obtain rfl : s' = s := Option.some.inj (hs'.symm.trans hs)
  exact h.same.targetInterceptionRotation.trans haim

variable [DecidableEq ι] [DecidableEq α]

/-- A lock of a run was made by a transition of it. -/
theorem exists_lockedBy {t : α} (hinit : Initial w₀) (hrun : Run (Step L) w₀ trace w)
    (hkey : (w.turret a).currentTarget.key = some t) :
    ∃ x ∈ trace, ∃ c', LockedBy L a t c' x w := by
  obtain ⟨before, x, after, c', rfl, hselected, hsame, -⟩ := selected_of_locked hinit hrun hkey
  exact ⟨x, by simp, c', hselected, hsame⟩

/-- **Where a shot points.** Whenever a turret fires in a run, some tick of the
run has made its lock, and the rotation point looks along the line from where
it was to the interception point of that tick, up to the largest angle between
rotations that are equal within half a degree.  That angle is more than half a
degree, and some such rotations are that far apart. -/
theorem shot_accuracy
    (hframe : ∀ v : FVector ℝ, v.dot v = 1 → (Engine.makeFromX v).vector = v)
    (hinit : Initial w₀) (hrun : Run (Step L) w₀ trace w)
    (hstep : Step L w (.tick c a) w') (hfire : w'.spawning = some a) :
    (∃ x ∈ trace ++ [⟨w, .tick c a, w'⟩], ∃ t c', LockedBy L a t c' x w') ∧
    (∀ x t c' s way, LockedBy L a t c' x w' →
      (x.source.turret a).targets.head? = some s →
      way = (interceptionOf L c' a (x.source.turret a).rotationPoint s).2 -
        c'.rotationPointLocation a →
      smallNumber < way.dot way →
      angle (w'.turret a).rotationPoint.vector.toSpace way.toSpace ≤
        widest (FMath.degreesToRadians 0.5)) ∧
    FMath.degreesToRadians 0.5 < widest (FMath.degreesToRadians 0.5) ∧
    ∃ r s : FRotator ℝ, r.equals s 0.5 = true ∧
      angle r.vector.toSpace s.vector.toSpace = widest (FMath.degreesToRadians 0.5) := by
  have hready := fire_conditions (wellFormed_run hinit hrun) hstep hfire
  refine ⟨?_, ?_, ?_, FRotator.exists_equals_widest (by norm_num)⟩
  · obtain ⟨t, ht⟩ := Option.ne_none_iff_exists'.mp hready.locked
    obtain ⟨x, hx, c', hlocked⟩ := exists_lockedBy hinit (hrun.snoc hstep) ht
    exact ⟨x, hx, t, c', hlocked⟩
  · rintro x t c' s way hlocked hs rfl hlarge
    exact angle_of_ready hframe hready (hlocked.targetInterceptionRotation hs) hlarge
  · refine lt_widest ?_ ?_
    · rw [FMath.degreesToRadians]
      positivity
    · rw [← FMath.degreesToRadians_half_turn]
      exact FMath.degreesToRadians_strictMono (by norm_num)

end Accuracy

section Alley

attribute [local instance] atan2Engine

/-- The rotator that the arctangent gives to a unit vector looks along it. -/
theorem atan2_frame (v : FVector ℝ) (hunit : v.dot v = 1) : (Engine.makeFromX v).vector = v := by
  have hlevel : ‖(⟨v.x, v.y⟩ : ℂ)‖ = √(v.x ^ 2 + v.y ^ 2) := by
    rw [Complex.norm_eq_sqrt_sq_add_sq]
  have hsteep : ‖(⟨√(v.x ^ 2 + v.y ^ 2), v.z⟩ : ℂ)‖ = 1 := by
    have hsq : √(v.x ^ 2 + v.y ^ 2) ^ 2 = v.x ^ 2 + v.y ^ 2 := Real.sq_sqrt (by positivity)
    rw [Complex.norm_eq_sqrt_sq_add_sq, hsq, Real.sqrt_eq_one, ← hunit, FVector.dot]
    ring
  have hcosPitch := Complex.norm_mul_cos_arg ⟨√(v.x ^ 2 + v.y ^ 2), v.z⟩
  have hsinPitch := Complex.norm_mul_sin_arg ⟨√(v.x ^ 2 + v.y ^ 2), v.z⟩
  have hcosYaw := Complex.norm_mul_cos_arg ⟨v.x, v.y⟩
  have hsinYaw := Complex.norm_mul_sin_arg ⟨v.x, v.y⟩
  rw [hsteep, one_mul] at hcosPitch hsinPitch
  rw [hlevel] at hcosYaw hsinYaw
  have hpitch : FMath.degreesToRadians (Engine.makeFromX v).pitch =
      Complex.arg ⟨√(v.x ^ 2 + v.y ^ 2), v.z⟩ := FMath.degreesToRadians_radiansToDegrees _
  have hyaw : FMath.degreesToRadians (Engine.makeFromX v).yaw = Complex.arg ⟨v.x, v.y⟩ :=
    FMath.degreesToRadians_radiansToDegrees _
  rw [FRotator.vector, hpitch, hyaw, hcosPitch, hsinPitch, hcosYaw, hsinYaw]

/-- Of two events of which only one is a tick of the turret, that one has made
the lock. -/
theorem LockedBy.of_pair {ι α : Type} [DecidableEq ι] [DecidableEq α] {L : Level ι α ℝ}
    {a : ι} {t : α} {c c' : Scene ι α ℝ} {w : World ι α ℝ}
    {x y z : Transition (World ι α ℝ) (Event ι α ℝ)} (h : LockedBy L a t c' x w)
    (hx : x ∈ [y] ++ [z]) (hy : ∀ c, y.event ≠ .tick c a) (hz : z.event = .tick c a) :
    z = x ∧ c = c' := by
  simp only [List.cons_append, List.nil_append, List.mem_cons, List.not_mem_nil,
    or_false] at hx
  rcases hx with rfl | rfl
  · exact absurd h.event (hy c')
  · refine ⟨rfl, ?_⟩
    have hevent := hz.symm.trans h.event
    simpa using hevent

/-- Turret 0 shoots straight to its right, where actor 1 stands. -/
theorem shot_accuracy_alley :
    ∃ w : World ℕ ℕ ℝ, w.spawning = some 0 ∧
      angle (w.turret 0).rotationPoint.vector.toSpace (⟨0, 100, 0⟩ : FVector ℝ).toSpace ≤
        widest (FMath.degreesToRadians 0.5) := by
  obtain ⟨w, hstep, hspawning, -⟩ := alleyAligned_fires
  obtain ⟨⟨x, hx, t, c', hlocked⟩, hangle, -⟩ :=
    shot_accuracy atan2_frame alleyAligned_initial (Run.single alleyAligned_enter) hstep hspawning
  obtain ⟨rfl, rfl⟩ := hlocked.of_pair hx (fun c h => by cases h) rfl
  have hactive : ((admitTarget alleyScene alleyAligned 0 1).turret 0).activeTargets =
      [some 1] := by
    simp [admitTarget_sameTargeting.activeTargets, alleyAligned_initial.activeTargets 0]
  have htargets : ((admitTarget alleyScene alleyAligned 0 1).turret 0).targets = [1] :=
    ATurret.targets_of_map (by simpa using hactive)
  refine ⟨w, hspawning, hangle _ t _ 1 ⟨0, 100, 0⟩ hlocked (by rw [htargets]; rfl) ?_
    (by norm_num [FVector.dot, smallNumber])⟩
  rw [alley_interceptionOf_stationary _ one_ne_zero]
  norm_num [alleyScene, FVector.sub_def]

end Alley

end TurretMaster

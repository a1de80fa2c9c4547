import Mathlib

/-!
# Directions by pitch and yaw

The unit vector of a pitch and a yaw, and the angle between two of them.  When
pitch and yaw each differ by at most `m`, the directions may differ by more
than `m`, and by how much at most is `widest m`.

* `inner_direction` — the cosine of the angle between two directions;
* `angle_direction_le`, `angle_direction_widest` — the largest angle;
* `exists_angle_gt` — near any direction that is not vertical, some are
  further away than `m`;
* `norm_ray_sub_le` — how far from a point a ray passes that was turned to it
  from somewhere else.
-/

namespace Directions

open Real InnerProductGeometry

/-- The unit vector that looks up by `pitch` and to the side by `yaw`. -/
noncomputable def direction (pitch yaw : ℝ) : EuclideanSpace ℝ (Fin 3) :=
  WithLp.toLp _ ![cos pitch * cos yaw, cos pitch * sin yaw, sin pitch]

/-- Two, as the numeral of the definition below. -/
local instance two_atLeastTwo : Nat.AtLeastTwo 2 := ⟨le_rfl⟩

/-- The largest angle between directions whose pitch and yaw differ by at most
`m` each. -/
noncomputable def widest (m : ℝ) : ℝ := 2 * arccos (cos (m / 2) ^ 2)

variable {p y p' y' m : ℝ}

/-- **The cosine of the angle** between two directions. -/
theorem inner_direction (p y p' y' : ℝ) :
    inner ℝ (direction p y) (direction p' y') =
      cos (p - p') - cos p * cos p' * (1 - cos (y - y')) := by
  simp only [direction, EuclideanSpace.inner_eq_star_dotProduct, cos_sub]
  simp
  ring

/-- A direction has length one. -/
theorem norm_direction (p y : ℝ) : ‖direction p y‖ = 1 := by
  have hsq : ‖direction p y‖ ^ 2 = 1 := by
    rw [← real_inner_self_eq_norm_sq, inner_direction]
    simp
  exact (pow_eq_one_iff_of_nonneg (norm_nonneg _) two_ne_zero).mp hsq

/-- The cosine of the angle between two directions. -/
theorem cos_angle_direction (p y p' y' : ℝ) :
    cos (angle (direction p y) (direction p' y')) =
      cos (p - p') - cos p * cos p' * (1 - cos (y - y')) := by
  rw [cos_angle, norm_direction, norm_direction, inner_direction, mul_one, div_one]

/-- Full turns make no difference. -/
theorem direction_add_turns (p y : ℝ) (i j : ℤ) :
    direction (p + i * (2 * π)) (y + j * (2 * π)) = direction p y := by
  simp [direction, cos_add_int_mul_two_pi, sin_add_int_mul_two_pi]

/-! ## The largest angle -/

/-- The squared cosine of half an angle is a share. -/
theorem half_cos_sq_mem (m : ℝ) : cos (m / 2) ^ 2 ∈ Set.Icc 0 1 :=
  ⟨sq_nonneg _, cos_sq_le_one _⟩

/-- The cosine of the widest angle. -/
theorem cos_widest (m : ℝ) : cos (widest m) = 2 * cos (m / 2) ^ 4 - 1 := by
  obtain ⟨hnonneg, hle⟩ := half_cos_sq_mem m
  rw [widest, cos_two_mul, cos_arccos (by linarith) hle]
  ring

/-- The widest angle is an angle. -/
theorem widest_mem (m : ℝ) : widest m ∈ Set.Icc 0 π := by
  have hhalf := arccos_le_pi_div_two.mpr (half_cos_sq_mem m).1
  have hnonneg := arccos_nonneg (cos (m / 2) ^ 2)
  constructor <;> rw [widest] <;> linarith

/-- A difference of at most `m` has a cosine of at least that of `m`. -/
theorem cos_le_cos_of_abs_le {x : ℝ} (hm : m ≤ π) (hx : |x| ≤ m) : cos m ≤ cos x := by
  rw [← cos_abs x]
  exact cos_le_cos_of_nonneg_of_le_pi (abs_nonneg x) hm hx

/-- Half the angle, squared. -/
theorem one_add_cos (m : ℝ) : 1 + cos m = 2 * cos (m / 2) ^ 2 := by
  have hdouble := cos_two_mul (m / 2)
  rw [mul_div_cancel₀ m two_ne_zero] at hdouble
  rw [hdouble]
  ring

/-- **The largest angle.** Directions whose pitch and yaw differ by at most `m`
each are at most `widest m` apart. -/
theorem angle_direction_le (hm : m ≤ π) (hpitch : |p - p'| ≤ m) (hyaw : |y - y'| ≤ m) :
    angle (direction p y) (direction p' y') ≤ widest m := by
  have hcos : cos (widest m) ≤ cos (angle (direction p y) (direction p' y')) := by
    rw [cos_widest, cos_angle_direction]
    have hp := cos_le_cos_of_abs_le hm hpitch
    have hy := cos_le_cos_of_abs_le hm hyaw
    have hsum : 2 * cos p * cos p' ≤ cos (p - p') + 1 := by
      rw [two_mul_cos_mul_cos]
      have hle := cos_le_one (p + p')
      linarith
    have hnonneg : 0 ≤ 1 - cos (y - y') := sub_nonneg.mpr (cos_le_one _)
    have hm1 : 0 ≤ 1 + cos m := by
      have hge := neg_one_le_cos m
      linarith
    calc 2 * cos (m / 2) ^ 4 - 1 = ((1 + cos m) * (1 + cos m) - 2) / 2 := by
          rw [one_add_cos]
          ring
      _ ≤ ((1 + cos (p - p')) * (1 + cos (y - y')) - 2) / 2 := by
          have hprod := mul_le_mul (add_le_add_right hp 1) (add_le_add_right hy 1) hm1
            (hm1.trans (add_le_add_right hp 1))
          linarith
      _ = cos (p - p') - (cos (p - p') + 1) / 2 * (1 - cos (y - y')) := by ring
      _ ≤ cos (p - p') - cos p * cos p' * (1 - cos (y - y')) := by
          have hmul := mul_le_mul_of_nonneg_right
            (by linarith : cos p * cos p' ≤ (cos (p - p') + 1) / 2) hnonneg
          linarith
  by_contra hgt
  rw [not_le] at hgt
  have hlt := cos_lt_cos_of_nonneg_of_le_pi (widest_mem m).1 (angle_le_pi _ _) hgt
  linarith

/-- It is attained by directions on either side of the horizon. -/
theorem angle_direction_widest (y m : ℝ) :
    angle (direction (-(m / 2)) y) (direction (m / 2) (y + m)) = widest m := by
  have hcos : cos (angle (direction (-(m / 2)) y) (direction (m / 2) (y + m))) =
      cos (widest m) := by
    have hpitch : -(m / 2) - m / 2 = -m := by ring
    have hyaw : y - (y + m) = -m := by ring
    have hcosm : cos m = 2 * cos (m / 2) ^ 2 - 1 := by
      have hone := one_add_cos m
      linarith
    rw [cos_widest, cos_angle_direction, hpitch, hyaw, cos_neg, cos_neg, hcosm]
    ring
  exact injOn_cos ⟨angle_nonneg _ _, angle_le_pi _ _⟩ (widest_mem m) hcos

/-- **It is larger than `m`** itself, short of a half turn. -/
theorem lt_widest (hm : 0 < m) (hm' : m < π) : m < widest m := by
  have hhalf : 0 < cos (m / 2) := cos_pos_of_mem_Ioo ⟨by linarith [pi_pos], by linarith⟩
  have hless : cos (m / 2) < 1 := by
    have hlt := cos_lt_cos_of_nonneg_of_le_pi le_rfl (by linarith) (half_pos hm)
    rwa [cos_zero] at hlt
  have hcos : cos (widest m) < cos m := by
    have hsq : cos (m / 2) ^ 2 < 1 := (sq_lt_one_iff₀ hhalf.le).mpr hless
    have hpow : cos (m / 2) ^ 2 * cos (m / 2) ^ 2 < cos (m / 2) ^ 2 * 1 :=
      mul_lt_mul_of_pos_left hsq (by positivity)
    have hone := one_add_cos m
    rw [cos_widest]
    linarith
  by_contra hle
  have hge := cos_le_cos_of_nonneg_of_le_pi (widest_mem m).1 hm'.le (not_lt.mp hle)
  linarith

/-- For a half turn it is a half turn. -/
theorem widest_pi : widest π = π := by
  rw [widest, cos_pi_div_two, sq, mul_zero, arccos_zero, mul_div_cancel₀ π two_ne_zero]

/-- **No cone.** Next to a direction that is not vertical there is one whose
pitch and yaw differ from it by `m` each and which is further away than `m`. -/
theorem exists_angle_gt (hp : |p| < π / 2) (hm : 0 < m) (hm' : m < π / 2) (y : ℝ) :
    ∃ p', |p' - p| = m ∧ m < angle (direction p y) (direction p' (y + m)) := by
  -- turn the pitch across the horizon
  obtain ⟨p', hdiff, hp'⟩ : ∃ p', |p' - p| = m ∧ |p'| < π / 2 := by
    obtain ⟨hlo, hhi⟩ := abs_lt.mp hp
    rcases le_total 0 p with hup | hdown
    · refine ⟨p - m, by rw [sub_sub_cancel_left, abs_neg, abs_of_pos hm], ?_⟩
      rw [abs_lt]
      constructor <;> linarith
    · refine ⟨p + m, by rw [add_sub_cancel_left, abs_of_pos hm], ?_⟩
      rw [abs_lt]
      constructor <;> linarith
  refine ⟨p', hdiff, ?_⟩
  have hcosP : 0 < cos p := cos_pos_of_mem_Ioo (abs_lt.mp hp)
  have hcosP' : 0 < cos p' := cos_pos_of_mem_Ioo (abs_lt.mp hp')
  have hcosm : cos m < 1 := by
    have hlt := cos_lt_cos_of_nonneg_of_le_pi le_rfl (by linarith) hm
    rwa [cos_zero] at hlt
  have hpitch : cos (p - p') = cos m := by rw [← cos_abs, abs_sub_comm, hdiff]
  have hyaw : cos (y - (y + m)) = cos m := by rw [sub_add_cancel_left, cos_neg]
  have hless : cos (angle (direction p y) (direction p' (y + m))) < cos m := by
    rw [cos_angle_direction, hpitch, hyaw]
    have hpos := mul_pos (mul_pos hcosP hcosP') (sub_pos.mpr hcosm)
    linarith
  by_contra hle
  rw [not_lt] at hle
  have hge := cos_le_cos_of_nonneg_of_le_pi (angle_nonneg _ _) (by linarith) hle
  linarith

/-! ## Rays -/

section Rays

variable {E : Type*} [NormedAddCommGroup E] [InnerProductSpace ℝ E] {u v : E}

/-- The chord between two unit vectors. -/
theorem norm_sub_eq (hu : ‖u‖ = 1) (hv : ‖v‖ = 1) : ‖u - v‖ = 2 * sin (angle u v / 2) := by
  have hsin : 0 ≤ sin (angle u v / 2) := by
    have hpi := angle_le_pi u v
    have hnonneg := angle_nonneg u v
    exact sin_nonneg_of_nonneg_of_le_pi (by linarith) (by linarith)
  have hinner : inner ℝ u v = cos (angle u v) := by
    rw [cos_angle, hu, hv, mul_one, div_one]
  have hhalf : cos (angle u v) = 1 - 2 * sin (angle u v / 2) ^ 2 := by
    have hdouble := cos_two_mul (angle u v / 2)
    have hsq := sin_sq_add_cos_sq (angle u v / 2)
    rw [mul_div_cancel₀ _ two_ne_zero] at hdouble
    linarith
  have hsq : ‖u - v‖ ^ 2 = (2 * sin (angle u v / 2)) ^ 2 := by
    rw [norm_sub_sq_real, hu, hv, hinner, hhalf]
    ring
  exact (sq_eq_sq₀ (norm_nonneg _) (by positivity)).mp hsq

/-- Unit vectors at a small angle are close. -/
theorem norm_sub_le_of_angle (hu : ‖u‖ = 1) (hv : ‖v‖ = 1) (hm : m ≤ π)
    (hangle : angle u v ≤ m) : ‖u - v‖ ≤ 2 * sin (m / 2) := by
  have hnonneg := angle_nonneg u v
  have hsin : sin (angle u v / 2) ≤ sin (m / 2) :=
    sin_le_sin_of_le_of_le_pi_div_two (by linarith [pi_pos]) (by linarith) (by linarith)
  rw [norm_sub_eq hu hv]
  linarith

/-- **How far a ray misses a point.** It starts at `muzzle`, is within `m` of
the way from `eye` to the point, and is followed for as long as the point is
away from `start`. -/
theorem norm_ray_sub_le (hm : m ≤ π) (hu : ‖u‖ = 1) {eye point : E} (hne : point ≠ eye)
    (hangle : angle u (point - eye) ≤ m) (start muzzle : E) :
    ‖muzzle + ‖point - start‖ • u - point‖ ≤
      ‖muzzle - eye‖ + ‖start - eye‖ + ‖point - start‖ * (2 * sin (m / 2)) := by
  have hway : 0 < ‖point - eye‖ := norm_pos_iff.mpr (sub_ne_zero.mpr hne)
  -- the direction from the eye to the point
  obtain ⟨v, hv, hpoint, hturn⟩ : ∃ v : E, ‖v‖ = 1 ∧ point - eye = ‖point - eye‖ • v ∧
      ‖u - v‖ ≤ 2 * sin (m / 2) := by
    have hunit : ‖‖point - eye‖⁻¹ • (point - eye)‖ = 1 :=
      norm_smul_inv_norm (sub_ne_zero.mpr hne)
    refine ⟨_, hunit, ?_, norm_sub_le_of_angle hu hunit hm ?_⟩
    · rw [smul_smul, mul_inv_cancel₀ hway.ne', one_smul]
    · rwa [angle_smul_right_of_pos _ _ (inv_pos.mpr hway)]
  have hlength : |‖point - start‖ - ‖point - eye‖| ≤ ‖start - eye‖ := by
    have habs := abs_norm_sub_norm_le (point - start) (point - eye)
    rwa [sub_sub_sub_cancel_left, norm_sub_rev eye] at habs
  have hsplit : muzzle + ‖point - start‖ • u - point =
      (muzzle - eye) + (‖point - start‖ - ‖point - eye‖) • v + ‖point - start‖ • (u - v) := by
    calc muzzle + ‖point - start‖ • u - point
        = (muzzle - eye) - (point - eye) + ‖point - start‖ • u := by abel
      _ = (muzzle - eye) - ‖point - eye‖ • v + ‖point - start‖ • u := by rw [← hpoint]
      _ = _ := by
          rw [sub_smul, smul_sub]
          abel
  calc ‖muzzle + ‖point - start‖ • u - point‖
      ≤ ‖muzzle - eye‖ + ‖(‖point - start‖ - ‖point - eye‖) • v‖ +
          ‖‖point - start‖ • (u - v)‖ := by
        rw [hsplit]
        exact norm_add₃_le
    _ = ‖muzzle - eye‖ + |‖point - start‖ - ‖point - eye‖| + ‖point - start‖ * ‖u - v‖ := by
        rw [norm_smul, norm_smul, hv, mul_one, norm_eq_abs, norm_eq_abs,
          abs_of_nonneg (norm_nonneg (point - start))]
    _ ≤ _ := by
        have hmul := mul_le_mul_of_nonneg_left hturn (norm_nonneg (point - start))
        linarith

end Rays

end Directions

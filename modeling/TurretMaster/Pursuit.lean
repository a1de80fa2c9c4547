import Mathlib

/-!
# Pursuit of a quarry in linear motion

A shot leaves the origin at time zero with a constant speed and may choose its
direction; the quarry starts at an offset and keeps its velocity.  The shot can
meet the quarry at the positive times at which the quarry is as far away as the
shot has flown.

* `exists_meeting_le` — a quarry within reach has been met before;
* `exists_meeting_of_delayed` — a shot fired earlier can meet it no later;
* `exists_meeting_of_slow` — a quarry slower than the shot is always met;
* `launchTime_strictMono` — and the later, the later the shot has left;
* `mem_meetingTimes_iff` — meeting times are positive roots of a quadratic;
* `isLeast_lt_iff` — when the first meeting comes before a given time.
-/

namespace Pursuit

/-! ## Positive roots -/

section Roots

variable {K : Type*} [Field K] [LinearOrder K] {a b c s : K}

/-- The positive roots of a linear equation. -/
theorem positive_linear_root_iff (hb : b ≠ 0) (x : K) :
    (0 < x ∧ b * x + c = 0) ↔ 0 < x ∧ x = -c / b := by
  rw [eq_div_iff hb, mul_comm x b, eq_neg_iff_add_eq_zero]

variable [IsStrictOrderedRing K]

/-- The positive roots of a quadratic whose discriminant is a square. -/
theorem positive_root_iff (ha : a ≠ 0) (hs : s * s = b * b - 4 * a * c) (x : K) :
    (0 < x ∧ a * (x * x) + b * x + c = 0) ↔
      0 < x ∧ (x = (-b + s) / (2 * a) ∨ x = (-b - s) / (2 * a)) := by
  have hdiscrim : discrim a b c = s * s := by rw [discrim, sq, hs]
  rw [quadratic_eq_zero_iff ha hdiscrim]

/-- A quadratic with a negative discriminant has no roots. -/
theorem no_root (hneg : b * b - 4 * a * c < 0) (x : K) : a * (x * x) + b * x + c ≠ 0 := by
  apply quadratic_ne_zero_of_discrim_ne_sq
  intro s hs
  rw [discrim, sq] at hs
  have hsquare := sq_nonneg s
  linarith

end Roots

/-! ## Meeting times -/

section Normed

variable {E : Type*} [NormedAddCommGroup E] [NormedSpace ℝ E]
variable {offset velocity : E} {speed delay t T : ℝ}

/-- The times at which the shot can be where the quarry is. -/
def meetingTimes (offset velocity : E) (speed : ℝ) : Set ℝ :=
  {t | 0 < t ∧ ‖offset + t • velocity‖ = speed * t}

/-- **Within reach means met.** A quarry that is within reach of the shot at
some time has been met by then. -/
theorem exists_meeting_le (hoffset : offset ≠ 0) (hT : 0 ≤ T)
    (hreach : ‖offset + T • velocity‖ ≤ speed * T) :
    ∃ t ∈ meetingTimes offset velocity speed, t ≤ T := by
  let gap : ℝ → ℝ := fun t => speed * t - ‖offset + t • velocity‖
  have hcont : ContinuousOn gap (Set.Icc 0 T) := by fun_prop
  have hstart : gap 0 < 0 := by
    have hnorm := norm_pos_iff.mpr hoffset
    simpa [gap] using hnorm
  have hend : 0 ≤ gap T := sub_nonneg.mpr hreach
  obtain ⟨t, ⟨ht, htT⟩, hgap⟩ :=
    intermediate_value_Icc hT hcont ⟨hstart.le, hend⟩
  have hpos : 0 < t := by
    apply lt_of_le_of_ne ht
    intro hzero
    subst hzero
    exact hstart.ne hgap
  exact ⟨t, ⟨hpos, (sub_eq_zero.mp hgap).symm⟩, htT⟩

/-- **Waiting does not help.** If a shot fired after a delay can meet the
quarry, a shot fired at once can meet it no later. -/
theorem exists_meeting_of_delayed (hoffset : offset ≠ 0) (hspeed : 0 ≤ speed)
    (hdelay : 0 ≤ delay)
    (ht : t ∈ meetingTimes (offset + delay • velocity) velocity speed) :
    ∃ t₁ ∈ meetingTimes offset velocity speed, t₁ ≤ delay + t := by
  obtain ⟨hpos, hmeet⟩ := ht
  apply exists_meeting_le hoffset (add_nonneg hdelay hpos.le)
  rw [add_smul, ← add_assoc, hmeet]
  exact mul_le_mul_of_nonneg_left (le_add_of_nonneg_left hdelay) hspeed

/-- When a shot has to leave to be where the quarry is at a given time. -/
noncomputable def launchTime (offset velocity : E) (speed t : ℝ) : ℝ :=
  t - ‖offset + t • velocity‖ / speed

/-- A flight after a delay ends in a meeting exactly if the delay is the launch
time of its end. -/
theorem mem_meetingTimes_delayed_iff (hspeed : 0 < speed) :
    t ∈ meetingTimes (offset + delay • velocity) velocity speed ↔
      0 < t ∧ launchTime offset velocity speed (delay + t) = delay := by
  refine and_congr_right fun _ => ?_
  rw [launchTime, add_assoc, ← add_smul, sub_eq_iff_eq_add, add_right_inj, eq_div_iff hspeed.ne',
    mul_comm, eq_comm]

/-! ### A slower quarry -/

/-- The quarry gets no further than its own way adds. -/
theorem norm_offset_add_le (offset velocity : E) (ht : 0 ≤ t) :
    ‖offset + t • velocity‖ ≤ ‖offset‖ + t * ‖velocity‖ := by
  have htriangle := norm_add_le offset (t • velocity)
  rw [norm_smul, Real.norm_of_nonneg ht] at htriangle
  exact htriangle

/-- Nor does it come closer than its own way allows. -/
theorem norm_offset_le (offset velocity : E) (ht : 0 ≤ t) :
    ‖offset‖ ≤ ‖offset + t • velocity‖ + t * ‖velocity‖ := by
  have htriangle := norm_sub_le (offset + t • velocity) (t • velocity)
  rw [add_sub_cancel_right, norm_smul, Real.norm_of_nonneg ht] at htriangle
  exact htriangle

/-- No meeting comes before that of a quarry heading straight for the origin. -/
theorem le_of_mem_meetingTimes (hspeed : 0 < speed)
    (ht : t ∈ meetingTimes offset velocity speed) :
    ‖offset‖ / (speed + ‖velocity‖) ≤ t := by
  obtain ⟨hpos, hmeet⟩ := ht
  have hclosing : 0 < speed + ‖velocity‖ := add_pos_of_pos_of_nonneg hspeed (norm_nonneg _)
  have hway := norm_offset_le offset velocity hpos.le
  rw [div_le_iff₀ hclosing]
  linarith

/-- A slower quarry is met no later than one that flees straight ahead. -/
theorem le_of_mem_meetingTimes_of_slow (hslow : ‖velocity‖ < speed)
    (ht : t ∈ meetingTimes offset velocity speed) :
    t ≤ ‖offset‖ / (speed - ‖velocity‖) := by
  obtain ⟨hpos, hmeet⟩ := ht
  have hway := norm_offset_add_le offset velocity hpos.le
  rw [le_div_iff₀ (sub_pos.mpr hslow)]
  linarith

/-- **A slower quarry is always met**: the shot gains on it at the difference
of the speeds. -/
theorem exists_meeting_of_slow (hoffset : offset ≠ 0) (hslow : ‖velocity‖ < speed) :
    ∃ t, t ∈ meetingTimes offset velocity speed := by
  have hclosing : 0 < speed - ‖velocity‖ := sub_pos.mpr hslow
  obtain ⟨T, hT, hclosed⟩ : ∃ T, 0 ≤ T ∧ T * (speed - ‖velocity‖) = ‖offset‖ :=
    ⟨‖offset‖ / (speed - ‖velocity‖), div_nonneg (norm_nonneg _) hclosing.le,
      div_mul_cancel₀ _ hclosing.ne'⟩
  have hway := norm_offset_add_le offset velocity hT
  have hreach : ‖offset + T • velocity‖ ≤ speed * T := by linarith
  obtain ⟨t, ht, -⟩ := exists_meeting_le hoffset hT hreach
  exact ⟨t, ht⟩

/-- **The later the meeting, the later the launch**, when the quarry is slower
than the shot. -/
theorem launchTime_strictMono (hspeed : 0 < speed) (hslow : ‖velocity‖ < speed) :
    StrictMono (launchTime offset velocity speed) := by
  intro s t hst
  have hgap : 0 < t - s := sub_pos.mpr hst
  have hway := norm_offset_add_le (offset + s • velocity) velocity hgap.le
  rw [add_assoc, ← add_smul, add_sub_cancel] at hway
  have hgain : (t - s) * ‖velocity‖ < (t - s) * speed := mul_lt_mul_of_pos_left hslow hgap
  have hflown : ‖offset + t • velocity‖ / speed <
      ‖offset + s • velocity‖ / speed + (t - s) := by
    rw [div_add' _ _ _ hspeed.ne', div_lt_div_iff_of_pos_right hspeed]
    linarith
  rw [launchTime, launchTime]
  linarith

end Normed

section Inner

variable {E : Type*} [NormedAddCommGroup E] [InnerProductSpace ℝ E]
variable {offset velocity : E} {speed t t₀ T : ℝ}

/-- The quadratic whose sign says whether the quarry is within reach. -/
theorem reach_sq (offset velocity : E) (speed t : ℝ) :
    ‖offset + t • velocity‖ ^ 2 - (speed * t) ^ 2 =
      (‖velocity‖ ^ 2 - speed ^ 2) * (t * t) + 2 * inner ℝ offset velocity * t +
        ‖offset‖ ^ 2 := by
  rw [norm_add_sq_real, inner_smul_right, norm_smul, Real.norm_eq_abs, mul_pow, sq_abs]
  ring

/-- **Meeting times are the positive roots.** Squaring the distance equation
adds no solution, for both sides are nonnegative at a positive time. -/
theorem mem_meetingTimes_iff (hspeed : 0 ≤ speed) :
    t ∈ meetingTimes offset velocity speed ↔
      0 < t ∧ (‖velocity‖ ^ 2 - speed ^ 2) * (t * t) +
        2 * inner ℝ offset velocity * t + ‖offset‖ ^ 2 = 0 := by
  rw [← reach_sq, sub_eq_zero]
  refine and_congr_right fun ht => ?_
  rw [sq_eq_sq₀ (norm_nonneg _) (mul_nonneg hspeed ht.le)]

/-- **When the first meeting comes before a given time**: the quarry is within
reach then, or it outruns the shot and has passed the vertex of the quadratic,
so that it has been met and has left the reach again. -/
theorem isLeast_lt_iff (hoffset : offset ≠ 0) (hspeed : 0 ≤ speed) (hT : 0 < T)
    (hleast : IsLeast (meetingTimes offset velocity speed) t₀) :
    t₀ < T ↔ ‖offset + T • velocity‖ < speed * T ∨
      (speed < ‖velocity‖ ∧
        -inner ℝ offset velocity < (‖velocity‖ ^ 2 - speed ^ 2) * T) := by
  obtain ⟨hmem, hle⟩ := hleast
  have hroot := (mem_meetingTimes_iff hspeed).mp hmem
  have hfaster : speed < ‖velocity‖ ↔ 0 < ‖velocity‖ ^ 2 - speed ^ 2 := by
    rw [sub_pos, sq_lt_sq₀ hspeed (norm_nonneg _)]
  have hreach : ‖offset + T • velocity‖ < speed * T ↔
      (‖velocity‖ ^ 2 - speed ^ 2) * (T * T) + 2 * inner ℝ offset velocity * T +
        ‖offset‖ ^ 2 < 0 := by
    rw [← reach_sq, sub_neg, sq_lt_sq₀ (norm_nonneg _) (mul_nonneg hspeed hT.le)]
  have hroots (x : ℝ) (hx : 0 < x) (hzero : (‖velocity‖ ^ 2 - speed ^ 2) * (x * x) +
      2 * inner ℝ offset velocity * x + ‖offset‖ ^ 2 = 0) : t₀ ≤ x :=
    hle ((mem_meetingTimes_iff hspeed).mpr ⟨hx, hzero⟩)
  have hpos : 0 < ‖offset‖ ^ 2 := by
    have hnorm := norm_pos_iff.mpr hoffset
    positivity
  rw [hfaster]
  constructor
  · intro hlt
    by_contra hnot
    rw [not_or, hreach, not_lt, not_and_or, not_lt, not_lt] at hnot
    generalize ‖velocity‖ ^ 2 - speed ^ 2 = a at *
    generalize inner ℝ offset velocity = b at *
    obtain ⟨hend, hvertex⟩ := hnot
    -- the secant from the root to `T` rises, the one from zero to the root falls
    have hrise : 0 ≤ a * (T + t₀) + 2 * b := by
      have hprod : 0 ≤ (T - t₀) * (a * (T + t₀) + 2 * b) := by linarith [hroot.2]
      exact nonneg_of_mul_nonneg_right hprod (sub_pos.mpr hlt)
    have hfall : a * t₀ + 2 * b < 0 := by
      have hprod : t₀ * (a * t₀ + 2 * b) < 0 := by linarith [hroot.2]
      exact neg_of_mul_neg_right hprod hroot.1.le
    have ha : 0 < a := pos_of_mul_pos_left (by linarith : 0 < a * T) hT.le
    have hmono : a * t₀ < a * T := mul_lt_mul_of_pos_left hlt ha
    rcases hvertex with hvertex | hvertex
    · exact absurd ha (not_lt.mpr hvertex)
    · linarith
  · intro hcase
    rcases hcase with hin | ⟨ha, hvertex⟩
    · obtain ⟨t, ht, htT⟩ := exists_meeting_le hoffset hT.le hin.le
      have hne : t ≠ T := by
        intro heq
        subst heq
        exact hin.ne ht.2
      exact lt_of_le_of_lt (hle ht) (lt_of_le_of_ne htT hne)
    · by_contra hnot
      rw [not_lt] at hnot
      generalize ‖velocity‖ ^ 2 - speed ^ 2 = a at *
      generalize inner ℝ offset velocity = b at *
      -- the other root is positive too, so it lies beyond the least one
      let other := -2 * b / a - t₀
      have hother : a * other = -2 * b - a * t₀ := by
        rw [mul_sub, mul_div_cancel₀ _ ha.ne']
      have hproduct : a * other * t₀ = ‖offset‖ ^ 2 := by
        rw [hother]
        linarith [hroot.2]
      have hotherPos : 0 < other := by
        have hprod : 0 < a * other * t₀ := by rw [hproduct]; exact hpos
        exact pos_of_mul_pos_right (pos_of_mul_pos_left hprod hroot.1.le) ha.le
      have hbeyond : t₀ ≤ other := by
        apply hroots other hotherPos
        have hexpand : a * (other * other) + 2 * b * other + ‖offset‖ ^ 2 =
            other * (a * other + 2 * b + a * t₀) := by
          rw [← hproduct]
          ring
        rw [hexpand, hother]
        ring
      have hlower : a * T ≤ a * t₀ := mul_le_mul_of_nonneg_left hnot ha.le
      have hupper : a * t₀ ≤ a * other := mul_le_mul_of_nonneg_left hbeyond ha.le
      linarith

end Inner

end Pursuit

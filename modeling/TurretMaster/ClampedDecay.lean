import Mathlib

/-!
# Clamped decay

An error that shrinks, step by step, by a share clamped to the unit interval,
and that is set to zero once its square is below a tolerance.  Frame by frame
interpolation towards a target is of this form, whatever the frame times.

* `foldl_snapStep` — the error after any steps is the decayed first error, or
  zero where that one is small;
* `shrinks_snapStep` — no step turns the error round or enlarges it;
* `decay_merge_le` — longer steps of the same total leave less;
* `decay_le_exp` — the decay is at least exponential in the total;
* `exists_decay_gt` — and no more than that: with enough equal steps it comes
  as close to the exponential as one likes.
-/

namespace ClampedDecay

section Field

variable {K : Type*} [Field K] [LinearOrder K]

/-- What one clamped step leaves. -/
def remaining (step : K) : K := 1 - max 0 (min step 1)

/-- What a sequence of clamped steps leaves. -/
def decay (steps : List K) : K := (steps.map remaining).prod

/-- One step of an error with a snap at zero. -/
def snapStep (tolerance error step : K) : K :=
  if error ^ 2 < tolerance then 0 else error * remaining step

/-- A later error that has neither changed sign nor grown. -/
def Shrinks (error later : K) : Prop := 0 ≤ error * later ∧ |later| ≤ |error|

/-- Without frames nothing decays. -/
@[simp] theorem decay_nil : decay ([] : List K) = 1 := rfl

/-- The first frame leaves its share of what the others leave. -/
theorem decay_cons (step : K) (steps : List K) :
    decay (step :: steps) = remaining step * decay steps := by
  rw [decay, List.map_cons, List.prod_cons, decay]

/-- The shares of two lists of frames multiply. -/
theorem decay_append (steps later : List K) :
    decay (steps ++ later) = decay steps * decay later := by
  rw [decay, List.map_append, List.prod_append, decay, decay]

variable [IsStrictOrderedRing K]

/-- A frame leaves no negative share. -/
theorem remaining_nonneg (step : K) : 0 ≤ remaining step := by
  have h : max 0 (min step 1) ≤ 1 := max_le zero_le_one (min_le_right step 1)
  rw [remaining]
  linarith

/-- A frame leaves at most the whole. -/
theorem remaining_le_one (step : K) : remaining step ≤ 1 := by
  have h : 0 ≤ max 0 (min step 1) := le_max_left 0 _
  rw [remaining]
  linarith

/-- A longer step leaves no more. -/
theorem remaining_antitone {step longer : K} (h : step ≤ longer) :
    remaining longer ≤ remaining step := by
  have hshare : max 0 (min step 1) ≤ max 0 (min longer 1) :=
    max_le_max le_rfl (min_le_min h le_rfl)
  rw [remaining, remaining]
  linarith

/-- Frames leave no negative share. -/
theorem decay_nonneg (steps : List K) : 0 ≤ decay steps := by
  induction steps with
  | nil => exact zero_le_one
  | cons step steps ih =>
      rw [decay_cons]
      exact mul_nonneg (remaining_nonneg step) ih

/-- Frames leave at most the whole. -/
theorem decay_le_one (steps : List K) : decay steps ≤ 1 := by
  induction steps with
  | nil => exact le_rfl
  | cons step steps ih =>
      rw [decay_cons]
      exact mul_le_one₀ (remaining_le_one step) (decay_nonneg steps) ih

/-- The share that a frame of nonnegative length leaves. -/
theorem remaining_of_nonneg {step : K} (h : 0 ≤ step) : remaining step = 1 - min step 1 := by
  rw [remaining, max_eq_right (le_min h zero_le_one)]

/-- One step leaves no more than the two it is made of. -/
theorem remaining_add_le {step next : K} (hstep : 0 ≤ step) (hnext : 0 ≤ next) :
    remaining (step + next) ≤ remaining step * remaining next := by
  rcases le_total 1 (step + next) with hwhole | hpart
  · rw [remaining_of_nonneg (add_nonneg hstep hnext), min_eq_right hwhole, sub_self]
    exact mul_nonneg (remaining_nonneg step) (remaining_nonneg next)
  · rw [remaining_of_nonneg (add_nonneg hstep hnext), remaining_of_nonneg hstep,
      remaining_of_nonneg hnext, min_eq_left hpart, min_eq_left (by linarith),
      min_eq_left (by linarith)]
    have hboth := mul_nonneg hstep hnext
    calc 1 - (step + next) ≤ 1 - (step + next) + step * next := le_add_of_nonneg_right hboth
      _ = (1 - step) * (1 - next) := by ring

/-- One long frame leaves at most what its parts leave. -/
theorem remaining_sum_le {steps : List K} (hsteps : ∀ step ∈ steps, 0 ≤ step) :
    remaining steps.sum ≤ decay steps := by
  induction steps with
  | nil => simp [remaining]
  | cons step steps ih =>
      rw [List.forall_mem_cons] at hsteps
      rw [List.sum_cons, decay_cons]
      exact (remaining_add_le hsteps.1 (List.sum_nonneg hsteps.2)).trans
        (mul_le_mul_of_nonneg_left (ih hsteps.2) (remaining_nonneg step))

/-- **Longer steps leave less**: merging consecutive steps does not slow the
decay down. -/
theorem decay_merge_le {groups : List (List K)}
    (hgroups : ∀ steps ∈ groups, ∀ step ∈ steps, 0 ≤ step) :
    decay (groups.map List.sum) ≤ decay groups.flatten := by
  induction groups with
  | nil => exact le_rfl
  | cons steps groups ih =>
      rw [List.forall_mem_cons] at hgroups
      rw [List.map_cons, decay_cons, List.flatten_cons, decay_append]
      exact mul_le_mul (remaining_sum_le hgroups.1) (ih hgroups.2) (decay_nonneg _)
        (decay_nonneg _)

/-- A step shrinks the error. -/
theorem shrinks_snapStep (tolerance error step : K) :
    Shrinks error (snapStep tolerance error step) := by
  rw [snapStep]
  split_ifs
  · refine ⟨?_, ?_⟩
    · rw [mul_zero]
    · rw [abs_zero]
      exact abs_nonneg error
  · have hnonneg := remaining_nonneg step
    refine ⟨?_, ?_⟩
    · rw [← mul_assoc]
      exact mul_nonneg (mul_self_nonneg error) hnonneg
    · rw [abs_mul, abs_of_nonneg hnonneg]
      exact mul_le_of_le_one_right (abs_nonneg error) (remaining_le_one step)

/-- A decayed error is no larger than the error. -/
theorem sq_mul_decay_le (error : K) (steps : List K) :
    (error * decay steps) ^ 2 ≤ error ^ 2 := by
  rw [mul_pow]
  have h : decay steps ^ 2 ≤ 1 := pow_le_one₀ (decay_nonneg steps) (decay_le_one steps)
  exact mul_le_of_le_one_right (sq_nonneg error) h

/-- **The error after any steps** is the decayed first error, unless it has
been snapped to zero; then the decayed first error is within the tolerance. -/
theorem foldl_snapStep (tolerance error : K) (steps : List K) :
    steps.foldl (snapStep tolerance) error = error * decay steps ∨
      (steps.foldl (snapStep tolerance) error = 0 ∧
        (error * decay steps) ^ 2 < tolerance) := by
  induction steps generalizing error with
  | nil =>
      left
      rw [List.foldl_nil, decay_nil, mul_one]
  | cons step steps ih =>
      rw [List.foldl_cons]
      by_cases hsnap : error ^ 2 < tolerance
      · right
        have hzero : steps.foldl (snapStep tolerance) (0 : K) = 0 := by
          rcases ih 0 with h | h
          · rw [h, zero_mul]
          · exact h.1
        rw [snapStep, if_pos hsnap]
        exact ⟨hzero, (sq_mul_decay_le error _).trans_lt hsnap⟩
      · rw [snapStep, if_neg hsnap, decay_cons, ← mul_assoc]
        exact ih (error * remaining step)

/-- Snapping does not matter for a bound above the tolerance. -/
theorem abs_foldl_snapStep_le_iff {tolerance bound : K} (hbound : 0 ≤ bound)
    (hle : tolerance ≤ bound ^ 2) (error : K) (steps : List K) :
    |steps.foldl (snapStep tolerance) error| ≤ bound ↔ |error| * decay steps ≤ bound := by
  have habs : |error * decay steps| = |error| * decay steps := by
    rw [abs_mul, abs_of_nonneg (decay_nonneg steps)]
  rcases foldl_snapStep tolerance error steps with h | ⟨hzero, hsmall⟩
  · rw [h, habs]
  · rw [hzero, abs_zero]
    refine iff_of_true hbound ?_
    rw [← habs]
    exact abs_le_of_sq_le_sq (hsmall.le.trans hle) hbound

/-- Snapping only helps. -/
theorem abs_foldl_snapStep_le_decay (tolerance error : K) (steps : List K) :
    |steps.foldl (snapStep tolerance) error| ≤ |error| * decay steps := by
  rcases foldl_snapStep tolerance error steps with h | ⟨hzero, -⟩
  · rw [h, abs_mul, abs_of_nonneg (decay_nonneg steps)]
  · rw [hzero, abs_zero]
    exact mul_nonneg (abs_nonneg error) (decay_nonneg steps)

/-- Errors never grow. -/
theorem abs_foldl_snapStep_le (tolerance error : K) (steps : List K) :
    |steps.foldl (snapStep tolerance) error| ≤ |error| := by
  have hshare := mul_le_of_le_one_right (abs_nonneg error) (decay_le_one steps)
  exact (abs_foldl_snapStep_le_decay tolerance error steps).trans hshare

end Field

section Real

/-- A frame leaves at most the exponential of its length. -/
theorem remaining_le_exp (step : ℝ) : remaining step ≤ Real.exp (-step) := by
  have hexp := Real.add_one_le_exp (-step)
  rcases le_total step 1 with h | h
  · have hmax : step ≤ max 0 (min step 1) := by
      rw [min_eq_left h]
      exact le_max_right 0 step
    rw [remaining]
    linarith
  · have hzero : remaining step = 0 := by
      rw [remaining, min_eq_right h, max_eq_right zero_le_one, sub_self]
    rw [hzero]
    exact (Real.exp_pos _).le

/-- **At least exponential.** -/
theorem decay_le_exp (steps : List ℝ) : decay steps ≤ Real.exp (-steps.sum) := by
  induction steps with
  | nil => simp
  | cons step steps ih =>
      have hsum : -(step :: steps).sum = -step + -steps.sum := by
        rw [List.sum_cons, neg_add]
      rw [decay_cons, hsum, Real.exp_add]
      exact mul_le_mul (remaining_le_exp step) ih (decay_nonneg steps) (Real.exp_pos _).le

/-- Equal short frames leave a power. -/
theorem decay_replicate {step : ℝ} (hnonneg : 0 ≤ step) (hle : step ≤ 1) (n : ℕ) :
    decay (List.replicate n step) = (1 - step) ^ n := by
  rw [decay, List.map_replicate, List.prod_replicate, remaining, min_eq_left hle,
    max_eq_right hnonneg]

/-- **No faster than exponential**: enough equal steps of a given total leave
more than any bound below the exponential. -/
theorem exists_decay_gt {total bound : ℝ} (htotal : 0 ≤ total)
    (hbound : bound < Real.exp (-total)) :
    ∃ steps : List ℝ, (∀ step ∈ steps, 0 ≤ step) ∧ steps.sum = total ∧
      bound < decay steps := by
  have hlimit := Real.tendsto_one_add_div_pow_exp (-total)
  have hclose := hlimit.eventually (lt_mem_nhds hbound)
  obtain ⟨n, hn, hmany⟩ :=
    (hclose.and (Filter.eventually_ge_atTop (⌈total⌉₊ + 1))).exists
  have hpos : (0 : ℝ) < n := by
    have hone : 1 ≤ n := by omega
    exact_mod_cast hone
  have htotalLe : total ≤ n := by
    have hceil : ⌈total⌉₊ ≤ n := by omega
    exact (Nat.le_ceil total).trans (by exact_mod_cast hceil)
  have hnonneg : 0 ≤ total / n := div_nonneg htotal hpos.le
  have hle : total / n ≤ 1 := (div_le_one hpos).mpr htotalLe
  refine ⟨List.replicate n (total / n), ?_, ?_, ?_⟩
  · intro step hstep
    rw [List.eq_of_mem_replicate hstep]
    exact hnonneg
  · rw [List.sum_replicate, nsmul_eq_mul, mul_div_cancel₀ total hpos.ne']
  · rw [decay_replicate hnonneg hle]
    have hbase : 1 + -total / n = 1 - total / n := by ring
    rw [hbase] at hn
    exact hn

end Real

end ClampedDecay

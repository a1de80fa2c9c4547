import TurretMaster.RotationAgreement
import TurretMaster.TargetLock
import TurretMaster.SelectionResult

/-!
# Rotations the turret cannot leave

A step towards a rotation clamps the pitch and never changes the roll, but the
completion tests compare with the unrestricted rotation.  A turret can
therefore rest in a pose that no step leaves and no test accepts.

* `turnTowards_rests_or_nears` — what a step does to the way that is left;
* `turnTowards_fixed_iff` — the poses that a step leaves unchanged;
* `fixed_equals_iff` — when every such pose passes the completion test.
-/

namespace TurretMaster

open ClampedDecay

section Clamp

variable {K : Type} [LinearOrder K] {x lo hi current target new : K}

/-- A clamped value is within the limits. -/
theorem clamp_mem_Icc {x lo hi : K} (hrange : lo ≤ hi) : FMath.clamp x lo hi ∈ Set.Icc lo hi :=
  ⟨le_max_left _ _, max_le hrange (min_le_right _ _)⟩

/-- Above the upper limit. -/
theorem clamp_eq_hi (hrange : lo ≤ hi) (h : hi ≤ x) : FMath.clamp x lo hi = hi := by
  rw [FMath.clamp, min_eq_right h, max_eq_right hrange]

/-- Below the lower limit. -/
theorem clamp_eq_lo (h : x ≤ lo) : FMath.clamp x lo hi = lo :=
  max_eq_left ((min_le_left x hi).trans h)

/-- Below the upper limit clamping lowers nothing. -/
theorem le_clamp (h : x ≤ hi) : x ≤ FMath.clamp x lo hi := by
  rw [FMath.clamp, min_eq_left h]
  exact le_max_right lo x

/-- Clamping is monotone. -/
theorem clamp_mono (h : x ≤ target) : FMath.clamp x lo hi ≤ FMath.clamp target lo hi :=
  max_le_max le_rfl (min_le_min h le_rfl)

/-- Above the lower limit clamping raises nothing. -/
theorem clamp_le (hrange : lo ≤ hi) (h : lo ≤ x) : FMath.clamp x lo hi ≤ x := by
  have hmin : lo ≤ min x hi := le_min h hrange
  rw [FMath.clamp, max_eq_right hmin]
  exact min_le_left x hi

/-- At the clamped target a clamped step rests. -/
theorem clamp_eq_of_rest (hrange : lo ≤ hi)
    (hup : current < target → current < new ∧ new ≤ target)
    (hdown : target < current → target ≤ new ∧ new < current)
    (hrest : current = target → new = target) (h : current = FMath.clamp target lo hi) :
    FMath.clamp new lo hi = current := by
  rcases lt_trichotomy current target with hlt | heq | hgt
  · have hout : hi < target := by
      by_contra hin
      have hle : target ≤ FMath.clamp target lo hi := le_clamp (not_lt.mp hin)
      rw [← h] at hle
      exact absurd hlt (not_lt.mpr hle)
    rw [clamp_eq_hi hrange hout.le] at h
    rw [h] at hup ⊢
    exact clamp_eq_hi hrange (hup hout).1.le
  · rw [hrest heq, ← h]
  · have hout : target < lo := by
      by_contra hin
      have hle := clamp_le hrange (not_lt.mp hin)
      rw [← h] at hle
      exact absurd hgt (not_lt.mpr hle)
    rw [clamp_eq_lo hout.le] at h
    rw [h] at hdown ⊢
    exact clamp_eq_lo (hdown hout).2.le

variable [Field K] [IsStrictOrderedRing K]

/-- **A clamped step comes nearer.** A step that moves towards the target
without passing it, and is clamped then, lessens the way to the clamped target
unless it starts there. -/
theorem abs_clamp_sub_clamp_lt (hrange : lo ≤ hi)
    (hup : current < target → current < new ∧ new ≤ target)
    (hdown : target < current → target ≤ new ∧ new < current)
    (hrest : current = target → new = target) (hne : current ≠ FMath.clamp target lo hi) :
    |FMath.clamp target lo hi - FMath.clamp new lo hi| <
      |FMath.clamp target lo hi - current| := by
  have harrived (h : FMath.clamp target lo hi = FMath.clamp new lo hi) :
      |FMath.clamp target lo hi - FMath.clamp new lo hi| <
        |FMath.clamp target lo hi - current| := by
    rw [h, sub_self, abs_zero, abs_pos, ← h]
    exact sub_ne_zero.mpr hne.symm
  rcases lt_trichotomy current target with hlt | heq | hgt
  · obtain ⟨hmoved, hshort⟩ := hup hlt
    rcases le_or_gt hi new with hout | hin
    · exact harrived (by rw [clamp_eq_hi hrange (hout.trans hshort), clamp_eq_hi hrange hout])
    · have hbeyond : current < FMath.clamp new lo hi := hmoved.trans_le (le_clamp hin.le)
      have hbelow : FMath.clamp new lo hi ≤ FMath.clamp target lo hi := clamp_mono hshort
      rw [abs_of_nonneg (sub_nonneg.mpr hbelow),
        abs_of_nonneg (sub_nonneg.mpr (hbeyond.le.trans hbelow))]
      linarith
  · exact harrived (by rw [hrest heq])
  · obtain ⟨hshort, hmoved⟩ := hdown hgt
    rcases le_or_gt new lo with hout | hin
    · exact harrived (by rw [clamp_eq_lo (hshort.trans hout), clamp_eq_lo hout])
    · have hbeyond : FMath.clamp new lo hi < current :=
        (clamp_le hrange hin.le).trans_lt hmoved
      have habove : FMath.clamp target lo hi ≤ FMath.clamp new lo hi := clamp_mono hshort
      rw [abs_of_nonpos (sub_nonpos.mpr habove),
        abs_of_nonpos (sub_nonpos.mpr (habove.trans hbeyond.le))]
      linarith

/-- Close to an interval clamping changes little. -/
theorem abs_clamp_sub_le {x lo hi tolerance : K} (hrange : lo ≤ hi) (htolerance : 0 ≤ tolerance)
    (hlo : lo - tolerance ≤ x) (hhi : x ≤ hi + tolerance) :
    |FMath.clamp x lo hi - x| ≤ tolerance := by
  rw [FMath.clamp, abs_le]
  rcases le_total x lo with hlow | hin
  · rw [min_eq_left (hlow.trans hrange), max_eq_left hlow]
    constructor <;> linarith
  · rcases le_total x hi with hle | hhigh
    · rw [min_eq_left hle, max_eq_right hin, sub_self]
      constructor <;> linarith
    · rw [min_eq_right hhigh, max_eq_right hrange]
      constructor <;> linarith

end Clamp

section Step

variable {α K : Type} [Field K] [LinearOrder K] [IsStrictOrderedRing K]
variable {deltaSeconds turnSpeed : K}

/-- A step of positive length leaves less than the whole error. -/
theorem remaining_lt_one {step : K} (hstep : 0 < step) : remaining step < 1 := by
  have hpos : 0 < max 0 (min step 1) := lt_max_of_lt_right (lt_min hstep one_pos)
  rw [remaining]
  linarith

/-- A frame of positive length leaves less than the whole error. -/
theorem fInterpTo_share (hdelta : 0 < deltaSeconds) (current target turnSpeed : K) :
    ∃ share, 0 ≤ share ∧ share < 1 ∧
      target - FMath.fInterpTo current target deltaSeconds turnSpeed =
        (target - current) * share := by
  rcases le_or_gt turnSpeed 0 with hspeed | hspeed
  · refine ⟨0, le_rfl, one_pos, ?_⟩
    rw [FMath.fInterpTo, if_pos hspeed, sub_self, mul_zero]
  · have herror := fInterpTo_error hspeed current target deltaSeconds
    rw [snapStep] at herror
    split_ifs at herror
    · exact ⟨0, le_rfl, one_pos, herror.trans (mul_zero _).symm⟩
    · exact ⟨remaining (deltaSeconds * turnSpeed), remaining_nonneg _,
        remaining_lt_one (mul_pos hdelta hspeed), herror⟩

/-- A step from below goes up, and not past the target. -/
theorem fInterpTo_up (hdelta : 0 < deltaSeconds) {current target : K} (h : current < target) :
    current < FMath.fInterpTo current target deltaSeconds turnSpeed ∧
      FMath.fInterpTo current target deltaSeconds turnSpeed ≤ target := by
  obtain ⟨share, hnonneg, hless, herror⟩ := fInterpTo_share hdelta current target turnSpeed
  have hgap : 0 < target - current := sub_pos.mpr h
  have hshort := mul_lt_of_lt_one_right hgap hless
  have hsign := mul_nonneg hgap.le hnonneg
  constructor <;> linarith

/-- A step from above goes down, and not past the target. -/
theorem fInterpTo_down (hdelta : 0 < deltaSeconds) {current target : K} (h : target < current) :
    target ≤ FMath.fInterpTo current target deltaSeconds turnSpeed ∧
      FMath.fInterpTo current target deltaSeconds turnSpeed < current := by
  obtain ⟨share, hnonneg, hless, herror⟩ := fInterpTo_share hdelta current target turnSpeed
  have hgap : target - current < 0 := sub_neg.mpr h
  have hshort : target - current < (target - current) * share :=
    lt_mul_of_lt_one_right hgap hless
  have hsign := mul_nonpos_of_nonpos_of_nonneg hgap.le hnonneg
  constructor <;> linarith

/-- At the target a step rests. -/
theorem fInterpTo_self (hdelta : 0 < deltaSeconds) {current target : K} (h : current = target) :
    FMath.fInterpTo current target deltaSeconds turnSpeed = target := by
  obtain ⟨share, -, -, herror⟩ := fInterpTo_share hdelta current target turnSpeed
  rw [h, sub_self, zero_mul] at herror
  rw [h]
  exact (sub_eq_zero.mp herror).symm

/-- One frame that is long enough, or a turn speed that is not positive, turns
all the way. -/
theorem fInterpTo_all (h : turnSpeed ≤ 0 ∨ 1 ≤ deltaSeconds * turnSpeed) (current target : K) :
    FMath.fInterpTo current target deltaSeconds turnSpeed = target := by
  unfold FMath.fInterpTo
  split_ifs with hspeed hsnap
  · rfl
  · rfl
  · rw [clamp_eq_hi zero_le_one (h.resolve_left hspeed), mul_one, add_sub_cancel]

/-- Without a clamp a step comes nearer unless it starts at the target. -/
theorem abs_sub_fInterpTo_lt (hdelta : 0 < deltaSeconds) {current target : K}
    (hne : current ≠ target) :
    |target - FMath.fInterpTo current target deltaSeconds turnSpeed| < |target - current| := by
  obtain ⟨share, hnonneg, hless, herror⟩ := fInterpTo_share hdelta current target turnSpeed
  rw [herror, abs_mul, abs_of_nonneg hnonneg]
  exact mul_lt_of_lt_one_right (abs_pos.mpr (sub_ne_zero.mpr hne.symm)) hless

/-- Turns end where the yaw has arrived and the pitch is as near as the limits
allow. -/
theorem wayTo_eq_zero_iff {target rotation : FRotator K} :
    wayTo target rotation = 0 ↔
      rotation.pitch = FMath.clamp target.pitch (-70) 80 ∧ rotation.yaw = target.yaw := by
  rw [wayTo, add_eq_zero_iff_of_nonneg (abs_nonneg _) (abs_nonneg _), abs_eq_zero, abs_eq_zero,
    sub_eq_zero, sub_eq_zero, eq_comm, eq_comm (a := target.yaw)]

/-- A turn all the way ends there. -/
theorem wayTo_of_all (h : turnSpeed ≤ 0 ∨ 1 ≤ deltaSeconds * turnSpeed) (u : ATurret α K)
    (target : FRotator K) :
    wayTo target (u.turnTowards target deltaSeconds turnSpeed).rotationPoint = 0 := by
  rw [wayTo_eq_zero_iff]
  simp only [ATurret.turnTowards, ATurret.setPitch, ATurret.setYaw, fInterpTo_all h, and_self]

/-- **A step rests or comes nearer.** The poses that a step of positive length
leaves unchanged are the ends of the turns, and from any other pose it lessens
the way to there. -/
theorem turnTowards_rests_or_nears (hdelta : 0 < deltaSeconds) (u : ATurret α K)
    (target : FRotator K) (turnSpeed : K) :
    (wayTo target u.rotationPoint = 0 ∧
      (u.turnTowards target deltaSeconds turnSpeed).rotationPoint = u.rotationPoint) ∨
    wayTo target (u.turnTowards target deltaSeconds turnSpeed).rotationPoint <
      wayTo target u.rotationPoint := by
  have hpitch : FMath.clamp
        (FMath.fInterpTo u.rotationPoint.pitch target.pitch deltaSeconds turnSpeed) (-70) 80 =
          u.rotationPoint.pitch ∧ u.rotationPoint.pitch = FMath.clamp target.pitch (-70) 80 ∨
      |FMath.clamp target.pitch (-70) 80 - FMath.clamp
        (FMath.fInterpTo u.rotationPoint.pitch target.pitch deltaSeconds turnSpeed) (-70) 80| <
          |FMath.clamp target.pitch (-70) 80 - u.rotationPoint.pitch| := by
    by_cases hend : u.rotationPoint.pitch = FMath.clamp target.pitch (-70) 80
    · exact Or.inl ⟨clamp_eq_of_rest (by norm_num) (fInterpTo_up hdelta) (fInterpTo_down hdelta)
        (fInterpTo_self hdelta) hend, hend⟩
    · exact Or.inr (abs_clamp_sub_clamp_lt (by norm_num) (fInterpTo_up hdelta)
        (fInterpTo_down hdelta) (fInterpTo_self hdelta) hend)
  have hyaw : FMath.fInterpTo u.rotationPoint.yaw target.yaw deltaSeconds turnSpeed =
          u.rotationPoint.yaw ∧ u.rotationPoint.yaw = target.yaw ∨
      |target.yaw - FMath.fInterpTo u.rotationPoint.yaw target.yaw deltaSeconds turnSpeed| <
        |target.yaw - u.rotationPoint.yaw| := by
    by_cases hend : u.rotationPoint.yaw = target.yaw
    · exact Or.inl ⟨(fInterpTo_self hdelta hend).trans hend.symm, hend⟩
    · exact Or.inr (abs_sub_fInterpTo_lt hdelta hend)
  rcases hpitch with ⟨hpitch, hpitchEnd⟩ | hpitch
  · rcases hyaw with ⟨hyaw, hyawEnd⟩ | hyaw
    · exact Or.inl ⟨wayTo_eq_zero_iff.mpr ⟨hpitchEnd, hyawEnd⟩, FRotator.ext hpitch hyaw rfl⟩
    · exact Or.inr (add_lt_add_of_le_of_lt (congrArg (|FMath.clamp target.pitch (-70) 80 - ·|)
        hpitch).le hyaw)
  · refine Or.inr (add_lt_add_of_lt_of_le hpitch ?_)
    rcases hyaw with ⟨hyaw, -⟩ | hyaw
    · exact (congrArg (|target.yaw - ·|) hyaw).le
    · exact hyaw.le

/-- **The poses that a step leaves unchanged**: the yaw has arrived and the
pitch is as near as the limits allow; the roll is whatever it is. -/
theorem turnTowards_fixed_iff (hdelta : 0 < deltaSeconds) (u : ATurret α K)
    (target : FRotator K) :
    (u.turnTowards target deltaSeconds turnSpeed).rotationPoint = u.rotationPoint ↔
      u.rotationPoint.pitch = FMath.clamp target.pitch (-70) 80 ∧
        u.rotationPoint.yaw = target.yaw := by
  rw [← wayTo_eq_zero_iff]
  rcases turnTowards_rests_or_nears hdelta u target turnSpeed with ⟨hend, hrests⟩ | hnears
  · exact iff_of_true hrests hend
  · refine iff_of_false (fun hrests => ?_) (fun hend => ?_)
    · rw [hrests] at hnears
      exact hnears.false
    · rw [hend] at hnears
      exact absurd hnears (not_lt.mpr (add_nonneg (abs_nonneg _) (abs_nonneg _)))

variable [FloorRing K]

/-- A turret with this roll can turn to the rotation up to the tolerance: the
clamped pitch and the roll are near enough. -/
structure WithinReach (target : FRotator K) (roll tolerance : K) : Prop where
  pitch : |FRotator.normalizeAxis (FMath.clamp target.pitch (-70) 80 - target.pitch)| ≤ tolerance
  roll : |FRotator.normalizeAxis (roll - target.roll)| ≤ tolerance

/-- Where the turns end, the completion test asks whether the rotation is within
reach. -/
theorem equals_of_rest_iff {target rotation : FRotator K} {tolerance : K}
    (hrest : wayTo target rotation = 0) :
    rotation.equals target tolerance = true ↔ WithinReach target rotation.roll tolerance := by
  obtain ⟨hpitch, hyaw⟩ := wayTo_eq_zero_iff.mp hrest
  simp only [FRotator.equals, Bool.and_eq_true, decide_eq_true_eq, hpitch, hyaw, sub_self,
    FRotator.normalizeAxis_zero, abs_zero]
  constructor
  · intro h
    exact ⟨h.1.1, h.2⟩
  · intro h
    exact ⟨⟨h.pitch, (abs_nonneg _).trans h.pitch⟩, h.roll⟩

/-- **When the turret cannot get stuck.** Every pose of a given roll that a
step towards a rotation leaves unchanged passes the completion test exactly if
the clamped pitch and the roll are within the tolerance of the rotation's. -/
theorem fixed_equals_iff (hdelta : 0 < deltaSeconds)
    (target : FRotator K) (roll tolerance : K) :
    (∀ u : ATurret α K, u.rotationPoint.roll = roll →
        (u.turnTowards target deltaSeconds turnSpeed).rotationPoint = u.rotationPoint →
        u.rotationPoint.equals target tolerance = true) ↔
      |FRotator.normalizeAxis (FMath.clamp target.pitch (-70) 80 - target.pitch)| ≤ tolerance ∧
        |FRotator.normalizeAxis (roll - target.roll)| ≤ tolerance := by
  constructor
  · intro htest
    -- there is such a pose, and it is tested
    have hpose := htest
      ⟨⟨FMath.clamp target.pitch (-70) 80, target.yaw, roll⟩, [], ⟨none, FGameplayTag.empty⟩,
        0, true⟩ rfl
      ((turnTowards_fixed_iff hdelta _ target).mpr ⟨rfl, rfl⟩)
    have hrest : wayTo target ⟨FMath.clamp target.pitch (-70) 80, target.yaw, roll⟩ = 0 :=
      wayTo_eq_zero_iff.mpr ⟨rfl, rfl⟩
    have hreach := (equals_of_rest_iff hrest).mp hpose
    exact ⟨hreach.pitch, hreach.roll⟩
  · intro hclose u hroll hfixed
    subst hroll
    rw [turnTowards_fixed_iff hdelta u target, ← wayTo_eq_zero_iff] at hfixed
    exact (equals_of_rest_iff hfixed).mpr ⟨hclose.1, hclose.2⟩

end Step

section Tick

variable {ι α K : Type} [Field K] [LinearOrder K]

/-- A step changes nothing but the rotation. -/
theorem turnTowards_of_fixed {u : ATurret α K} {target : FRotator K}
    {deltaSeconds turnSpeed : K}
    (h : (u.turnTowards target deltaSeconds turnSpeed).rotationPoint = u.rotationPoint) :
    u.turnTowards target deltaSeconds turnSpeed = u := by
  have hrest : u.turnTowards target deltaSeconds turnSpeed =
      { u with rotationPoint := (u.turnTowards target deltaSeconds turnSpeed).rotationPoint } :=
    rfl
  rw [hrest, h]

variable [DecidableEq ι] [DecidableEq α] [FloorRing K] [Engine K]
variable {L : Level ι α K} {c : Scene ι α K} {w : World ι α K}

/-- A turret that rests short of its aim stays as it is, tick after tick. -/
theorem tick_of_fixed {a : ι} (hne : (w.turret a).activeTargets ≠ [])
    (hkey : (w.turret a).currentTarget.key ≠ none)
    (haim : (w.turret a).targetInterceptionRotation ≠ 0)
    (hfails : (w.turret a).rotationPoint.equals
      (w.turret a).targetInterceptionRotation 0.5 = false)
    (hfixed : ((w.turret a).turnTowards (w.turret a).targetInterceptionRotation
      c.deltaSeconds (L.turnSpeed a)).rotationPoint = (w.turret a).rotationPoint) :
    tick L c w a = .ok w := by
  have hsame : w.modify a (fun u => u.turnTowards u.targetInterceptionRotation
      c.deltaSeconds (L.turnSpeed a)) = w := by
    rw [World.modify, turnTowards_of_fixed hfixed, Function.update_eq_self]
  rw [tick_of_locked L c hne hkey, rotateOrFire, if_pos ⟨hkey, haim⟩, hfails, hsame]
  rfl

end Tick

section Alley

attribute [local instance] atan2Engine

/-- Level rotations are reached. -/
theorem fixed_equals_iff_alley :
    (0 : ℝ) < 5 ∧ (0 : ℝ) < 1 / 60 ∧
    ∀ u : ATurret ℕ ℝ, u.rotationPoint.roll = 0 →
      (u.turnTowards ⟨0, 90, 0⟩ (1 / 60) 5).rotationPoint = u.rotationPoint →
      u.rotationPoint.equals ⟨0, 90, 0⟩ 0.5 = true := by
  have hspeed : (0 : ℝ) < 5 := by norm_num
  have hdelta : (0 : ℝ) < 1 / 60 := by norm_num
  refine ⟨hspeed, hdelta, (fixed_equals_iff hdelta ⟨0, 90, 0⟩ 0 0.5).mpr ?_⟩
  norm_num [FMath.clamp]

/-- Turret 0 tracks actor 1 and looks in a given direction. -/
noncomputable def alleyOneLooking (rotation : FRotator ℝ) : World ℕ ℕ ℝ :=
  alleyOne.modify 0 (fun u => { u with rotationPoint := rotation })

/-- The turret that looks there. -/
theorem alleyOneLooking_turret (rotation : FRotator ℝ) :
    ((alleyOneLooking rotation).turret 0).activeTargets = [some 1] ∧
    ((alleyOneLooking rotation).turret 0).WellFormed alley ∧
    ((alleyOneLooking rotation).turret 0).rotationPoint = rotation := by
  obtain ⟨trace, hrun⟩ := alleyOne_run
  have hwf := wellFormed_run alleyStart_initial hrun
  refine ⟨?_, ?_, ?_⟩
  · simp [alleyOneLooking, alleyOne_turret.1]
  · have hsame : SameTargeting (alleyOne.turret 0)
        ((alleyOneLooking rotation).turret 0) := by
      constructor <;> simp [alleyOneLooking]
    exact (hwf 0).congr hsame
  · simp [alleyOneLooking]

/-- The aim at a target straight above `RotationPoint`. -/
theorem interceptionRotation_above :
    (interceptionRotation (alleySceneAt ⟨0, 0, 200⟩) 0 ⟨0, 0, 200⟩).pitch = 90 := by
  have hway : (⟨0, 0, 200⟩ : FVector ℝ) - (alleySceneAt ⟨0, 0, 200⟩).rotationPointLocation 0 =
      ⟨0, 0, 100⟩ := by
    norm_num [alleySceneAt, alleyScene, FVector.sub_def]
  have hlevel : √((0 : ℝ) ^ 2 + 0 ^ 2) = 0 := by norm_num
  rw [interceptionRotation_pitch, hway, directionPitch, hlevel]
  exact atan2Degrees_pos_zero (by norm_num)

/-- The actor straight above is in range. -/
theorem above_inRange :
    isPointWithinRange alley (alleySceneAt ⟨0, 0, 200⟩) 0 ⟨0, 0, 200⟩ = true :=
  alley_inRange rfl (by norm_num [FVector.dot])

/-- A stationary target straight above is accepted.  At the upper pitch limit,
with yaw and roll of the aim, no step moves the turret and the completion test
fails, so the turret neither turns nor fires. -/
theorem above_never_reached :
    ∃ rotation w, determineNewTarget alley (alleySceneAt ⟨0, 0, 200⟩)
        (alleyOneLooking rotation) 0 = .ok w ∧
      (w.turret 0).currentTarget.key = some 1 ∧
      (w.turret 0).rotationPoint = rotation ∧
      rotation.roll = (w.turret 0).targetInterceptionRotation.roll ∧
      ((w.turret 0).turnTowards (w.turret 0).targetInterceptionRotation (1 / 60) 5).rotationPoint =
        rotation ∧
      rotation.equals (w.turret 0).targetInterceptionRotation 0.5 = false ∧
      tick alley (alleySceneAt ⟨0, 0, 200⟩) w 0 = .ok w := by
  let aim := interceptionRotation (alleySceneAt ⟨0, 0, 200⟩) 0 ⟨0, 0, 200⟩
  obtain ⟨hactive, hwf, hrotation⟩ := alleyOneLooking_turret ⟨80, aim.yaw, aim.roll⟩
  obtain ⟨w, hw, hselect, hkey, haim⟩ := alleySceneAt_selects hwf hactive above_inRange
  have hpose : (w.turret 0).rotationPoint = ⟨80, aim.yaw, aim.roll⟩ :=
    hselect.rotationPoint.trans hrotation
  have hpitch : aim.pitch = 90 := interceptionRotation_above
  have hfixed : ((w.turret 0).turnTowards aim (1 / 60) 5).rotationPoint =
      (w.turret 0).rotationPoint := by
    apply (turnTowards_fixed_iff (by norm_num) _ _).mpr
    rw [hpose]
    refine ⟨?_, rfl⟩
    change 80 = FMath.clamp aim.pitch (-70) 80
    rw [hpitch]
    norm_num [FMath.clamp]
  have hfails : FRotator.equals ⟨80, aim.yaw, aim.roll⟩ aim 0.5 = false := by
    have hfar : |FRotator.normalizeAxis (80 - aim.pitch)| = 10 := by
      rw [hpitch, FRotator.abs_normalizeAxis] <;> norm_num [abs_of_neg]
    have hlarge : ¬ (10 : ℝ) ≤ 0.5 := by norm_num
    simp [FRotator.equals, hfar, hlarge]
  refine ⟨⟨80, aim.yaw, aim.roll⟩, w, hw, hkey, hpose, by rw [haim], ?_, ?_, ?_⟩
  · rw [haim, ← hpose]
    exact hfixed
  · rw [haim]
    exact hfails
  · have hne : (w.turret 0).activeTargets ≠ [] :=
      List.ne_nil_of_mem ((wellFormed_selection hwf hselect).current_mem hkey)
    have hlocked : (w.turret 0).currentTarget.key ≠ none := by simp [hkey]
    have hnonzero : (w.turret 0).targetInterceptionRotation ≠ 0 := by
      intro hzero
      rw [haim] at hzero
      have hlevel : aim.pitch = 0 := congrArg FRotator.pitch hzero
      rw [hpitch] at hlevel
      norm_num at hlevel
    apply tick_of_fixed hne hlocked hnonzero
    · rw [haim, hpose]
      exact hfails
    · rw [haim]
      exact hfixed

end Alley

end TurretMaster

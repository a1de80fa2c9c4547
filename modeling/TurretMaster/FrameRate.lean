import TurretMaster.Engagement

/-!
# Frame rates

The frame times of a locked turret decide when it fires, and not their sum
alone: a long frame turns it further than the short frames it could be split
into.

* `coarser_fires` — a lower frame rate does not delay the shot;
* `earliest_shot` — no frame times fire before a time linear in the distance.
-/

namespace TurretMaster

open Runs ClampedDecay

section Steps

variable {K : Type} [Field K]

/-- The steps of grouped frames are the grouped steps. -/
theorem frameSteps_flatten (turnSpeed : K) (groups : List (List K)) :
    frameSteps turnSpeed groups.flatten = (groups.map (frameSteps turnSpeed)).flatten :=
  List.map_flatten

/-- The steps of merged frames are the merged steps. -/
theorem frameSteps_sums (turnSpeed : K) (groups : List (List K)) :
    frameSteps turnSpeed (groups.map List.sum) =
      (groups.map (frameSteps turnSpeed)).map List.sum := by
  simp only [frameSteps, List.map_map, Function.comp_def, List.sum_map_mul_right, List.map_id']

/-- Frames of nonnegative length give such steps. -/
theorem frameSteps_nonneg [LinearOrder K] [IsStrictOrderedRing K] {turnSpeed : K}
    (hspeed : 0 ≤ turnSpeed) {frames : List K}
    (hframes : ∀ deltaSeconds ∈ frames, 0 ≤ deltaSeconds) :
    ∀ step ∈ frameSteps turnSpeed frames, 0 ≤ step := by
  intro step hstep
  obtain ⟨deltaSeconds, hmem, rfl⟩ := List.mem_map.mp hstep
  exact mul_nonneg (hframes deltaSeconds hmem) hspeed

end Steps

section FrameRate

variable {ι α K : Type} [DecidableEq ι] [DecidableEq α]
variable [Field K] [LinearOrder K] [FloorRing K] [Engine K] [IsStrictOrderedRing K]
variable {L : Level ι α K} {c c' : Scene ι α K} {w w' w'' v' v'' w₀ : World ι α K}
variable {a : ι} {t : α} {aim : FRotator K}
variable {before trace trace' : List (Transition (World ι α K) (Event ι α K))}

/-- **A lower frame rate does not delay the shot.** Of two continuations of a
lock, one of whose frames are merged from consecutive frames of the other, the
one with the longer frames fires at its next tick if the other one does. -/
theorem coarser_fires (hinit : Initial w₀) (hreach : Run (Step L) w₀ before w)
    (h : LockedOn w a t aim) (haim : aim ≠ 0) (hspeed : 0 < L.turnSpeed a)
    (hunwrapped : Unwrapped (w.turret a).rotationPoint aim)
    (hrun : Run (Step L) w trace w') (hopen : ∀ x ∈ trace, ¬ LockEnds L a t x)
    (hstep : Step L w' (.tick c a) w'')
    (hrun' : Run (Step L) w trace' v') (hopen' : ∀ x ∈ trace', ¬ LockEnds L a t x)
    (hstep' : Step L v' (.tick c' a) v'') {groups : List (List K)}
    (hgroups : ∀ frames ∈ groups, ∀ deltaSeconds ∈ frames, 0 ≤ deltaSeconds)
    (hfine : tickDeltas a trace = groups.flatten)
    (hcoarse : tickDeltas a trace' = groups.map List.sum)
    (hfires : w''.spawning = some a) : v''.spawning = some a := by
  have hwf := wellFormed_run hinit hreach
  rw [fires_iff_of_locked hwf h haim hspeed hunwrapped hrun hopen hstep, hfine,
    frameSteps_flatten] at hfires
  rw [fires_iff_of_locked hwf h haim hspeed hunwrapped hrun' hopen' hstep', hcoarse,
    frameSteps_sums]
  refine (mul_le_mul_of_nonneg_left (decay_merge_le ?_) (maxAngularDistance_nonneg _ _)).trans
    hfires
  intro steps hsteps
  obtain ⟨frames, hmem, rfl⟩ := List.mem_map.mp hsteps
  exact frameSteps_nonneg hspeed.le (hgroups frames hmem)

/-- **The earliest shot.** Whatever the frames, a locked turret that fires has
ticked since its lock for the time that the distance, less half a degree, takes
at the turn speed of the full distance. -/
theorem earliest_shot (hinit : Initial w₀) (hreach : Run (Step L) w₀ before w)
    (h : LockedOn w a t aim) (haim : aim ≠ 0) (hspeed : 0 < L.turnSpeed a)
    (hunwrapped : Unwrapped (w.turret a).rotationPoint aim)
    (hrun : Run (Step L) w trace w') (hopen : ∀ x ∈ trace, ¬ LockEnds L a t x)
    (hstep : Step L w' (.tick c a) w'')
    (hframes : ∀ deltaSeconds ∈ tickDeltas a trace, 0 ≤ deltaSeconds)
    (hfires : w''.spawning = some a) :
    InterceptionHandler.maxAngularDistance (w.turret a).rotationPoint aim - 0.5 ≤
      InterceptionHandler.maxAngularDistance (w.turret a).rotationPoint aim *
        ((tickDeltas a trace).sum * L.turnSpeed a) := by
  have hwf := wellFormed_run hinit hreach
  rw [fires_iff_of_locked hwf h haim hspeed hunwrapped hrun hopen hstep] at hfires
  have hnonneg := maxAngularDistance_nonneg (w.turret a).rotationPoint aim
  have hsum := remaining_sum_le (frameSteps_nonneg hspeed.le hframes)
  rw [sum_frameSteps] at hsum
  have hlinear : 1 - (tickDeltas a trace).sum * L.turnSpeed a ≤
      remaining ((tickDeltas a trace).sum * L.turnSpeed a) := by
    rw [remaining_of_nonneg (mul_nonneg (List.sum_nonneg hframes) hspeed.le)]
    exact sub_le_sub_left (min_le_left _ _) 1
  have hwhole := (mul_le_mul_of_nonneg_left (hlinear.trans hsum) hnonneg).trans hfires
  rw [mul_sub, mul_one] at hwhole
  linarith

end FrameRate

section Alley

attribute [local instance] atan2Engine

/-- With a frame of no length and one of a second the turret fires at its third
tick, with the one of a second alone at its second. -/
theorem coarser_fires_alley : ∃ w v v', LockedOn w 0 1 ⟨0, 90, 0⟩ ∧
    Step alley w (.tick (alleyFrame ⟨0, 100, 100⟩ 1) 0) v ∧
    Step alley v (.tick alleyScene 0) v' ∧ v'.spawning = some 0 := by
  obtain ⟨before, w, hreach, hlocked, hquiet, hpose⟩ := alley_locked_ahead
  have hwf := wellFormed_run alleyStart_initial hreach
  have hspeed : 0 < alley.turnSpeed 0 := by norm_num [alley]
  obtain ⟨w₁, hstep₁, hlocked₁, hquiet₁, hpose₁⟩ := alley_turns hwf hlocked hquiet hpose 0
  rw [alley_unturned] at hpose₁
  obtain ⟨w₂, w₃, hstep₂, hquiet₂, hfine, hfires⟩ :=
    alley_turns_and_fires (wellFormed_step hwf hstep₁) hlocked₁ hquiet₁ hpose₁ le_rfl
  obtain ⟨v, v', hturn, hquiet', hcoarse, -⟩ :=
    alley_turns_and_fires hwf hlocked hquiet hpose le_rfl
  have hgroups : ∀ frames ∈ ([[0, 1]] : List (List ℝ)), ∀ deltaSeconds ∈ frames,
      0 ≤ deltaSeconds := by simp
  refine ⟨w, v, v', hlocked, hturn, hcoarse, ?_⟩
  refine coarser_fires alleyStart_initial hreach hlocked right_nonzero hspeed
    (hpose ▸ ahead_unwrapped) ((Run.single hstep₁).snoc hstep₂) ?_ hfine (Run.single hturn) ?_
    hcoarse hgroups ?_ ?_ hfires
  · simp [not_lockEnds_of_quiet hquiet₁, not_lockEnds_of_quiet hquiet₂]
  · simp [not_lockEnds_of_quiet hquiet']
  · simp [tickDeltas, tickDelta, alleyFrame]
  · simp [tickDeltas, tickDelta, alleyFrame]

/-- It has had the time by then. -/
theorem earliest_shot_alley : ∃ w, LockedOn w 0 1 ⟨0, 90, 0⟩ ∧
    InterceptionHandler.maxAngularDistance (w.turret 0).rotationPoint ⟨0, 90, 0⟩ - 0.5 ≤
      InterceptionHandler.maxAngularDistance (w.turret 0).rotationPoint ⟨0, 90, 0⟩ *
        (1 * alley.turnSpeed 0) := by
  obtain ⟨before, w, hreach, hlocked, hquiet, hpose⟩ := alley_locked_ahead
  have hspeed : 0 < alley.turnSpeed 0 := by norm_num [alley]
  obtain ⟨v, v', hturn, hquiet', hstep, hfires⟩ :=
    alley_turns_and_fires (wellFormed_run alleyStart_initial hreach) hlocked hquiet hpose le_rfl
  have hdeltas : tickDeltas 0 ([⟨w, .tick (alleyFrame ⟨0, 100, 100⟩ 1) 0, v⟩] :
      List (Transition (World ℕ ℕ ℝ) (Event ℕ ℕ ℝ))) = [1] := by
    simp [tickDeltas, tickDelta, alleyFrame]
  have hearliest := earliest_shot alleyStart_initial hreach hlocked right_nonzero hspeed
    (hpose ▸ ahead_unwrapped) (Run.single hturn) (by simp [not_lockEnds_of_quiet hquiet']) hstep
    (by rw [hdeltas]; simp) hfires
  rw [hdeltas, List.sum_singleton] at hearliest
  exact ⟨w, hlocked, hearliest⟩

end Alley

end TurretMaster

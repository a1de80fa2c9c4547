import TurretMaster.Poses
import TurretMaster.TickState
import TurretMaster.ZeroAim

/-!
# The way back to idle

A turret without targets turns to its idle rotation, and goes to sleep within
one degree of it.  While nothing enters its area it does nothing else, so the
rotation time to the idle pose bounds how long it stays awake.

* `stays_empty` — without entries the list stays empty;
* `pose_while_idle` — the pose over a run without targets;
* `sleeps_in_time` — the tick is disabled in time;
* `can_sleep_iff` — which turrets can ever sleep.
-/

namespace TurretMaster

open Runs ClampedDecay

section Equals

variable {K : Type} [Field K] [LinearOrder K] [FloorRing K]

/-- Small differences pass the completion test. -/
theorem equals_of_errors_le [IsStrictOrderedRing K] {r target : FRotator K} {tolerance : K}
    (htolerance : tolerance ≤ 180) (hroll : r.roll = target.roll)
    (hpitch : |target.pitch - r.pitch| ≤ tolerance) (hyaw : |target.yaw - r.yaw| ≤ tolerance) :
    r.equals target tolerance = true := by
  rw [abs_sub_comm] at hpitch hyaw
  simp only [FRotator.equals, Bool.and_eq_true, decide_eq_true_eq, hroll, sub_self,
    FRotator.normalizeAxis_zero, abs_zero]
  refine ⟨⟨?_, ?_⟩, (abs_nonneg _).trans hpitch⟩
  · rw [FRotator.abs_normalizeAxis (hpitch.trans htolerance)]
    exact hpitch
  · rw [FRotator.abs_normalizeAxis (hyaw.trans htolerance)]
    exact hyaw

/-- The pose that the pitch limits allow passes the idle test up to 81 degrees. -/
theorem clamped_equals [IsStrictOrderedRing K] {target : FRotator K} {roll : K}
    (hlo : -70 ≤ target.pitch) (hhi : target.pitch ≤ 81)
    (hroll : |FRotator.normalizeAxis (roll - target.roll)| ≤ 1) :
    (⟨FMath.clamp target.pitch (-70) 80, target.yaw, roll⟩ : FRotator K).equals target 1 =
      true := by
  have hclose : |FMath.clamp target.pitch (-70) 80 - target.pitch| ≤ 1 :=
    abs_clamp_sub_le (by norm_num) zero_le_one (by linarith) (by linarith)
  simp only [FRotator.equals, Bool.and_eq_true, decide_eq_true_eq, sub_self,
    FRotator.normalizeAxis_zero, abs_zero]
  rw [FRotator.abs_normalizeAxis (hclose.trans (by norm_num))]
  exact ⟨⟨hclose, zero_le_one⟩, hroll⟩
end Equals

section Idle

variable {ι α K : Type}
variable {L : Level ι α K} {c c₀ : Scene ι α K} {w w' w₀ : World ι α K} {a : ι}

/-- A turret that tracks nothing has an empty list. -/
theorem activeTargets_eq_nil (hwf : WellFormed L w) (h : ∀ t, ¬ Tracks w a t) :
    (w.turret a).activeTargets = [] := by
  rw [List.eq_nil_iff_forall_not_mem]
  intro s hs
  cases s with
  | none => exact (hwf a).notNull hs
  | some t => exact h t hs

variable [DecidableEq ι] [Field K] [LinearOrder K] [FloorRing K] [Engine K]

/-- `BeginPlay` ties the tick flags. -/
theorem tickTied_begun (hstart : BegunPlay c₀ w₀) : TickTied c₀ w₀ := by
  obtain ⟨-, earlier, hbegun⟩ := hstart
  intro b
  rw [hbegun b, beginPlay, updateTickState, World.modify_turret_self]
  exact tickTied_updateTickState _ _

/-- One frame that is long enough, or a turn speed that is not positive, brings a
turret without targets as close to its idle rotation as the pitch limits allow. -/
theorem moveToIdle_all [IsStrictOrderedRing K] (a : ι)
    (h : L.turnSpeed a ≤ 0 ∨ 1 ≤ c.deltaSeconds * L.turnSpeed a) :
    ((moveToIdle L c w a).turret a).rotationPoint =
      ⟨FMath.clamp (getIdleRotation c a).pitch (-70) 80, (getIdleRotation c a).yaw,
        (w.turret a).rotationPoint.roll⟩ := by
  rw [moveToIdle_rotationPoint_self]
  simp only [ATurret.turnTowards, ATurret.setPitch, ATurret.setYaw, fInterpTo_all h]

variable [DecidableEq α]

/-- Without entries an empty list stays empty. -/
theorem stays_empty {e : Event ι α K} (hwf : WellFormed L w) (hstep : Step L w e w')
    (hempty : (w.turret a).activeTargets = []) (henters : ∀ t, ¬ Enters L a t e) :
    (w'.turret a).activeTargets = [] := by
  refine activeTargets_eq_nil (wellFormed_step hwf hstep) fun t htracks => ?_
  rcases (tracks_step_iff hwf hstep a t).mp htracks with hnew | ⟨hold, -⟩
  · exact henters t hnew
  · unfold Tracks at hold
    rw [hempty] at hold
    cases hold

/-- A tick without targets turns the turret to its idle rotation. -/
theorem tick_of_empty (hstep : Step L w (.tick c a) w')
    (hempty : (w.turret a).activeTargets = []) : w' = moveToIdle L c w a := by
  have htick : tick L c w a = .ok (moveToIdle L c w a) := by simp [tick, hempty]
  exact (Except.ok.inj (htick.symm.trans hstep.2)).symm

variable {before trace : List (Transition (World ι α K) (Event ι α K))}

/-- **The pose without targets.** While nothing enters the area of a turret
without targets, and its actor keeps its forward vector, the pose is the one at
the start, turned to the idle rotation once for each tick. -/
theorem pose_while_idle (hwf : WellFormed L w) (hrun : Run (Step L) w trace w')
    (hempty : (w.turret a).activeTargets = [])
    (henters : ∀ x ∈ trace, ∀ t, ¬ Enters L a t x.event)
    (hforward : ∀ x ∈ trace, x.event.scene.actorForwardVector = c₀.actorForwardVector) :
    (w'.turret a).activeTargets = [] ∧ (w'.turret a).rotationPoint =
      ((w.turret a).turnFrames (getIdleRotation c₀ a) (L.turnSpeed a)
        (tickDeltas a trace)).rotationPoint := by
  have hkept (x : Transition (World ι α K) (Event ι α K))
      (hI : WellFormed L x.source ∧ (x.source.turret a).activeTargets = [])
      (hx : ∀ t, ¬ Enters L a t x.event) (hstep : Step L x.source x.event x.target) :
      WellFormed L x.target ∧ (x.target.turret a).activeTargets = [] :=
    ⟨wellFormed_step hI.1 hstep, stays_empty hI.1 hstep hI.2 hx⟩
  have hend := (hrun.always (I := fun s => WellFormed L s ∧ (s.turret a).activeTargets = [])
    hkept ⟨hwf, hempty⟩ henters).2
  refine ⟨hend.2, pose_of_turns hwf hrun fun x hx c hevent => ?_⟩
  obtain ⟨hsource, hstep, -⟩ :=
    hrun.each (I := fun s => WellFormed L s ∧ (s.turret a).activeTargets = []) hkept
      ⟨hwf, hempty⟩ henters x hx
  have hidle : getIdleRotation c a = getIdleRotation c₀ a := by
    have hsame := hforward x hx
    rw [hevent] at hsame
    exact getIdleRotation_congr hsame a
  rw [hevent] at hstep
  rw [tick_of_empty hstep hsource.2, moveToIdle_rotationPoint_self, hidle]

/-- They stay tied over a run. -/
theorem tickTied_run (h : WellFormed L w ∧ TickTied c₀ w) (hrun : Run (Step L) w trace w')
    (hforward : ∀ x ∈ trace, x.event.scene.actorForwardVector = c₀.actorForwardVector) :
    WellFormed L w' ∧ TickTied c₀ w' :=
  (hrun.always (I := fun s => WellFormed L s ∧ TickTied c₀ s)
    (fun _ hI hx hstep => ⟨wellFormed_step hI.1 hstep, tickTied_step hI.1 hI.2 hx hstep⟩)
    h hforward).2

/-! ## Turrets that cannot sleep -/

/-- A pose from which the turret has turned since the start of a run. -/
theorem pose_kept [IsStrictOrderedRing K] (hinit : Initial w₀) (hrun : Run (Step L) w₀ trace w)
    (hpitch : (w₀.turret a).rotationPoint.pitch ∈ Set.Icc (-70) 80) :
    (w.turret a).rotationPoint.roll = (w₀.turret a).rotationPoint.roll ∧
      (w.turret a).rotationPoint.pitch ∈ Set.Icc (-70) 80 :=
  (pose_invariant
    (P := fun r => r.roll = (w₀.turret a).rotationPoint.roll ∧ r.pitch ∈ Set.Icc (-70) 80)
    (G := fun _ => True) (wellFormed_initial hinit)
    (fun _ _ _ hpose _ => ⟨hpose.1, turnTowards_pitch_mem _ _ _ _⟩) hrun ⟨rfl, hpitch⟩
    (fun _ _ _ _ => trivial)).2

/-- **Which turrets can ever sleep.** In a level whose actors keep their forward
vectors, a turret whose first pitch is within its limits can reach a state with
its tick disabled exactly if its actor is pitched up by at most 56 degrees and
its roll is within one degree of that of the actor's forward frame. -/
theorem can_sleep_iff [IsStrictOrderedRing K] (hstart : BegunPlay c₀ w₀)
    (hpitch : (w₀.turret a).rotationPoint.pitch ∈ Set.Icc (-70) 80)
    (hframe : (Engine.makeFromX (c₀.actorForwardVector a)).pitch ∈ Set.Icc (-90) 90) :
    (∃ trace w, Run (Step L) w₀ trace w ∧
        (∀ x ∈ trace, x.event.scene.actorForwardVector = c₀.actorForwardVector) ∧
        (w.turret a).actorTickEnabled = false) ↔
      (Engine.makeFromX (c₀.actorForwardVector a)).pitch ≤ 56 ∧
      |FRotator.normalizeAxis ((w₀.turret a).rotationPoint.roll -
        (Engine.makeFromX (c₀.actorForwardVector a)).roll)| ≤ 1 := by
  have hinit := hstart.initial
  have hbegun : WellFormed L w₀ ∧ TickTied c₀ w₀ :=
    ⟨wellFormed_initial hinit, tickTied_begun hstart⟩
  obtain ⟨hframeLo, hframeHi⟩ := hframe
  have hidlePitch : (getIdleRotation c₀ a).pitch =
      (Engine.makeFromX (c₀.actorForwardVector a)).pitch + 25 := rfl
  have hidleRoll : (getIdleRotation c₀ a).roll =
      (Engine.makeFromX (c₀.actorForwardVector a)).roll := rfl
  constructor
  · rintro ⟨trace, w, hrun, hforward, hasleep⟩
    obtain ⟨hroll, hlo, hhi⟩ := pose_kept hinit hrun hpitch
    have htied := (tickTied_run hbegun hrun hforward).2 a
    rw [ATurret.TickTied, hasleep, eq_comm, Bool.or_eq_false_iff, Bool.not_eq_false',
      Bool.not_eq_false'] at htied
    have haligned := htied.2
    simp only [FRotator.equals, Bool.and_eq_true, decide_eq_true_eq] at haligned
    obtain ⟨⟨hclose, -⟩, hrolled⟩ := haligned
    rw [hroll, hidleRoll] at hrolled
    refine ⟨?_, hrolled⟩
    have hbound : |(w.turret a).rotationPoint.pitch - (getIdleRotation c₀ a).pitch| ≤ 185 := by
      rw [hidlePitch, abs_le]
      constructor <;> linarith
    have hnear := FRotator.abs_le_of_normalizeAxis (by linarith) hclose
    have hdown := (abs_le.mp hnear).1
    linarith
  · rintro ⟨hmount, hroll⟩
    -- one frame that is long enough for any positive turn speed
    let c : Scene ι α K := { c₀ with deltaSeconds := (L.turnSpeed a)⁻¹ }
    have hall : L.turnSpeed a ≤ 0 ∨ 1 ≤ c.deltaSeconds * L.turnSpeed a := by
      rcases le_or_gt (L.turnSpeed a) 0 with hslow | hpos
      · exact Or.inl hslow
      · exact Or.inr (inv_mul_cancel₀ hpos.ne').ge
    have hstep : Step L w₀ (.tick c a) (moveToIdle L c w₀ a) := by
      refine ⟨hinit.spawning, ?_⟩
      simp [handle, tick, hinit.activeTargets a]
    have hrun := Run.single hstep
    have hforward : ∀ x ∈ ([⟨w₀, .tick c a, moveToIdle L c w₀ a⟩] :
        List (Transition (World ι α K) (Event ι α K))),
        x.event.scene.actorForwardVector = c₀.actorForwardVector := by
      intro x hx
      rw [List.mem_singleton.mp hx]
      rfl
    refine ⟨_, _, hrun, hforward, ?_⟩
    have hsame : getIdleRotation c a = getIdleRotation c₀ a := getIdleRotation_congr rfl a
    have haligned : ((moveToIdle L c w₀ a).turret a).rotationPoint.equals
        (getIdleRotation c₀ a) 1 = true := by
      rw [moveToIdle_all a hall, hsame]
      exact clamped_equals (by linarith) (by linarith) hroll
    rw [(tickTied_run hbegun hrun hforward).2 a,
      stays_empty hbegun.1 hstep (hinit.activeTargets a) (by simp [Enters]), haligned]
    rfl

end Idle

section Time

variable {ι α : Type} [DecidableEq ι] [DecidableEq α] [ExactEngine]
variable {L : Level ι α ℝ} {c₀ : Scene ι α ℝ} {w w' w₀ : World ι α ℝ} {a : ι}
variable {before trace : List (Transition (World ι α ℝ) (Event ι α ℝ))}

/-- **Asleep in time.** In a level whose actors keep their forward vectors, a
turret without targets into whose area nothing comes has its tick disabled once
its ticks have taken the time to turn within one degree of its idle rotation. -/
theorem sleeps_in_time (hstart : BegunPlay c₀ w₀) (hreach : Run (Step L) w₀ before w)
    (hrun : Run (Step L) w trace w')
    (hforward : ∀ x ∈ before ++ trace,
      x.event.scene.actorForwardVector = c₀.actorForwardVector)
    (hempty : (w.turret a).activeTargets = [])
    (henters : ∀ x ∈ trace, ∀ t, ¬ Enters L a t x.event) (hspeed : 0 < L.turnSpeed a)
    (hunwrapped : Unwrapped (w.turret a).rotationPoint (getIdleRotation c₀ a))
    (htime : InterceptionHandler.rotationTimeTo (w.turret a).rotationPoint
      (getIdleRotation c₀ a) (L.turnSpeed a) 1 ≤ (tickDeltas a trace).sum) :
    (w'.turret a).actorTickEnabled = false := by
  have hinit := hstart.initial
  have hwf := wellFormed_run hinit hreach
  obtain ⟨hempty', hpose⟩ := pose_while_idle hwf hrun hempty henters
    fun x hx => hforward x (List.mem_append_right _ hx)
  have herrors := errors_le_of_time hspeed one_pos hunwrapped.startPitch
    hunwrapped.targetPitch hunwrapped.yawDifference htime
  obtain ⟨-, -, -, hroll⟩ := turnFrames_rotationPoint hspeed hunwrapped.targetPitch
    (tickDeltas a trace) (w.turret a) hunwrapped.startPitch
  have haligned : (w'.turret a).rotationPoint.equals (getIdleRotation c₀ a) 1 = true := by
    rw [hpose]
    exact equals_of_errors_le (by norm_num) (hroll.trans hunwrapped.roll) herrors.1 herrors.2
  have hbefore := tickTied_run ⟨wellFormed_initial hinit, tickTied_begun hstart⟩ hreach
    fun x hx => hforward x (List.mem_append_left _ hx)
  have htied := (tickTied_run hbefore hrun
    fun x hx => hforward x (List.mem_append_right _ hx)).2
  rw [htied a, hempty', haligned]
  rfl

end Time

section Alley

attribute [local instance] atan2Engine

/-- A frame of seven seconds. -/
noncomputable def alleyPause : Scene ℕ ℕ ℝ := { alleyScene with deltaSeconds := 7 }

/-- The turret of the alley looks ahead. -/
theorem alley_forward : Engine.makeFromX (alleyScene.actorForwardVector 0) = (0 : FRotator ℝ) :=
  makeFromX_eq_zero_iff.mpr ⟨zero_le_one, rfl, rfl⟩

/-- Its idle rotation is pitched up by 25 degrees. -/
theorem alley_getIdleRotation : getIdleRotation alleyScene 0 = (⟨25, 0, 0⟩ : FRotator ℝ) := by
  rw [getIdleRotation, alley_forward]
  norm_num

/-- No seam lies on the way to it. -/
theorem alleyStart_unwrapped :
    Unwrapped (alleyStart.turret 0).rotationPoint (⟨25, 0, 0⟩ : FRotator ℝ) := by
  constructor <;> norm_num [alleyStart, freshTurret, ATurret.updateTickState_eq]

/-- Turret 0 starts level and is asleep after one long frame. -/
theorem sleeps_in_time_alley :
    ((moveToIdle alley alleyPause alleyStart 0).turret 0).actorTickEnabled = false := by
  have hstep : Step alley alleyStart (.tick alleyPause 0)
      (moveToIdle alley alleyPause alleyStart 0) := by
    refine ⟨rfl, ?_⟩
    simp [handle, tick, alleyStart_initial.activeTargets 0]
  have hspeed : 0 < alley.turnSpeed 0 := by norm_num [alley]
  have htime : InterceptionHandler.rotationTimeTo (alleyStart.turret 0).rotationPoint ⟨25, 0, 0⟩
      (alley.turnSpeed 0) 1 ≤ 7 := by
    rw [rotationTimeTo_le_iff hspeed one_pos (by norm_num),
      alleyStart_unwrapped.maxAngularDistance_eq]
    have hexp : (36 : ℝ) ≤ Real.exp 35 := (by norm_num : (36 : ℝ) ≤ 35 + 1).trans
      (Real.add_one_le_exp 35)
    have hsmall : 25 * (Real.exp 35)⁻¹ ≤ 1 := by
      rw [mul_inv_le_iff₀ (Real.exp_pos _)]
      linarith
    norm_num [alleyStart, freshTurret, ATurret.updateTickState_eq, alley, Real.exp_neg]
    exact hsmall
  refine sleeps_in_time alleyStart_begunPlay (Run.nil _) (Run.single hstep) ?_
    (alleyStart_initial.activeTargets 0) ?_ hspeed ?_ ?_
  · simp [Event.scene, alleyPause]
  · simp [Enters]
  · rw [alley_getIdleRotation]
    exact alleyStart_unwrapped
  · rw [alley_getIdleRotation]
    refine htime.trans (le_of_eq ?_)
    simp [tickDeltas, tickDelta, alleyPause]

/-- Turret 0 stands level, so there is a run in which it falls asleep. -/
theorem can_sleep_iff_alley : ∃ trace w, Run (Step alley) alleyStart trace w ∧
    (w.turret 0).actorTickEnabled = false := by
  have hpose : (alleyStart.turret 0).rotationPoint = 0 := by
    simp [alleyStart, freshTurret, ATurret.updateTickState_eq]
  obtain ⟨trace, w, hrun, -, hasleep⟩ := (can_sleep_iff (L := alley) (a := 0) alleyStart_begunPlay
    (by norm_num [hpose]) (by norm_num [alley_forward])).mpr
      ⟨by norm_num [alley_forward], by norm_num [hpose, alley_forward]⟩
  exact ⟨trace, w, hrun, hasleep⟩

end Alley

end TurretMaster

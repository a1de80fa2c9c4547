import TurretMaster.Poses
import TurretMaster.AimProvenance
import TurretMaster.RotationBound

/-!
# From the lock to the shot

While a lock is open, the pose of a turret is the one it had when it was
locked, turned frame by frame towards the aim; nothing but its own ticks moves
it.  So the frame times of its ticks decide when it fires.

* `lockedOn_step` — an open lock is kept;
* `pose_while_locked` — the pose in every state of an open lock;
* `fires_iff_decayed` — which tick fires;
* `engaged_in_time` — a shot within the rotation time;
* `starved` — an aim out of reach is never given up.
-/

namespace TurretMaster

open Runs ClampedDecay

/-! ## Aims out of reach -/

section Reach

variable {K : Type} [Field K] [LinearOrder K] [FloorRing K] {aim : FRotator K}

/-- No pose with this roll that `SetPitch` allows is aligned with the aim. -/
structure OutOfReach (aim : FRotator K) (roll : K) : Prop where
  unaligned : ∀ pitch yaw, pitch ∈ Set.Icc (-70) 80 →
    ¬ (⟨pitch, yaw, roll⟩ : FRotator K).equals aim 0.5 = true

/-- **Which aims are out of reach**: of those a rotator can have, the ones more
than half a degree beyond the limits of the pitch or away from the roll. -/
theorem outOfReach_iff [IsStrictOrderedRing K] {roll : K} (haim : |aim.pitch| ≤ 90) :
    OutOfReach aim roll ↔ aim.pitch < -70.5 ∨ 80.5 < aim.pitch ∨
      0.5 < |FRotator.normalizeAxis (roll - aim.roll)| := by
  obtain ⟨hlower, hupper⟩ := abs_le.mp haim
  constructor
  · intro hout
    by_contra hnear
    push Not at hnear
    obtain ⟨hlo, hhi, hroll⟩ := hnear
    have hmem : FMath.clamp aim.pitch (-70) 80 ∈ Set.Icc (-70) 80 := clamp_mem_Icc (by norm_num)
    have hclose : |FMath.clamp aim.pitch (-70) 80 - aim.pitch| ≤ 0.5 :=
      abs_clamp_sub_le (by norm_num) (by norm_num) (by linarith) (by linarith)
    have hpitch : |FRotator.normalizeAxis (FMath.clamp aim.pitch (-70) 80 - aim.pitch)| ≤ 0.5 := by
      rw [FRotator.abs_normalizeAxis (hclose.trans (by norm_num))]
      exact hclose
    refine hout.unaligned _ aim.yaw hmem ?_
    simp only [FRotator.equals, sub_self, FRotator.normalizeAxis_zero, abs_zero,
      Bool.and_eq_true, decide_eq_true_eq]
    exact ⟨⟨hpitch, by norm_num⟩, hroll⟩
  · intro hfar
    refine ⟨fun pitch yaw hpitch hequals => ?_⟩
    obtain ⟨hlo, hhi⟩ := hpitch
    simp only [FRotator.equals, Bool.and_eq_true, decide_eq_true_eq] at hequals
    obtain ⟨⟨hclose, -⟩, hroll⟩ := hequals
    have hturn : |pitch - aim.pitch| ≤ 180 := by
      rw [abs_le]
      constructor <;> linarith
    rw [FRotator.abs_normalizeAxis hturn, abs_le] at hclose
    obtain ⟨hcloseLo, hcloseHi⟩ := hclose
    rcases hfar with hdown | hup | hrolled
    · linarith
    · linarith
    · exact absurd hroll (not_le.mpr hrolled)

/-- No pose with a roll that the zero aim is out of reach for is aligned with
it. -/
theorem unaligned_zero [IsStrictOrderedRing K] {roll : K} (hout : OutOfReach (0 : FRotator K) roll)
    (pitch yaw : K) : ¬ (⟨pitch, yaw, roll⟩ : FRotator K).equals 0 0.5 = true := by
  have hlevel := hout.unaligned 0 0 (by norm_num)
  simp only [FRotator.equals, FRotator.zero_pitch, FRotator.zero_yaw, sub_self,
    FRotator.normalizeAxis_zero, abs_zero, Bool.and_eq_true, decide_eq_true_eq] at hlevel ⊢
  exact fun haligned => hlevel ⟨⟨by norm_num, by norm_num⟩, haligned.2⟩

end Reach

section Engagement

variable {ι α K : Type}
variable {L : Level ι α K} {c : Scene ι α K} {w w' w'' w₀ : World ι α K}
variable {a : ι} {t : α} {aim : FRotator K}

/-! ## The open lock -/

/-- Turret `a` is locked on `t` with this aim, and no shot of it is under
way. -/
structure LockedOn (w : World ι α K) (a : ι) (t : α) (aim : FRotator K) : Prop where
  key : (w.turret a).currentTarget.key = some t
  aim : (w.turret a).targetInterceptionRotation = aim
  quiet : w.spawning ≠ some a

/-- The events by which a target leaves turret `a` without a shot. -/
def GoesAway (L : Level ι α K) (a : ι) (t : α)
    (x : Transition (World ι α K) (Event ι α K)) : Prop :=
  match x.event with
  | .endOverlap _ b otherActor _ => b = a ∧ otherActor = some t
  | .death _ s =>
      s = t ∧ (L.broadcastOrder (x.source.onTargetDestroyed t)).head? = some a
  | _ => False

/-- A lock that its target does not end is ended by a shot. -/
theorem lockEnds_of_stays {e : Event ι α K} (hends : LockEnds L a t ⟨w, e, w'⟩)
    (hstays : ¬ GoesAway L a t ⟨w, e, w'⟩) : ∃ c, e = .tick c a ∧ w'.spawning = some a := by
  cases e with
  | beginOverlap c b otherActor k => exact hends.elim
  | endOverlap c b otherActor k => exact absurd hends hstays
  | death c s => exact absurd hends hstays
  | tick c b => exact ⟨c, by rw [hends.1], hends.2⟩
  | spawned c => exact hends.elim

variable [Field K] [LinearOrder K] [FloorRing K]

/-- What a locked turret keeps while its aim is out of reach: the lock, its
roll, and a pose that is not aligned. -/
structure Starving (L : Level ι α K) (w : World ι α K) (a : ι) (t : α) (aim : FRotator K)
    (roll : K) : Prop where
  wellFormed : WellFormed L w
  locked : LockedOn w a t aim
  roll : (w.turret a).rotationPoint.roll = roll
  pitch : aim ≠ 0 → (w.turret a).rotationPoint.pitch ∈ Set.Icc (-70) 80

/-- While it starves a turret is not aligned. -/
theorem Starving.unaligned [IsStrictOrderedRing K] {roll : K} (h : Starving L w a t aim roll)
    (hout : OutOfReach aim roll) : ¬ (w.turret a).rotationPoint.equals aim 0.5 = true := by
  by_cases haim : aim = 0
  · subst haim
    rw [← h.roll] at hout
    exact unaligned_zero hout _ _
  · rw [← h.roll] at hout
    exact hout.unaligned _ _ (h.pitch haim)

variable [DecidableEq ι]

/-- Away from an aim that is not zero a locked turret turns towards it. -/
theorem rotateOrFire_of_unaligned (h : LockedOn w a t aim) (haim : aim ≠ 0)
    (hfar : ¬ (w.turret a).rotationPoint.equals aim 0.5 = true) :
    rotateOrFire L c w a =
      w.modify a (fun u => u.turnTowards aim c.deltaSeconds (L.turnSpeed a)) := by
  have hkey : (w.turret a).currentTarget.key ≠ none := by simp [h.key]
  unfold rotateOrFire
  dsimp only
  rw [h.aim, if_pos ⟨hkey, haim⟩, if_pos (by simpa using hfar)]
  simp only [World.modify, h.aim]

/-- What a locked turret without a shot under way looks like: it has turned to
its aim, so that its pitch is within the limits of `SetPitch`. -/
structure TurnedToAim (w : World ι α K) (a : ι) : Prop where
  pitch_mem : (w.turret a).currentTarget.key ≠ none → w.spawning ≠ some a →
    (w.turret a).targetInterceptionRotation ≠ 0 →
      (w.turret a).rotationPoint.pitch ∈ Set.Icc (-70) 80

/-- Rotating or firing leaves a locked turret with a shot under way or turned. -/
theorem turnedToAim_rotateOrFire [IsStrictOrderedRing K] :
    TurnedToAim (rotateOrFire L c w a) a := by
  have hsame := sameTargeting_rotateOrFire (L := L) (c := c) (w := w) (a := a) a
  constructor
  intro hkey hquiet haim
  rw [hsame.currentTarget] at hkey
  rw [hsame.targetInterceptionRotation] at haim
  unfold rotateOrFire fire at hquiet ⊢
  dsimp only at hquiet ⊢
  rw [if_pos ⟨hkey, haim⟩] at hquiet ⊢
  split_ifs at hquiet ⊢
  · rw [World.modify_turret_self]
    exact turnTowards_pitch_mem _ _ _ _
  · exact absurd rfl hquiet

variable [DecidableEq α] [Engine K]

/-- **An open lock is kept** by every event that does not end it. -/
theorem lockedOn_step {e : Event ι α K} (hwf : WellFormed L w) (h : LockedOn w a t aim)
    (hstep : Step L w e w') (hopen : ¬ LockEnds L a t ⟨w, e, w'⟩) : LockedOn w' a t aim := by
  have hlock := lock_kept hwf hstep h.key (not_removes_of_open h.key h.quiet hopen)
  refine ⟨?_, ?_, quiet_step hwf h.quiet hopen hstep⟩
  · rw [hlock.currentTarget]
    exact h.key
  · rw [hlock.targetInterceptionRotation]
    exact h.aim

/-- **A tick of a locked turret** fires if the turret is aligned with an aim
that is not zero, and turns it towards such an aim otherwise. -/
theorem tick_of_lockedOn (hwf : WellFormed L w) (h : LockedOn w a t aim)
    (hstep : Step L w (.tick c a) w') :
    (w'.spawning = some a ↔ aim ≠ 0 ∧ (w.turret a).rotationPoint.equals aim 0.5 = true) ∧
    (aim ≠ 0 → w'.spawning ≠ some a → (w'.turret a).rotationPoint =
      ((w.turret a).turnTowards aim c.deltaSeconds (L.turnSpeed a)).rotationPoint) := by
  have hquiet : w.spawning = none := hstep.1
  have hready : ReadyToFire (w.turret a) ↔
      aim ≠ 0 ∧ (w.turret a).rotationPoint.equals aim 0.5 = true := by
    rw [← h.aim]
    exact ⟨fun hready => ⟨hready.aimed, hready.aligned⟩,
      fun hready => ⟨by simp [h.key], hready.1, hready.2⟩⟩
  cases step_effect hstep with
  | idled hempty =>
      have hmem := (hwf a).current_mem h.key
      rw [hempty] at hmem
      cases hmem
  | tracked =>
      have hfires := (rotateOrFire_fires_iff (L := L) (c := c) (a := a) hquiet).trans hready
      refine ⟨hfires, fun haim hnot => ?_⟩
      have hfar : ¬ (w.turret a).rotationPoint.equals aim 0.5 = true :=
        fun haligned => hnot (hfires.mpr ⟨haim, haligned⟩)
      rw [rotateOrFire_of_unaligned h haim hfar, World.modify_turret_self]
  | selected _ hkey _ =>
      have hkey' := h.key
      rw [hkey] at hkey'
      cases hkey'

variable {before trace : List (Transition (World ι α K) (Event ι α K))}

/-- **The pose while locked.** As long as nothing ends the lock, the pose is
the one at the start, turned to the aim once for each tick of the turret. -/
theorem pose_while_locked (hwf : WellFormed L w) (h : LockedOn w a t aim) (haim : aim ≠ 0)
    (hrun : Run (Step L) w trace w') (hopen : ∀ x ∈ trace, ¬ LockEnds L a t x) :
    WellFormed L w' ∧ LockedOn w' a t aim ∧ (w'.turret a).rotationPoint =
      ((w.turret a).turnFrames aim (L.turnSpeed a) (tickDeltas a trace)).rotationPoint := by
  have hkept (x : Transition (World ι α K) (Event ι α K))
      (hI : WellFormed L x.source ∧ LockedOn x.source a t aim) (hx : ¬ LockEnds L a t x)
      (hstep : Step L x.source x.event x.target) :
      WellFormed L x.target ∧ LockedOn x.target a t aim :=
    ⟨wellFormed_step hI.1 hstep, lockedOn_step hI.1 hI.2 hstep hx⟩
  obtain ⟨hwf', hlocked⟩ := (hrun.always (I := fun s => WellFormed L s ∧ LockedOn s a t aim)
    hkept ⟨hwf, h⟩ hopen).2
  refine ⟨hwf', hlocked, pose_of_turns hwf hrun fun x hx c hevent => ?_⟩
  obtain ⟨hsource, hstep, htarget⟩ :=
    hrun.each (I := fun s => WellFormed L s ∧ LockedOn s a t aim) hkept ⟨hwf, h⟩ hopen x hx
  rw [hevent] at hstep
  exact (tick_of_lockedOn hsource.1 hsource.2 hstep).2 haim htarget.2.quiet

/-- The tick after an open lock fires if the distance has decayed enough. -/
theorem fires_iff_of_locked [IsStrictOrderedRing K] (hwf : WellFormed L w)
    (h : LockedOn w a t aim) (haim : aim ≠ 0) (hspeed : 0 < L.turnSpeed a)
    (hunwrapped : Unwrapped (w.turret a).rotationPoint aim) (hrun : Run (Step L) w trace w')
    (hopen : ∀ x ∈ trace, ¬ LockEnds L a t x) (hstep : Step L w' (.tick c a) w'') :
    w''.spawning = some a ↔
      InterceptionHandler.maxAngularDistance (w.turret a).rotationPoint aim *
        decay (frameSteps (L.turnSpeed a) (tickDeltas a trace)) ≤ 0.5 := by
  obtain ⟨hwf', hlocked, hpose⟩ := pose_while_locked hwf h haim hrun hopen
  rw [(tick_of_lockedOn hwf' hlocked hstep).1, and_iff_right haim, hpose]
  exact aligned_iff_decay hspeed hunwrapped _

/-- **Which tick fires.** A turret that is locked on a target it can turn to
fires at the first of its ticks before which the angular distance, decayed over
the ticks since, is at most half a degree: the tick after an open lock fires
exactly if that is so. -/
theorem fires_iff_decayed [IsStrictOrderedRing K] (hinit : Initial w₀)
    (hreach : Run (Step L) w₀ before w) (h : LockedOn w a t aim) (haim : aim ≠ 0)
    (hspeed : 0 < L.turnSpeed a) (hunwrapped : Unwrapped (w.turret a).rotationPoint aim)
    (hrun : Run (Step L) w trace w') (hopen : ∀ x ∈ trace, ¬ LockEnds L a t x)
    (hstep : Step L w' (.tick c a) w'') :
    w''.spawning = some a ↔
      InterceptionHandler.maxAngularDistance (w.turret a).rotationPoint aim *
        decay (frameSteps (L.turnSpeed a) (tickDeltas a trace)) ≤ 0.5 :=
  fires_iff_of_locked (wellFormed_run hinit hreach) h haim hspeed hunwrapped hrun hopen hstep

/-! ## Starvation -/

/-- A tick of its own leaves a locked turret turned, or shooting. -/
theorem turnedToAim_tick [IsStrictOrderedRing K] (hwf : WellFormed L w)
    (hstep : Step L w (.tick c a) w') : TurnedToAim w' a := by
  cases step_effect hstep with
  | idled hempty =>
      constructor
      intro hkey _ _
      rw [(sameTargeting_moveToIdle a).currentTarget] at hkey
      obtain ⟨t, ht⟩ := Option.ne_none_iff_exists'.mp hkey
      have hmem := (hwf a).current_mem ht
      rw [hempty] at hmem
      cases hmem
  | tracked => exact turnedToAim_rotateOrFire
  | selected => exact turnedToAim_rotateOrFire

/-- A shot under way ends with the lock. -/
theorem quiet_back {e : Event ι α K} (hstep : Step L w e w')
    (hkey : (w'.turret a).currentTarget.key ≠ none) (hquiet : w'.spawning ≠ some a) :
    w.spawning ≠ some a := by
  intro hshot
  cases e with
  | tick c b =>
      have hnone : w.spawning = none := hstep.1
      rw [hnone] at hshot
      cases hshot
  | spawned c => exact hkey (spawned_unlocks hstep hshot)
  | _ =>
      rw [spawning_kept hstep (by simp) (by simp)] at hquiet
      exact hquiet hshot

/-- **Every event leaves a locked turret turned.** A lock is made by a tick, and
no other event turns the turret back. -/
theorem turnedToAim_step [IsStrictOrderedRing K] {e : Event ι α K} (hwf : WellFormed L w)
    (h : TurnedToAim w a) (hstep : Step L w e w') : TurnedToAim w' a := by
  by_cases hown : ∃ c, e = .tick c a
  · obtain ⟨c, rfl⟩ := hown
    exact turnedToAim_tick hwf hstep
  push Not at hown
  constructor
  intro hkey hquiet haim
  have hlock : SameLock (w.turret a) (w'.turret a) := by
    by_contra hnew
    obtain ⟨t, ht⟩ := Option.ne_none_iff_exists'.mp hkey
    obtain ⟨c, hselected⟩ := selected_of_new_lock hwf hstep ht hnew
    exact hown c hselected.event
  have hstill := quiet_back hstep hkey hquiet
  rw [hlock.currentTarget] at hkey
  rw [hlock.targetInterceptionRotation] at haim
  rcases rotationPoint_cases hwf hstep a with hsame | ⟨c, hevent, -⟩
  · rw [hsame]
    exact h.pitch_mem hkey hstill haim
  · exact absurd hevent (hown c)

/-- **The pitch of a locked turret**, unless its shot is under way or its aim is
zero, is within the limits of `SetPitch`, wherever it was at first. -/
theorem pitch_mem_of_lockedOn [IsStrictOrderedRing K] (hinit : Initial w₀)
    (hreach : Run (Step L) w₀ before w) (h : LockedOn w a t aim) (haim : aim ≠ 0) :
    (w.turret a).rotationPoint.pitch ∈ Set.Icc (-70) 80 := by
  have hstart : TurnedToAim w₀ a :=
    ⟨fun hkey => absurd (by rw [hinit.currentTarget a]) hkey⟩
  have hturned := (hreach.invariant (I := fun s => WellFormed L s ∧ TurnedToAim s a)
    (fun _ _ _ hI hstep => ⟨wellFormed_step hI.1 hstep, turnedToAim_step hI.1 hI.2 hstep⟩)
    ⟨wellFormed_initial hinit, hstart⟩).2
  exact hturned.pitch_mem (by simp [h.key]) h.quiet (by rwa [h.aim])

/-- **An unreachable aim is kept** by every event but the target's going
away. -/
theorem starving_step [IsStrictOrderedRing K] {e : Event ι α K} {roll : K}
    (h : Starving L w a t aim roll) (hout : OutOfReach aim roll) (hstep : Step L w e w')
    (hstays : ¬ GoesAway L a t ⟨w, e, w'⟩) : Starving L w' a t aim roll := by
  have hopen : ¬ LockEnds L a t ⟨w, e, w'⟩ := by
    intro hends
    obtain ⟨c, rfl, hshot⟩ := lockEnds_of_stays hends hstays
    exact h.unaligned hout ((tick_of_lockedOn h.wellFormed h.locked hstep).1.mp hshot).2
  refine ⟨wellFormed_step h.wellFormed hstep, lockedOn_step h.wellFormed h.locked hstep hopen,
    (roll_kept h.wellFormed hstep a).trans h.roll, fun haim => ?_⟩
  rcases rotationPoint_cases h.wellFormed hstep a with hsame | ⟨c, -, hturned⟩
  · rw [hsame]
    exact h.pitch haim
  · rw [hturned]
    exact turnTowards_pitch_mem _ _ _ _

/-- **Starvation.** A turret that is locked on a target with an aim out of its
reach stays locked on it and is never aligned with it, whatever else is in its
list, until that target goes away by itself. -/
theorem starved [IsStrictOrderedRing K] (hinit : Initial w₀) (hreach : Run (Step L) w₀ before w)
    (h : LockedOn w a t aim) (hout : OutOfReach aim (w.turret a).rotationPoint.roll)
    (hrun : Run (Step L) w trace w') (hstays : ∀ x ∈ trace, ¬ GoesAway L a t x) :
    ∀ x ∈ trace, LockedOn x.target a t aim ∧
      ¬ (x.target.turret a).rotationPoint.equals aim 0.5 = true := by
  have hstart : Starving L w a t aim (w.turret a).rotationPoint.roll :=
    ⟨wellFormed_run hinit hreach, h, rfl, pitch_mem_of_lockedOn hinit hreach h⟩
  obtain ⟨hkept, -⟩ := hrun.always
    (I := fun s => Starving L s a t aim (w.turret a).rotationPoint.roll)
    (fun _ hI hx hstep => starving_step hI hout hstep hx) hstart hstays
  exact fun x hx => ⟨(hkept x hx).locked, (hkept x hx).unaligned hout⟩

end Engagement

/-! ## In time -/

section Time

variable {ι α : Type} [DecidableEq ι] [DecidableEq α] [ExactEngine]
variable {L : Level ι α ℝ} {c : Scene ι α ℝ} {w w' w'' w₀ : World ι α ℝ}
variable {a : ι} {t : α} {aim : FRotator ℝ}
variable {before trace : List (Transition (World ι α ℝ) (Event ι α ℝ))}

/-- **Engaged in time.** Once the ticks of a turret since its lock have taken
the time to turn within half a degree of the aim, its next tick ends the lock
with a shot, if the target has not left or died before. -/
theorem engaged_in_time (hinit : Initial w₀) (hreach : Run (Step L) w₀ before w)
    (h : LockedOn w a t aim) (haim : aim ≠ 0) (hspeed : 0 < L.turnSpeed a)
    (hunwrapped : Unwrapped (w.turret a).rotationPoint aim)
    (hrun : Run (Step L) w trace w') (hstep : Step L w' (.tick c a) w'')
    (htime : InterceptionHandler.rotationTimeTo (w.turret a).rotationPoint aim
      (L.turnSpeed a) 0.5 ≤ (tickDeltas a trace).sum) :
    ∃ x ∈ trace ++ [⟨w', .tick c a, w''⟩], LockEnds L a t x := by
  by_contra hnone
  push Not at hnone
  have hopen : ∀ x ∈ trace, ¬ LockEnds L a t x :=
    fun x hx => hnone x (List.mem_append_left _ hx)
  obtain ⟨hwf', hlocked, hpose⟩ :=
    pose_while_locked (wellFormed_run hinit hreach) h haim hrun hopen
  have haligned := aligned_of_half_degree_time hspeed hunwrapped htime
  rw [← hpose] at haligned
  have hfire := (tick_of_lockedOn hwf' hlocked hstep).1.mpr ⟨haim, haligned⟩
  exact hnone ⟨w', .tick c a, w''⟩ (by simp) ⟨rfl, hfire⟩

end Time

section Alley

attribute [local instance] atan2Engine

/-- A frame of the alley with every actor standing at one point. -/
noncomputable def alleyFrame (point : FVector ℝ) (deltaSeconds : ℝ) : Scene ℕ ℕ ℝ :=
  { alleySceneAt point with deltaSeconds := deltaSeconds }

/-- A stationary actor in range is accepted, whatever the frame. -/
theorem alleyFrame_acceptable {point : FVector ℝ} (deltaSeconds : ℝ) (rotation : FRotator ℝ)
    (hrange : isPointWithinRange alley (alleySceneAt point) 0 point = true) :
    acceptable alley (alleyFrame point deltaSeconds) 0 rotation 1 = true := by
  have htype : determinedType (alleySceneAt point) 1 = TMGameplayTags.targetTypeStationary :=
    alley_determinedType one_ne_zero
  exact (acceptable_iff alley (alleySceneAt point) 0 rotation 1).mpr (Or.inl ⟨htype, hrange⟩)

/-- The aim at it is the rotation to it. -/
theorem alleyFrame_aimFor (point : FVector ℝ) (deltaSeconds : ℝ) (rotation : FRotator ℝ) :
    aimFor alley (alleyFrame point deltaSeconds) 0 rotation 1 =
      interceptionRotation (alleySceneAt point) 0 point := by
  have htype : determinedType (alleyFrame point deltaSeconds) 1 =
      TMGameplayTags.targetTypeStationary := alley_determinedType one_ne_zero
  rw [aimFor, interceptionOf, htype]
  rfl

/-- A tick locks turret 0 on actor 1 and turns it, unless it looks there already. -/
theorem alley_locks {c : Scene ℕ ℕ ℝ} {aim : FRotator ℝ}
    (hacceptable : acceptable alley c 0 0 1 = true) (haim : aimFor alley c 0 0 1 = aim)
    (hnonzero : aim ≠ 0) (hfar : ¬ (0 : FRotator ℝ).equals aim 0.5 = true) :
    ∃ w, Step alley alleyOne (.tick c 0) w ∧ LockedOn w 0 1 aim ∧ w.spawning = none ∧
      (w.turret 0).rotationPoint =
        (freshTurret.turnTowards aim c.deltaSeconds 5).rotationPoint := by
  obtain ⟨hactive, hnone, hrotation⟩ := alleyOne_turret
  obtain ⟨trace, hrun⟩ := alleyOne_run
  have hwf := wellFormed_run alleyStart_initial hrun
  rw [← hrotation] at hacceptable haim
  obtain ⟨w₁, hw₁, hselect, hkey, haim₁⟩ := alley_selects (hwf 0) hactive hacceptable
  rw [haim] at haim₁
  have hpose : (w₁.turret 0).rotationPoint = 0 := hselect.rotationPoint.trans hrotation
  have hstill : w₁.spawning = none := by
    rw [hselect.spawning]
    simp [alleyStart_initial.spawning, alleyOne, admitTarget, updateTickState]
  have hturns : rotateOrFire alley c w₁ 0 =
      w₁.modify 0 (fun u => u.turnTowards aim c.deltaSeconds 5) :=
    rotateOrFire_of_unaligned ⟨hkey, haim₁, by simp [hstill]⟩ hnonzero (by rwa [hpose])
  have hquiet : (rotateOrFire alley c w₁ 0).spawning = none := by
    rw [hturns, World.modify_spawning, hstill]
  refine ⟨rotateOrFire alley c w₁ 0, ⟨rfl, ?_⟩, ⟨?_, ?_, by simp [hquiet]⟩, hquiet, ?_⟩
  · simp [handle, tick, hactive, hnone, hw₁, Except.map]
  · rw [(sameTargeting_rotateOrFire 0).currentTarget]
    exact hkey
  · rw [(sameTargeting_rotateOrFire 0).targetInterceptionRotation]
    exact haim₁
  · rw [hturns, World.modify_turret_self]
    exact turnTowards_rotationPoint_congr hpose

/-- The lock on an actor that stands within range. -/
theorem alleyFrame_locks {point : FVector ℝ} {aim : FRotator ℝ} (deltaSeconds : ℝ)
    (hrange : isPointWithinRange alley (alleySceneAt point) 0 point = true)
    (haim : interceptionRotation (alleySceneAt point) 0 point = aim) (hnonzero : aim ≠ 0)
    (hfar : ¬ (0 : FRotator ℝ).equals aim 0.5 = true) :
    ∃ w, Step alley alleyOne (.tick (alleyFrame point deltaSeconds) 0) w ∧
      LockedOn w 0 1 aim ∧ w.spawning = none ∧ (w.turret 0).rotationPoint =
        (freshTurret.turnTowards aim deltaSeconds 5).rotationPoint :=
  alley_locks (alleyFrame_acceptable deltaSeconds 0 hrange)
    ((alleyFrame_aimFor point deltaSeconds 0).trans haim) hnonzero hfar

/-- The direction to the right. -/
theorem normalize_right {y : ℝ} (hy : 1 ≤ y) :
    FVector.normalize (⟨0, y, 0⟩ : FVector ℝ) = ⟨0, 1, 0⟩ := by
  have hlarge : (smallNumber : ℝ) < FVector.dot ⟨0, y, 0⟩ ⟨0, y, 0⟩ := by
    have hsmall : (smallNumber : ℝ) < 1 := by norm_num [smallNumber]
    simp only [FVector.dot]
    nlinarith
  have hroot : √(y * y) = y := Real.sqrt_mul_self (by linarith)
  have hunit : y * y⁻¹ = 1 := mul_inv_cancel₀ (by linarith)
  rw [FVector.normalize, if_pos hlarge, ExactEngine.sqrt_eq]
  simp [FVector.dot, FVector.mul_def, hroot, hunit]

/-- The rotation to the right. -/
theorem makeFromX_right : Engine.makeFromX (⟨0, 1, 0⟩ : FVector ℝ) = ⟨0, 90, 0⟩ := by
  have harg : Complex.arg ⟨0, 1⟩ = Real.pi / 2 := Complex.arg_I
  ext
  · exact directionPitch_level rfl
  · exact atan2Degrees_pos_zero one_pos
  · refine atan2Degrees_eq_zero_iff.mpr ?_
    simp [harg, FVector.dot, kindaSmallNumber]
    norm_num

/-- The aim at a point to the right of turret 0, on its level. -/
theorem alley_aim_right :
    interceptionRotation (alleySceneAt ⟨0, 100, 100⟩) 0 ⟨0, 100, 100⟩ =
      (⟨0, 90, 0⟩ : FRotator ℝ) := by
  have hway : (⟨0, 100, 100⟩ : FVector ℝ) - (alleySceneAt ⟨0, 100, 100⟩).rotationPointLocation 0 =
      ⟨0, 100, 0⟩ := by
    norm_num [alleySceneAt, alleyScene, FVector.sub_def]
  rw [interceptionRotation, hway, normalize_right (by norm_num), makeFromX_right]

/-- The actor on the right is in range. -/
theorem right_inRange :
    isPointWithinRange alley (alleySceneAt ⟨0, 100, 100⟩) 0 ⟨0, 100, 100⟩ = true :=
  alley_inRange rfl (by norm_num [FVector.dot])

/-- The rotation to the right is not zero. -/
theorem right_nonzero : (⟨0, 90, 0⟩ : FRotator ℝ) ≠ 0 := by
  intro hzero
  have hyaw : (90 : ℝ) = 0 := congrArg FRotator.yaw hzero
  norm_num at hyaw

/-- A turret that looks ahead is not aligned with it. -/
theorem right_unaligned : ¬ (0 : FRotator ℝ).equals ⟨0, 90, 0⟩ 0.5 = true := by
  have hyaw : |FRotator.normalizeAxis ((0 : ℝ) - 90)| = 90 := by
    rw [FRotator.abs_normalizeAxis] <;> norm_num [abs_of_neg]
  have hlarge : ¬ (90 : ℝ) ≤ 0.5 := by norm_num
  simp [FRotator.equals] at hyaw ⊢
  norm_num [hyaw]

/-- In one long frame the turret turns all the way. -/
theorem alley_turned {deltaSeconds : ℝ} (hlong : 1 ≤ deltaSeconds) :
    (freshTurret.turnTowards ⟨0, 90, 0⟩ deltaSeconds 5).rotationPoint =
      (⟨0, 90, 0⟩ : FRotator ℝ) := by
  have hall : (5 : ℝ) ≤ 0 ∨ 1 ≤ deltaSeconds * 5 := Or.inr (by linarith)
  simp only [ATurret.turnTowards, ATurret.setPitch, ATurret.setYaw, fInterpTo_all hall]
  norm_num [freshTurret, FMath.clamp]

/-- A tick of turret 0 while it is locked. -/
theorem alley_tick_locked {w : World ℕ ℕ ℝ} {aim : FRotator ℝ} (hwf : WellFormed alley w)
    (h : LockedOn w 0 1 aim) (hquiet : w.spawning = none) (c : Scene ℕ ℕ ℝ) :
    Step alley w (.tick c 0) (rotateOrFire alley c w 0) :=
  ⟨hquiet, tick_of_locked alley c (List.ne_nil_of_mem ((hwf 0).current_mem h.key))
    (by simp [h.key])⟩

/-- The projectile of turret 0, fired at actor 1, spawns. -/
theorem alley_spawned {w : World ℕ ℕ ℝ} (hspawning : w.spawning = some 0)
    (hkey : (w.turret 0).currentTarget.key = some 1) (c : Scene ℕ ℕ ℝ) :
    ∃ w', Step alley w (.spawned c) w' := by
  refine ⟨{ removeTarget c w 0 1 with spawning := none }, by simp [Enabled, hspawning], ?_⟩
  simp only [handle, hspawning, tickAfterFire, hkey, tryRemoveActiveTarget]
  rfl

/-- A turn of turret 0 from its first pose. -/
theorem alley_turns {w : World ℕ ℕ ℝ} (hwf : WellFormed alley w)
    (h : LockedOn w 0 1 ⟨0, 90, 0⟩) (hquiet : w.spawning = none)
    (hpose : (w.turret 0).rotationPoint = 0) (deltaSeconds : ℝ) :
    ∃ w', Step alley w (.tick (alleyFrame ⟨0, 100, 100⟩ deltaSeconds) 0) w' ∧
      LockedOn w' 0 1 ⟨0, 90, 0⟩ ∧ w'.spawning = none ∧ (w'.turret 0).rotationPoint =
        (freshTurret.turnTowards ⟨0, 90, 0⟩ deltaSeconds 5).rotationPoint := by
  have hstep := alley_tick_locked hwf h hquiet (alleyFrame ⟨0, 100, 100⟩ deltaSeconds)
  have hfar : ¬ (w.turret 0).rotationPoint.equals ⟨0, 90, 0⟩ 0.5 = true := by
    rw [hpose]
    exact right_unaligned
  have hturned := rotateOrFire_of_unaligned (L := alley)
    (c := alleyFrame ⟨0, 100, 100⟩ deltaSeconds) h right_nonzero hfar
  have hstill : (rotateOrFire alley (alleyFrame ⟨0, 100, 100⟩ deltaSeconds) w 0).spawning =
      none := by
    rw [hturned, World.modify_spawning, hquiet]
  have hsame := sameTargeting_rotateOrFire (L := alley)
    (c := alleyFrame ⟨0, 100, 100⟩ deltaSeconds) (w := w) (a := 0) 0
  refine ⟨_, hstep, ⟨?_, ?_, by simp [hstill]⟩, hstill, ?_⟩
  · rw [hsame.currentTarget]
    exact h.key
  · rw [hsame.targetInterceptionRotation]
    exact h.aim
  · rw [hturned, World.modify_turret_self]
    exact turnTowards_rotationPoint_congr hpose

/-- A frame of no length does not turn the turret. -/
theorem alley_unturned :
    (freshTurret.turnTowards ⟨0, 90, 0⟩ 0 5).rotationPoint = (⟨0, 0, 0⟩ : FRotator ℝ) := by
  norm_num [freshTurret, ATurret.turnTowards, ATurret.setPitch, ATurret.setYaw, FMath.fInterpTo,
    FMath.clamp, smallNumber]

/-- Turret 0, locked on the actor to its right and not yet turned to it. -/
theorem alley_locked_ahead : ∃ trace w, Run (Step alley) alleyStart trace w ∧
    LockedOn w 0 1 ⟨0, 90, 0⟩ ∧ w.spawning = none ∧ (w.turret 0).rotationPoint = 0 := by
  obtain ⟨trace, hrun⟩ := alleyOne_run
  obtain ⟨w, hstep, hlocked, hquiet, hpose⟩ :=
    alleyFrame_locks 0 right_inRange alley_aim_right right_nonzero right_unaligned
  rw [alley_unturned] at hpose
  exact ⟨_, w, hrun.snoc hstep, hlocked, hquiet, hpose⟩

/-- From ahead to the right no seam is crossed. -/
theorem ahead_unwrapped : Unwrapped (0 : FRotator ℝ) ⟨0, 90, 0⟩ := by
  constructor <;> norm_num

/-- A tick that starts no shot ends no lock. -/
theorem not_lockEnds_of_quiet {w w' : World ℕ ℕ ℝ} {c : Scene ℕ ℕ ℝ} (h : w'.spawning = none) :
    ¬ LockEnds alley 0 1 ⟨w, .tick c 0, w'⟩ := by
  simp [LockEnds, h]

/-- Once it looks there, its next tick fires. -/
theorem alley_fires {w : World ℕ ℕ ℝ} (hwf : WellFormed alley w)
    (h : LockedOn w 0 1 ⟨0, 90, 0⟩) (hquiet : w.spawning = none)
    (hpose : (w.turret 0).rotationPoint = ⟨0, 90, 0⟩) (c : Scene ℕ ℕ ℝ) :
    ∃ w', Step alley w (.tick c 0) w' ∧ w'.spawning = some 0 ∧
      SameLock (w.turret 0) (w'.turret 0) := by
  have hstep := alley_tick_locked hwf h hquiet c
  have haligned : (w.turret 0).rotationPoint.equals ⟨0, 90, 0⟩ 0.5 = true := by
    rw [hpose]
    norm_num [FRotator.equals]
  exact ⟨_, hstep, (tick_of_lockedOn hwf h hstep).1.mpr ⟨right_nonzero, haligned⟩,
    (sameTargeting_rotateOrFire 0).sameLock⟩

/-- It turns in one long frame, and its next tick fires. -/
theorem alley_turns_and_fires {w : World ℕ ℕ ℝ} (hwf : WellFormed alley w)
    (h : LockedOn w 0 1 ⟨0, 90, 0⟩) (hquiet : w.spawning = none)
    (hpose : (w.turret 0).rotationPoint = 0) {deltaSeconds : ℝ} (hlong : 1 ≤ deltaSeconds) :
    ∃ v v', Step alley w (.tick (alleyFrame ⟨0, 100, 100⟩ deltaSeconds) 0) v ∧
      v.spawning = none ∧ Step alley v (.tick alleyScene 0) v' ∧ v'.spawning = some 0 := by
  obtain ⟨v, hturn, hlocked, hstill, hturned⟩ := alley_turns hwf h hquiet hpose deltaSeconds
  rw [alley_turned hlong] at hturned
  obtain ⟨v', hstep, hshot, -⟩ :=
    alley_fires (wellFormed_step hwf hturn) hlocked hstill hturned alleyScene
  exact ⟨v, v', hturn, hstill, hstep, hshot⟩

/-- Right after the lock a tick does not fire, and after the long frame it does. -/
theorem fires_iff_decayed_alley :
    ∃ w w' v v', LockedOn w 0 1 ⟨0, 90, 0⟩ ∧ Step alley w (.tick alleyScene 0) w' ∧
      w'.spawning ≠ some 0 ∧ Step alley w (.tick (alleyFrame ⟨0, 100, 100⟩ 1) 0) v ∧
      Step alley v (.tick alleyScene 0) v' ∧ v'.spawning = some 0 := by
  obtain ⟨before, w, hreach, hlocked, hquiet, hpose⟩ := alley_locked_ahead
  have hwf := wellFormed_run alleyStart_initial hreach
  have hspeed : 0 < alley.turnSpeed 0 := by norm_num [alley]
  have hunwrapped : Unwrapped (w.turret 0).rotationPoint ⟨0, 90, 0⟩ := hpose ▸ ahead_unwrapped
  obtain ⟨v, v', hturn, hstill, hstep, -⟩ :=
    alley_turns_and_fires hwf hlocked hquiet hpose le_rfl
  have hfirst := alley_tick_locked hwf hlocked hquiet alleyScene
  refine ⟨w, _, v, v', hlocked, hfirst, ?_, hturn, hstep, ?_⟩
  · rw [Ne, fires_iff_decayed alleyStart_initial hreach hlocked right_nonzero hspeed hunwrapped
      (Run.nil w) (by simp) hfirst, hpose, ahead_unwrapped.maxAngularDistance_eq]
    norm_num [tickDeltas, frameSteps]
  · rw [fires_iff_decayed alleyStart_initial hreach hlocked right_nonzero hspeed hunwrapped
      (Run.single hturn) (by simp [not_lockEnds_of_quiet hstill]) hstep, hpose,
      ahead_unwrapped.maxAngularDistance_eq, tickDeltas_single]
    norm_num [frameSteps, alleyFrame, alley, decay, remaining]

/-- A minute is more than the turn to the right needs, and the tick after it
ends the lock. -/
theorem engaged_in_time_alley :
    ∃ w v v', LockedOn w 0 1 ⟨0, 90, 0⟩ ∧
      ¬ (w.turret 0).rotationPoint.equals ⟨0, 90, 0⟩ 0.5 = true ∧
      ∃ x ∈ [⟨w, .tick (alleyFrame ⟨0, 100, 100⟩ 60) 0, v⟩, ⟨v, .tick alleyScene 0, v'⟩],
        LockEnds alley 0 1 x := by
  obtain ⟨before, w, hreach, hlocked, hquiet, hpose⟩ := alley_locked_ahead
  have hspeed : 0 < alley.turnSpeed 0 := by norm_num [alley]
  obtain ⟨v, v', hturn, -, hstep, -⟩ := alley_turns_and_fires
    (wellFormed_run alleyStart_initial hreach) hlocked hquiet hpose (by norm_num : (1 : ℝ) ≤ 60)
  have htime : InterceptionHandler.rotationTimeTo (w.turret 0).rotationPoint ⟨0, 90, 0⟩
      (alley.turnSpeed 0) 0.5 ≤ 60 := by
    rw [rotationTimeTo_le_iff hspeed (by norm_num) (by norm_num), hpose,
      ahead_unwrapped.maxAngularDistance_eq]
    have hexp : (301 : ℝ) ≤ Real.exp 300 := (by norm_num : (301 : ℝ) ≤ 300 + 1).trans
      (Real.add_one_le_exp 300)
    have hsmall : 90 * (Real.exp 300)⁻¹ ≤ 1 / 2 := by
      rw [mul_inv_le_iff₀ (Real.exp_pos _)]
      linarith
    norm_num [alley, Real.exp_neg]
    exact hsmall
  refine ⟨w, v, v', hlocked, by rw [hpose]; exact right_unaligned, ?_⟩
  exact engaged_in_time alleyStart_initial hreach hlocked right_nonzero hspeed
    (hpose ▸ ahead_unwrapped) (Run.single hturn) hstep
    (htime.trans (by rw [tickDeltas_single, List.sum_singleton]; rfl))

/-- The aim at an actor straight above is out of the turret's reach. -/
theorem above_outOfReach (roll : ℝ) :
    OutOfReach (interceptionRotation (alleySceneAt ⟨0, 0, 200⟩) 0 ⟨0, 0, 200⟩) roll := by
  have hpitch := interceptionRotation_above
  rw [outOfReach_iff (by rw [hpitch]; norm_num), hpitch]
  norm_num

/-- A tick of turret 0 while its aim is out of reach. -/
theorem alley_starving_tick {w : World ℕ ℕ ℝ} {aim : FRotator ℝ} {roll : ℝ}
    (h : Starving alley w 0 1 aim roll) (haim : aim ≠ 0) (hout : OutOfReach aim roll)
    (hquiet : w.spawning = none) (c : Scene ℕ ℕ ℝ) :
    ∃ v, Step alley w (.tick c 0) v ∧ v.spawning = none ∧ Starving alley v 0 1 aim roll ∧
      (Tracks w 0 2 → Tracks v 0 2) := by
  have hstep := alley_tick_locked h.wellFormed h.locked hquiet c
  refine ⟨_, hstep, ?_, starving_step h hout hstep id, fun htracked => ?_⟩
  · rw [rotateOrFire_of_unaligned h.locked haim (h.unaligned hout), World.modify_spawning, hquiet]
  · refine (tracks_step_iff h.wellFormed hstep 0 2).mpr (Or.inr ⟨htracked, fun hremoves => ?_⟩)
    have hfree := hremoves.2.1
    rw [h.locked.key] at hfree
    cases hfree

/-- Locked on an actor straight above, turret 0 ignores actor 2, which would
have been easy to hit, tick after tick. -/
theorem starved_alley : ∃ w v v',
    Step alley (admitTarget alleyScene w 0 2) (.tick alleyScene 0) v ∧
      Step alley v (.tick alleyScene 0) v' ∧ Tracks v' 0 2 ∧
      LockedOn v' 0 1 (interceptionRotation (alleySceneAt ⟨0, 0, 200⟩) 0 ⟨0, 0, 200⟩) ∧
      ¬ (v'.turret 0).rotationPoint.equals
        (interceptionRotation (alleySceneAt ⟨0, 0, 200⟩) 0 ⟨0, 0, 200⟩) 0.5 = true := by
  have hpitch := interceptionRotation_above
  have hnonzero : interceptionRotation (alleySceneAt ⟨0, 0, 200⟩) 0 ⟨0, 0, 200⟩ ≠ 0 := by
    intro hzero
    rw [hzero] at hpitch
    norm_num at hpitch
  have hfar : ¬ (0 : FRotator ℝ).equals
      (interceptionRotation (alleySceneAt ⟨0, 0, 200⟩) 0 ⟨0, 0, 200⟩) 0.5 = true :=
    (above_outOfReach 0).unaligned 0 0 (by norm_num)
  obtain ⟨trace, hrun⟩ := alleyOne_run
  obtain ⟨w, hstep, hlocked, hquiet, -⟩ :=
    alleyFrame_locks (1 / 60) above_inRange rfl hnonzero hfar
  have hreach := hrun.snoc hstep
  have hactive : some 2 ∉ (w.turret 0).activeTargets := by
    intro hmem
    have hold := (tracks_step_iff (wellFormed_run alleyStart_initial hrun) hstep 0 2).mp hmem
    simp [Enters, Tracks, alleyOne_turret.1] at hold
  have hout := above_outOfReach (w.turret 0).rotationPoint.roll
  have hstart : Starving alley w 0 1 _ (w.turret 0).rotationPoint.roll :=
    ⟨wellFormed_run alleyStart_initial hreach, hlocked, rfl,
      pitch_mem_of_lockedOn alleyStart_initial hreach hlocked⟩
  have henter : Step alley w (.beginOverlap alleyScene 0 (some 2) 0)
      (admitTarget alleyScene w 0 2) := alley_enter hactive
  have hentered := starving_step hstart hout henter id
  have hnew : Tracks (admitTarget alleyScene w 0 2) 0 2 := by
    simp [Tracks, admitTarget_sameTargeting.activeTargets]
  obtain ⟨v, hv, hstill, hturning, htracked⟩ :=
    alley_starving_tick hentered hnonzero hout hquiet alleyScene
  obtain ⟨v', hv', -, -, htracked'⟩ :=
    alley_starving_tick hturning hnonzero hout hstill alleyScene
  have hkept := starved alleyStart_initial hreach hlocked hout
    (((Run.single henter).snoc hv).snoc hv') (by simp [GoesAway])
  exact ⟨w, v, v', hv, hv', htracked' (htracked hnew),
    hkept ⟨v, .tick alleyScene 0, v'⟩ (by simp)⟩

end Alley

end TurretMaster

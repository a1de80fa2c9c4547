import TurretMaster.Tracking
import TurretMaster.SelectionAim

/-!
# One shot for each admission

While `Fire` spawns its projectile the turret can be entered again: the target
may die, leave or come back before `Tick` reads the current target a second
time.  An admission still pays for one shot only, since a turret that has fired
at a target either drops it after the spawn or has lost it by then.

* `Pending` — an admission that has not been fired at yet;
* `pending_step`, `pending_of_fires` — where it comes from and what spends it;
* `fires_le_admissions` — the count over a run.
-/

namespace TurretMaster

open Runs

section FireCount

variable {ι α K : Type} [DecidableEq ι] [DecidableEq α]
variable [Field K] [LinearOrder K] [FloorRing K] [Engine K]
variable {L : Level ι α K} {c : Scene ι α K} {w w' w₀ : World ι α K}

/-- A tick of turret `a` that calls `Fire` with current target `t`. -/
def fires (a : ι) (t : α) (x : Transition (World ι α K) (Event ι α K)) : Bool :=
  match x.event with
  | .tick _ b =>
      decide (b = a ∧ x.target.spawning = some a ∧
        (x.target.turret a).currentTarget.key = some t)
  | _ => false

/-- A begin overlap by which turret `a` adds target `t` to its list. -/
def admissions (a : ι) (t : α) (x : Transition (World ι α K) (Event ι α K)) : Bool :=
  match x.event with
  | .beginOverlap _ b otherActor _ =>
      decide (b = a ∧ otherActor = some t) &&
        !(x.source.turret a).activeTargets.contains (some t) &&
        (x.target.turret a).activeTargets.contains (some t)
  | _ => false

/-- An admission shows the turret an eligible target that it does not track. -/
theorem admissions_iff {e : Event ι α K} (hwf : WellFormed L w) (hstep : Step L w e w')
    {a : ι} {t : α} :
    admissions a t ⟨w, e, w'⟩ = true ↔ Enters L a t e ∧ ¬ Tracks w a t := by
  have htracks := tracks_step_iff hwf hstep a t
  unfold Tracks at htracks ⊢
  cases e with
  | beginOverlap c b otherActor k =>
      simp only [admissions, Bool.and_eq_true, decide_eq_true_eq, Bool.not_eq_true',
        List.contains_eq_mem, decide_eq_false_iff_not]
      constructor
      · rintro ⟨⟨-, hnew⟩, hmem⟩
        rcases htracks.mp hmem with henters | hold
        · exact ⟨henters, hnew⟩
        · exact absurd hold.1 hnew
      · rintro ⟨henters, hnew⟩
        exact ⟨⟨⟨henters.1, henters.2.1⟩, hnew⟩, htracks.mpr (Or.inl henters)⟩
  | endOverlap c b otherActor k => simp [admissions, Enters]
  | death c s => simp [admissions, Enters]
  | tick c b => simp [admissions, Enters]
  | spawned c => simp [admissions, Enters]

/-- Turret `a` is in the middle of a `Fire` at `t`. -/
def ShootingAt (w : World ι α K) (a : ι) (t : α) : Prop :=
  w.spawning = some a ∧ (w.turret a).currentTarget.key = some t

/-- Turret `a` tracks `t` and has not fired at it. -/
def Pending (w : World ι α K) (a : ι) (t : α) : Prop :=
  Tracks w a t ∧ ¬ ShootingAt w a t

/-- A `Fire` that is running keeps its turret from counting as ready until the
target is dropped. -/
theorem shootingAt_kept {e : Event ι α K} {a : ι} {t : α} (hwf : WellFormed L w)
    (hstep : Step L w e w') (hshooting : ShootingAt w a t)
    (hkept : ¬ Removes L w a t e) : ShootingAt w' a t := by
  have hlock := lock_kept hwf hstep hshooting.2 hkept
  have hkey : (w'.turret a).currentTarget.key = some t := by
    rw [hlock.currentTarget]
    exact hshooting.2
  refine ⟨?_, hkey⟩
  rw [← hshooting.1]
  apply spawning_kept hstep
  · intro c b htick
    subst htick
    have hquiet : w.spawning = none := hstep.1
    rw [ShootingAt, hquiet] at hshooting
    cases hshooting.1
  · intro c hspawned
    subst hspawned
    exact hkept hshooting

/-- **A pending admission** was pending before, or is made by this event. -/
theorem pending_step {e : Event ι α K} {a : ι} {t : α} (hwf : WellFormed L w)
    (hstep : Step L w e w') (h : Pending w' a t) :
    Pending w a t ∨ admissions a t ⟨w, e, w'⟩ = true := by
  obtain ⟨htracks, hready⟩ := h
  rcases (tracks_step_iff hwf hstep a t).mp htracks with henters | ⟨hbefore, hkept⟩
  · obtain ⟨c, k, rfl, -⟩ := exists_of_enters henters
    by_cases hbefore : Tracks w a t
    · left
      refine ⟨hbefore, ?_⟩
      intro hshooting
      exact hready (shootingAt_kept hwf hstep hshooting id)
    · right
      unfold Tracks at hbefore htracks
      simp [admissions, hbefore, htracks]
  · left
    refine ⟨hbefore, ?_⟩
    intro hshooting
    exact hready (shootingAt_kept hwf hstep hshooting hkept)

/-- **A shot spends a pending admission.** -/
theorem pending_of_fires {e : Event ι α K} {a : ι} {t : α} (hwf : WellFormed L w)
    (hstep : Step L w e w') (h : fires a t ⟨w, e, w'⟩ = true) :
    Pending w a t ∧ ¬ Pending w' a t ∧ admissions a t ⟨w, e, w'⟩ = false := by
  cases e with
  | tick c b =>
      obtain ⟨rfl, hspawning, hkey⟩ := of_decide_eq_true h
      have htracks : Tracks w' b t := (wellFormed_step hwf hstep b).current_mem hkey
      have hquiet : w.spawning = none := hstep.1
      refine ⟨⟨?_, ?_⟩, ?_, rfl⟩
      · rcases (tracks_step_iff hwf hstep b t).mp htracks with henters | hbefore
        · cases henters
        · exact hbefore.1
      · intro hshooting
        rw [ShootingAt, hquiet] at hshooting
        cases hshooting.1
      · intro hpending
        exact hpending.2 ⟨hspawning, hkey⟩
  | beginOverlap c b otherActor k => cases h
  | endOverlap c b otherActor k => cases h
  | death c s => cases h
  | spawned c => cases h

/-- A tick that fires does so at a member of the list. -/
theorem fire_at_member (hwf : WellFormed L w) {a : ι} (hstep : Step L w (.tick c a) w')
    (h : w'.spawning = some a) :
    ∃ t, (w'.turret a).currentTarget.key = some t ∧ some t ∈ (w'.turret a).activeTargets := by
  obtain ⟨-, hne⟩ := tick_shoots hwf hstep h
  obtain ⟨t, ht⟩ := Option.ne_none_iff_exists'.mp hne
  exact ⟨t, ht, (wellFormed_step hwf hstep a).current_mem ht⟩

/-- When a shot has arrived its turret has no current target. -/
theorem spawned_unlocks {a : ι} (hstep : Step L w (.spawned c) w')
    (h : w.spawning = some a) : (w'.turret a).currentTarget.key = none := by
  cases step_effect hstep with
  | released hspawning hkey =>
      obtain rfl := Option.some.inj (hspawning.symm.trans h)
      exact hkey
  | fired hspawning hkey _ =>
      obtain rfl := Option.some.inj (hspawning.symm.trans h)
      simp [hkey]

/-- **One shot for each admission.** In every run the `Fire` calls of a turret
at a target are at most as many as its admissions so far; every `Fire` is made
at a member of the list; and when the `Tick` that fired returns there is no
current target. -/
theorem fires_le_admissions {trace : List (Transition (World ι α K) (Event ι α K))}
    (hinit : Initial w₀) (hrun : Run (Step L) w₀ trace w) (a : ι) :
    (∀ t, trace.countP (fires a t) ≤ trace.countP (admissions a t)) ∧
    (∀ x ∈ trace, ∀ c, x.event = .tick c a → x.target.spawning = some a →
      ∃ t, (x.target.turret a).currentTarget.key = some t ∧
        some t ∈ (x.target.turret a).activeTargets) ∧
    ∀ x ∈ trace, ∀ c, x.event = .spawned c → x.source.spawning = some a →
      (x.target.turret a).currentTarget.key = none := by
  refine ⟨fun t => ?_, ?_, ?_⟩
  · -- fired and still pending admissions together are at most all admissions
    classical
    have htally : WellFormed L w ∧
        trace.countP (fires a t) + (if Pending w a t then 1 else 0) ≤
          trace.countP (admissions a t) := by
      refine Run.tally (I := fun s i j => WellFormed L s ∧
        i + (if Pending s a t then 1 else 0) ≤ j) ?_ hrun ⟨wellFormed_initial hinit, ?_⟩
      · intro m e f i j h hstep
        obtain ⟨hwf, hle⟩ := h
        refine ⟨wellFormed_step hwf hstep, ?_⟩
        have hbefore := pending_step (a := a) (t := t) hwf hstep
        cases hfires : fires a t ⟨m, e, f⟩ with
        | true =>
            obtain ⟨hpending, hspent, hnone⟩ := pending_of_fires hwf hstep hfires
            rw [if_pos hpending] at hle
            rw [if_neg hspent, hnone]
            simpa using hle
        | false =>
            by_cases hafter : Pending f a t
            · rw [if_pos hafter]
              rcases hbefore hafter with hpending | hnew
              · rw [if_pos hpending] at hle
                simp only [Bool.toNat_false]
                omega
              · rw [hnew]
                simp only [Bool.toNat_false, Bool.toNat_true]
                omega
            · rw [if_neg hafter]
              simp only [Bool.toNat_false]
              omega
      · have hnone : ¬ Pending w₀ a t := by
          intro hpending
          have hmem : some t ∈ (w₀.turret a).activeTargets := hpending.1
          rw [hinit.activeTargets a] at hmem
          cases hmem
        rw [if_neg hnone]
    omega
  · intro x hx c hevent hspawning
    obtain ⟨⟨before, hbefore⟩, hstep⟩ := hrun.mem_reached x hx
    rw [hevent] at hstep
    exact fire_at_member (wellFormed_run hinit hbefore) hstep hspawning
  · intro x hx c hevent hspawning
    obtain ⟨-, hstep⟩ := hrun.mem_reached x hx
    rw [hevent] at hstep
    exact spawned_unlocks hstep hspawning

end FireCount

section Alley

attribute [local instance] atan2Engine

/-- The alley with every turret turned towards actor 1. -/
noncomputable def alleyAligned : World ℕ ℕ ℝ :=
  { alleyStart with turret := fun a =>
      { alleyStart.turret a with rotationPoint := aimFor alley alleyScene 0 0 1 } }

/-- The aligned turrets are a first state. -/
theorem alleyAligned_initial : Initial alleyAligned where
  activeTargets := alleyStart_initial.activeTargets
  currentTarget := alleyStart_initial.currentTarget
  onTargetDestroyed := alleyStart_initial.onTargetDestroyed
  spawning := alleyStart_initial.spawning

/-- Actor 1 enters the range of turret 0. -/
theorem alleyAligned_enter : Step alley alleyAligned (.beginOverlap alleyScene 0 (some 1) 0)
    (admitTarget alleyScene alleyAligned 0 1) :=
  alley_enter (by simp [alleyAligned_initial.activeTargets 0])

/-- The aim at actor 1 does not depend on the turret's rotation. -/
theorem alley_aimFor_one (rotation : FRotator ℝ) :
    aimFor alley alleyScene 0 rotation 1 = aimFor alley alleyScene 0 0 1 := by
  rw [aimFor, aimFor, alley_interceptionOf_stationary _ one_ne_zero,
    alley_interceptionOf_stationary _ one_ne_zero]

/-- The first tick after its entry fires at actor 1. -/
theorem alleyAligned_fires : ∃ w,
    Step alley (admitTarget alleyScene alleyAligned 0 1) (.tick alleyScene 0) w ∧
      w.spawning = some 0 ∧ (w.turret 0).currentTarget.key = some 1 := by
  have hwf : WellFormed alley (admitTarget alleyScene alleyAligned 0 1) :=
    wellFormed_step (wellFormed_initial alleyAligned_initial) alleyAligned_enter
  have hactive : ((admitTarget alleyScene alleyAligned 0 1).turret 0).activeTargets =
      [some 1] := by
    simp [admitTarget_sameTargeting.activeTargets, alleyAligned_initial.activeTargets 0]
  have hnone : ((admitTarget alleyScene alleyAligned 0 1).turret 0).currentTarget.key =
      none := by
    simp [admitTarget_sameTargeting.currentTarget, alleyAligned_initial.currentTarget 0]
  have hrotation : ((admitTarget alleyScene alleyAligned 0 1).turret 0).rotationPoint =
      aimFor alley alleyScene 0 0 1 := by
    simp [admitTarget, updateTickState, ATurret.updateTickState_eq, alleyAligned]
  obtain ⟨w₁, hw₁, hselect, hkey, haim⟩ := alley_selects (hwf 0) hactive (alley_acceptable_one _)
  rw [alley_aimFor_one] at haim
  have hnonzero : (w₁.turret 0).targetInterceptionRotation ≠ 0 := by
    intro hzero
    have hyaw := alley_aimFor_one_yaw 0
    rw [← haim, hzero] at hyaw
    norm_num at hyaw
  have haligned : (w₁.turret 0).rotationPoint.equals
      (w₁.turret 0).targetInterceptionRotation 0.5 = true := by
    rw [hselect.rotationPoint, hrotation, haim]
    norm_num [FRotator.equals]
  refine ⟨rotateOrFire alley alleyScene w₁ 0, ⟨rfl, ?_⟩, ?_, ?_⟩
  · simp [handle, tick, hactive, hnone, hw₁, Except.map]
  · unfold rotateOrFire fire
    dsimp only
    rw [if_pos ⟨by simp [hkey], hnonzero⟩, haligned]
    rfl
  · rw [(sameTargeting_rotateOrFire 0).currentTarget]
    exact hkey

/-- One admission, one shot. -/
theorem fires_le_admissions_alley :
    ∃ trace w, Run (Step alley) alleyAligned trace w ∧ trace.countP (fires 0 1) = 1 ∧
      1 ≤ trace.countP (admissions 0 1) := by
  obtain ⟨w, hstep, hspawning, hkey⟩ := alleyAligned_fires
  have hrun := (Run.single alleyAligned_enter).snoc hstep
  have hone : List.countP (fires 0 1) ([⟨alleyAligned,
      .beginOverlap alleyScene 0 (some 1) 0, admitTarget alleyScene alleyAligned 0 1⟩] ++
      [⟨admitTarget alleyScene alleyAligned 0 1, .tick alleyScene 0, w⟩]) = 1 := by
    simp [fires, hspawning, hkey]
  refine ⟨_, w, hrun, hone, ?_⟩
  have hle := (fires_le_admissions alleyAligned_initial hrun 0).1 1
  rw [hone] at hle
  exact hle

end Alley

end TurretMaster

import TurretMaster.Engagement
import TurretMaster.IdleReturn

/-!
# Every queue is served

A turret with aims in its reach spends a bounded number of ticks on each
target: some to turn, one to fire.  So the ticks it may still need are bounded
by its list and by how far it is from its aim, every tick uses one up, and no
other event adds to them.

* `closer_of_turn` — what one long enough frame is worth;
* `budget_tick`, `budget_other` — one event;
* `drained_in_time` — after that many ticks the list is empty.
-/

namespace TurretMaster

open Runs ClampedDecay

/-! ## One frame -/

section Frame

variable {K : Type} [Field K] [LinearOrder K] [IsStrictOrderedRing K] {delta : K}

/-- Unwrapped rotations are at most a half turn apart. -/
theorem Unwrapped.maxAngularDistance_le {start target : FRotator K} (h : Unwrapped start target) :
    InterceptionHandler.maxAngularDistance start target ≤ 180 := by
  rw [h.maxAngularDistance_eq]
  exact max_le h.yawDifference h.pitchDifference

/-- **What a frame is worth**: a turn keeps the rotations unwrapped and leaves
at most the share of the distance that the shortest frame leaves. -/
theorem closer_of_turn {α : Type} {u : ATurret α K} {target : FRotator K}
    {deltaSeconds turnSpeed : K}
    (hspeed : 0 < turnSpeed) (hdelta : delta ≤ deltaSeconds)
    (h : Unwrapped u.rotationPoint target) :
    Unwrapped (u.turnTowards target deltaSeconds turnSpeed).rotationPoint target ∧
    InterceptionHandler.maxAngularDistance
        (u.turnTowards target deltaSeconds turnSpeed).rotationPoint target ≤
      InterceptionHandler.maxAngularDistance u.rotationPoint target *
        remaining (delta * turnSpeed) := by
  obtain ⟨hpitch, hpitchError, hyawError, hroll⟩ :=
    turnFrames_rotationPoint hspeed h.targetPitch [deltaSeconds] u h.startPitch
  change (u.turnTowards target deltaSeconds turnSpeed).rotationPoint.pitch ∈ _ at hpitch
  change target.pitch - (u.turnTowards target deltaSeconds turnSpeed).rotationPoint.pitch =
    snapStep _ _ _ at hpitchError
  change target.yaw - (u.turnTowards target deltaSeconds turnSpeed).rotationPoint.yaw =
    snapStep _ _ _ at hyawError
  have hmem : (u.turnTowards target deltaSeconds turnSpeed).rotationPoint.yaw ∈
      Set.Icc (-180) 180 := fInterpTo_mem_Icc h.startYaw h.targetYaw deltaSeconds turnSpeed
  have hshare : remaining (deltaSeconds * turnSpeed) ≤ remaining (delta * turnSpeed) :=
    remaining_antitone (mul_le_mul_of_nonneg_right hdelta hspeed.le)
  have hleft (error : K) : |snapStep smallNumber error (deltaSeconds * turnSpeed)| ≤
      |error| * remaining (delta * turnSpeed) := by
    have hdecay := abs_foldl_snapStep_le_decay smallNumber error [deltaSeconds * turnSpeed]
    rw [decay_cons, decay_nil, mul_one] at hdecay
    exact hdecay.trans (mul_le_mul_of_nonneg_left hshare (abs_nonneg error))
  have hyaw := hleft (target.yaw - u.rotationPoint.yaw)
  have hpitchLeft := hleft (target.pitch - u.rotationPoint.pitch)
  rw [← hyawError] at hyaw
  rw [← hpitchError] at hpitchLeft
  have hunwrapped : Unwrapped (u.turnTowards target deltaSeconds turnSpeed).rotationPoint
      target := by
    refine ⟨hroll.trans h.roll, hpitch, h.targetPitch, hmem, h.targetYaw, ?_⟩
    refine hyaw.trans ((mul_le_of_le_one_right (abs_nonneg _) (remaining_le_one _)).trans ?_)
    exact h.yawDifference
  refine ⟨hunwrapped, ?_⟩
  rw [hunwrapped.maxAngularDistance_eq, h.maxAngularDistance_eq,
    max_mul_of_nonneg _ _ (remaining_nonneg _)]
  exact max_le_max hyaw hpitchLeft

end Frame

section ServiceBound

variable {ι α K : Type} [DecidableEq ι]
variable {L : Level ι α K} {c : Scene ι α K} {w w' w₀ : World ι α K} {a : ι}
variable {delta : K} {perTarget : ℕ}

/-- A shot of a turret is fired by its tick. -/
theorem tick_of_fires [DecidableEq α] {e : Event ι α K} {t : α} (h : fires a t ⟨w, e, w'⟩ = true) :
    ∃ c, e = .tick c a := by
  cases e with
  | tick c b =>
      rw [fires, decide_eq_true_eq] at h
      exact ⟨c, by rw [h.1]⟩
  | _ => cases h

variable [Field K] [LinearOrder K]

/-! ## The budget -/

/-- The turret has at most `left` ticks with targets to go, if nothing enters:
`perTarget` turns and a shot for each target, and fewer turns for the one it is
turning to. -/
inductive Budget (L : Level ι α K) (delta : K) (perTarget : ℕ) (w : World ι α K) (a : ι) :
    ℕ → Prop
  | free (hkey : (w.turret a).currentTarget.key = none) :
      Budget L delta perTarget w a ((w.turret a).targets.length * (perTarget + 1))
  | shooting {t : α} (hkey : (w.turret a).currentTarget.key = some t)
      (hspawning : w.spawning = some a) :
      Budget L delta perTarget w a (((w.turret a).targets.length - 1) * (perTarget + 1))
  | turning {t : α} {aim : FRotator K} {turns : ℕ} (hlocked : LockedOn w a t aim)
      (haim : aim ≠ 0) (hunwrapped : Unwrapped (w.turret a).rotationPoint aim)
      (hturns : InterceptionHandler.maxAngularDistance (w.turret a).rotationPoint aim *
        remaining (delta * L.turnSpeed a) ^ turns ≤ 0.5) :
      Budget L delta perTarget w a
        (((w.turret a).targets.length - 1) * (perTarget + 1) + turns + 1)

variable [FloorRing K]

/-- **A tick of a locked turret** uses up one tick of its budget. -/
theorem budget_rotateOrFire [IsStrictOrderedRing K] {t : α} {aim : FRotator K} {turns : ℕ}
    (hspeed : 0 < L.turnSpeed a) (hdelta : delta ≤ c.deltaSeconds) (hquiet : w.spawning = none)
    (hlocked : LockedOn w a t aim) (haim : aim ≠ 0)
    (hunwrapped : Unwrapped (w.turret a).rotationPoint aim)
    (hturns : InterceptionHandler.maxAngularDistance (w.turret a).rotationPoint aim *
      remaining (delta * L.turnSpeed a) ^ turns ≤ 0.5) :
    ∃ m, Budget L delta perTarget (rotateOrFire L c w a) a m ∧
      m + 1 ≤ ((w.turret a).targets.length - 1) * (perTarget + 1) + turns + 1 := by
  have hsame := sameTargeting_rotateOrFire (L := L) (c := c) (w := w) (a := a) a
  have htargets : ((rotateOrFire L c w a).turret a).targets = (w.turret a).targets := by
    rw [ATurret.targets, ATurret.targets, hsame.activeTargets]
  have hkey : ((rotateOrFire L c w a).turret a).currentTarget.key = some t := by
    rw [hsame.currentTarget]
    exact hlocked.key
  by_cases haligned : (w.turret a).rotationPoint.equals aim 0.5 = true
  · have hfires : (rotateOrFire L c w a).spawning = some a := by
      rw [rotateOrFire_fires_iff hquiet]
      exact ⟨by simp [hlocked.key], by rw [hlocked.aim]; exact haim,
        by rw [hlocked.aim]; exact haligned⟩
    refine ⟨_, .shooting hkey hfires, ?_⟩
    rw [htargets]
    omega
  · have hturned := rotateOrFire_of_unaligned (L := L) (c := c) hlocked haim haligned
    have hpose : ((rotateOrFire L c w a).turret a).rotationPoint =
        ((w.turret a).turnTowards aim c.deltaSeconds (L.turnSpeed a)).rotationPoint := by
      rw [hturned, World.modify_turret_self]
    have hlocked' : LockedOn (rotateOrFire L c w a) a t aim := by
      refine ⟨hkey, ?_, ?_⟩
      · rw [hsame.targetInterceptionRotation]
        exact hlocked.aim
      · rw [hturned, World.modify_spawning, hquiet]
        simp
    -- an unaligned turret has a turn left
    obtain ⟨fewer, rfl⟩ : ∃ fewer, turns = fewer + 1 := by
      refine Nat.exists_eq_succ_of_ne_zero ?_
      rintro rfl
      refine haligned ((aligned_iff_decay hspeed hunwrapped []).mpr ?_)
      simpa [frameSteps] using hturns
    obtain ⟨hunwrapped', hcloser⟩ := closer_of_turn hspeed hdelta hunwrapped
    have hfewer := mul_le_mul_of_nonneg_right hcloser
      (pow_nonneg (remaining_nonneg (delta * L.turnSpeed a)) fewer)
    rw [mul_assoc, ← pow_succ'] at hfewer
    rw [← hpose] at hunwrapped' hfewer
    refine ⟨_, .turning hlocked' haim hunwrapped' (hfewer.trans hturns), ?_⟩
    rw [htargets]
    omega

variable [DecidableEq α] [Engine K]

/-! ## The other events -/

/-- Without an entry the list does not grow. -/
theorem targets_length_le {e : Event ι α K} (hwf : WellFormed L w) (hstep : Step L w e w')
    (henters : ∀ t, ¬ Enters L a t e) :
    (w'.turret a).targets.length ≤ (w.turret a).targets.length := by
  refine List.Subperm.length_le (List.subperm_of_subset (wellFormed_step hwf hstep a).nodup_targets
    fun t ht => ?_)
  rw [ATurret.mem_targets] at ht ⊢
  rcases (tracks_step_iff hwf hstep a t).mp ht with hnew | ⟨hold, -⟩
  · exact absurd hnew (henters t)
  · exact hold

/-- A turret that loses its current target has a shorter list afterwards. -/
theorem targets_length_lt {e : Event ι α K} {t : α} (hwf : WellFormed L w)
    (hstep : Step L w e w') (henters : ∀ t, ¬ Enters L a t e)
    (hkey : (w.turret a).currentTarget.key = some t)
    (hnone : (w'.turret a).currentTarget.key = none) :
    (w'.turret a).targets.length ≤ (w.turret a).targets.length - 1 := by
  have hmem : t ∈ (w.turret a).targets := ATurret.mem_targets.mpr ((hwf a).current_mem hkey)
  have hremoves : Removes L w a t e := by
    by_contra hkept
    rw [(lock_kept hwf hstep hkey hkept).currentTarget, hkey] at hnone
    cases hnone
  rw [← List.length_erase_of_mem hmem]
  refine List.Subperm.length_le (List.subperm_of_subset (wellFormed_step hwf hstep a).nodup_targets
    fun s hs => ?_)
  rw [ATurret.mem_targets] at hs
  rcases (tracks_step_iff hwf hstep a s).mp hs with hnew | ⟨hold, hkept⟩
  · exact absurd hnew (henters s)
  · rw [(hwf a).nodup_targets.mem_erase_iff]
    exact ⟨fun heq => hkept (heq ▸ hremoves), ATurret.mem_targets.mpr hold⟩

/-- Only its own tick selects a target for a turret. -/
theorem key_kept_back_of_other {e : Event ι α K} {t : α} (hwf : WellFormed L w)
    (hstep : Step L w e w') (hother : ∀ c, e ≠ .tick c a)
    (hkey : (w'.turret a).currentTarget.key = some t) :
    (w.turret a).currentTarget.key = some t := by
  by_cases htick : ∃ c b, e = .tick c b
  · obtain ⟨c, b, rfl⟩ := htick
    have hb : a ≠ b := fun heq => hother c (heq ▸ rfl)
    cases step_effect hstep with
    | idled => rwa [moveToIdle_turret_ne hb] at hkey
    | tracked => rwa [rotateOrFire_turret_ne hb] at hkey
    | selected hne _ hselect =>
        rwa [rotateOrFire_turret_ne hb, ((hwf b).selection hne hselect).turret_ne a hb] at hkey
  · push Not at htick
    exact key_kept_back hstep htick hkey

/-- **The other events** of a run without entries add nothing to the budget. -/
theorem budget_other {e : Event ι α K} {m : ℕ} (hwf : WellFormed L w) (hstep : Step L w e w')
    (henters : ∀ t, ¬ Enters L a t e) (hother : ∀ c, e ≠ .tick c a)
    (h : Budget L delta perTarget w a m) :
    ∃ m', Budget L delta perTarget w' a m' ∧ m' ≤ m := by
  have hlength := targets_length_le hwf hstep henters
  have hback {t : α} := key_kept_back_of_other (t := t) hwf hstep hother
  have hfreed {t : α} (hkey : (w.turret a).currentTarget.key = some t)
      (hnone : (w'.turret a).currentTarget.key = none) :
      (w'.turret a).targets.length * (perTarget + 1) ≤
        ((w.turret a).targets.length - 1) * (perTarget + 1) :=
    Nat.mul_le_mul_right _ (targets_length_lt hwf hstep henters hkey hnone)
  have hshorter : ((w'.turret a).targets.length - 1) * (perTarget + 1) ≤
      ((w.turret a).targets.length - 1) * (perTarget + 1) :=
    Nat.mul_le_mul_right _ (Nat.sub_le_sub_right hlength 1)
  cases h with
  | free hkey =>
      have hnone : (w'.turret a).currentTarget.key = none := by
        by_contra hsome
        obtain ⟨t, ht⟩ := Option.ne_none_iff_exists'.mp hsome
        have hbefore := hback ht
        rw [hkey] at hbefore
        cases hbefore
      exact ⟨_, .free hnone, Nat.mul_le_mul_right _ hlength⟩
  | @shooting t hkey hspawning =>
      cases hafter : (w'.turret a).currentTarget.key with
      | none => exact ⟨_, .free hafter, hfreed hkey hafter⟩
      | some s =>
          have hstill : w'.spawning = some a := by
            rw [← hspawning]
            refine spawning_kept hstep ?_ ?_
            · rintro c b rfl
              have hquiet : w.spawning = none := hstep.1
              rw [hspawning] at hquiet
              cases hquiet
            · rintro c rfl
              rw [spawned_unlocks hstep hspawning] at hafter
              cases hafter
          exact ⟨_, .shooting hafter hstill, hshorter⟩
  | @turning t aim turns hlocked haim hunwrapped hturns =>
      cases hafter : (w'.turret a).currentTarget.key with
      | none =>
          refine ⟨_, .free hafter, (hfreed hlocked.key hafter).trans ?_⟩
          omega
      | some s =>
          have hkept : ¬ Removes L w a t e := by
            intro hremoves
            obtain rfl := Option.some.inj (hlocked.key.symm.trans (hback hafter))
            have hmem := (wellFormed_step hwf hstep a).current_mem hafter
            rcases (tracks_step_iff hwf hstep a t).mp hmem with hnew | ⟨-, hnot⟩
            · exact henters t hnew
            · exact hnot hremoves
          have hsame := lock_kept hwf hstep hlocked.key hkept
          have hpose : (w'.turret a).rotationPoint = (w.turret a).rotationPoint := by
            rcases rotationPoint_cases hwf hstep a with hpose | ⟨c, hevent, -⟩
            · exact hpose
            · exact absurd hevent (hother c)
          have hquiet : w'.spawning ≠ some a := by
            intro hshot
            rcases shootingAt_back hwf hstep ⟨hshot, hafter⟩ with hfires | hshooting
            · obtain ⟨c, rfl⟩ := tick_of_fires hfires
              exact hother c rfl
            · exact hlocked.quiet hshooting.1
          have hlocked' : LockedOn w' a t aim := by
            refine ⟨?_, ?_, hquiet⟩
            · rw [hsame.currentTarget]
              exact hlocked.key
            · rw [hsame.targetInterceptionRotation]
              exact hlocked.aim
          rw [← hpose] at hunwrapped hturns
          refine ⟨_, .turning hlocked' haim hunwrapped hturns, ?_⟩
          omega

variable [IsStrictOrderedRing K]

/-! ## The selection -/

/-- **A selection** uses up one tick of the budget, when its aim is good. -/
theorem budget_selected {w₁ : World ι α K} (hwf : (w.turret a).WellFormed L)
    (hspeed : 0 < L.turnSpeed a)
    (hdelta : delta ≤ c.deltaSeconds)
    (hfew : 180 * remaining (delta * L.turnSpeed a) ^ perTarget ≤ 0.5)
    (hquiet : w.spawning = none) (hne : (w.turret a).targets ≠ [])
    (hselect : Selection L c w a w₁)
    (hgood : ∀ t, (w₁.turret a).currentTarget.key = some t →
      (w₁.turret a).targetInterceptionRotation ≠ 0 ∧
        Unwrapped (w₁.turret a).rotationPoint (w₁.turret a).targetInterceptionRotation) :
    ∃ m, Budget L delta perTarget (rotateOrFire L c w₁ a) a m ∧
      m + 1 ≤ (w.turret a).targets.length * (perTarget + 1) := by
  have htargets : (w₁.turret a).targets = remainingTargets L c a (w.turret a) :=
    ATurret.targets_of_map hselect.activeTargets
  have hlength : (w₁.turret a).targets.length ≤ (w.turret a).targets.length := by
    rw [htargets]
    exact (remainingTargets_sublist L c a (w.turret a)).length_le
  have hpos : 0 < (w.turret a).targets.length := List.length_pos_iff.mpr hne
  cases hkey : (w₁.turret a).currentTarget.key with
  | none =>
      -- every target has been rejected
      have hnone : (w₁.turret a).targets = [] := by
        rw [hselect.currentTarget, currentOf] at hkey
        rw [htargets, ← List.head?_eq_none_iff]
        cases hhead : (remainingTargets L c a (w.turret a)).head? with
        | none => rfl
        | some t => simp [hhead] at hkey
      have hsame := sameTargeting_rotateOrFire (L := L) (c := c) (w := w₁) (a := a) a
      have hkey' : ((rotateOrFire L c w₁ a).turret a).currentTarget.key = none := by
        rw [hsame.currentTarget]
        exact hkey
      refine ⟨_, .free hkey', ?_⟩
      rw [ATurret.targets, hsame.activeTargets, ← ATurret.targets, hnone]
      simp only [List.length_nil, zero_mul, zero_add]
      exact Nat.mul_pos hpos (Nat.succ_pos _)
  | some t =>
      obtain ⟨haim, hunwrapped⟩ := hgood t hkey
      have hstill : w₁.spawning = none := hselect.spawning.trans hquiet
      have hturns := (mul_le_mul_of_nonneg_right hunwrapped.maxAngularDistance_le
        (pow_nonneg (remaining_nonneg (delta * L.turnSpeed a)) perTarget)).trans hfew
      obtain ⟨m, hbudget, hm⟩ : ∃ m, Budget L delta perTarget (rotateOrFire L c w₁ a) a m ∧
          m + 1 ≤ ((w₁.turret a).targets.length - 1) * (perTarget + 1) + perTarget + 1 :=
        budget_rotateOrFire hspeed hdelta hstill ⟨hkey, rfl, by simp [hstill]⟩ haim hunwrapped
          hturns
      have hmem : t ∈ (w₁.turret a).targets :=
        ATurret.mem_targets.mpr ((wellFormed_selection hwf hselect).current_mem hkey)
      have hone : 0 < (w₁.turret a).targets.length := List.length_pos_of_mem hmem
      refine ⟨m, hbudget, hm.trans ?_⟩
      have hmono := Nat.mul_le_mul_right (perTarget + 1) hlength
      obtain ⟨n, hn⟩ := Nat.exists_eq_succ_of_ne_zero hone.ne'
      rw [hn, Nat.succ_mul] at hmono
      rw [hn, Nat.succ_sub_one]
      omega

/-! ## The run -/

variable {before trace : List (Transition (World ι α K) (Event ι α K))}

/-- A tick of turret `a` is long enough, and selects no target with an aim that
the turret cannot turn to. -/
structure GoodTick (L : Level ι α K) (delta : K) (a : ι)
    (x : Transition (World ι α K) (Event ι α K)) : Prop where
  long : ∀ c, x.event = .tick c a → delta ≤ c.deltaSeconds
  nonzero : ∀ c, x.event = .tick c a → (x.source.turret a).currentTarget.key = none →
    (x.target.turret a).currentTarget.key ≠ none →
      (x.target.turret a).targetInterceptionRotation ≠ 0
  unwrapped : ∀ c, x.event = .tick c a → (x.source.turret a).currentTarget.key = none →
    (x.target.turret a).currentTarget.key ≠ none →
      Unwrapped (x.source.turret a).rotationPoint (x.target.turret a).targetInterceptionRotation

/-- **A tick of a turret with targets** uses up one tick of its budget. -/
theorem budget_tick {m : ℕ} (hwf : WellFormed L w) (hspeed : 0 < L.turnSpeed a)
    (hfew : 180 * remaining (delta * L.turnSpeed a) ^ perTarget ≤ 0.5)
    (hstep : Step L w (.tick c a) w') (hgood : GoodTick L delta a ⟨w, .tick c a, w'⟩)
    (hne : (w.turret a).activeTargets ≠ []) (h : Budget L delta perTarget w a m) :
    ∃ m', Budget L delta perTarget w' a m' ∧ m' + 1 ≤ m := by
  have hquiet : w.spawning = none := hstep.1
  have hdelta : delta ≤ c.deltaSeconds := hgood.long c rfl
  cases h with
  | free hkey =>
      cases step_effect hstep with
      | idled hempty => exact absurd hempty hne
      | tracked _ hsome => exact absurd hkey hsome
      | @selected c a w₁ _ _ hdetermine =>
          have hselect := (hwf a).selection hne hdetermine
          have hsame := sameTargeting_rotateOrFire (L := L) (c := c) (w := w₁) (a := a) a
          have htargets : (w.turret a).targets ≠ [] := by
            intro hnil
            rw [ATurret.activeTargets_eq (hwf a).notNull, hnil] at hne
            exact hne rfl
          refine budget_selected (hwf a) hspeed hdelta hfew hquiet htargets hselect fun t ht => ?_
          have hsome : ((rotateOrFire L c w₁ a).turret a).currentTarget.key ≠ none := by
            rw [hsame.currentTarget, ht]
            simp
          have hnonzero := hgood.nonzero c rfl hkey hsome
          have hunwrapped := hgood.unwrapped c rfl hkey hsome
          dsimp only at hnonzero hunwrapped
          rw [hsame.targetInterceptionRotation] at hnonzero hunwrapped
          rw [hselect.rotationPoint]
          exact ⟨hnonzero, hunwrapped⟩
  | shooting _ hspawning =>
      rw [hquiet] at hspawning
      cases hspawning
  | turning hlocked haim hunwrapped hturns =>
      have hkey : (w.turret a).currentTarget.key ≠ none := by simp [hlocked.key]
      have htick : w' = rotateOrFire L c w a := by
        have hhandle := tick_of_locked L c hne hkey
        exact (Except.ok.inj (hhandle.symm.trans hstep.2)).symm
      rw [htick]
      exact budget_rotateOrFire hspeed hdelta hquiet hlocked haim hunwrapped hturns

/-- **Every queue is served.** A turret that no target enters, whose aims are in
its reach and whose frames are not too short, has an empty list once it has
ticked more often than the turns and the shot for each target take. -/
theorem drained_in_time (hinit : Initial w₀) (hreach : Run (Step L) w₀ before w)
    (hfree : (w.turret a).currentTarget.key = none) (hspeed : 0 < L.turnSpeed a)
    (hfew : 180 * remaining (delta * L.turnSpeed a) ^ perTarget ≤ 0.5)
    (hrun : Run (Step L) w trace w') (henters : ∀ x ∈ trace, ∀ t, ¬ Enters L a t x.event)
    (hgood : ∀ x ∈ trace, GoodTick L delta a x)
    (hticks : (w.turret a).targets.length * (perTarget + 1) < (tickDeltas a trace).length) :
    (w'.turret a).activeTargets = [] := by
  have hcount : (tickDeltas a trace).length =
      trace.countP (fun x => (tickDelta a x.event).isSome) := by
    rw [tickDeltas, List.length_filterMap_eq_countP]
  have hkept := hrun.count (I := fun s n => WellFormed L s ∧ ((s.turret a).activeTargets = [] ∨
      ∃ m, Budget L delta perTarget s a m ∧ m + n ≤ (w.turret a).targets.length * (perTarget + 1)))
    (D := fun x => (∀ t, ¬ Enters L a t x.event) ∧ GoodTick L delta a x)
    (p := fun x => (tickDelta a x.event).isSome) ?_
    ⟨wellFormed_run hinit hreach, Or.inr ⟨_, .free hfree, le_rfl⟩⟩
    fun x hx => ⟨henters x hx, hgood x hx⟩
  · obtain ⟨-, hempty | ⟨m, -, hm⟩⟩ := hkept
    · exact hempty
    · omega
  · rintro ⟨source, e, target⟩ n ⟨hwf, hbudget⟩ ⟨henters, hgood⟩ hstep
    refine ⟨wellFormed_step hwf hstep, ?_⟩
    rcases hbudget with hempty | ⟨m, hbudget, hm⟩
    · exact Or.inl (stays_empty hwf hstep hempty henters)
    by_cases htick : ∃ c, e = .tick c a
    · obtain ⟨c, rfl⟩ := htick
      by_cases hempty : (source.turret a).activeTargets = []
      · exact Or.inl (stays_empty hwf hstep hempty henters)
      obtain ⟨m', hbudget', hm'⟩ := budget_tick hwf hspeed hfew hstep hgood hempty hbudget
      refine Or.inr ⟨m', hbudget', ?_⟩
      simp only [tickDelta_self, Option.isSome_some, Bool.toNat_true]
      omega
    · push Not at htick
      obtain ⟨m', hbudget', hm'⟩ := budget_other hwf hstep henters htick hbudget
      refine Or.inr ⟨m', hbudget', ?_⟩
      simp only [tickDelta_of_not_tick htick, Option.isSome_none, Bool.toNat_false]
      omega

end ServiceBound

section Alley

attribute [local instance] atan2Engine

/-- A tick of turret 0 without targets. -/
theorem alley_idles {w : World ℕ ℕ ℝ} (hquiet : w.spawning = none)
    (hempty : (w.turret 0).activeTargets = []) (c : Scene ℕ ℕ ℝ) :
    ∃ w', Step alley w (.tick c 0) w' ∧
      (w'.turret 0).currentTarget = (w.turret 0).currentTarget := by
  refine ⟨moveToIdle alley c w 0, ⟨hquiet, ?_⟩, (sameTargeting_moveToIdle 0).currentTarget⟩
  simp [handle, tick, hempty]

/-- Turret 0 turns to the actor on its right in one long frame, fires in the
next, and has nothing left to do in the third. -/
theorem drained_in_time_alley :
    ∃ trace w, Run (Step alley) alleyOne trace w ∧ (w.turret 0).activeTargets = [] := by
  obtain ⟨hactive, hnone, hrotation⟩ := alleyOne_turret
  obtain ⟨before, hreach⟩ := alleyOne_run
  obtain ⟨w₁, hselects, hlocked, hquiet, hpose⟩ :=
    alleyFrame_locks 1 right_inRange alley_aim_right right_nonzero right_unaligned
  rw [alley_turned le_rfl] at hpose
  have hwf := wellFormed_run alleyStart_initial hreach
  have hwf₁ := wellFormed_step hwf hselects
  have hfires := alley_tick_locked hwf₁ hlocked hquiet (alleyFrame ⟨0, 100, 100⟩ 1)
  have hwf₂ := wellFormed_step hwf₁ hfires
  have haligned : (w₁.turret 0).rotationPoint.equals ⟨0, 90, 0⟩ 0.5 = true := by
    rw [hpose]
    norm_num [FRotator.equals]
  have hspawning := (tick_of_lockedOn hwf₁ hlocked hfires).1.mpr ⟨right_nonzero, haligned⟩
  have hkey := hlocked.key
  rw [← (sameTargeting_rotateOrFire (L := alley) (c := alleyFrame ⟨0, 100, 100⟩ 1) (w := w₁)
    (a := 0) 0).currentTarget] at hkey
  obtain ⟨w₃, hspawned⟩ := alley_spawned hspawning hkey alleyScene
  have hfreed := spawned_unlocks hspawned hspawning
  have hone : (alleyOne.turret 0).targets.length = 1 := by
    simp [ATurret.targets, hactive, List.reduceOption]
  have hempty : (w₃.turret 0).activeTargets = [] := by
    have hle := targets_length_le (a := 0) hwf hselects (by simp [Enters])
    have hle₁ := targets_length_le (a := 0) hwf₁ hfires (by simp [Enters])
    have hlt := targets_length_lt (a := 0) hwf₂ hspawned (by simp [Enters]) hkey hfreed
    have hzero : (w₃.turret 0).targets.length = 0 := by omega
    rw [ATurret.activeTargets_eq (wellFormed_step hwf₂ hspawned 0).notNull,
      List.eq_nil_of_length_eq_zero hzero, List.map_nil]
  obtain ⟨w₄, hidles, hstill⟩ :=
    alley_idles (spawned_quiet hspawned) hempty (alleyFrame ⟨0, 100, 100⟩ 1)
  have hspeed : alley.turnSpeed 0 = 5 := rfl
  have hrun := (((Run.single hselects).snoc hfires).snoc hspawned).snoc hidles
  have hfew : 180 * remaining ((1 : ℝ) * alley.turnSpeed 0) ^ 1 ≤ 0.5 := by
    rw [hspeed]
    norm_num [remaining]
  refine ⟨_, w₄, hrun, drained_in_time alleyStart_initial hreach hnone
    (by rw [hspeed]; norm_num) hfew hrun (by simp [Enters]) ?_ ?_⟩
  · have hlong : (1 : ℝ) ≤ (alleyFrame ⟨0, 100, 100⟩ 1).deltaSeconds := le_rfl
    intro x hx
    simp only [List.cons_append, List.nil_append, List.mem_cons, List.not_mem_nil, or_false] at hx
    rcases hx with rfl | rfl | rfl | rfl
    · constructor
      · rintro c ⟨⟩
        exact hlong
      · rintro c ⟨⟩ - -
        rw [hlocked.aim]
        exact right_nonzero
      · rintro c ⟨⟩ - -
        rw [hlocked.aim, hrotation]
        exact ahead_unwrapped
    · constructor
      · rintro c ⟨⟩
        exact hlong
      · rintro c ⟨⟩ hfree
        simp [hlocked.key] at hfree
      · rintro c ⟨⟩ hfree
        simp [hlocked.key] at hfree
    · constructor <;> rintro c ⟨⟩
    · constructor
      · rintro c ⟨⟩
        exact hlong
      · rintro c ⟨⟩ - hsome
        simp [hstill, hfreed] at hsome
      · rintro c ⟨⟩ - hsome
        simp [hstill, hfreed] at hsome
  · rw [hone]
    simp [tickDeltas, tickDelta]

end Alley

end TurretMaster

import TurretMaster.TargetLedger

/-!
# Where a lock and a shot come from

A current target, its type and the aim are written by one tick, the last one
that selected, and read by all later ticks.  So whatever a turret does with
them, up to the shot, goes back to what that tick saw.

* `selected_of_locked` — which tick made a lock, and that nothing touched it
  since;
* `fire_conditions` — what a tick that fires has checked;
* `shot_provenance` — both together, for every shot of every run.
-/

namespace TurretMaster

open Runs

/-! ## The shot -/

section Shot

variable {ι α K : Type} [DecidableEq ι] [Field K] [LinearOrder K] [FloorRing K]
variable {L : Level ι α K} {c : Scene ι α K} {w : World ι α K} {a : ι}

/-- What holds of a turret whose `Fire` is called. -/
structure ReadyToFire (u : ATurret α K) : Prop where
  locked : u.currentTarget.key ≠ none
  aimed : u.targetInterceptionRotation ≠ 0
  aligned : u.rotationPoint.equals u.targetInterceptionRotation 0.5 = true

/-- A quiet turret starts a shot exactly if it is ready. -/
theorem rotateOrFire_fires_iff (hquiet : w.spawning = none) :
    (rotateOrFire L c w a).spawning = some a ↔ ReadyToFire (w.turret a) := by
  unfold rotateOrFire fire
  dsimp only
  split_ifs with haim haligned
  · rw [World.modify_spawning, hquiet]
    refine iff_of_false (by simp) fun hready => ?_
    rw [hready.aligned] at haligned
    cases haligned
  · exact iff_of_true rfl ⟨haim.1, haim.2, by simpa using haligned⟩
  · rw [hquiet]
    exact iff_of_false (by simp) fun hready => haim ⟨hready.locked, hready.aimed⟩

/-- A turret that is ready to fire is left as it is. -/
theorem rotateOrFire_turret_of_ready (hready : ReadyToFire (w.turret a)) :
    (rotateOrFire L c w a).turret a = w.turret a := by
  unfold rotateOrFire fire
  dsimp only
  rw [if_pos ⟨hready.locked, hready.aimed⟩, hready.aligned]
  rfl

end Shot

/-! ## The lock -/

section Provenance

variable {ι α K : Type} [DecidableEq ι] [DecidableEq α]
variable [Field K] [LinearOrder K] [FloorRing K] [Engine K]
variable {L : Level ι α K} {c : Scene ι α K} {w w' w₀ : World ι α K} {a : ι} {t : α}

/-- The tick `x` of turret `a`, in scene `c`, has selected target `t`: the
turret was free, `t` is the first acceptable target of its list, and the aim is
the one computed for the head of that list. -/
structure SelectedBy (L : Level ι α K) (a : ι) (t : α) (c : Scene ι α K)
    (x : Transition (World ι α K) (Event ι α K)) : Prop where
  event : x.event = .tick c a
  free : (x.source.turret a).currentTarget.key = none
  first : (x.source.turret a).targets.find?
    (acceptable L c a (x.source.turret a).rotationPoint) = some t
  currentTarget : (x.target.turret a).currentTarget = ⟨some t, determinedType c t⟩
  aim : ∃ s, (x.source.turret a).targets.head? = some s ∧
    (x.target.turret a).targetInterceptionRotation =
      aimFor L c a (x.source.turret a).rotationPoint s

/-- A selection that ends with a current target. -/
theorem selectedBy_of_selection {w₁ : World ι α K}
    (hkey : (w.turret a).currentTarget.key = none) (hselect : Selection L c w a w₁)
    (ht : ((rotateOrFire L c w₁ a).turret a).currentTarget.key = some t) :
    SelectedBy L a t c ⟨w, .tick c a, rotateOrFire L c w₁ a⟩ := by
  have hsame := sameTargeting_rotateOrFire (L := L) (c := c) (w := w₁) (a := a) a
  rw [hsame.currentTarget] at ht
  have hfirst := selection_key L c hselect
  rw [ht] at hfirst
  have hremaining : (remainingTargets L c a (w.turret a)).head? = some t := by
    rw [remainingTargets, ← List.find?_eq_head?_dropWhile_not]
    exact hfirst.symm
  obtain ⟨s, hs⟩ : ∃ s, (w.turret a).targets.head? = some s := by
    cases hlist : (w.turret a).targets with
    | nil => simp [hlist] at hfirst
    | cons s rest => exact ⟨s, rfl⟩
  refine ⟨rfl, hkey, hfirst.symm, ?_, s, hs, ?_⟩
  · show ((rotateOrFire L c w₁ a).turret a).currentTarget = _
    rw [hsame.currentTarget, hselect.currentTarget, currentOf, hremaining]
    rfl
  · show ((rotateOrFire L c w₁ a).turret a).targetInterceptionRotation = _
    rw [hsame.targetInterceptionRotation, hselect.targetInterceptionRotation s hs, aimFor]

/-- **A new lock is a selection**: where the lock of a turret is not the one it
had, its target has just been selected. -/
theorem selected_of_new_lock {e : Event ι α K} (hwf : WellFormed L w) (hstep : Step L w e w')
    (hkey : (w'.turret a).currentTarget.key = some t)
    (hnew : ¬ SameLock (w.turret a) (w'.turret a)) :
    ∃ c, SelectedBy L a t c ⟨w, e, w'⟩ := by
  have hfree : (w.turret a).currentTarget.key = none := by
    by_contra hlocked
    obtain ⟨s, hs⟩ := Option.ne_none_iff_exists'.mp hlocked
    have hremoves : Removes L w a s e := by
      by_contra hkept
      exact hnew (lock_kept hwf hstep hs hkept)
    -- the turret that loses its current target has none afterwards
    have hgone : ¬ Tracks w' a s := by
      rw [tracks_step_iff hwf hstep]
      rintro (henters | hkept)
      · exact not_enters_of_removes hremoves henters
      · exact hkept.2 hremoves
    have hne : t ≠ s := by
      rintro rfl
      exact hgone ((wellFormed_step hwf hstep a).current_mem hkey)
    by_cases htick : ∃ c b, e = .tick c b
    · obtain ⟨c, b, rfl⟩ := htick
      rw [hremoves.2.1] at hs
      cases hs
    · push Not at htick
      have hback := key_kept_back hstep htick hkey
      exact hne (Option.some.inj (hback.symm.trans hs))
  have htick : ∃ c b, e = .tick c b := by
    by_contra hother
    push Not at hother
    have hback := key_kept_back hstep hother hkey
    rw [hfree] at hback
    cases hback
  obtain ⟨c, b, rfl⟩ := htick
  cases step_effect hstep with
  | idled _ => exact absurd (sameTargeting_moveToIdle a).sameLock hnew
  | tracked _ _ => exact absurd (sameTargeting_rotateOrFire a).sameLock hnew
  | @selected c b w₁ hne hnone hselect =>
      have hselection := (hwf b).selection hne hselect
      have hab : a = b := by
        by_contra hab
        refine hnew ?_
        rw [rotateOrFire_turret_ne hab, hselection.turret_ne a hab]
        exact ⟨rfl, rfl⟩
      subst hab
      exact ⟨c, selectedBy_of_selection hnone hselection hkey⟩

variable {trace : List (Transition (World ι α K) (Event ι α K))}

/-- **Where a lock comes from.** In every reachable state a current target was
selected by a tick of the run, and current target, type and aim have been the
same in all states since. -/
theorem selected_of_locked (hinit : Initial w₀) (hrun : Run (Step L) w₀ trace w)
    (hkey : (w.turret a).currentTarget.key = some t) :
    ∃ before x after c, trace = before ++ x :: after ∧ SelectedBy L a t c x ∧
      SameLock (x.target.turret a) (w.turret a) ∧
      ∀ y ∈ after, SameLock (x.target.turret a) (y.target.turret a) := by
  have hstart : ¬ SameLock (w₀.turret a) (w.turret a) := by
    intro h
    rw [h.currentTarget, hinit.currentTarget a] at hkey
    cases hkey
  obtain ⟨before, x, after, rfl, hsource, htarget, hafter⟩ :=
    hrun.last_change (P := fun s => SameLock (s.turret a) (w.turret a)) hstart ⟨rfl, rfl⟩
  obtain ⟨⟨earlier, hearlier⟩, hstep⟩ := hrun.mem_reached x (by simp)
  have hlocked : (x.target.turret a).currentTarget.key = some t := by
    rw [← htarget.currentTarget]
    exact hkey
  have hnew : ¬ SameLock (x.source.turret a) (x.target.turret a) :=
    fun h => hsource (h.trans htarget)
  obtain ⟨c, hselected⟩ :=
    selected_of_new_lock (wellFormed_run hinit hearlier) hstep hlocked hnew
  refine ⟨before, x, after, c, rfl, hselected, htarget, fun y hy => ?_⟩
  have hy' := hafter y hy
  exact ⟨hy'.currentTarget.symm.trans htarget.currentTarget,
    hy'.targetInterceptionRotation.symm.trans htarget.targetInterceptionRotation⟩

/-- **What a tick that fires has checked.** -/
theorem fire_conditions (hwf : WellFormed L w) (hstep : Step L w (.tick c a) w')
    (hfire : w'.spawning = some a) : ReadyToFire (w'.turret a) := by
  have hquiet : w.spawning = none := hstep.1
  cases step_effect hstep with
  | idled =>
      have hnone : (moveToIdle L c w a).spawning = none := hquiet
      rw [hnone] at hfire
      cases hfire
  | tracked =>
      have hready := (rotateOrFire_fires_iff hquiet).mp hfire
      rw [rotateOrFire_turret_of_ready hready]
      exact hready
  | @selected c a w₁ hne hkey hselect =>
      have hstill := ((hwf a).selection hne hselect).spawning.trans hquiet
      have hready := (rotateOrFire_fires_iff hstill).mp hfire
      rw [rotateOrFire_turret_of_ready hready]
      exact hready

/-- **Where a shot comes from.** Whenever a turret fires in a run, it is
within half a degree of an aim that is not zero, and its target was the first
acceptable one in a tick of the run, the shot's own or an earlier one, which
computed that aim for the head of the list of then; neither target nor aim has
changed since. -/
theorem shot_provenance (hinit : Initial w₀) (hrun : Run (Step L) w₀ trace w)
    (hstep : Step L w (.tick c a) w') (hfire : w'.spawning = some a) :
    ∃ t before x after c', trace ++ [⟨w, .tick c a, w'⟩] = before ++ x :: after ∧
      (w'.turret a).currentTarget = ⟨some t, determinedType c' t⟩ ∧
      ReadyToFire (w'.turret a) ∧ SelectedBy L a t c' x ∧
      SameLock (x.target.turret a) (w'.turret a) ∧
      ∀ y ∈ after, SameLock (x.target.turret a) (y.target.turret a) := by
  have hready := fire_conditions (wellFormed_run hinit hrun) hstep hfire
  obtain ⟨t, ht⟩ := Option.ne_none_iff_exists'.mp hready.locked
  obtain ⟨before, x, after, c', htrace, hselected, hsame, hafter⟩ :=
    selected_of_locked hinit (hrun.snoc hstep) ht
  refine ⟨t, before, x, after, c', htrace, ?_, hready, hselected, hsame, hafter⟩
  rw [hsame.currentTarget, hselected.currentTarget]

end Provenance

section Alley

attribute [local instance] atan2Engine

/-- Turret 0 shoots at actor 1, which the same tick selected. -/
theorem shot_provenance_alley :
    ∃ (w : World ℕ ℕ ℝ) (t : ℕ) (c : Scene ℕ ℕ ℝ), w.spawning = some 0 ∧
      ReadyToFire (w.turret 0) ∧
      (w.turret 0).currentTarget = ⟨some t, determinedType c t⟩ := by
  obtain ⟨w, hstep, hspawning, -⟩ := alleyAligned_fires
  obtain ⟨t, -, -, -, c, -, hcurrent, hready, -⟩ := shot_provenance alleyAligned_initial
    (Run.single alleyAligned_enter) hstep hspawning
  exact ⟨w, t, c, hspawning, hready, hcurrent⟩

end Alley

end TurretMaster

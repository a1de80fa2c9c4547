import TurretMaster.Engagement

/-!
# Locked turrets that do nothing

`Tick` takes a zero `TargetInterceptionRotation` for "no solution", although a
selection can compute that very rotation, and it turns to aims that the limits
of the turret keep it from.  A turret that is locked with such an aim comes to a
rest, and selection runs only when no target is locked.

* `aimSet_step_iff` — one event, and the aim that is not zero;
* `engaged_step` — one event, and the aim that is within reach too;
* `rotateOrFire_engages`, `exists_idle_tick` — what the ticks do with an aim of
  the one kind and of the other;
* `locked_ticks_engage` — when every tick of a locked turret turns it nearer to
  its aim or fires and releases the target.
-/

namespace TurretMaster

open Runs

section Aim

variable {ι α K : Type} [Field K]
variable {L : Level ι α K} {c : Scene ι α K} {w w' w₀ : World ι α K}

/-- Every turret that is locked on a target has an aim other than the zero
rotation. -/
def AimSet (w : World ι α K) : Prop :=
  ∀ a, (w.turret a).currentTarget.key ≠ none → (w.turret a).targetInterceptionRotation ≠ 0

/-- What is locked was locked before, with the same aim. -/
theorem aimSet_of_lock (h : AimSet w)
    (hlock : ∀ a, (w'.turret a).currentTarget.key ≠ none →
      SameLock (w.turret a) (w'.turret a)) : AimSet w' := by
  intro a hkey
  obtain ⟨hcurrent, haim⟩ := hlock a hkey
  rw [haim]
  exact h a (hcurrent ▸ hkey)

/-- Nobody is locked in the first state. -/
theorem aimSet_initial (h : Initial w₀) : AimSet w₀ := by
  intro a hkey
  rw [h.currentTarget a] at hkey
  exact absurd rfl hkey

variable [LinearOrder K] [FloorRing K]

/-- The aim is not the zero rotation, and within reach. -/
structure EngageableAim (aim : FRotator K) (roll : K) : Prop where
  nonzero : aim ≠ 0
  withinReach : WithinReach aim roll 0.5

/-- Some frame is long enough for a whole turn. -/
theorem exists_full_frame [IsStrictOrderedRing K] (turnSpeed : K) :
    ∃ deltaSeconds, 0 < deltaSeconds ∧ (turnSpeed ≤ 0 ∨ 1 ≤ deltaSeconds * turnSpeed) := by
  rcases le_or_gt turnSpeed 0 with hslow | hpos
  · exact ⟨1, one_pos, Or.inl hslow⟩
  · exact ⟨turnSpeed⁻¹, inv_pos.mpr hpos, Or.inr (inv_mul_cancel₀ hpos.ne').ge⟩

/-- **A tick with such an aim** fires, or takes a step that brings the turret
nearer to the aim. -/
theorem rotateOrFire_engages [DecidableEq ι] [IsStrictOrderedRing K] {a : ι}
    (hdelta : 0 < c.deltaSeconds)
    (hkey : (w.turret a).currentTarget.key ≠ none)
    (haim : EngageableAim (w.turret a).targetInterceptionRotation
      (w.turret a).rotationPoint.roll) :
    (rotateOrFire L c w a).spawning = some a ∨
      ((rotateOrFire L c w a).turret a).rotationPoint =
          ((w.turret a).turnTowards (w.turret a).targetInterceptionRotation c.deltaSeconds
            (L.turnSpeed a)).rotationPoint ∧
        wayTo (w.turret a).targetInterceptionRotation
            ((rotateOrFire L c w a).turret a).rotationPoint <
          wayTo (w.turret a).targetInterceptionRotation (w.turret a).rotationPoint := by
  unfold rotateOrFire
  dsimp only
  rw [if_pos ⟨hkey, haim.nonzero⟩]
  split_ifs with hfar
  · rw [World.modify_turret_self]
    rcases turnTowards_rests_or_nears hdelta (w.turret a)
      (w.turret a).targetInterceptionRotation (L.turnSpeed a) with ⟨hend, -⟩ | hnears
    · -- where it would rest it is aligned
      rw [(equals_of_rest_iff hend).mpr haim.withinReach] at hfar
      cases hfar
    · exact Or.inr ⟨rfl, hnears⟩
  · exact Or.inl rfl

variable [DecidableEq ι] [DecidableEq α] [Engine K]

/-- A selection that accepts a target computes an aim other than the zero
rotation; the aim is the one of the first target of the list. -/
def AimsAway (L : Level ι α K) (w : World ι α K) : Event ι α K → Prop
  | .tick c a =>
      (w.turret a).currentTarget.key = none →
        ∀ s, (w.turret a).targets.head? = some s →
          (∃ t ∈ (w.turret a).targets, acceptable L c a (w.turret a).rotationPoint t = true) →
            interceptionRotation c a
              (interceptionOf L c a (w.turret a).rotationPoint s).2 ≠ 0
  | _ => True

/-! ## One event -/

/-- A removal keeps the aims. -/
theorem aimSet_removeTarget (h : AimSet w) (b : ι) (s : α) :
    AimSet (removeTarget c w b s) := by
  apply aimSet_of_lock h
  intro a hkey
  apply sameLock_removeTarget
  intro hab hs
  subst hab
  apply hkey
  rw [removeTarget_currentTarget, if_pos hs]

/-- A selection leaves an aim exactly if it accepts nothing or computes one. -/
theorem aimSet_selection_iff (h : AimSet w) {a : ι}
    (hne : (w.turret a).targets ≠ []) (hkey : (w.turret a).currentTarget.key = none)
    (hselect : Selection L c w a w') : AimSet w' ↔ AimsAway L w (.tick c a) := by
  obtain ⟨s, hs⟩ := Option.ne_none_iff_exists'.mp (mt List.head?_eq_none_iff.mp hne)
  have hfound : (w'.turret a).currentTarget.key ≠ none ↔
      ∃ t ∈ (w.turret a).targets, acceptable L c a (w.turret a).rotationPoint t = true := by
    rw [selection_key L c hselect, Ne, List.find?_eq_none]
    push Not
    rfl
  have haim := hselect.targetInterceptionRotation s hs
  constructor
  · intro hafter _ s' hs' hacceptable
    obtain rfl := Option.some.inj (hs.symm.trans hs')
    rw [← haim]
    exact hafter a (hfound.mpr hacceptable)
  · intro haway b hb
    by_cases hba : b = a
    · subst hba
      rw [haim]
      exact haway hkey s hs (hfound.mp hb)
    · rw [hselect.turret_ne b hba] at hb ⊢
      exact h b hb

/-- **One event** leaves every locked turret with an aim exactly if it is no
selection that computes the zero rotation. -/
theorem aimSet_step_iff {e : Event ι α K} (hwf : WellFormed L w) (h : AimSet w)
    (hstep : Step L w e w') : AimSet w' ↔ AimsAway L w e := by
  cases step_effect hstep with
  | ignoredBegin =>
      exact iff_of_true
        (aimSet_of_lock h fun a _ => (sameTargeting_updateTickState a).sameLock) trivial
  | admitted => exact iff_of_true (aimSet_of_lock h fun a _ => sameLock_admitTarget) trivial
  | ignoredEnd => exact iff_of_true h trivial
  | left => exact iff_of_true (aimSet_removeTarget h _ _) trivial
  | unheard => exact iff_of_true h trivial
  | destroyed => exact iff_of_true (aimSet_removeTarget h _ _) trivial
  | @idled c a hempty =>
      refine iff_of_true
        (aimSet_of_lock h fun b _ => (sameTargeting_moveToIdle b).sameLock) ?_
      intro _ s hs _
      have htargets : (w.turret a).targets = [] :=
        ATurret.targets_of_map (by simpa using hempty)
      rw [htargets] at hs
      cases hs
  | @tracked c a _ hkey =>
      refine iff_of_true
        (aimSet_of_lock h fun b _ => (sameTargeting_rotateOrFire b).sameLock) ?_
      intro hnone
      exact absurd hnone hkey
  | @selected c a w₁ hne hkey hselect =>
      have hselection := (hwf a).selection hne hselect
      have htargets : (w.turret a).targets ≠ [] := by
        intro hnil
        apply hne
        rw [ATurret.activeTargets_eq (hwf a).notNull, hnil, List.map_nil]
      rw [← aimSet_selection_iff h htargets hkey hselection]
      constructor
      · intro hafter b hb
        have hsame := sameTargeting_rotateOrFire (L := L) (c := c) (w := w₁) (a := a) b
        rw [← hsame.targetInterceptionRotation]
        exact hafter b (hsame.currentTarget ▸ hb)
      · intro hafter
        exact aimSet_of_lock hafter fun b _ => (sameTargeting_rotateOrFire b).sameLock
  | released => exact iff_of_true h trivial
  | fired => exact iff_of_true (aimSet_removeTarget h _ _) trivial

/-- A tick of a turret that is locked with the zero rotation does nothing. -/
theorem tick_of_zero_aim {a : ι} (hne : (w.turret a).activeTargets ≠ [])
    (hkey : (w.turret a).currentTarget.key ≠ none)
    (haim : (w.turret a).targetInterceptionRotation = 0) :
    tick L c w a = .ok w := by
  rw [tick_of_locked L c hne hkey, rotateOrFire, if_neg (fun hguard => hguard.2 haim)]

/-! ## Aims within reach -/

/-- Every turret that is locked on a target has such an aim. -/
def Engaged (w : World ι α K) : Prop :=
  ∀ a, (w.turret a).currentTarget.key ≠ none →
    EngageableAim (w.turret a).targetInterceptionRotation (w.turret a).rotationPoint.roll

/-- A frame has a positive length, and a selection that accepts a target
computes an aim other than the zero rotation and within reach. -/
def AimsWithinReach (L : Level ι α K) (w : World ι α K) : Event ι α K → Prop
  | .tick c a =>
      0 < c.deltaSeconds ∧
        ((w.turret a).currentTarget.key = none →
          ∀ s, (w.turret a).targets.head? = some s →
            (∃ t ∈ (w.turret a).targets, acceptable L c a (w.turret a).rotationPoint t = true) →
              EngageableAim (aimFor L c a (w.turret a).rotationPoint s)
                (w.turret a).rotationPoint.roll)
  | _ => True

/-- **One event** that selects such aims leaves every locked turret with one. -/
theorem engaged_step {e : Event ι α K} (hwf : WellFormed L w) (h : Engaged w)
    (haims : AimsWithinReach L w e) (hstep : Step L w e w') : Engaged w' := by
  intro a hkey
  rw [roll_kept hwf hstep a]
  by_cases hlock : SameLock (w.turret a) (w'.turret a)
  · rw [hlock.targetInterceptionRotation]
    exact h a (hlock.currentTarget ▸ hkey)
  · obtain ⟨t, ht⟩ := Option.ne_none_iff_exists'.mp hkey
    obtain ⟨c, hselected⟩ := selected_of_new_lock hwf hstep ht hlock
    obtain rfl : e = .tick c a := hselected.event
    obtain ⟨s, hs, haim⟩ := hselected.aim
    have hfound : ∃ t ∈ (w.turret a).targets,
        acceptable L c a (w.turret a).rotationPoint t = true :=
      ⟨t, List.mem_of_find?_eq_some hselected.first, List.find?_some hselected.first⟩
    have hengageable := haims.2 hselected.free s hs hfound
    rw [← haim] at hengageable
    exact hengageable

/-- A turret that rests where it is not aligned does nothing. -/
theorem tick_of_rest {a : ι} {t : α} {aim : FRotator K} [IsStrictOrderedRing K]
    (hdelta : 0 < c.deltaSeconds) (hwf : WellFormed L w) (h : LockedOn w a t aim)
    (haim : aim ≠ 0) (hfar : ¬ (w.turret a).rotationPoint.equals aim 0.5 = true)
    (hrest : wayTo aim (w.turret a).rotationPoint = 0) : tick L c w a = .ok w := by
  refine tick_of_fixed (List.ne_nil_of_mem ((hwf a).current_mem h.key)) (by simp [h.key])
    (h.aim ▸ haim) ?_ ?_
  · rw [h.aim]
    exact Bool.eq_false_iff.mpr hfar
  · rw [h.aim, turnTowards_fixed_iff hdelta, ← wayTo_eq_zero_iff]
    exact hrest

/-- **A turret with any other aim** that is not aligned with it does nothing any
more after at most one frame of a suitable length. -/
theorem exists_idle_tick {a : ι} {t : α} {aim : FRotator K} [IsStrictOrderedRing K]
    (hwf : WellFormed L w) (hquiet : w.spawning = none) (h : LockedOn w a t aim)
    (hfar : ¬ (w.turret a).rotationPoint.equals aim 0.5 = true)
    (haim : ¬ EngageableAim aim (w.turret a).rotationPoint.roll) (c : Scene ι α K) :
    ∃ after w', Run (Step L) w after w' ∧ after.length ≤ 1 ∧
      (∀ y ∈ after, ∃ c', y.event = .tick c' a ∧ 0 < c'.deltaSeconds) ∧
      LockedOn w' a t aim ∧ ∀ c', 0 < c'.deltaSeconds → tick L c' w' a = .ok w' := by
  by_cases hzero : aim = 0
  · refine ⟨[], w, Run.nil w, by simp, by simp, h, fun c' _ => ?_⟩
    exact tick_of_zero_aim (List.ne_nil_of_mem ((hwf a).current_mem h.key)) (by simp [h.key])
      (h.aim.trans hzero)
  · obtain ⟨deltaSeconds, hpos, hall⟩ := exists_full_frame (L.turnSpeed a)
    let frame : Scene ι α K := { c with deltaSeconds := deltaSeconds }
    have hstep : Step L w (.tick frame a) (rotateOrFire L frame w a) :=
      ⟨hquiet, tick_of_locked L frame (List.ne_nil_of_mem ((hwf a).current_mem h.key))
        (by simp [h.key])⟩
    have hnoShot : (rotateOrFire L frame w a).spawning ≠ some a :=
      fun hshot => hfar ((tick_of_lockedOn hwf h hstep).1.mp hshot).2
    have hlocked := lockedOn_step hwf h hstep fun hends => hnoShot hends.2
    have hpose := (tick_of_lockedOn hwf h hstep).2 hzero hnoShot
    have hrest : wayTo aim ((rotateOrFire L frame w a).turret a).rotationPoint = 0 := by
      rw [hpose]
      exact wayTo_of_all hall (w.turret a) aim
    have hstill : ¬ ((rotateOrFire L frame w a).turret a).rotationPoint.equals aim 0.5 = true := by
      rw [equals_of_rest_iff hrest, roll_kept hwf hstep a]
      exact fun hreach => haim ⟨hzero, hreach⟩
    refine ⟨_, _, Run.single hstep, by simp, ?_, hlocked, fun c' hc' =>
      tick_of_rest hc' (wellFormed_step hwf hstep) hlocked hzero hstill hrest⟩
    intro y hy
    obtain rfl := List.mem_singleton.mp hy
    exact ⟨frame, rfl, hpos⟩

/-! ## Runs -/

/-- A tick of a turret that is locked, before the tick or by it, fires or turns
the turret nearer to its aim. -/
def Engages (L : Level ι α K) (x : Transition (World ι α K) (Event ι α K)) : Prop :=
  ∀ c a, x.event = .tick c a →
    (x.source.turret a).currentTarget.key ≠ none ∨
      (x.target.turret a).currentTarget.key ≠ none →
    x.target.spawning = some a ∨
      (x.target.turret a).rotationPoint =
          ((x.source.turret a).turnTowards (x.target.turret a).targetInterceptionRotation
            c.deltaSeconds (L.turnSpeed a)).rotationPoint ∧
        wayTo (x.target.turret a).targetInterceptionRotation
            (x.target.turret a).rotationPoint <
          wayTo (x.target.turret a).targetInterceptionRotation
            (x.source.turret a).rotationPoint

/-- The turret whose shot has arrived has no current target any more. -/
def Releases (x : Transition (World ι α K) (Event ι α K)) : Prop :=
  ∀ c a, x.event = .spawned c → x.source.spawning = some a →
    x.target.spawning = none ∧ (x.target.turret a).currentTarget.key = none

/-- One event that leaves the locked turrets with such aims engages. -/
theorem engages_of_engaged [IsStrictOrderedRing K] {e : Event ι α K} (hwf : WellFormed L w)
    (hstep : Step L w e w') (hafter : Engaged w') (haims : AimsWithinReach L w e) :
    Engages L ⟨w, e, w'⟩ := by
  rintro c a rfl hlocked
  have hdelta : 0 < c.deltaSeconds := haims.1
  have hkey : (w'.turret a).currentTarget.key ≠ none := by
    refine hlocked.elim (fun hbefore => ?_) id
    obtain ⟨t, ht⟩ := Option.ne_none_iff_exists'.mp hbefore
    rw [(lock_kept hwf hstep ht (not_removes_of_tracked hbefore)).currentTarget]
    exact hbefore
  cases step_effect hstep with
  | idled hempty =>
      rw [(sameTargeting_moveToIdle a).currentTarget] at hkey
      obtain ⟨t, ht⟩ := Option.ne_none_iff_exists'.mp hkey
      have hmem := (hwf a).current_mem ht
      rw [hempty] at hmem
      cases hmem
  | tracked _ _ =>
      have hengageable := hafter a hkey
      rw [roll_kept hwf hstep a] at hengageable
      have hsame := sameTargeting_rotateOrFire (L := L) (c := c) (w := w) (a := a) a
      rw [hsame.currentTarget] at hkey
      rw [hsame.targetInterceptionRotation] at hengageable
      simp only [hsame.targetInterceptionRotation]
      exact rotateOrFire_engages hdelta hkey hengageable
  | @selected c a w₁ hne _ hselect =>
      have hengageable := hafter a hkey
      have hpose := ((hwf a).selection hne hselect).rotationPoint
      rw [roll_kept hwf hstep a, ← hpose] at hengageable
      have hsame := sameTargeting_rotateOrFire (L := L) (c := c) (w := w₁) (a := a) a
      rw [hsame.currentTarget] at hkey
      rw [hsame.targetInterceptionRotation] at hengageable
      simp only [hsame.targetInterceptionRotation, ← hpose]
      rw [turnTowards_rotationPoint_congr hpose.symm]
      exact rotateOrFire_engages hdelta hkey hengageable

/-- **When a locked turret never idles.** In a run from a world without targets
every locked turret has an aim in every state reached exactly if every selection
that accepts a target computes one.  If these aims are within reach too and the
frames have a positive length, then every tick of a locked turret fires or turns
it nearer to its aim, and the end of a shot releases the target.  A turret that
is locked with any other aim, and not aligned with it, does nothing any more
after at most one further frame. -/
theorem locked_ticks_engage [IsStrictOrderedRing K]
    {trace : List (Transition (World ι α K) (Event ι α K))}
    (hinit : Initial w₀) (hrun : Run (Step L) w₀ trace w) :
    (Always AimSet trace ↔ Along (AimsAway L) trace) ∧
    (Along (AimsWithinReach L) trace → ∀ x ∈ trace, Engages L x ∧ Releases x) ∧
    ∀ x ∈ trace, ∀ a t aim, x.target.spawning = none → LockedOn x.target a t aim →
      ¬ (x.target.turret a).rotationPoint.equals aim 0.5 = true →
      ¬ EngageableAim aim (x.target.turret a).rotationPoint.roll →
      ∃ after w', Run (Step L) x.target after w' ∧ after.length ≤ 1 ∧
        (∀ y ∈ after, ∃ c, y.event = .tick c a ∧ 0 < c.deltaSeconds) ∧
        LockedOn w' a t aim ∧ ∀ c, 0 < c.deltaSeconds → tick L c w' a = .ok w' := by
  refine ⟨?_, ?_, ?_⟩
  · refine hrun.always_iff_along (I := WellFormed L) ?_ ?_ (wellFormed_initial hinit)
      (aimSet_initial hinit)
    · intro w e w' h hstep
      exact wellFormed_step h hstep
    · intro w e w' hwf h hstep
      exact aimSet_step_iff hwf h hstep
  · intro haims x hx
    have hstart : Engaged w₀ := by
      intro a hkey
      rw [hinit.currentTarget a] at hkey
      exact absurd rfl hkey
    have heach := hrun.each (I := fun s => WellFormed L s ∧ Engaged s)
      (D := fun x => AimsWithinReach L x.source x.event)
      (fun x h haims hstep =>
        ⟨wellFormed_step h.1 hstep, engaged_step h.1 h.2 haims hstep⟩)
      ⟨wellFormed_initial hinit, hstart⟩ haims
    obtain ⟨⟨hwf, -⟩, hstep, -, hafter⟩ := heach x hx
    refine ⟨engages_of_engaged hwf hstep hafter (haims x hx), ?_⟩
    intro c a hevent hspawning
    rw [hevent] at hstep
    exact ⟨spawned_quiet hstep, spawned_unlocks hstep hspawning⟩
  · intro x hx a t aim hquiet hlocked hfar haim
    obtain ⟨⟨before, hbefore⟩, hstep⟩ := hrun.mem_reached x hx
    have hwf := wellFormed_step (wellFormed_run hinit hbefore) hstep
    exact exists_idle_tick hwf hquiet hlocked hfar haim x.event.scene

end Aim

section Alley

attribute [local instance] atan2Engine

/-- The aim to the right is within reach of a turret that does not roll. -/
theorem right_engageable : EngageableAim (⟨0, 90, 0⟩ : FRotator ℝ) 0 := by
  refine ⟨right_nonzero, ?_, ?_⟩
  · norm_num [FMath.clamp]
  · norm_num

/-- Turret 0 locks on the actor to its right and turns nearer to it in one long
frame, fires in the next, and releases the actor when the shot has arrived. -/
theorem locked_ticks_engage_alley :
    ∃ x y z : Transition (World ℕ ℕ ℝ) (Event ℕ ℕ ℝ), y.source = x.target ∧ z.source = y.target ∧
      LockedOn x.target 0 1 ⟨0, 90, 0⟩ ∧
      wayTo ⟨0, 90, 0⟩ (x.target.turret 0).rotationPoint <
        wayTo ⟨0, 90, 0⟩ (x.source.turret 0).rotationPoint ∧
      y.target.spawning = some 0 ∧ (z.target.turret 0).currentTarget.key = none := by
  obtain ⟨hactive, -, hrotation⟩ := alleyOne_turret
  obtain ⟨before, hreach⟩ := alleyOne_run
  have henter : Step alley alleyStart (.beginOverlap alleyScene 0 (some 1) 0) alleyOne :=
    alleyStart_enter
  obtain ⟨w₁, hlocks, hlocked, hquiet, hpose⟩ :=
    alleyFrame_locks 1 right_inRange alley_aim_right right_nonzero right_unaligned
  rw [alley_turned le_rfl] at hpose
  have hwf₁ := wellFormed_step (wellFormed_run alleyStart_initial hreach) hlocks
  have hfires := alley_tick_locked hwf₁ hlocked hquiet alleyScene
  have hshot := (tick_of_lockedOn hwf₁ hlocked hfires).1.mpr
    ⟨right_nonzero, by rw [hpose]; norm_num [FRotator.equals]⟩
  have hkey : ((rotateOrFire alley alleyScene w₁ 0).turret 0).currentTarget.key = some 1 := by
    rw [(sameTargeting_rotateOrFire 0).currentTarget]
    exact hlocked.key
  obtain ⟨w₃, hspawned⟩ := alley_spawned hshot hkey alleyScene
  have hrun := (((Run.single henter).snoc hlocks).snoc hfires).snoc hspawned
  have hengage := (locked_ticks_engage alleyStart_initial hrun).2.1 <| by
    rw [along_concat, along_concat, along_concat]
    refine ⟨⟨⟨?_, ?_⟩, ?_⟩, trivial⟩
    · intro x hx
      obtain rfl := List.mem_singleton.mp hx
      trivial
    · refine ⟨one_pos, fun _ s hs _ => ?_⟩
      obtain rfl : s = 1 := by simpa [ATurret.targets, hactive, List.reduceOption] using hs.symm
      rw [alleyFrame_aimFor, alley_aim_right, hrotation]
      exact right_engageable
    · refine ⟨by norm_num [alleyScene], fun hnone => ?_⟩
      rw [hlocked.key] at hnone
      cases hnone
  have hreleased := (hengage ⟨rotateOrFire alley alleyScene w₁ 0, .spawned alleyScene, w₃⟩
    (by simp)).2 alleyScene 0 rfl hshot
  refine ⟨⟨alleyOne, .tick (alleyFrame ⟨0, 100, 100⟩ 1) 0, w₁⟩,
    ⟨w₁, .tick alleyScene 0, rotateOrFire alley alleyScene w₁ 0⟩,
    ⟨_, .spawned alleyScene, w₃⟩, rfl, rfl, hlocked, ?_, hshot, hreleased.2⟩
  rcases (hengage ⟨alleyOne, .tick (alleyFrame ⟨0, 100, 100⟩ 1) 0, w₁⟩ (by simp)).1 _ _ rfl
    (Or.inr (by simp [hlocked.key])) with hfired | ⟨-, hnearer⟩
  · rw [hquiet] at hfired
    cases hfired
  · rw [hlocked.aim] at hnearer
    exact hnearer

/-- The rotator of a direction is the zero rotator exactly if the direction is
the forward one. -/
theorem makeFromX_eq_zero_iff {v : FVector ℝ} :
    Engine.makeFromX v = 0 ↔ 0 ≤ v.x ∧ v.y = 0 ∧ v.z = 0 := by
  constructor
  · intro hzero
    have hyaw : directionYaw v = 0 := congrArg FRotator.yaw hzero
    have hpitch : directionPitch v = 0 := congrArg FRotator.pitch hzero
    obtain ⟨hx, hy⟩ := atan2Degrees_eq_zero_iff.mp hyaw
    exact ⟨hx, hy, (atan2Degrees_eq_zero_iff.mp hpitch).2⟩
  · intro h
    obtain ⟨x, y, z⟩ := v
    obtain ⟨hx, rfl, rfl⟩ := h
    have hforward : atan2Degrees 0 x = 0 := atan2Degrees_eq_zero_iff.mpr ⟨hx, rfl⟩
    have harg : Complex.arg ⟨x, 0⟩ = 0 := Complex.arg_ofReal_of_nonneg hx
    have hlevel : |(0 : ℝ)| < 1 - kindaSmallNumber := by norm_num [kindaSmallNumber]
    have hroll : frameRoll ⟨x, 0, 0⟩ = 0 := by
      simp only [frameRoll, harg, hlevel, if_true, FVector.dot]
      norm_num
      exact hforward
    ext
    · exact directionPitch_level rfl
    · exact hforward
    · exact hroll

/-- The aim at a point is the zero rotation exactly if the point lies straight
ahead of `RotationPoint`. -/
theorem interceptionRotation_eq_zero_iff {c : Scene ℕ ℕ ℝ} {a : ℕ} {point : FVector ℝ} :
    interceptionRotation c a point = 0 ↔
      (c.rotationPointLocation a).x ≤ point.x ∧ point.y = (c.rotationPointLocation a).y ∧
        point.z = (c.rotationPointLocation a).z := by
  obtain ⟨k, hk, hnormalize⟩ :=
    (point - c.rotationPointLocation a).exists_normalize_eq
  rw [interceptionRotation, makeFromX_eq_zero_iff, hnormalize]
  simp only [FVector.mul_def, FVector.sub_def, mul_nonneg_iff_of_pos_right hk, mul_eq_zero,
    hk.ne', or_false, sub_nonneg, sub_eq_zero]

/-- The aim at a target straight ahead of `RotationPoint` is zero. -/
theorem interceptionRotation_ahead :
    interceptionRotation (alleySceneAt ⟨100, 0, 100⟩) 0 ⟨100, 0, 100⟩ = 0 := by
  apply interceptionRotation_eq_zero_iff.mpr
  norm_num [alleySceneAt, alleyScene]

/-- The actor ahead is in range. -/
theorem ahead_inRange :
    isPointWithinRange alley (alleySceneAt ⟨100, 0, 100⟩) 0 ⟨100, 0, 100⟩ = true :=
  alley_inRange rfl (by norm_num [FVector.dot])

/-- A stationary target straight ahead is accepted and locked with the zero
rotation; from then on no tick does anything. -/
theorem ahead_never_engaged :
    Initial alleyStart ∧
    Engine.makeFromX (⟨1, 0, 0⟩ : FVector ℝ) = 0 ∧
    ∃ trace w, Run (Step alley) alleyStart trace w ∧
      (w.turret 0).currentTarget.key = some 1 ∧
      (w.turret 0).targetInterceptionRotation = 0 ∧
      ∀ c, tick alley c w 0 = .ok w := by
  obtain ⟨hactive, hnone, -⟩ := alleyOne_turret
  obtain ⟨trace, hrun⟩ := alleyOne_run
  have hwf := wellFormed_run alleyStart_initial hrun
  obtain ⟨w, hw, hselect, hkey, haim⟩ := alleySceneAt_selects (hwf 0) hactive ahead_inRange
  rw [interceptionRotation_ahead] at haim
  have hlocked : (w.turret 0).currentTarget.key ≠ none := by simp [hkey]
  have hblind : rotateOrFire alley (alleySceneAt ⟨100, 0, 100⟩) w 0 = w := by
    rw [rotateOrFire, if_neg (fun hguard => hguard.2 haim)]
  have hstep : Step alley alleyOne (.tick (alleySceneAt ⟨100, 0, 100⟩) 0) w := by
    refine ⟨rfl, ?_⟩
    simp [handle, tick, hactive, hnone, hw, Except.map, hblind]
  have hmem := (wellFormed_step hwf hstep 0).current_mem hkey
  have hforward : Engine.makeFromX (⟨1, 0, 0⟩ : FVector ℝ) = 0 :=
    makeFromX_eq_zero_iff.mpr ⟨zero_le_one, rfl, rfl⟩
  exact ⟨alleyStart_initial, hforward, _, w, hrun.snoc hstep, hkey, haim,
    fun c => tick_of_zero_aim (List.ne_nil_of_mem hmem) hlocked haim⟩

end Alley

end TurretMaster

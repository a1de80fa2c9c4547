import TurretMaster.Poses
import TurretMaster.TargetLedger

/-!
# What a turret reads and writes

The tick of a turret reads the fields of that turret alone, and writes them,
the delegates of the targets it drops and the shot under way.  So worlds that
differ elsewhere let it do the same.

* `selection_turret_congr` — a selection is a function of the turret;
* `tick_local`, `spawned_local` — the two halves of a tick.
-/

namespace TurretMaster

section LocalTo

variable {ι α K : Type} [DecidableEq α]
variable {L : Level ι α K} {c : Scene ι α K} {w w' v w₁ v₁ : World ι α K} {a : ι}

/-- The change from `w` to `w'` is that of turret `a` and of the delegates of
some targets it drops. -/
structure LocalTo (a : ι) (dropped : List α) (w w' : World ι α K) : Prop where
  turret_ne : ∀ b, b ≠ a → w'.turret b = w.turret b
  onTargetDestroyed : ∀ t, w'.onTargetDestroyed t =
    if t ∈ dropped then [] else w.onTargetDestroyed t

/-- No change is local. -/
theorem LocalTo.refl : LocalTo a [] w w :=
  ⟨fun _ _ => rfl, fun _ => rfl⟩

/-- Local changes add up. -/
theorem LocalTo.trans {dropped dropped' : List α} (h : LocalTo a dropped w w')
    (h' : LocalTo a dropped' w' v) : LocalTo a (dropped ++ dropped') w v := by
  refine ⟨fun b hb => (h'.turret_ne b hb).trans (h.turret_ne b hb), fun t => ?_⟩
  rw [h'.onTargetDestroyed, h.onTargetDestroyed]
  by_cases ht : t ∈ dropped <;> by_cases ht' : t ∈ dropped' <;> simp [ht, ht']

/-- A shot may come or go. -/
theorem LocalTo.spawning {dropped : List α} (h : LocalTo a dropped w w') (shot : Option ι) :
    LocalTo a dropped w { w' with spawning := shot } :=
  ⟨h.turret_ne, h.onTargetDestroyed⟩

/-- **Local changes of two turrets can be exchanged**, if each turret changes
in the same way before and after the other. -/
theorem LocalTo.exchange {b : ι} {dropped dropped' : List α} {wa wb wab wba : World ι α K}
    (hab : b ≠ a) (ha : LocalTo a dropped w wa) (hb : LocalTo b dropped' w wb)
    (hba : LocalTo a dropped wb wba) (hab' : LocalTo b dropped' wa wab)
    (hturret : wba.turret a = wa.turret a) (hturret' : wab.turret b = wb.turret b)
    (hspawning : wab.spawning = wba.spawning) : wab = wba := by
  have hturrets : wab.turret = wba.turret := by
    funext x
    by_cases hxa : x = a
    · subst hxa
      rw [hab'.turret_ne x hab.symm, hturret]
    by_cases hxb : x = b
    · subst hxb
      rw [hba.turret_ne x hab, hturret']
    · rw [hab'.turret_ne x hxb, ha.turret_ne x hxa, hba.turret_ne x hxa, hb.turret_ne x hxb]
  have hbindings : wab.onTargetDestroyed = wba.onTargetDestroyed := by
    funext t
    rw [hab'.onTargetDestroyed, ha.onTargetDestroyed, hba.onTargetDestroyed, hb.onTargetDestroyed]
    by_cases ht : t ∈ dropped <;> by_cases ht' : t ∈ dropped' <;> simp [ht, ht']
  cases wab
  cases wba
  simp_all

variable [Field K] [LinearOrder K] [FloorRing K] [Engine K]

/-- A selection is local to its turret and what it rejects. -/
theorem localTo_selection (h : Selection L c w a w₁) :
    LocalTo a (rejectedTargets L c a (w.turret a)) w w₁ :=
  ⟨h.turret_ne, h.onTargetDestroyed⟩

end LocalTo

/-! ## What the parts of a tick read -/

section Congruence

variable {ι α K : Type}
variable {L : Level ι α K} {c : Scene ι α K} {w w' v w₁ v₁ : World ι α K} {a : ι}

/-- A turret is its fields. -/
theorem ATurret.eq_of_fields {x y : ATurret α K} (hrotation : y.rotationPoint = x.rotationPoint)
    (hactive : y.activeTargets = x.activeTargets) (hcurrent : y.currentTarget = x.currentTarget)
    (haim : y.targetInterceptionRotation = x.targetInterceptionRotation)
    (hflag : y.actorTickEnabled = x.actorTickEnabled) : y = x := by
  cases x
  cases y
  simp_all

variable [Field K] [LinearOrder K] [FloorRing K]

/-- Rotating or firing reads the turret and the shot under way. -/
theorem rotateOrFire_congr [DecidableEq ι] (hturret : v.turret a = w.turret a)
    (hspawning : v.spawning = w.spawning) :
    (rotateOrFire L c v a).turret a = (rotateOrFire L c w a).turret a ∧
      (rotateOrFire L c v a).spawning = (rotateOrFire L c w a).spawning := by
  unfold rotateOrFire fire
  dsimp only
  rw [hturret]
  split_ifs <;> simp [hturret, hspawning]

/-- Turning to idle reads the turret. -/
theorem moveToIdle_turret_congr [DecidableEq ι] [Engine K]
    (hturret : v.turret a = w.turret a) :
    (moveToIdle L c v a).turret a = (moveToIdle L c w a).turret a := by
  simp [moveToIdle, updateTickState, hturret]

variable [DecidableEq α] [Engine K]

/-- **A selection is a function of the turret**: it leaves the same fields in
any two worlds in which it starts from the same ones. -/
theorem selection_turret_congr (hturret : v.turret a = w.turret a)
    (hne : (w.turret a).targets ≠ []) (hw : Selection L c w a w₁) (hv : Selection L c v a v₁) :
    v₁.turret a = w₁.turret a := by
  obtain ⟨t, ht⟩ : ∃ t, (w.turret a).targets.head? = some t :=
    Option.ne_none_iff_exists'.mp fun hnone => hne (List.head?_eq_none_iff.mp hnone)
  have hactive : (v₁.turret a).activeTargets = (w₁.turret a).activeTargets := by
    rw [hv.activeTargets, hw.activeTargets, hturret]
  refine ATurret.eq_of_fields ?_ hactive ?_ ?_ ?_
  · rw [hv.rotationPoint, hw.rotationPoint, hturret]
  · rw [hv.currentTarget, hw.currentTarget, hturret]
  · rw [hv.targetInterceptionRotation t (hturret ▸ ht), hw.targetInterceptionRotation t ht,
      hturret]
  · rw [hv.actorTickEnabled, hw.actorTickEnabled, hactive, hturret]

end Congruence

/-! ## The parts of a tick -/

section Locality

variable {ι α K : Type} [DecidableEq ι] [DecidableEq α]
variable [Field K] [LinearOrder K] [FloorRing K]
variable {L : Level ι α K} {c : Scene ι α K} {w w' v w₁ v₁ : World ι α K} {a : ι}

/-- Rotating or firing is local. -/
theorem localTo_rotateOrFire : LocalTo a [] w (rotateOrFire L c w a) :=
  ⟨fun _ hb => rotateOrFire_turret_ne hb, fun _ => by simp⟩

variable [Engine K]

/-- Turning to idle is local. -/
theorem localTo_moveToIdle : LocalTo a [] w (moveToIdle L c w a) :=
  ⟨fun _ hb => moveToIdle_turret_ne hb, fun _ => by simp⟩

/-- A removal is local to its turret and the target. -/
theorem localTo_removeTarget (t : α) : LocalTo a [t] w (removeTarget c w a t) := by
  refine ⟨fun b hb => removeTarget_turret_ne hb, fun s => ?_⟩
  by_cases hs : s = t
  · subst hs
    simp
  · simp [removeTarget_onTargetDestroyed_ne hs, hs]

/-- So a world and a turret have one selection. -/
theorem selection_unique (hne : (w.turret a).targets ≠ []) (h : Selection L c w a w₁)
    (h' : Selection L c w a v₁) : v₁ = w₁ := by
  have hself : v₁.turret a = w₁.turret a := selection_turret_congr rfl hne h h'
  have hturrets : v₁.turret = w₁.turret := by
    funext b
    by_cases hb : b = a
    · rw [hb, hself]
    · rw [h'.turret_ne b hb, h.turret_ne b hb]
  have hbindings : v₁.onTargetDestroyed = w₁.onTargetDestroyed := by
    funext t
    rw [h'.onTargetDestroyed, h.onTargetDestroyed]
  have hspawning : v₁.spawning = w₁.spawning := h'.spawning.trans h.spawning.symm
  cases v₁
  cases w₁
  simp_all

/-- A removal reads the turret. -/
theorem removeTarget_turret_congr (hturret : v.turret a = w.turret a) (t : α) :
    (removeTarget c v a t).turret a = (removeTarget c w a t).turret a := by
  rw [removeTarget_turret_self, removeTarget_turret_self, hturret]

/-! ## The two halves of a tick -/

/-- **A tick is local.** What a tick does in one world it does in every other
in which the turret has the same fields and no shot is under way. -/
theorem tick_local (hwf : (w.turret a).WellFormed L) (hturret : v.turret a = w.turret a)
    (hquiet : v.spawning = none) (hstep : Step L w (.tick c a) w') :
    ∃ v' dropped, Step L v (.tick c a) v' ∧ v'.turret a = w'.turret a ∧
      v'.spawning = w'.spawning ∧ LocalTo a dropped w w' ∧ LocalTo a dropped v v' := by
  have hsame : v.spawning = w.spawning := hquiet.trans hstep.1.symm
  cases step_effect hstep with
  | idled hempty =>
      refine ⟨moveToIdle L c v a, [], ⟨hquiet, ?_⟩, moveToIdle_turret_congr hturret, hsame,
        localTo_moveToIdle, localTo_moveToIdle⟩
      simp [handle, tick, hturret, hempty]
  | tracked hne hkey =>
      obtain ⟨hafter, hshot⟩ := rotateOrFire_congr (L := L) (c := c) hturret hsame
      refine ⟨rotateOrFire L c v a, [], ⟨hquiet, ?_⟩, hafter, hshot, localTo_rotateOrFire,
        localTo_rotateOrFire⟩
      exact tick_of_locked L c (by rwa [hturret]) (by rwa [hturret])
  | @selected c a w₁ hne hkey hdetermine =>
      have hselect := hwf.selection hne hdetermine
      obtain ⟨v₁, hdetermine', hselect'⟩ := determineNewTarget_wellFormed (L := L) (c := c)
        (w := v) (a := a) (by rwa [hturret]) (by rwa [hturret])
      have htargets : (w.turret a).targets ≠ [] := by
        intro hnil
        rw [ATurret.activeTargets_eq hwf.notNull, hnil] at hne
        exact hne rfl
      have hchosen := selection_turret_congr hturret htargets hselect hselect'
      have hstill : v₁.spawning = w₁.spawning := by
        rw [hselect'.spawning, hselect.spawning, hsame]
      obtain ⟨hafter, hshot⟩ := rotateOrFire_congr (L := L) (c := c) hchosen hstill
      have hlocal := (localTo_selection hselect').trans
        (localTo_rotateOrFire (L := L) (c := c))
      rw [hturret] at hlocal
      refine ⟨rotateOrFire L c v₁ a, _, ⟨hquiet, ?_⟩, hafter, hshot,
        (localTo_selection hselect).trans localTo_rotateOrFire, hlocal⟩
      have hmore : (v.turret a).activeTargets.isEmpty = false := by
        rw [hturret]
        exact List.isEmpty_eq_false_iff.mpr hne
      have hfree : (v.turret a).currentTarget.key = none := by rw [hturret, hkey]
      simp only [handle, tick, hmore, Bool.false_eq_true, if_false, hfree, if_true, hdetermine']
      rfl

/-- **The end of a tick is local** to the turret whose projectile has
spawned. -/
theorem spawned_local (hturret : v.turret a = w.turret a) (hspawning : w.spawning = some a)
    (hspawning' : v.spawning = some a) (hstep : Step L w (.spawned c) w') :
    ∃ v' dropped, Step L v (.spawned c) v' ∧ v'.turret a = w'.turret a ∧
      LocalTo a dropped w w' ∧ LocalTo a dropped v v' := by
  have henabled : Enabled L v (.spawned c : Event ι α K) := by simp [Enabled, hspawning']
  cases step_effect hstep with
  | @released c b hb hkey =>
      refine ⟨{ v with spawning := none }, [], ⟨henabled, ?_⟩, hturret, LocalTo.refl.spawning none,
        LocalTo.refl.spawning none⟩
      obtain rfl := Option.some.inj (hspawning.symm.trans hb)
      simp only [handle, hspawning', tickAfterFire, hturret, hkey, tryRemoveActiveTarget]
      rfl
  | @fired c b t hb hkey hnative =>
      obtain rfl := Option.some.inj (hspawning.symm.trans hb)
      refine ⟨{ removeTarget c v a t with spawning := none }, [t], ⟨henabled, ?_⟩,
        removeTarget_turret_congr hturret t, (localTo_removeTarget t).spawning none,
        (localTo_removeTarget t).spawning none⟩
      simp only [handle, hspawning', tickAfterFire, hturret, hkey, tryRemoveActiveTarget, hnative]
      rfl

end Locality

end TurretMaster

import TurretMaster.Runs
import TurretMaster.TargetSelection

/-!
# The system of turrets and targets

Any number of turrets and targets, driven by the engine: overlap events reach
a turret per component of the other actor, targets die, turrets tick, and a
projectile that a `Fire` spawns arrives.  Each event brings the `Scene` its
handlers see.  Between the `tick` that fires and its `spawned` no turret ticks,
but every other event may be delivered.

`Effect` lists, once, everything a step can do; `step_effect` says so, and the
invariants are proved from it without opening a handler again.
-/

namespace TurretMaster

/-- One callback of the engine. `otherComp` numbers the components of the
other actor. -/
inductive Event (ι α K : Type)
  | beginOverlap (c : Scene ι α K) (a : ι) (otherActor : Option α) (otherComp : ℕ)
  | endOverlap (c : Scene ι α K) (a : ι) (otherActor : Option α) (otherComp : ℕ)
  | death (c : Scene ι α K) (t : α)
  | tick (c : Scene ι α K) (a : ι)
  | spawned (c : Scene ι α K)

/-- The scene an event brings. -/
def Event.scene {ι α K : Type} : Event ι α K → Scene ι α K
  | .beginOverlap c _ _ _ => c
  | .endOverlap c _ _ _ => c
  | .death c _ => c
  | .tick c _ => c
  | .spawned c => c

/-! ## What rotation and tick state leave alone -/

section Turns

variable {ι α K : Type}

/-- Two turrets with the same list, current target and aim. -/
structure SameTargeting (u v : ATurret α K) : Prop where
  activeTargets : v.activeTargets = u.activeTargets
  currentTarget : v.currentTarget = u.currentTarget
  targetInterceptionRotation :
    v.targetInterceptionRotation = u.targetInterceptionRotation

/-- A turret agrees with itself. -/
theorem SameTargeting.refl (u : ATurret α K) : SameTargeting u u := ⟨rfl, rfl, rfl⟩

variable [DecidableEq ι] [Field K] [LinearOrder K] [FloorRing K]
variable {L : Level ι α K} {c : Scene ι α K} {w : World ι α K} {a b : ι}

/-- Rotating or firing leaves the other turrets alone. -/
theorem rotateOrFire_turret_ne (h : b ≠ a) :
    (rotateOrFire L c w a).turret b = w.turret b := by
  unfold rotateOrFire fire
  dsimp only
  split_ifs <;> simp [World.modify_turret_ne _ _ h]

/-- Rotating or firing leaves the delegates alone. -/
@[simp] theorem rotateOrFire_onTargetDestroyed :
    (rotateOrFire L c w a).onTargetDestroyed = w.onTargetDestroyed := by
  unfold rotateOrFire fire
  dsimp only
  split_ifs <;> rfl

/-- Rotating or firing changes no targeting. -/
theorem sameTargeting_rotateOrFire (b : ι) :
    SameTargeting (w.turret b) ((rotateOrFire L c w a).turret b) := by
  by_cases hb : b = a
  · subst hb
    unfold rotateOrFire fire
    dsimp only
    split_ifs <;> constructor <;> simp
  · rw [rotateOrFire_turret_ne hb]
    exact .refl _

variable [Engine K]

/-- Updating the tick flag leaves the other turrets alone. -/
theorem updateTickState_turret_ne (h : b ≠ a) :
    (updateTickState c w a).turret b = w.turret b :=
  World.modify_turret_ne w _ h

/-- Updating the tick flag leaves the delegates alone. -/
@[simp] theorem updateTickState_onTargetDestroyed :
    (updateTickState c w a).onTargetDestroyed = w.onTargetDestroyed := rfl

/-- Turning to idle leaves the other turrets alone. -/
theorem moveToIdle_turret_ne (h : b ≠ a) :
    (moveToIdle L c w a).turret b = w.turret b := by
  simp [moveToIdle, updateTickState, World.modify_turret_ne _ _ h]

/-- Turning to idle leaves the delegates alone. -/
@[simp] theorem moveToIdle_onTargetDestroyed :
    (moveToIdle L c w a).onTargetDestroyed = w.onTargetDestroyed := rfl

/-- Updating the tick flag changes no targeting. -/
theorem sameTargeting_updateTickState (b : ι) :
    SameTargeting (w.turret b) ((updateTickState c w a).turret b) := by
  by_cases hb : b = a
  · subst hb
    constructor <;> simp [updateTickState, ATurret.updateTickState_eq]
  · rw [updateTickState_turret_ne hb]
    exact .refl _

/-- Turning to idle changes no targeting. -/
theorem sameTargeting_moveToIdle (b : ι) :
    SameTargeting (w.turret b) ((moveToIdle L c w a).turret b) := by
  by_cases hb : b = a
  · subst hb
    constructor <;>
      simp [moveToIdle, updateTickState, ATurret.updateTickState_eq]
  · rw [moveToIdle_turret_ne hb]
    exact .refl _

end Turns

section System

variable {ι α K : Type} [DecidableEq ι] [DecidableEq α]
variable [Field K] [LinearOrder K] [FloorRing K] [Engine K] (L : Level ι α K)

/-- No turret ticks while a projectile spawns, and `Death` is a method of
`ATargetProjectile`, an `ITargetable`. -/
def Enabled (w : World ι α K) : Event ι α K → Prop
  | .beginOverlap _ _ _ _ => True
  | .endOverlap _ _ _ _ => True
  | .death _ t => L.native t = true
  | .tick _ _ => w.spawning = none
  | .spawned _ => w.spawning ≠ none

/-- The handler of an event. -/
def handle (w : World ι α K) : Event ι α K → Except Fault (World ι α K)
  | .beginOverlap c a otherActor _ => onBeginOverlap L c w a otherActor
  | .endOverlap c a otherActor _ => onEndOverlap L c w a otherActor
  | .death c t => death L c w t
  | .tick c a => tick L c w a
  | .spawned c =>
      match w.spawning with
      | some a => tickAfterFire L c w a
      | none => .ok w

/-- An enabled event whose handler returns. -/
def Step (w : World ι α K) (e : Event ι α K) (w' : World ι α K) : Prop :=
  Enabled L w e ∧ handle L w e = .ok w'

/-- No tracked targets, no bindings, no shot under way. -/
structure Initial (w : World ι α K) : Prop where
  activeTargets : ∀ a, (w.turret a).activeTargets = []
  currentTarget : ∀ a, (w.turret a).currentTarget = ⟨none, FGameplayTag.empty⟩
  onTargetDestroyed : ∀ t, w.onTargetDestroyed t = []
  spawning : w.spawning = none

/-! ## Admission and removal -/

variable (c : Scene ι α K)

/-- The world after the admission of a target. -/
def admitTarget (w : World ι α K) (a : ι) (t : α) : World ι α K :=
  updateTickState c ((w.bind t a).modify a
    (fun u => { u with activeTargets := u.activeTargets ++ [some t] })) a

/-- The world after the removal of a target. -/
def removeTarget (w : World ι α K) (a : ι) (t : α) : World ι α K :=
  updateTickState c ((w.clear t).modify a (fun u => u.dropTarget t)) a

section Lemmas

variable {L c} {w w' : World ι α K} {a b : ι} {s t : α}

/-- An admission leaves the other turrets alone. -/
theorem admitTarget_turret_ne (h : b ≠ a) :
    (admitTarget c w a t).turret b = w.turret b := by
  simp [admitTarget, updateTickState, World.modify_turret_ne _ _ h]

/-- A removal leaves the other turrets alone. -/
theorem removeTarget_turret_ne (h : b ≠ a) :
    (removeTarget c w a t).turret b = w.turret b := by
  simp [removeTarget, updateTickState, World.modify_turret_ne _ _ h]

/-- A removal empties the delegate of the target. -/
@[simp] theorem removeTarget_onTargetDestroyed_self :
    (removeTarget c w a t).onTargetDestroyed t = [] := by
  simp [removeTarget, updateTickState]

/-- A removal leaves the other delegates alone. -/
theorem removeTarget_onTargetDestroyed_ne (h : s ≠ t) :
    (removeTarget c w a t).onTargetDestroyed s = w.onTargetDestroyed s := by
  simp [removeTarget, updateTickState, World.clear_onTargetDestroyed_ne _ h]

/-- An admission binds the turret last. -/
@[simp] theorem admitTarget_onTargetDestroyed_self :
    (admitTarget c w a t).onTargetDestroyed t = w.onTargetDestroyed t ++ [a] := by
  simp [admitTarget]

/-- An admission leaves the other delegates alone. -/
theorem admitTarget_onTargetDestroyed_ne (h : s ≠ t) :
    (admitTarget c w a t).onTargetDestroyed s = w.onTargetDestroyed s := by
  simp [admitTarget, World.bind_onTargetDestroyed_ne _ h]

/-- The turret after a removal. -/
theorem removeTarget_turret_self :
    (removeTarget c w a t).turret a =
      ((w.turret a).dropTarget t).updateTickState (getIdleRotation c a) := by
  simp [removeTarget, updateTickState]

/-- A removal drops every entry of the target. -/
@[simp] theorem removeTarget_activeTargets :
    ((removeTarget c w a t).turret a).activeTargets =
      (w.turret a).activeTargets.filter (· ≠ some t) := by
  rw [removeTarget_turret_self, ATurret.updateTickState_eq, ATurret.dropTarget_eq]

/-- A removal releases the target if it is the current one. -/
@[simp] theorem removeTarget_currentTarget :
    ((removeTarget c w a t).turret a).currentTarget =
      if (w.turret a).currentTarget.key = some t then ⟨none, FGameplayTag.empty⟩
      else (w.turret a).currentTarget := by
  rw [removeTarget_turret_self, ATurret.updateTickState_eq, ATurret.dropTarget_eq]

/-- A removal keeps the aim. -/
@[simp] theorem removeTarget_targetInterceptionRotation :
    ((removeTarget c w a t).turret a).targetInterceptionRotation =
      (w.turret a).targetInterceptionRotation := by
  rw [removeTarget_turret_self, ATurret.updateTickState_eq, ATurret.dropTarget_eq]

end Lemmas

/-! ## Targeting is left alone by rotation and tick state -/

section SameTargeting

variable {L c} {w : World ι α K} {a : ι}

/-- An admitted turret is the old one with a longer list. -/
theorem admitTarget_sameTargeting {t : α} :
    SameTargeting { w.turret a with
      activeTargets := (w.turret a).activeTargets ++ [some t] }
      ((admitTarget c w a t).turret a) := by
  constructor <;> simp [admitTarget, updateTickState, ATurret.updateTickState_eq]

end SameTargeting

/-! ## What a step can do -/

/-- Everything one event can do to the world. -/
inductive Effect (w : World ι α K) : Event ι α K → World ι α K → Prop
  | ignoredBegin {c a otherActor k}
      (hother : ∀ t, otherActor = some t → L.implements t = true →
        c.isTargetable t = true →
        (L.targetableTags a).hasAnyExact (c.targetTags t) = true →
        some t ∈ (w.turret a).activeTargets) :
      Effect w (.beginOverlap c a otherActor k) (updateTickState c w a)
  | admitted {c a t k} (himplements : L.implements t = true)
      (htargetable : c.isTargetable t = true)
      (htags : (L.targetableTags a).hasAnyExact (c.targetTags t) = true)
      (hnative : L.native t = true)
      (hnew : some t ∉ (w.turret a).activeTargets) :
      Effect w (.beginOverlap c a (some t) k) (admitTarget c w a t)
  | ignoredEnd {c a otherActor k}
      (hother : ∀ t, otherActor = some t → L.implements t = false) :
      Effect w (.endOverlap c a otherActor k) w
  | left {c a t k} (himplements : L.implements t = true) (hnative : L.native t = true) :
      Effect w (.endOverlap c a (some t) k) (removeTarget c w a t)
  | unheard {c t} (hunbound : w.onTargetDestroyed t = []) : Effect w (.death c t) w
  | destroyed {c t b} (hnative : L.native t = true)
      (hfirst : (L.broadcastOrder (w.onTargetDestroyed t)).head? = some b) :
      Effect w (.death c t) (removeTarget c w b t)
  | idled {c a} (hempty : (w.turret a).activeTargets = []) :
      Effect w (.tick c a) (moveToIdle L c w a)
  | tracked {c a} (hne : (w.turret a).activeTargets ≠ [])
      (hkey : (w.turret a).currentTarget.key ≠ none) :
      Effect w (.tick c a) (rotateOrFire L c w a)
  | selected {c a w₁} (hne : (w.turret a).activeTargets ≠ [])
      (hkey : (w.turret a).currentTarget.key = none)
      (hselect : determineNewTarget L c w a = .ok w₁) :
      Effect w (.tick c a) (rotateOrFire L c w₁ a)
  | released {c a} (hspawning : w.spawning = some a)
      (hkey : (w.turret a).currentTarget.key = none) :
      Effect w (.spawned c) { w with spawning := none }
  | fired {c a t} (hspawning : w.spawning = some a)
      (hkey : (w.turret a).currentTarget.key = some t) (hnative : L.native t = true) :
      Effect w (.spawned c) { removeTarget c w a t with spawning := none }

variable {L}

/-- **Death calls one handler.** The first handler a broadcast calls clears
the delegate, so no other turret hears of the death. -/
theorem death_eq {w : World ι α K} {t : α} (hnative : L.native t = true) :
    death L c w t =
      match (L.broadcastOrder (w.onTargetDestroyed t)).head? with
      | none => .ok w
      | some b => .ok (removeTarget c w b t) := by
  have hperm := L.broadcastOrder_perm (w.onTargetDestroyed t)
  unfold death
  cases horder : L.broadcastOrder (w.onTargetDestroyed t) with
  | nil => rfl
  | cons b rest =>
      have hb : b ∈ w.onTargetDestroyed t :=
        hperm.mem_iff.mp (by rw [horder]; exact List.mem_cons_self)
      have hcall : tryRemoveActiveTarget L c w b (some t) = .ok (removeTarget c w b t) := by
        simp [tryRemoveActiveTarget, hnative, removeTarget]
      rw [Multicast.broadcast_cons_clearing (by simpa using hb), hcall]
      · rfl
      · intro w' hw' b' _
        rw [hcall] at hw'
        obtain rfl := Except.ok.inj hw'
        simp

/-- **Nothing else happens**: every step has one of the listed effects. -/
theorem step_effect {w w' : World ι α K} {e : Event ι α K} (h : Step L w e w') :
    Effect L w e w' := by
  obtain ⟨henabled, hhandle⟩ := h
  cases e with
  | beginOverlap c a otherActor k =>
      cases otherActor with
      | none =>
          obtain rfl := Except.ok.inj hhandle
          exact .ignoredBegin (by simp)
      | some t =>
          simp only [handle, onBeginOverlap] at hhandle
          split at hhandle
          next himplements =>
            split at hhandle
            next hold =>
              obtain rfl := Except.ok.inj hhandle
              refine .ignoredBegin ?_
              rintro s ⟨⟩ _ htargetable _
              simpa [htargetable] using hold
            next hnew =>
              split at hhandle
              next htags =>
                obtain rfl := Except.ok.inj hhandle
                refine .ignoredBegin ?_
                rintro s ⟨⟩ _ _ hmatch
                simp [hmatch] at htags
              next htags =>
                split at hhandle
                next hnative =>
                  obtain rfl := Except.ok.inj hhandle
                  simp only [Bool.or_eq_true, decide_eq_true_eq, Bool.not_eq_true',
                    not_or, Bool.not_eq_false] at hnew htags
                  exact .admitted himplements hnew.2 htags hnative hnew.1
                next => cases hhandle
          next hother =>
            obtain rfl := Except.ok.inj hhandle
            refine .ignoredBegin ?_
            rintro s ⟨⟩ himplements
            exact absurd himplements hother
  | endOverlap c a otherActor k =>
      cases otherActor with
      | none =>
          obtain rfl := Except.ok.inj hhandle
          exact .ignoredEnd (by simp)
      | some t =>
          simp only [handle, onEndOverlap] at hhandle
          split at hhandle
          next himplements =>
            obtain ⟨hnative, rfl⟩ := tryRemoveActiveTarget_ok_some L c hhandle
            exact .left himplements hnative
          next himplements =>
            obtain rfl := Except.ok.inj hhandle
            exact .ignoredEnd (by simpa using himplements)
  | death c t =>
      simp only [handle, death_eq c henabled] at hhandle
      cases hfirst : (L.broadcastOrder (w.onTargetDestroyed t)).head? with
      | none =>
          rw [hfirst] at hhandle
          obtain rfl := Except.ok.inj hhandle
          have hperm := L.broadcastOrder_perm (w.onTargetDestroyed t)
          rw [List.head?_eq_none_iff.mp hfirst] at hperm
          exact .unheard hperm.nil_eq.symm
      | some b =>
          rw [hfirst] at hhandle
          obtain rfl := Except.ok.inj hhandle
          exact .destroyed henabled hfirst
  | tick c a =>
      simp only [handle, tick] at hhandle
      split at hhandle
      next hempty =>
        obtain rfl := Except.ok.inj hhandle
        exact .idled (List.isEmpty_iff.mp hempty)
      next hne =>
        replace hne : (w.turret a).activeTargets ≠ [] := fun h => hne (by simp [h])
        split at hhandle
        next hkey =>
          cases hselect : determineNewTarget L c w a with
          | error fault => simp [hselect, Except.map] at hhandle
          | ok w₁ =>
              obtain rfl := by simpa [hselect, Except.map] using hhandle
              exact .selected hne hkey hselect
        next hkey =>
          obtain rfl := Except.ok.inj hhandle
          exact .tracked hne hkey
  | spawned c =>
      cases hspawning : w.spawning with
      | none => exact absurd hspawning henabled
      | some a =>
          simp only [handle, hspawning, tickAfterFire] at hhandle
          cases hkey : (w.turret a).currentTarget.key with
          | none =>
              obtain rfl := by simpa [hkey, tryRemoveActiveTarget, Except.map] using hhandle
              exact .released hspawning hkey
          | some t =>
              rw [hkey] at hhandle
              cases hremove : tryRemoveActiveTarget L c w a (some t) with
              | error fault => simp [hremove, Except.map] at hhandle
              | ok w₁ =>
                  obtain ⟨hnative, rfl⟩ := tryRemoveActiveTarget_ok_some L c hremove
                  obtain rfl := by simpa [hremove, Except.map] using hhandle
                  exact .fired hspawning hkey hnative

end System

end TurretMaster

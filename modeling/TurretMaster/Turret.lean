import TurretMaster.Multicast
import TurretMaster.Targetable
import TurretMaster.InterceptionHandler

/-!
# The turret

The fields and functions of `ATurret`, and `ATargetProjectile::Death`.  Turrets
are named by `ι`, actors by `α`; a pointer to an actor is an `Option α`.

A target's `OnTargetDestroyed` delegate is shared by all turrets, so functions
that touch it work on the `World`: every turret, every delegate, and the turret
whose `Fire` is spawning its projectile.  While a projectile spawns, overlap and
death events may reach any turret; `tick` therefore stops at the call of `Fire`
and `tickAfterFire` is what is left of it.

An assertion of the code or of an engine call it makes is a `Fault`.
-/

namespace TurretMaster

variable {ι α K : Type}

/-- `TTuple<TObjectPtr<AActor>, FGameplayTag> CurrentTarget`. -/
structure CurrentTarget (α : Type) where
  key : Option α
  value : FGameplayTag
deriving DecidableEq

/-- The fields of a turret that change during play; `rotationPoint` is the
world rotation of its `RotationPoint` component. -/
structure ATurret (α K : Type) where
  rotationPoint : FRotator K
  activeTargets : List (Option α)
  currentTarget : CurrentTarget α
  targetInterceptionRotation : FRotator K
  actorTickEnabled : Bool

/-- What stays fixed during play.  `implements` is the class flag
`Implements<UTargetable>()`, `native` says that the class derives from
`ITargetable` in C++, so that a checked cast succeeds. The order in which a
broadcast walks an invocation list is the engine's. -/
structure Level (ι α K : Type) where
  implements : α → Bool
  native : α → Bool
  native_implements : ∀ t, native t = true → implements t = true
  targetableTags : ι → FGameplayTagContainer
  range : ι → K
  turnSpeed : ι → K
  broadcastOrder : List ι → List ι
  broadcastOrder_perm : ∀ bindings, (broadcastOrder bindings).Perm bindings

/-- What the engine and the actors report while one callback runs. -/
structure Scene (ι α K : Type) where
  isTargetable : α → Bool
  targetTags : α → FGameplayTagContainer
  targetData : α → FTargetData K
  actorLocation : ι → FVector K
  actorForwardVector : ι → FVector K
  rotationPointLocation : ι → FVector K
  centerMuzzleLocation : ι → FVector K
  turretAreaRadius : ι → K
  deltaSeconds : K

/-- All turrets, the owners of the bindings on each target's
`OnTargetDestroyed` in the order they were made, and the turret whose `Fire`
is running. -/
structure World (ι α K : Type) where
  turret : ι → ATurret α K
  onTargetDestroyed : α → List ι
  spawning : Option ι

/-- An assertion that failed: `check(CurrentTarget.Key)`, a `CastChecked`, the
interface check of an `Execute_` call, or a null target that is dereferenced. -/
inductive Fault
  | checkCurrentTarget
  | castChecked
  | notTargetable
  | nullTarget
deriving DecidableEq

namespace World

variable (w : World ι α K) {a b : ι} {s t : α} (f : ATurret α K → ATurret α K)

section Turrets

variable [DecidableEq ι]

/-- Change one turret. -/
def modify (w : World ι α K) (a : ι) (f : ATurret α K → ATurret α K) :
    World ι α K :=
  { w with turret := Function.update w.turret a (f (w.turret a)) }

/-- A modification is the one of the turret itself. -/
@[simp] theorem modify_turret_self : (w.modify a f).turret a = f (w.turret a) := by
  simp [modify]

/-- A modification leaves the other turrets alone. -/
theorem modify_turret_ne (h : b ≠ a) : (w.modify a f).turret b = w.turret b := by
  simp [modify, h]

/-- Two modifications of a turret are one. -/
@[simp] theorem modify_modify (g : ATurret α K → ATurret α K) :
    (w.modify a f).modify a g = w.modify a (fun u => g (f u)) := by
  simp [modify]

/-- A modification leaves the delegates alone. -/
@[simp] theorem modify_onTargetDestroyed :
    (w.modify a f).onTargetDestroyed = w.onTargetDestroyed := rfl

/-- A modification leaves the shot under way alone. -/
@[simp] theorem modify_spawning : (w.modify a f).spawning = w.spawning := rfl

end Turrets

section Delegates

variable [DecidableEq α]

/-- `AddLambda` of turret `a` on the delegate of `t`. -/
def bind (w : World ι α K) (t : α) (a : ι) : World ι α K :=
  { w with onTargetDestroyed :=
      Function.update w.onTargetDestroyed t (w.onTargetDestroyed t ++ [a]) }

/-- `Clear` on the delegate of `t`: every binding goes, whoever made it. -/
def clear (w : World ι α K) (t : α) : World ι α K :=
  { w with onTargetDestroyed := Function.update w.onTargetDestroyed t [] }

/-- A binding leaves the turrets alone. -/
@[simp] theorem bind_turret : (w.bind t a).turret = w.turret := rfl

/-- A binding leaves the shot under way alone. -/
@[simp] theorem bind_spawning : (w.bind t a).spawning = w.spawning := rfl

/-- A binding is added at the end. -/
@[simp] theorem bind_onTargetDestroyed_self :
    (w.bind t a).onTargetDestroyed t = w.onTargetDestroyed t ++ [a] := by
  simp [bind]

/-- A binding leaves the other delegates alone. -/
theorem bind_onTargetDestroyed_ne (h : s ≠ t) :
    (w.bind t a).onTargetDestroyed s = w.onTargetDestroyed s := by
  simp [bind, h]

/-- Clearing a delegate leaves the turrets alone. -/
@[simp] theorem clear_turret : (w.clear t).turret = w.turret := rfl

/-- Clearing a delegate leaves the shot under way alone. -/
@[simp] theorem clear_spawning : (w.clear t).spawning = w.spawning := rfl

/-- Clearing a delegate and modifying a turret commute. -/
theorem clear_modify [DecidableEq ι] :
    (w.modify a f).clear t = (w.clear t).modify a f := rfl

/-- A cleared delegate is empty. -/
@[simp] theorem clear_onTargetDestroyed_self :
    (w.clear t).onTargetDestroyed t = [] := by
  simp [clear]

/-- Clearing a delegate leaves the others alone. -/
theorem clear_onTargetDestroyed_ne (h : s ≠ t) :
    (w.clear t).onTargetDestroyed s = w.onTargetDestroyed s := by
  simp [clear, h]

end Delegates

end World

/-! ## A turret's own fields -/

namespace ATurret

section Rotation

variable [Field K] [LinearOrder K]

/-- `SetYaw`: interpolates the yaw. -/
def setYaw (u : ATurret α K) (targetYaw deltaSeconds turnSpeed : K) : ATurret α K :=
  { u with rotationPoint :=
      { u.rotationPoint with
        yaw := FMath.fInterpTo u.rotationPoint.yaw targetYaw deltaSeconds turnSpeed } }

/-- `SetPitch`: interpolates the pitch and clamps it. -/
def setPitch (u : ATurret α K) (targetPitch deltaSeconds turnSpeed : K) :
    ATurret α K :=
  { u with rotationPoint :=
      { u.rotationPoint with
        pitch := FMath.clamp
          (FMath.fInterpTo u.rotationPoint.pitch targetPitch deltaSeconds turnSpeed)
          (-70) 80 } }

/-- `SetPitch` and then `SetYaw`, as `Tick` and `MoveToIdle` call them. -/
def turnTowards (u : ATurret α K) (target : FRotator K)
    (deltaSeconds turnSpeed : K) : ATurret α K :=
  (u.setPitch target.pitch deltaSeconds turnSpeed).setYaw target.yaw
    deltaSeconds turnSpeed

section Lemmas

variable (u : ATurret α K) (target : FRotator K) (deltaSeconds turnSpeed : K)

/-- A turn leaves the list alone. -/
@[simp] theorem turnTowards_activeTargets :
    (u.turnTowards target deltaSeconds turnSpeed).activeTargets = u.activeTargets := rfl

/-- A turn leaves the current target alone. -/
@[simp] theorem turnTowards_currentTarget :
    (u.turnTowards target deltaSeconds turnSpeed).currentTarget = u.currentTarget := rfl

/-- A turn leaves the aim alone. -/
@[simp] theorem turnTowards_targetInterceptionRotation :
    (u.turnTowards target deltaSeconds turnSpeed).targetInterceptionRotation =
      u.targetInterceptionRotation := rfl

/-- A turn leaves the tick flag alone. -/
@[simp] theorem turnTowards_actorTickEnabled :
    (u.turnTowards target deltaSeconds turnSpeed).actorTickEnabled =
      u.actorTickEnabled := rfl

end Lemmas

variable [FloorRing K]

/-- `UpdateTickState` on the fields of a turret. -/
def updateTickState (u : ATurret α K) (idleRotation : FRotator K) : ATurret α K :=
  let bHasTargets := !u.activeTargets.isEmpty
  let bInIdlePos := u.rotationPoint.equals idleRotation 1
  let bIsTicking := u.actorTickEnabled
  if !bIsTicking && (bHasTargets || (!bHasTargets && !bInIdlePos)) then
    { u with actorTickEnabled := true }
  else if bIsTicking && !bHasTargets && bInIdlePos then
    { u with actorTickEnabled := false }
  else u

/-- **Whatever the flag was, `UpdateTickState` leaves it equal to "has targets
or is away from the idle pose"**, and it touches nothing else. -/
theorem updateTickState_eq (u : ATurret α K) (idleRotation : FRotator K) :
    u.updateTickState idleRotation =
      { u with actorTickEnabled :=
          !u.activeTargets.isEmpty || !u.rotationPoint.equals idleRotation 1 } := by
  obtain ⟨rotation, active, current, aim, flag⟩ := u
  unfold updateTickState
  cases flag <;> cases active <;> cases hidle : rotation.equals idleRotation 1 <;>
    simp

end Rotation

section Targets

variable [DecidableEq α]

/-- What `TryRemoveActiveTarget` does to the turret's own fields. -/
def dropTarget (u : ATurret α K) (t : α) : ATurret α K :=
  let u :=
    if some t ∈ u.activeTargets then
      { u with activeTargets := u.activeTargets.filter (· ≠ some t) }
    else u
  if u.currentTarget.key = some t then
    { u with currentTarget := ⟨none, FGameplayTag.empty⟩ }
  else u

/-- A removal filters the list and releases the current target if it is the
one removed. -/
theorem dropTarget_eq (u : ATurret α K) (t : α) :
    u.dropTarget t =
      { u with
        activeTargets := u.activeTargets.filter (· ≠ some t)
        currentTarget :=
          if u.currentTarget.key = some t then ⟨none, FGameplayTag.empty⟩
          else u.currentTarget } := by
  unfold dropTarget
  by_cases hmem : some t ∈ u.activeTargets
  · by_cases hkey : u.currentTarget.key = some t <;> simp [hmem, hkey]
  · have hfilter : u.activeTargets.filter (· ≠ some t) = u.activeTargets :=
      List.filter_eq_self.mpr (fun s hs => by
        have hne : s ≠ some t := fun heq => hmem (heq ▸ hs)
        simpa using hne)
    rw [hfilter]
    by_cases hkey : u.currentTarget.key = some t <;> simp [hmem, hkey]

end Targets

end ATurret

/-- How far a rotation is from where the turns towards a target end: at its yaw
and at its pitch, clamped to the limits of `SetPitch`. -/
def wayTo [Field K] [LinearOrder K] (target rotation : FRotator K) : K :=
  |FMath.clamp target.pitch (-70) 80 - rotation.pitch| + |target.yaw - rotation.yaw|

/-! ## Interception -/

section Interception

variable [Field K] [LinearOrder K] [Engine K] (L : Level ι α K) (c : Scene ι α K)

/-- `IsPointWithinRange`. -/
def isPointWithinRange (a : ι) (point : FVector K) : Bool :=
  point.dist (c.actorLocation a) ≤ L.range a

/-- `CalculateInterceptionPoint_Stationary`. -/
def calculateInterceptionPointStationary (a : ι) (targetData : FTargetData K) :
    Bool × FVector K :=
  (isPointWithinRange L c a targetData.location, targetData.location)

/-- `CalculateInterceptionPoint_ProjectileNoGravity`. -/
def calculateInterceptionPointProjectileNoGravity (a : ι) (turretRot : FRotator K)
    (targetData : FTargetData K) : Bool × FVector K :=
  InterceptionHandler.predictInterceptionPoint (c.centerMuzzleLocation a) turretRot
    targetData.location targetData.velocity 3000 (L.turnSpeed a) (c.turretAreaRadius a)

/-- `bValidInterceptionPoint` and `InterceptionPoint` for a target of the given
type; the point is the zero vector where no calculation sets it. -/
def calculateInterceptionPoint (a : ι) (turretRot : FRotator K)
    (targetType : FGameplayTag) (targetData : FTargetData K) : Bool × FVector K :=
  if targetType.matchesTagExact TMGameplayTags.targetTypeStationary then
    calculateInterceptionPointStationary L c a targetData
  else if targetType.matchesTagExact TMGameplayTags.targetTypeProjectileNoGravity then
    calculateInterceptionPointProjectileNoGravity L c a turretRot targetData
  else if targetType.matchesTagExact TMGameplayTags.targetTypeProjectileGravity then
    (false, 0)
  else (false, 0)

/-- The rotation from `RotationPoint` to an interception point. -/
def interceptionRotation (a : ι) (interceptionPoint : FVector K) : FRotator K :=
  Engine.makeFromX (interceptionPoint - c.rotationPointLocation a).normalize

/-- The forward rotation of the actor, 25 degrees up. -/
def getIdleRotation (a : ι) : FRotator K :=
  let forwardRot := Engine.makeFromX (c.actorForwardVector a)
  { forwardRot with pitch := forwardRot.pitch + 25 }

end Interception

/-- The last tag of the container below `TargetType`, and whether there is
one; without one the tag passed in is left as it is. -/
def determineTargetType (tagContainer : FGameplayTagContainer)
    (targetType : FGameplayTag) : Bool × FGameplayTag :=
  tagContainer.foldl
    (fun found tag =>
      if tag.matchesTag TMGameplayTags.targetType then (true, tag) else found)
    (false, targetType)

section Selection

variable [DecidableEq ι] (L : Level ι α K) (c : Scene ι α K)

/-- The loop at the head of `DetermineNewTarget`, which breaks after its first
element. -/
def selectTarget (w : World ι α K) (a : ι) : Except Fault (World ι α K) :=
  match (w.turret a).activeTargets with
  | [] => .ok w
  | none :: _ => .error .nullTarget
  | some t :: _ =>
      if L.implements t then
        let found := determineTargetType (c.targetTags t) (w.turret a).currentTarget.value
        let value :=
          if found.1 then found.2 else TMGameplayTags.targetTypeProjectileGravity
        .ok (w.modify a (fun u => { u with currentTarget := ⟨some t, value⟩ }))
      else .error .notTargetable

/-- Selection keeps the list, and takes the head of a list that has one. -/
theorem selectTarget_ok {w w' : World ι α K} {a : ι}
    (h : selectTarget L c w a = .ok w') :
    (w'.turret a).activeTargets = (w.turret a).activeTargets ∧
    ∀ s rest, (w.turret a).activeTargets = s :: rest →
      (w'.turret a).currentTarget.key = s := by
  unfold selectTarget at h
  split at h
  next hnil => cases h; simp [hnil]
  next => cases h
  next t rest hcons =>
    split at h
    · cases h
      simp [hcons]
    · cases h

end Selection

/-! ## Operations on the world -/

section Operations

variable [DecidableEq ι] [DecidableEq α]
variable [Field K] [LinearOrder K] [FloorRing K] [Engine K]
variable (L : Level ι α K) (c : Scene ι α K)

/-- `UpdateTickState`. -/
def updateTickState (w : World ι α K) (a : ι) : World ι α K :=
  w.modify a (fun u => u.updateTickState (getIdleRotation c a))

/-- The part of `BeginPlay` that changes a turret's fields. -/
def beginPlay (w : World ι α K) (a : ι) : World ι α K := updateTickState c w a

/-- `MoveToIdle`. -/
def moveToIdle (w : World ι α K) (a : ι) : World ι α K :=
  updateTickState c
    (w.modify a
      (fun u => u.turnTowards (getIdleRotation c a) c.deltaSeconds (L.turnSpeed a))) a

/-- `TryRemoveActiveTarget`. -/
def tryRemoveActiveTarget (w : World ι α K) (a : ι) :
    Option α → Except Fault (World ι α K)
  | none => .ok w
  | some t =>
      if L.native t then
        .ok (updateTickState c ((w.clear t).modify a (fun u => u.dropTarget t)) a)
      else .error .castChecked

/-- `OnBeginOverlap`. -/
def onBeginOverlap (w : World ι α K) (a : ι) :
    Option α → Except Fault (World ι α K)
  | none => .ok (updateTickState c w a)
  | some t =>
      if L.implements t then
        if some t ∈ (w.turret a).activeTargets || !c.isTargetable t then
          .ok (updateTickState c w a)
        else if !(L.targetableTags a).hasAnyExact (c.targetTags t) then
          .ok (updateTickState c w a)
        else if L.native t then
          .ok (updateTickState c
            ((w.bind t a).modify a
              (fun u => { u with activeTargets := u.activeTargets ++ [some t] })) a)
        else .error .castChecked
      else .ok (updateTickState c w a)

/-- `OnEndOverlap`. -/
def onEndOverlap (w : World ι α K) (a : ι) :
    Option α → Except Fault (World ι α K)
  | none => .ok w
  | some t =>
      if L.implements t then tryRemoveActiveTarget L c w a (some t) else .ok w

/-- `ATargetProjectile::Death`: every binding on the delegate that is still
bound when it is reached removes the target from its turret. -/
def death (w : World ι α K) (t : α) : Except Fault (World ι α K) :=
  Multicast.broadcast (fun w b => decide (b ∈ w.onTargetDestroyed t))
    (fun b w => tryRemoveActiveTarget L c w b (some t))
    (L.broadcastOrder (w.onTargetDestroyed t)) w

/-- The last statement of `DetermineNewTarget`. -/
def aimAt (w : World ι α K) (a : ι) (interceptionPoint : FVector K) : World ι α K :=
  w.modify a (fun u =>
    { u with targetInterceptionRotation := interceptionRotation c a interceptionPoint })

/-- A removal that does not fault is of a native actor, and drops it. -/
theorem tryRemoveActiveTarget_ok_some {w w' : World ι α K} {a : ι} {t : α}
    (h : tryRemoveActiveTarget L c w a (some t) = .ok w') :
    L.native t = true ∧
    w' = updateTickState c ((w.clear t).modify a (fun u => u.dropTarget t)) a := by
  simp only [tryRemoveActiveTarget] at h
  split at h
  next hnative => exact ⟨hnative, (Except.ok.inj h).symm⟩
  next => cases h

/-- The recursion ends because a rejected target leaves the list. -/
def determineNewTarget (w : World ι α K) (a : ι) : Except Fault (World ι α K) :=
  match _hselect : selectTarget L c w a with
  | .error fault => .error fault
  | .ok w₁ =>
    match _hkey : (w₁.turret a).currentTarget.key with
    | none => .error .checkCurrentTarget
    | some t =>
      if !L.implements t then .error .notTargetable
      else
        let w₂ := w₁.modify a (fun u => { u with targetInterceptionRotation := 0 })
        let found := calculateInterceptionPoint L c a (w₂.turret a).rotationPoint
          (w₂.turret a).currentTarget.value (c.targetData t)
        if !found.1 || !isPointWithinRange L c a found.2 then
          match _hremove : tryRemoveActiveTarget L c w₂ a (some t) with
          | .error fault => .error fault
          | .ok w₃ =>
            if _hmore : !(w₃.turret a).activeTargets.isEmpty then
              (determineNewTarget w₃ a).map (fun w₄ => aimAt c w₄ a found.2)
            else .ok (aimAt c w₃ a found.2)
        else .ok (aimAt c w₂ a found.2)
termination_by (w.turret a).activeTargets.length
decreasing_by
  obtain ⟨hlist, hhead⟩ := selectTarget_ok L c _hselect
  obtain ⟨-, rfl⟩ := tryRemoveActiveTarget_ok_some L c _hremove
  cases hactive : (w.turret a).activeTargets with
  | nil =>
      simp [updateTickState, ATurret.updateTickState_eq, ATurret.dropTarget_eq, hlist,
        hactive, w₂] at _hmore
  | cons s rest =>
      have hs : s = some t := (hhead s rest hactive).symm.trans _hkey
      subst hs
      simpa [updateTickState, ATurret.updateTickState_eq, ATurret.dropTarget_eq, hlist,
        hactive, w₂] using List.length_filter_le _ rest

/-- `Fire` is running from here until its projectile has spawned. -/
def fire (w : World ι α K) (a : ι) : World ι α K := { w with spawning := some a }

/-- The part of `Tick` after target selection, up to the call of `Fire`. -/
def rotateOrFire (w : World ι α K) (a : ι) : World ι α K :=
  let u := w.turret a
  if u.currentTarget.key ≠ none ∧ u.targetInterceptionRotation ≠ 0 then
    if !u.rotationPoint.equals u.targetInterceptionRotation 0.5 then
      w.modify a (fun u =>
        u.turnTowards u.targetInterceptionRotation c.deltaSeconds (L.turnSpeed a))
    else fire w a
  else w

/-- `Tick` up to the call of `Fire`, when it comes to that. -/
def tick (w : World ι α K) (a : ι) : Except Fault (World ι α K) :=
  if (w.turret a).activeTargets.isEmpty then .ok (moveToIdle L c w a)
  else if (w.turret a).currentTarget.key = none then
    (determineNewTarget L c w a).map (fun w => rotateOrFire L c w a)
  else .ok (rotateOrFire L c w a)

/-- While a target is locked a tick does not select. -/
theorem tick_of_locked {w : World ι α K} {a : ι} (hne : (w.turret a).activeTargets ≠ [])
    (hkey : (w.turret a).currentTarget.key ≠ none) :
    tick L c w a = .ok (rotateOrFire L c w a) := by
  have hempty : (w.turret a).activeTargets.isEmpty = false :=
    List.isEmpty_eq_false_iff.mpr hne
  unfold tick
  rw [hempty, if_neg Bool.false_ne_true, if_neg hkey]

/-- The statement of `Tick` after `Fire` has returned. -/
def tickAfterFire (w : World ι α K) (a : ι) : Except Fault (World ι α K) :=
  (tryRemoveActiveTarget L c w a (w.turret a).currentTarget.key).map
    (fun w => { w with spawning := none })

end Operations

end TurretMaster

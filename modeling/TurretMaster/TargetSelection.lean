import TurretMaster.Turret

/-!
# Target selection is a first-acceptable scan

`DetermineNewTarget` is a recursion through fields that every level writes,
clears and reads again.  `determineNewTarget_selection` says what it amounts to:
the leading run of unacceptable targets leaves the list and loses its
delegates, the next target becomes the current one, and the aim is the one
computed in the *outermost* call, for the first target of the list.

* `determineNewTarget_cons` — one level of the recursion;
* `determineNewTarget_selection` — the whole recursion;
* `determineNewTarget_total` — it ends without a fault on proper targets.
-/

namespace TurretMaster

variable {ι α K : Type}

/-! ## The type of a target -/

/-- The search keeps the last matching tag. -/
theorem determineTargetType_eq (tagContainer : FGameplayTagContainer)
    (targetType : FGameplayTag) :
    determineTargetType tagContainer targetType =
      ((tagContainer.filter (·.matchesTag TMGameplayTags.targetType)).getLast?.elim
        (false, targetType) (fun tag => (true, tag))) := by
  unfold determineTargetType
  induction tagContainer using List.reverseRecOn with
  | nil => rfl
  | append_singleton tags tag ih =>
      rw [List.foldl_append, ih, List.filter_append]
      cases h : tag.matchesTag TMGameplayTags.targetType <;> simp [h]

/-- The type `DetermineNewTarget` stores for a target. -/
def determinedType (c : Scene ι α K) (t : α) : FGameplayTag :=
  let found := determineTargetType (c.targetTags t) FGameplayTag.empty
  if found.1 then found.2 else TMGameplayTags.targetTypeProjectileGravity

/-- The stored type does not depend on the tag that was stored before. -/
theorem determinedType_eq (c : Scene ι α K) (t : α) (tag : FGameplayTag) :
    (if (determineTargetType (c.targetTags t) tag).1 then
      (determineTargetType (c.targetTags t) tag).2
    else TMGameplayTags.targetTypeProjectileGravity) = determinedType c t := by
  unfold determinedType
  simp only [determineTargetType_eq]
  cases ((c.targetTags t).filter
    (·.matchesTag TMGameplayTags.targetType)).getLast? <;> rfl

/-- A selected target never has the empty tag. -/
theorem determinedType_ne_empty (c : Scene ι α K) (t : α) :
    determinedType c t ≠ FGameplayTag.empty := by
  unfold determinedType
  simp only [determineTargetType_eq]
  cases h : ((c.targetTags t).filter
      (·.matchesTag TMGameplayTags.targetType)).getLast? with
  | none => decide
  | some tag =>
      have hmem := List.mem_of_getLast? h
      exact FGameplayTag.ne_empty_of_matchesTag (List.mem_filter.mp hmem).2

/-! ## Acceptable targets -/

/-- The targets of a turret, without null entries. -/
def ATurret.targets (u : ATurret α K) : List α := u.activeTargets.reduceOption

/-- The targets are the entries that are not null. -/
theorem ATurret.mem_targets {u : ATurret α K} {t : α} :
    t ∈ u.targets ↔ some t ∈ u.activeTargets :=
  List.reduceOption_mem_iff

/-- A null-free list is the list of its targets. -/
theorem ATurret.activeTargets_eq {u : ATurret α K} (h : none ∉ u.activeTargets) :
    u.activeTargets = u.targets.map some := by
  unfold ATurret.targets
  generalize u.activeTargets = list at h
  induction list with
  | nil => rfl
  | cons s rest ih =>
      cases s with
      | none => simp at h
      | some t =>
          have hrest := ih (fun hmem => h (List.mem_cons_of_mem _ hmem))
          rw [List.reduceOption_cons_of_some, List.map_cons, ← hrest]

/-- Without null entries the targets are the list. -/
theorem ATurret.targets_of_map {u : ATurret α K} {ts : List α}
    (h : u.activeTargets = ts.map some) : u.targets = ts := by
  simp [targets, h, List.reduceOption, List.filterMap_map]

section Acceptable

variable [Field K] [LinearOrder K] [Engine K]
variable (L : Level ι α K) (c : Scene ι α K) (a : ι) (turretRot : FRotator K)

/-- Validity and point of the interception calculation for a target. -/
def interceptionOf (t : α) : Bool × FVector K :=
  calculateInterceptionPoint L c a turretRot (determinedType c t) (c.targetData t)

/-- The calculation succeeds with a point in range. -/
def acceptable (t : α) : Bool :=
  (interceptionOf L c a turretRot t).1 &&
    isPointWithinRange L c a (interceptionOf L c a turretRot t).2

/-- The targets that a selection drops. -/
def rejectedTargets (a : ι) (u : ATurret α K) : List α :=
  u.targets.takeWhile (fun t => !acceptable L c a u.rotationPoint t)

/-- The targets that it leaves: those from the first acceptable one on. -/
def remainingTargets (a : ι) (u : ATurret α K) : List α :=
  u.targets.dropWhile (fun t => !acceptable L c a u.rotationPoint t)

/-- Each target is rejected or remains, in the order of the list. -/
theorem rejectedTargets_append_remainingTargets (a : ι) (u : ATurret α K) :
    rejectedTargets L c a u ++ remainingTargets L c a u = u.targets :=
  List.takeWhile_append_dropWhile

/-- What remains is a part of the list. -/
theorem remainingTargets_sublist (a : ι) (u : ATurret α K) :
    (remainingTargets L c a u).Sublist u.targets :=
  List.dropWhile_sublist _

end Acceptable

section Result

variable [DecidableEq α] [Field K] [LinearOrder K] [FloorRing K] [Engine K]
variable (L : Level ι α K) (c : Scene ι α K)

/-- The current target after a selection that leaves the given targets. -/
def currentOf (remaining : List α) : CurrentTarget α :=
  remaining.head?.elim ⟨none, FGameplayTag.empty⟩
    (fun t => ⟨some t, determinedType c t⟩)

/-- Everything `DetermineNewTarget` may do to the world. -/
structure Selection (w : World ι α K) (a : ι) (w' : World ι α K) : Prop where
  turret_ne : ∀ b, b ≠ a → w'.turret b = w.turret b
  spawning : w'.spawning = w.spawning
  rotationPoint : (w'.turret a).rotationPoint = (w.turret a).rotationPoint
  activeTargets : (w'.turret a).activeTargets =
    (remainingTargets L c a (w.turret a)).map some
  currentTarget : (w'.turret a).currentTarget =
    currentOf c (remainingTargets L c a (w.turret a))
  targetInterceptionRotation : ∀ t, (w.turret a).targets.head? = some t →
    (w'.turret a).targetInterceptionRotation =
      interceptionRotation c a (interceptionOf L c a (w.turret a).rotationPoint t).2
  onTargetDestroyed : ∀ t, w'.onTargetDestroyed t =
    if t ∈ rejectedTargets L c a (w.turret a) then [] else w.onTargetDestroyed t
  actorTickEnabled : (w'.turret a).actorTickEnabled =
    if rejectedTargets L c a (w.turret a) = [] then (w.turret a).actorTickEnabled
    else !(w'.turret a).activeTargets.isEmpty ||
      !(w.turret a).rotationPoint.equals (getIdleRotation c a) 1

/-- With no targets left there is nothing to do. -/
theorem selection_nil {w : World ι α K} {a : ι}
    (hactive : (w.turret a).activeTargets = [])
    (hcurrent : (w.turret a).currentTarget = ⟨none, FGameplayTag.empty⟩) :
    Selection L c w a w := by
  have htargets : (w.turret a).targets = [] := ATurret.targets_of_map (by simpa using hactive)
  have hremaining : remainingTargets L c a (w.turret a) = [] := by
    simp [remainingTargets, htargets]
  have hrejected : rejectedTargets L c a (w.turret a) = [] := by
    simp [rejectedTargets, htargets]
  exact ⟨fun b _ => rfl, rfl, rfl, by simp [hremaining, hactive],
    by simp [hremaining, hcurrent, currentOf], by simp [htargets],
    by simp [hrejected], by simp [hrejected]⟩

end Result

/-! ## One level of the recursion -/

section Selection

variable [DecidableEq ι] [DecidableEq α]
variable [Field K] [LinearOrder K] [FloorRing K] [Engine K]
variable (L : Level ι α K) (c : Scene ι α K)

/-- The world in which a target has just been accepted or rejected, before
the aim is set. -/
def acceptTarget (w : World ι α K) (a : ι) (t : α) : World ι α K :=
  w.modify a (fun u =>
    { u with
      currentTarget := ⟨some t, determinedType c t⟩
      targetInterceptionRotation := 0 })

/-- The world after a target is rejected. -/
def rejectTarget (w : World ι α K) (a : ι) (t : α) : World ι α K :=
  updateTickState c ((w.clear t).modify a (fun u =>
    { u with
      activeTargets := u.activeTargets.filter (· ≠ some t)
      currentTarget := ⟨none, FGameplayTag.empty⟩
      targetInterceptionRotation := 0 })) a

/-- One level of `DetermineNewTarget` on a list with a proper head. -/
theorem determineNewTarget_cons {w : World ι α K} {a : ι} {t : α}
    {rest : List (Option α)}
    (hactive : (w.turret a).activeTargets = some t :: rest)
    (himplements : L.implements t = true) :
    determineNewTarget L c w a =
      let point := (interceptionOf L c a (w.turret a).rotationPoint t).2
      if acceptable L c a (w.turret a).rotationPoint t then
        .ok (aimAt c (acceptTarget c w a t) a point)
      else if !L.native t then .error .castChecked
      else if (rest.filter (· ≠ some t)).isEmpty then
        .ok (aimAt c (rejectTarget c w a t) a point)
      else
        (determineNewTarget L c (rejectTarget c w a t) a).map
          (fun w' => aimAt c w' a point) := by
  have hselect : selectTarget L c w a = .ok (w.modify a (fun u =>
      { u with currentTarget := ⟨some t, determinedType c t⟩ })) := by
    simp only [selectTarget, hactive, himplements, if_true, determinedType_eq]
  rw [determineNewTarget]
  split
  next fault h => rw [hselect] at h; cases h
  next w₁ h =>
    rw [hselect] at h
    obtain rfl := Except.ok.inj h
    split
    next hkey => simp at hkey
    next s hkey =>
      obtain rfl : t = s := by simpa using hkey
      have hcond : (!(interceptionOf L c a (w.turret a).rotationPoint t).1 ||
          !isPointWithinRange L c a (interceptionOf L c a (w.turret a).rotationPoint t).2) =
            !acceptable L c a (w.turret a).rotationPoint t := by
        simp [acceptable, Bool.not_and]
      unfold interceptionOf at hcond
      simp only [himplements, Bool.not_true, Bool.false_eq_true, if_false,
        World.modify_turret_self, World.modify_modify, hcond]
      cases hacc : acceptable L c a (w.turret a).rotationPoint t with
      | true => simp [interceptionOf, acceptTarget]
      | false =>
          simp only [Bool.not_false, if_true, Bool.false_eq_true, if_false]
          split
          next fault hremove =>
            cases hnative : L.native t
            · simpa [tryRemoveActiveTarget, hnative] using hremove.symm
            · simp [tryRemoveActiveTarget, hnative] at hremove
          next w₃ hremove =>
            obtain ⟨hnative, rfl⟩ := tryRemoveActiveTarget_ok_some L c hremove
            have hw : updateTickState c (((w.modify a (fun u =>
                { u with currentTarget := ⟨some t, determinedType c t⟩ })).modify a
                (fun u => { u with targetInterceptionRotation := 0 })).clear t |>.modify a
                (fun u => u.dropTarget t)) a = rejectTarget c w a t := by
              simp [World.clear_modify, rejectTarget, ATurret.dropTarget_eq]
            rw [hw]
            have hlist : ((rejectTarget c w a t).turret a).activeTargets =
                rest.filter (· ≠ some t) := by
              simp [rejectTarget, updateTickState, ATurret.updateTickState_eq, hactive]
            simp only [hlist, hnative, Bool.not_true, Bool.false_eq_true, if_false]
            cases (rest.filter (· ≠ some t)).isEmpty <;> simp [interceptionOf]

/-- A selection faults at an actor without the interface. -/
theorem determineNewTarget_notTargetable {w : World ι α K} {a : ι} {t : α}
    {rest : List (Option α)}
    (hactive : (w.turret a).activeTargets = some t :: rest)
    (himplements : L.implements t = false) :
    determineNewTarget L c w a = .error .notTargetable := by
  have hselect : selectTarget L c w a = .error .notTargetable := by
    simp [selectTarget, hactive, himplements]
  rw [determineNewTarget]
  split
  next fault h =>
    rw [hselect] at h
    rw [Except.error.inj h]
  next w₁ h => rw [hselect] at h; cases h

/-! ## The whole recursion -/

/-- Dropping what is not there changes nothing. -/
theorem filter_map_some_of_notMem {t : α} {ts : List α} (ht : t ∉ ts) :
    (ts.map some).filter (· ≠ some t) = ts.map some := by
  rw [List.filter_eq_self]
  simp only [List.mem_map]
  rintro _ ⟨s, hs, rfl⟩
  have hne : s ≠ t := fun heq => ht (heq ▸ hs)
  simpa using hne

/-- The turret left by the rejection of the head of a duplicate-free list. -/
theorem rejectTarget_turret {w : World ι α K} {a : ι} {t : α} {rest : List α}
    (hactive : (w.turret a).activeTargets = some t :: rest.map some)
    (ht : t ∉ rest) :
    (rejectTarget c w a t).turret a =
      { w.turret a with
        activeTargets := rest.map some
        currentTarget := ⟨none, FGameplayTag.empty⟩
        targetInterceptionRotation := 0
        actorTickEnabled := !rest.isEmpty ||
          !(w.turret a).rotationPoint.equals (getIdleRotation c a) 1 } := by
  simp only [rejectTarget, updateTickState, World.modify_turret_self, World.clear_turret,
    ATurret.updateTickState_eq, hactive]
  rw [List.filter_cons_of_neg (by simp), filter_map_some_of_notMem ht]
  simp

/-- Accepting the head at once is a selection. -/
theorem selection_accept {w : World ι α K} {a : ι} {t : α} {rest : List α}
    (hactive : (w.turret a).activeTargets = some t :: rest.map some)
    (hacc : acceptable L c a (w.turret a).rotationPoint t = true) :
    Selection L c w a (aimAt c (acceptTarget c w a t) a
      (interceptionOf L c a (w.turret a).rotationPoint t).2) := by
  have htargets : (w.turret a).targets = t :: rest := ATurret.targets_of_map hactive
  have hremaining : remainingTargets L c a (w.turret a) = t :: rest := by
    simp [remainingTargets, htargets, hacc]
  have hrejected : rejectedTargets L c a (w.turret a) = [] := by
    simp [rejectedTargets, htargets, hacc]
  refine ⟨fun b hb => ?_, rfl, ?_, ?_, ?_, fun s hs => ?_, fun s => ?_, ?_⟩
  · simp [aimAt, acceptTarget, World.modify_turret_ne _ _ hb]
  · simp [aimAt, acceptTarget]
  · simp [aimAt, acceptTarget, hremaining, hactive]
  · simp [aimAt, acceptTarget, hremaining, currentOf]
  · obtain rfl : t = s := by simpa [htargets] using hs
    simp [aimAt]
  · simp [aimAt, acceptTarget, hrejected]
  · simp [aimAt, acceptTarget, hrejected]

/-- The head is dropped before a selection from the rest. -/
theorem selection_reject {w w' : World ι α K} {a : ι} {t : α} {rest : List α}
    (hactive : (w.turret a).activeTargets = some t :: rest.map some)
    (ht : t ∉ rest)
    (hrej : acceptable L c a (w.turret a).rotationPoint t = false)
    (h : Selection L c (rejectTarget c w a t) a w') :
    Selection L c w a (aimAt c w' a
      (interceptionOf L c a (w.turret a).rotationPoint t).2) := by
  have hturret := rejectTarget_turret c hactive ht
  have htargets : (w.turret a).targets = t :: rest := ATurret.targets_of_map hactive
  have htargets' : ((rejectTarget c w a t).turret a).targets = rest :=
    ATurret.targets_of_map (by rw [hturret])
  have hrotation : ((rejectTarget c w a t).turret a).rotationPoint =
      (w.turret a).rotationPoint := by rw [hturret]
  have hremaining : remainingTargets L c a ((rejectTarget c w a t).turret a) =
      remainingTargets L c a (w.turret a) := by
    simp [remainingTargets, htargets, htargets', hrotation, hrej]
  have hrejected : rejectedTargets L c a (w.turret a) =
      t :: rejectedTargets L c a ((rejectTarget c w a t).turret a) := by
    simp [rejectedTargets, htargets, htargets', hrotation, hrej]
  refine ⟨fun b hb => ?_, ?_, ?_, ?_, ?_, fun s hs => ?_, fun s => ?_, ?_⟩
  · rw [aimAt, World.modify_turret_ne _ _ hb, h.turret_ne b hb]
    simp [rejectTarget, updateTickState, World.modify_turret_ne _ _ hb]
  · simpa [aimAt, rejectTarget, updateTickState] using h.spawning
  · simpa [aimAt, hrotation] using h.rotationPoint
  · simpa [aimAt, hremaining] using h.activeTargets
  · simpa [aimAt, hremaining] using h.currentTarget
  · obtain rfl : t = s := by simpa [htargets] using hs
    simp [aimAt]
  · have hs := h.onTargetDestroyed s
    by_cases hst : s = t
    · subst hst
      simpa [aimAt, hrejected, rejectTarget, updateTickState] using hs
    · have hclear : (rejectTarget c w a t).onTargetDestroyed s = w.onTargetDestroyed s :=
        World.clear_onTargetDestroyed_ne w hst
      simpa [aimAt, hrejected, hst, hclear] using hs
  · have hsplit : rejectedTargets L c a ((rejectTarget c w a t).turret a) ++
        remainingTargets L c a (w.turret a) = rest := by
      rw [← hremaining, ← htargets']
      exact rejectedTargets_append_remainingTargets L c a _
    have hbefore : ((rejectTarget c w a t).turret a).actorTickEnabled =
        (!rest.isEmpty || !(w.turret a).rotationPoint.equals (getIdleRotation c a) 1) := by
      rw [hturret]
    have hflag := h.actorTickEnabled
    have hlist := h.activeTargets
    rw [hremaining] at hlist
    rw [hrotation, hbefore] at hflag
    by_cases hmore : rejectedTargets L c a ((rejectTarget c w a t).turret a) = []
    · rw [hmore, List.nil_append] at hsplit
      simpa [aimAt, hrejected, hmore, hlist, hsplit] using hflag
    · simpa [aimAt, hrejected, hmore] using hflag

/-- **Selection is a scan.** On a null-free list without duplicates,
whenever `DetermineNewTarget` returns it has performed a selection. -/
theorem determineNewTarget_selection {w w' : World ι α K} {a : ι}
    (hnull : none ∉ (w.turret a).activeTargets)
    (hnodup : (w.turret a).activeTargets.Nodup)
    (hne : (w.turret a).activeTargets ≠ [])
    (h : determineNewTarget L c w a = .ok w') : Selection L c w a w' := by
  have hts := ATurret.activeTargets_eq hnull
  clear hnull
  generalize (w.turret a).targets = ts at hts
  rw [hts] at hnodup hne
  replace hnodup := hnodup.of_map
  induction ts generalizing w w' with
  | nil => exact absurd rfl hne
  | cons t rest ih =>
      obtain ⟨ht, hrestNodup⟩ := List.nodup_cons.mp hnodup
      have hturret := rejectTarget_turret c hts ht
      cases himplements : L.implements t with
      | false => simp [determineNewTarget_notTargetable L c hts himplements] at h
      | true =>
          rw [determineNewTarget_cons L c hts himplements,
            filter_map_some_of_notMem ht] at h
          cases hacc : acceptable L c a (w.turret a).rotationPoint t with
          | true =>
              obtain rfl := by simpa [hacc] using h
              exact selection_accept L c hts hacc
          | false =>
              cases hnative : L.native t with
              | false => simp [hacc, hnative] at h
              | true =>
                  cases rest with
                  | nil =>
                      obtain rfl := by simpa [hacc, hnative] using h
                      refine selection_reject L c hts ht hacc (selection_nil L c ?_ ?_) <;>
                        simp [hturret]
                  | cons s rest =>
                      simp only [hacc, hnative, Bool.not_true, Bool.false_eq_true,
                        if_false, List.map_cons, List.isEmpty_cons] at h
                      cases hrest : determineNewTarget L c (rejectTarget c w a t) a with
                      | error fault => simp [hrest, Except.map] at h
                      | ok w'' =>
                          obtain rfl := by simpa [hrest, Except.map] using h
                          have hselection := ih hrest (by simp) (by simp [hturret])
                            hrestNodup
                          exact selection_reject L c hts ht hacc hselection

/-- **Selection ends without a fault** when all targets of the list are native
implementers of the interface. -/
theorem determineNewTarget_total {w : World ι α K} {a : ι}
    (hnull : none ∉ (w.turret a).activeTargets)
    (hnodup : (w.turret a).activeTargets.Nodup)
    (hne : (w.turret a).activeTargets ≠ [])
    (hnative : ∀ t, some t ∈ (w.turret a).activeTargets → L.native t = true) :
    ∃ w', determineNewTarget L c w a = .ok w' := by
  have hts := ATurret.activeTargets_eq hnull
  clear hnull
  generalize (w.turret a).targets = ts at hts
  rw [hts] at hnodup hne hnative
  replace hnodup := hnodup.of_map
  induction ts generalizing w with
  | nil => exact absurd rfl hne
  | cons t rest ih =>
      obtain ⟨ht, hrestNodup⟩ := List.nodup_cons.mp hnodup
      have hturret := rejectTarget_turret c hts ht
      have hnativeT := hnative t (by simp)
      rw [determineNewTarget_cons L c hts (L.native_implements t hnativeT),
        filter_map_some_of_notMem ht]
      cases hacc : acceptable L c a (w.turret a).rotationPoint t with
      | true => simp
      | false =>
          cases rest with
          | nil => simp [hnativeT]
          | cons s rest =>
              have hnativeRest : ∀ x, some x ∈ (s :: rest).map some → L.native x = true :=
                fun x hx => hnative x (List.mem_cons_of_mem _ hx)
              obtain ⟨w'', hrest⟩ := ih (w := rejectTarget c w a t) hnativeRest (by simp)
                (by simp [hturret]) hrestNodup
              simp [hnativeT, hrest, Except.map]

end Selection

end TurretMaster

import TurretMaster.SelectionAim

/-!
# What a selection leaves

On a list of distinct targets `DetermineNewTarget` ends and is a plain scan for
the first acceptable target.

* `acceptable_iff` — which targets are acceptable;
* `determineNewTarget_scan` — list, current target and delegates afterwards.
-/

namespace TurretMaster

section Result

variable {ι α K : Type} [Field K] [LinearOrder K] [Engine K]
variable (L : Level ι α K) (c : Scene ι α K)

/-- A target is acceptable if it is stationary and in range, or flies without
gravity and has a predicted interception point in range; every other type,
the type of untyped targets included, is not. -/
theorem acceptable_iff (a : ι) (turretRot : FRotator K) (t : α) :
    acceptable L c a turretRot t = true ↔
      (determinedType c t = TMGameplayTags.targetTypeStationary ∧
        isPointWithinRange L c a (c.targetData t).location = true) ∨
      (determinedType c t = TMGameplayTags.targetTypeProjectileNoGravity ∧
        ∃ point, calculateInterceptionPointProjectileNoGravity L c a turretRot
            (c.targetData t) = (true, point) ∧
          isPointWithinRange L c a point = true) := by
  unfold acceptable interceptionOf calculateInterceptionPoint
  by_cases hstationary : determinedType c t = TMGameplayTags.targetTypeStationary
  · rw [hstationary, if_pos (by decide)]
    have hother : TMGameplayTags.targetTypeStationary ≠
        TMGameplayTags.targetTypeProjectileNoGravity := by decide
    simp [calculateInterceptionPointStationary, hother]
  · have hmatch : (determinedType c t).matchesTagExact
        TMGameplayTags.targetTypeStationary = false := by
      simp [FGameplayTag.matchesTagExact, hstationary]
    rw [if_neg (Bool.eq_false_iff.mp hmatch)]
    by_cases hflying : determinedType c t = TMGameplayTags.targetTypeProjectileNoGravity
    · rw [hflying, if_pos (by decide)]
      have hother : TMGameplayTags.targetTypeProjectileNoGravity ≠
          TMGameplayTags.targetTypeStationary := by decide
      generalize calculateInterceptionPointProjectileNoGravity L c a turretRot
        (c.targetData t) = found
      obtain ⟨valid, point⟩ := found
      cases valid <;> simp [hother]
    · have hmatch' : (determinedType c t).matchesTagExact
          TMGameplayTags.targetTypeProjectileNoGravity = false := by
        simp [FGameplayTag.matchesTagExact, hflying]
      rw [if_neg (Bool.eq_false_iff.mp hmatch')]
      simp [hstationary, hflying]

variable [DecidableEq ι] [DecidableEq α] [FloorRing K]

/-- **Selection is a first-acceptable scan.** On a list of distinct targets
`DetermineNewTarget` ends; exactly the leading run of unacceptable targets has
left the list and lost its bindings, and the current target is the head of
what is left, with its type, or null with the empty tag.  Acceptable are
stationary targets in range, and targets that fly without gravity and have a
predicted point in range. -/
theorem determineNewTarget_scan {w : World ι α K} {a : ι} {ts : List α}
    (hactive : (w.turret a).activeTargets = ts.map some) (hnodup : ts.Nodup)
    (hne : ts ≠ []) (hnative : ∀ t ∈ ts, L.native t = true) :
    ∃ w', determineNewTarget L c w a = .ok w' ∧
      (w'.turret a).activeTargets =
        (ts.dropWhile (fun t => !acceptable L c a (w.turret a).rotationPoint t)).map some ∧
      (∀ t rest, ts.dropWhile (fun t => !acceptable L c a (w.turret a).rotationPoint t) =
          t :: rest →
        (w'.turret a).currentTarget = ⟨some t, determinedType c t⟩) ∧
      (ts.dropWhile (fun t => !acceptable L c a (w.turret a).rotationPoint t) = [] →
        (w'.turret a).currentTarget = ⟨none, FGameplayTag.empty⟩) ∧
      (∀ t, w'.onTargetDestroyed t =
        if t ∈ ts.takeWhile (fun t => !acceptable L c a (w.turret a).rotationPoint t) then []
        else w.onTargetDestroyed t) ∧
      ∀ t, acceptable L c a (w.turret a).rotationPoint t = true ↔
        (determinedType c t = TMGameplayTags.targetTypeStationary ∧
          isPointWithinRange L c a (c.targetData t).location = true) ∨
        (determinedType c t = TMGameplayTags.targetTypeProjectileNoGravity ∧
          ∃ point, calculateInterceptionPointProjectileNoGravity L c a
              (w.turret a).rotationPoint (c.targetData t) = (true, point) ∧
            isPointWithinRange L c a point = true) := by
  have hnull : none ∉ (w.turret a).activeTargets := by simp [hactive]
  have hnodupActive : (w.turret a).activeTargets.Nodup := by
    rw [hactive]
    exact hnodup.map (Option.some_injective α)
  have hneActive : (w.turret a).activeTargets ≠ [] := by simpa [hactive] using hne
  have hnativeActive : ∀ t, some t ∈ (w.turret a).activeTargets → L.native t = true := by
    intro t ht
    rw [hactive] at ht
    exact hnative t (by simpa using ht)
  have htargets : (w.turret a).targets = ts := ATurret.targets_of_map hactive
  obtain ⟨w', hw'⟩ := determineNewTarget_total L c hnull hnodupActive hneActive hnativeActive
  have hselect := determineNewTarget_selection L c hnull hnodupActive hneActive hw'
  have hlist := hselect.activeTargets
  have hcurrent := hselect.currentTarget
  have hbindings := hselect.onTargetDestroyed
  rw [remainingTargets, htargets] at hlist hcurrent
  simp only [rejectedTargets, htargets] at hbindings
  refine ⟨w', hw', hlist, ?_, ?_, hbindings, acceptable_iff L c a _⟩
  · intro t rest hrest
    rw [hcurrent, hrest]
    rfl
  · intro hrest
    rw [hcurrent, hrest]
    rfl

end Result

section Alley

attribute [local instance] atan2Engine

/-- Turret 0 drops the untyped actor 0 and keeps actor 1. -/
theorem determineNewTarget_scan_alley :
    ∃ w', determineNewTarget alley alleyScene alleyQueue 0 = .ok w' ∧
      (w'.turret 0).activeTargets =
        ([0, 1].dropWhile (fun t =>
          !acceptable alley alleyScene 0 (alleyQueue.turret 0).rotationPoint t)).map some := by
  have hactive : (alleyQueue.turret 0).activeTargets = [0, 1].map some :=
    alleyQueue_activeTargets
  have hnodup : [0, 1].Nodup := by simp
  obtain ⟨w', hw', hlist, -⟩ :=
    determineNewTarget_scan alley alleyScene hactive hnodup (by simp) (fun _ _ => rfl)
  exact ⟨w', hw', hlist⟩

/-- An actor that stands in range is selected, and the aim is at its place. -/
theorem alleySceneAt_selects {w : World ℕ ℕ ℝ} {point : FVector ℝ}
    (hwf : (w.turret 0).WellFormed alley) (hactive : (w.turret 0).activeTargets = [some 1])
    (hrange : isPointWithinRange alley (alleySceneAt point) 0 point = true) :
    ∃ w', determineNewTarget alley (alleySceneAt point) w 0 = .ok w' ∧
      Selection alley (alleySceneAt point) w 0 w' ∧
      (w'.turret 0).currentTarget.key = some 1 ∧
      (w'.turret 0).targetInterceptionRotation =
        interceptionRotation (alleySceneAt point) 0 point := by
  have htype : determinedType (alleySceneAt point) 1 = TMGameplayTags.targetTypeStationary :=
    alley_determinedType one_ne_zero
  have hacceptable : acceptable alley (alleySceneAt point) 0 (w.turret 0).rotationPoint 1 = true :=
    (acceptable_iff alley (alleySceneAt point) 0 _ 1).mpr (Or.inl ⟨htype, hrange⟩)
  obtain ⟨w', hw', hselect, hkey, haim⟩ := alley_selects hwf hactive hacceptable
  refine ⟨w', hw', hselect, hkey, ?_⟩
  rw [haim, aimFor, interceptionOf, htype]
  rfl

end Alley

end TurretMaster

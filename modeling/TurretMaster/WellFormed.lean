import TurretMaster.System

/-!
# Well-formed turrets

The list, the current target and its tag are changed together by overlap
events, deaths, selection and the removal after a shot.  `ATurret.WellFormed`
ties them together, and every effect of a step keeps it.

* `determineNewTarget_wellFormed` — selection from a well-formed turret;
* `wellFormed_step`, `wellFormed_run` — one step and every run.
-/

namespace TurretMaster

open Runs

variable {ι α K : Type}

/-- What the fields of a turret satisfy between events. -/
structure ATurret.WellFormed (L : Level ι α K) (u : ATurret α K) : Prop where
  notNull : none ∉ u.activeTargets
  nodup : u.activeTargets.Nodup
  native : ∀ t, some t ∈ u.activeTargets → L.native t = true
  key_mem : u.currentTarget.key = none ∨ u.currentTarget.key ∈ u.activeTargets
  value_empty : u.currentTarget.value = FGameplayTag.empty ↔ u.currentTarget.key = none

namespace ATurret.WellFormed

variable {L : Level ι α K} {u v : ATurret α K}

/-- Only the list and the current target matter. -/
theorem congr (h : u.WellFormed L) (hsame : SameTargeting u v) : v.WellFormed L := by
  obtain ⟨hactive, hcurrent, -⟩ := hsame
  exact ⟨by rw [hactive]; exact h.notNull, by rw [hactive]; exact h.nodup,
    by rw [hactive]; exact h.native, by rw [hactive, hcurrent]; exact h.key_mem,
    by rw [hcurrent]; exact h.value_empty⟩

/-- A current target is one of the active targets. -/
theorem current_mem (h : u.WellFormed L) {t : α} (ht : u.currentTarget.key = some t) :
    some t ∈ u.activeTargets := by
  rcases h.key_mem with hnone | hmem
  · rw [hnone] at ht
    cases ht
  · rwa [ht] at hmem

/-- A turret that has just been given an empty list and no target. -/
theorem initial (hactive : u.activeTargets = [])
    (hcurrent : u.currentTarget = ⟨none, FGameplayTag.empty⟩) : u.WellFormed L := by
  constructor <;> simp [hactive, hcurrent]

/-- Admission of a native target that is not yet in the list. -/
theorem admission (h : u.WellFormed L) {t : α} (hnew : some t ∉ u.activeTargets)
    (hnative : L.native t = true) :
    ATurret.WellFormed L { u with activeTargets := u.activeTargets ++ [some t] } := by
  refine ⟨?_, ?_, ?_, ?_, h.value_empty⟩
  · simp [h.notNull]
  · simp only [List.nodup_append, h.nodup, List.mem_singleton, List.nodup_singleton,
      true_and]
    rintro s hs _ rfl heq
    exact hnew (heq ▸ hs)
  · intro s hs
    rcases List.mem_append.mp hs with hs | hs
    · exact h.native s hs
    · obtain rfl : s = t := by simpa using hs
      exact hnative
  · exact h.key_mem.imp_right (fun hmem => List.mem_append_left _ hmem)

/-- Removal of any target. -/
theorem dropTarget [DecidableEq α] (h : u.WellFormed L) (t : α) :
    (u.dropTarget t).WellFormed L := by
  rw [ATurret.dropTarget_eq]
  refine ⟨?_, h.nodup.filter _, ?_, ?_, ?_⟩
  · exact fun hmem => h.notNull (List.mem_filter.mp hmem).1
  · exact fun s hs => h.native s (List.mem_filter.mp hs).1
  · by_cases hkey : u.currentTarget.key = some t
    · simp [hkey]
    · simp only [hkey, if_false]
      exact h.key_mem.imp_right
        (fun hmem => List.mem_filter.mpr ⟨hmem, by simpa using hkey⟩)
  · by_cases hkey : u.currentTarget.key = some t
    · simp [hkey]
    · simpa [hkey] using h.value_empty

/-- The targets of a well-formed turret have no duplicates. -/
theorem nodup_targets (h : u.WellFormed L) : u.targets.Nodup := by
  have hnodup := h.nodup
  rw [ATurret.activeTargets_eq h.notNull] at hnodup
  exact hnodup.of_map

end ATurret.WellFormed

section System

variable {L : Level ι α K} {c : Scene ι α K} {w w' w₀ : World ι α K}

/-- Every turret is well formed. -/
def WellFormed (L : Level ι α K) (w : World ι α K) : Prop :=
  ∀ a, (w.turret a).WellFormed L

/-- A property of all turrets survives a change of one. -/
theorem forall_turret {P : ATurret α K → Prop} {a : ι}
    (hne : ∀ b, b ≠ a → w'.turret b = w.turret b) (hw : ∀ b, P (w.turret b))
    (ha : P (w'.turret a)) : ∀ b, P (w'.turret b) := by
  intro b
  by_cases hb : b = a
  · exact hb ▸ ha
  · rw [hne b hb]
    exact hw b

/-- The first state is well formed. -/
theorem wellFormed_initial (h : Initial w₀) : WellFormed L w₀ :=
  fun a => .initial (h.activeTargets a) (h.currentTarget a)

variable [DecidableEq α] [Field K] [LinearOrder K] [FloorRing K] [Engine K]

/-- A selection leaves its turret well formed. -/
theorem wellFormed_selection {a : ι} (h : (w.turret a).WellFormed L)
    (hselect : Selection L c w a w') : (w'.turret a).WellFormed L := by
  have hsub := remainingTargets_sublist L c a (w.turret a)
  refine ⟨?_, ?_, ?_, ?_, ?_⟩
  · simp [hselect.activeTargets]
  · rw [hselect.activeTargets]
    exact (h.nodup_targets.sublist hsub).map (Option.some_injective α)
  · intro t ht
    rw [hselect.activeTargets] at ht
    have hmem : t ∈ remainingTargets L c a (w.turret a) := by simpa using ht
    exact h.native t (ATurret.mem_targets.mp (hsub.mem hmem))
  · rw [hselect.activeTargets, hselect.currentTarget, currentOf]
    cases remainingTargets L c a (w.turret a) <;> simp
  · rw [hselect.currentTarget, currentOf]
    cases remainingTargets L c a (w.turret a) <;> simp [determinedType_ne_empty]

variable [DecidableEq ι]

/-- A selection of a well-formed turret is described by `Selection`. -/
theorem ATurret.WellFormed.selection {a : ι} (h : (w.turret a).WellFormed L)
    (hne : (w.turret a).activeTargets ≠ [])
    (hselect : determineNewTarget L c w a = .ok w') : Selection L c w a w' :=
  determineNewTarget_selection L c h.notNull h.nodup hne hselect

/-- **Selection from a well-formed turret** never fails, and is a scan. -/
theorem determineNewTarget_wellFormed {a : ι} (h : (w.turret a).WellFormed L)
    (hne : (w.turret a).activeTargets ≠ []) :
    ∃ w', determineNewTarget L c w a = .ok w' ∧ Selection L c w a w' := by
  obtain ⟨w', hw'⟩ := determineNewTarget_total L c h.notNull h.nodup hne h.native
  exact ⟨w', hw', h.selection hne hw'⟩

/-- A removal leaves every turret well formed. -/
theorem wellFormed_removeTarget (h : WellFormed L w) (a : ι) (t : α) :
    WellFormed L (removeTarget c w a t) := by
  refine forall_turret (fun b hb => removeTarget_turret_ne hb) h ?_
  rw [removeTarget_turret_self, ATurret.updateTickState_eq]
  exact ((h a).dropTarget t).congr ⟨rfl, rfl, rfl⟩

/-- **One step.** Every effect keeps every turret well formed. -/
theorem wellFormed_step {e : Event ι α K} (h : WellFormed L w) (hstep : Step L w e w') :
    WellFormed L w' := by
  cases step_effect hstep with
  | ignoredBegin => exact fun b => (h b).congr (sameTargeting_updateTickState b)
  | admitted _ _ _ hnative hnew =>
      refine forall_turret (fun b hb => admitTarget_turret_ne hb) h ?_
      exact ((h _).admission hnew hnative).congr admitTarget_sameTargeting
  | ignoredEnd => exact h
  | left => exact wellFormed_removeTarget h _ _
  | unheard => exact h
  | destroyed => exact wellFormed_removeTarget h _ _
  | idled => exact fun b => (h b).congr (sameTargeting_moveToIdle b)
  | tracked => exact fun b => (h b).congr (sameTargeting_rotateOrFire b)
  | @selected c a w₁ hne hkey hselect =>
      have hselection := (h a).selection hne hselect
      have hw₁ : WellFormed L w₁ :=
        forall_turret hselection.turret_ne h (wellFormed_selection (h a) hselection)
      exact fun b => (hw₁ b).congr (sameTargeting_rotateOrFire b)
  | released => exact h
  | fired => exact wellFormed_removeTarget h _ _

/-- **Every run.** Every turret is well formed in every reachable state. -/
theorem wellFormed_run {trace : List (Transition (World ι α K) (Event ι α K))}
    (hinit : Initial w₀) (hrun : Run (Step L) w₀ trace w) : WellFormed L w :=
  hrun.invariant (fun _ _ _ h hstep => wellFormed_step h hstep) (wellFormed_initial hinit)

end System

end TurretMaster

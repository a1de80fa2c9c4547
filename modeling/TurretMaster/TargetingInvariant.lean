import TurretMaster.TargetLock

/-!
# The targeting invariant

In every reachable state every turret is well formed, and each member of its
list came in by an admission and has stayed since.  From a well-formed state no
event makes an assertion fail.

* `admits_of_new` — what makes a target a member;
* `handle_total` — every enabled event is handled without a fault;
* `targeting_invariant` — both, over every run.
-/

namespace TurretMaster

open Runs

section System

variable {ι α K : Type} [DecidableEq ι] [DecidableEq α]
variable [Field K] [LinearOrder K] [FloorRing K] [Engine K]
variable {L : Level ι α K} {w w' w₀ : World ι α K}

/-! ## Where the members of a list come from -/

/-- A begin-overlap that found the target eligible and added it. -/
def Admits (L : Level ι α K) (a : ι) (t : α)
    (x : Transition (World ι α K) (Event ι α K)) : Prop :=
  ∃ c k, x.event = .beginOverlap c a (some t) k ∧
    L.implements t = true ∧ c.isTargetable t = true ∧
    (L.targetableTags a).hasAnyExact (c.targetTags t) = true ∧
    some t ∉ (x.source.turret a).activeTargets ∧
    some t ∈ (x.target.turret a).activeTargets

/-- Only an eligible begin-overlap makes a target a member of a list. -/
theorem admits_of_new {e : Event ι α K} {a : ι} {t : α} (h : WellFormed L w)
    (hstep : Step L w e w') (hsrc : some t ∉ (w.turret a).activeTargets)
    (htgt : some t ∈ (w'.turret a).activeTargets) : Admits L a t ⟨w, e, w'⟩ := by
  rcases (tracks_step_iff h hstep a t).mp htgt with henters | hkept
  · obtain ⟨c, k, hevent, himplements, htargetable, htags⟩ := exists_of_enters henters
    exact ⟨c, k, hevent, himplements, htargetable, htags, hsrc, htgt⟩
  · exact absurd hkept.1 hsrc

/-! ## No assertion fails -/

/-- **No fault.** In a well-formed world the handler of every enabled event
returns, provided every implementer of the interface is a native one. -/
theorem handle_total (hnative : ∀ t, L.implements t = true → L.native t = true)
    (h : WellFormed L w) {e : Event ι α K} (henabled : Enabled L w e) :
    ∃ w', handle L w e = .ok w' := by
  cases e with
  | beginOverlap c a otherActor k =>
      cases otherActor with
      | none => exact ⟨_, rfl⟩
      | some t =>
          simp only [handle, onBeginOverlap]
          split_ifs with himplements _ _ hcast
          · exact ⟨_, rfl⟩
          · exact ⟨_, rfl⟩
          · exact ⟨_, rfl⟩
          · exact absurd (hnative t himplements) hcast
          · exact ⟨_, rfl⟩
  | endOverlap c a otherActor k =>
      cases otherActor with
      | none => exact ⟨_, rfl⟩
      | some t =>
          simp only [handle, onEndOverlap]
          split_ifs with himplements
          · simp [tryRemoveActiveTarget, hnative t himplements]
          · exact ⟨_, rfl⟩
  | death c t =>
      simp only [handle, death_eq c henabled]
      cases (L.broadcastOrder (w.onTargetDestroyed t)).head? <;> exact ⟨_, rfl⟩
  | tick c a =>
      simp only [handle, tick]
      split_ifs with hempty
      · exact ⟨_, rfl⟩
      · have hne : (w.turret a).activeTargets ≠ [] := fun hnil => hempty (by simp [hnil])
        obtain ⟨w', hw', -⟩ := determineNewTarget_wellFormed (c := c) (h a) hne
        exact ⟨_, by rw [hw']; rfl⟩
      · exact ⟨_, rfl⟩
  | spawned c =>
      cases hspawning : w.spawning with
      | none => exact absurd hspawning henabled
      | some a =>
          simp only [handle, hspawning, tickAfterFire]
          cases hkey : (w.turret a).currentTarget.key with
          | none => exact ⟨_, rfl⟩
          | some t =>
              have ht := (h a).native t ((h a).current_mem hkey)
              simp [tryRemoveActiveTarget, ht, Except.map]

/-- **The targeting invariant.** In every reachable state the list of every
turret is free of nulls and duplicates, each member came in by the admission of
an eligible target and has stayed since, the current target is null or a
member, and it carries the empty tag exactly when it is null; and no event
delivered in such a state makes an assertion fail. -/
theorem targeting_invariant (hnative : ∀ t, L.implements t = true → L.native t = true)
    {trace : List (Transition (World ι α K) (Event ι α K))}
    (hinit : Initial w₀) (hrun : Run (Step L) w₀ trace w) :
    (∀ a, none ∉ (w.turret a).activeTargets ∧ (w.turret a).activeTargets.Nodup ∧
      (∀ t, some t ∈ (w.turret a).activeTargets →
        ∃ before x after, trace = before ++ x :: after ∧ Admits L a t x ∧
          ∀ y ∈ after, some t ∈ (y.target.turret a).activeTargets) ∧
      ((w.turret a).currentTarget.key = none ∨
        (w.turret a).currentTarget.key ∈ (w.turret a).activeTargets) ∧
      ((w.turret a).currentTarget.value = FGameplayTag.empty ↔
        (w.turret a).currentTarget.key = none)) ∧
    ∀ e, Enabled L w e → ∃ w', handle L w e = .ok w' := by
  have hwf := wellFormed_run hinit hrun
  refine ⟨fun a => ⟨(hwf a).notNull, (hwf a).nodup, fun t ht => ?_, (hwf a).key_mem,
    (hwf a).value_empty⟩, fun e henabled => handle_total hnative hwf henabled⟩
  have hnot : some t ∉ (w₀.turret a).activeTargets := by simp [hinit.activeTargets a]
  obtain ⟨before, x, after, htrace, hsrc, htgt, hafter⟩ :=
    hrun.last_change (P := fun w => some t ∈ (w.turret a).activeTargets) hnot ht
  refine ⟨before, x, after, htrace, ?_, hafter⟩
  obtain ⟨⟨earlier, hearlier⟩, hstep⟩ := hrun.mem_reached x (by simp [htrace])
  exact admits_of_new (wellFormed_run hinit hearlier) hstep hsrc htgt

end System

section Alley

attribute [local instance] atan2Engine

/-- One target enters the area of turret 0, and a tick selects it. -/
theorem targeting_invariant_alley : ∃ w, (w.turret 0).currentTarget.key = some 1 ∧
    some 1 ∈ (w.turret 0).activeTargets ∧
    (w.turret 0).currentTarget.value ≠ FGameplayTag.empty ∧
    ∀ e, Enabled alley w e → ∃ w', handle alley w e = .ok w' := by
  obtain ⟨trace, hrun⟩ := alleyOne_run
  obtain ⟨w, hstep, hkey, -⟩ := alleyOne_tick
  obtain ⟨hturrets, hnever⟩ :=
    targeting_invariant (fun _ _ => rfl) alleyStart_initial (hrun.snoc hstep)
  obtain ⟨-, -, -, hmem, hvalue⟩ := hturrets 0
  rw [hkey] at hmem
  exact ⟨w, hkey, hmem.resolve_left (by simp), by simp [hvalue, hkey], hnever⟩

end Alley

end TurretMaster

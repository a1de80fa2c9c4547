import TurretMaster.WellFormed
import TurretMaster.ShootingAlley

/-!
# When a turret sleeps

`UpdateTickState` sets the tick flag of a turret to "has targets or is away
from its idle pose".  Not every path of the code calls it, but the paths that
do not leave both sides as they are, or end with targets in the list.
-/

namespace TurretMaster

open Runs

section Idle

variable {ι α K : Type} [Field K] [Engine K] {c c₀ : Scene ι α K}

/-- The idle pose depends on the forward vector of the actor only. -/
theorem getIdleRotation_congr
    (h : c.actorForwardVector = c₀.actorForwardVector) (a : ι) :
    getIdleRotation c a = getIdleRotation c₀ a := by
  unfold getIdleRotation
  rw [h]

end Idle

section TickState

variable {ι α K : Type} [Field K] [LinearOrder K] [FloorRing K]

/-- The tick flag is tied to the list and the idle pose. -/
def ATurret.TickTied (u : ATurret α K) (idleRotation : FRotator K) : Prop :=
  u.actorTickEnabled =
    (!u.activeTargets.isEmpty || !u.rotationPoint.equals idleRotation 1)

/-- `UpdateTickState` ties the tick flag. -/
theorem tickTied_updateTickState (u : ATurret α K) (idleRotation : FRotator K) :
    (u.updateTickState idleRotation).TickTied idleRotation := by
  rw [ATurret.updateTickState_eq]
  rfl

variable [DecidableEq ι] [Engine K]
variable {L : Level ι α K} {c c₀ : Scene ι α K} {w w' w₀ : World ι α K}

/-- Every flag is tied, the idle pose being the one of the scene `c₀`. -/
def TickTied (c₀ : Scene ι α K) (w : World ι α K) : Prop :=
  ∀ a, (w.turret a).TickTied (getIdleRotation c₀ a)

/-- An operation on one turret that ends with `UpdateTickState`. -/
theorem tickTied_of_update (h : TickTied c₀ w)
    (hforward : c.actorForwardVector = c₀.actorForwardVector) {a : ι}
    (hne : ∀ b, b ≠ a → w'.turret b = w.turret b) :
    TickTied c₀ (updateTickState c w' a) := by
  intro b
  by_cases hb : b = a
  · subst hb
    rw [updateTickState, World.modify_turret_self, ← getIdleRotation_congr hforward]
    exact tickTied_updateTickState _ _
  · rw [updateTickState_turret_ne hb, hne b hb]
    exact h b

/-- Rotating or firing keeps the tie where a current target means a list that
is not empty. -/
theorem tickTied_rotateOrFire (h : TickTied c₀ w) {a : ι}
    (hkey : (w.turret a).currentTarget.key ≠ none → (w.turret a).activeTargets ≠ []) :
    TickTied c₀ (rotateOrFire L c w a) := by
  intro b
  by_cases hb : b = a
  · subst hb
    unfold rotateOrFire fire
    dsimp only
    split_ifs with haim haligned
    · have hlist : (w.turret b).activeTargets.isEmpty = false := by
        simpa using hkey haim.1
      have hflag := h b
      unfold ATurret.TickTied at hflag ⊢
      rw [hlist] at hflag
      simp [hlist, hflag]
    · exact h b
    · exact h b
  · rw [rotateOrFire_turret_ne hb]
    exact h b

variable [DecidableEq α]

/-- A selection keeps the tick flags tied. -/
theorem tickTied_selection {a : ι} (h : TickTied c₀ w)
    (hforward : c.actorForwardVector = c₀.actorForwardVector)
    (hwf : (w.turret a).WellFormed L) (hselect : Selection L c w a w') :
    TickTied c₀ w' := by
  intro b
  by_cases hb : b = a
  · subst hb
    unfold ATurret.TickTied
    rw [hselect.actorTickEnabled, hselect.rotationPoint, getIdleRotation_congr hforward]
    split_ifs with hrejected
    · have hall : remainingTargets L c b (w.turret b) = (w.turret b).targets := by
        have hsplit := rejectedTargets_append_remainingTargets L c b (w.turret b)
        rwa [hrejected, List.nil_append] at hsplit
      rw [hselect.activeTargets, hall, ← ATurret.activeTargets_eq hwf.notNull]
      exact h b
    · rfl
  · rw [hselect.turret_ne b hb]
    exact h b

/-- **One step** of a system whose actors keep their forward vectors. -/
theorem tickTied_step {e : Event ι α K} (hwf : WellFormed L w) (h : TickTied c₀ w)
    (hforward : e.scene.actorForwardVector = c₀.actorForwardVector)
    (hstep : Step L w e w') : TickTied c₀ w' := by
  have hremove (c : Scene ι α K) (a : ι) (t : α)
      (hc : c.actorForwardVector = c₀.actorForwardVector) :
      TickTied c₀ (removeTarget c w a t) :=
    tickTied_of_update h hc (fun b hb => by simp [World.modify_turret_ne _ _ hb])
  cases step_effect hstep with
  | ignoredBegin => exact tickTied_of_update h hforward (fun b _ => rfl)
  | admitted =>
      exact tickTied_of_update h hforward
        (fun b hb => by simp [World.modify_turret_ne _ _ hb])
  | ignoredEnd => exact h
  | left => exact hremove _ _ _ hforward
  | unheard => exact h
  | destroyed => exact hremove _ _ _ hforward
  | idled =>
      exact tickTied_of_update h hforward (fun b hb => World.modify_turret_ne _ _ hb)
  | tracked hne _ => exact tickTied_rotateOrFire h (fun _ => hne)
  | @selected c a w₁ hne hkey hselect =>
      have hselection := (hwf a).selection hne hselect
      have hw₁ := wellFormed_selection (hwf a) hselection
      refine tickTied_rotateOrFire (tickTied_selection h hforward (hwf a) hselection) ?_
      intro hcurrent hnil
      rcases hw₁.key_mem with hnone | hmem
      · exact hcurrent hnone
      · rw [hnil] at hmem
        cases hmem
  | released => exact h
  | fired => exact hremove _ _ _ hforward

/-- Every turret is as its `BeginPlay` in the scene `c₀` left it. -/
structure BegunPlay (c₀ : Scene ι α K) (w₀ : World ι α K) : Prop where
  initial : Initial w₀
  begun : ∃ before : World ι α K, ∀ a, w₀.turret a = (beginPlay c₀ before a).turret a

/-- **When a turret ticks.** As long as the actors keep their forward vectors,
in every reachable state a turret's tick is enabled exactly if it has targets
or is not within one degree of its idle rotation. -/
theorem tick_enabled_iff {trace : List (Transition (World ι α K) (Event ι α K))}
    (hstart : BegunPlay c₀ w₀) (hrun : Run (Step L) w₀ trace w)
    (hforward : ∀ x ∈ trace,
      x.event.scene.actorForwardVector = c₀.actorForwardVector) (a : ι) :
    (w.turret a).actorTickEnabled = true ↔
      (w.turret a).activeTargets ≠ [] ∨
        ¬ (w.turret a).rotationPoint.equals (getIdleRotation c₀ a) 1 = true := by
  obtain ⟨hinit, before, hbegun⟩ := hstart
  have htied₀ : TickTied c₀ w₀ := by
    intro b
    rw [hbegun b, beginPlay, updateTickState, World.modify_turret_self]
    exact tickTied_updateTickState _ _
  have hkept (s : World ι α K) (e : Event ι α K) (s' : World ι α K)
      (h : WellFormed L s ∧ TickTied c₀ s)
      (hC : e.scene.actorForwardVector = c₀.actorForwardVector)
      (hstep : Step L s e s') : WellFormed L s' ∧ TickTied c₀ s' :=
    ⟨wellFormed_step h.1 hstep, tickTied_step h.1 h.2 hC hstep⟩
  have htied : WellFormed L w ∧ TickTied c₀ w :=
    Run.invariant_along (I := fun s => WellFormed L s ∧ TickTied c₀ s) hkept hrun
      ⟨wellFormed_initial hinit, htied₀⟩ hforward
  rw [htied.2 a]
  simp

end TickState

section Alley

attribute [local instance] atan2Engine

/-- At the start `BeginPlay` has run. -/
theorem alleyStart_begunPlay : BegunPlay alleyScene alleyStart where
  initial := alleyStart_initial
  begun := ⟨{ alleyStart with turret := fun _ => freshTurret }, fun a => by
    simp [beginPlay, updateTickState, alleyStart]⟩

/-- Turret 0 has a target and ticks. -/
theorem tick_enabled_iff_alley :
    ((admitTarget alleyScene alleyStart 0 1).turret 0).actorTickEnabled = true := by
  have hrun : Run (Step alley) alleyStart _ (admitTarget alleyScene alleyStart 0 1) :=
    Run.single (alleyStart_enter (k := 0))
  refine (tick_enabled_iff alleyStart_begunPlay hrun (by simp [Event.scene]) 0).mpr
    (Or.inl ?_)
  rw [admitTarget_sameTargeting.activeTargets]
  simp

end Alley

end TurretMaster

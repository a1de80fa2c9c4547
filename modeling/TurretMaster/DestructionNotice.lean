import TurretMaster.Tracking
import TurretMaster.ShootingAlley

/-!
# Who hears of a target's destruction

`TryRemoveActiveTarget` clears the whole delegate of the target it removes, so
a removal by one turret takes the notification away from every other turret
that tracks the target.

* `bindingsTracked_step` — a binding never outlives its turret's interest;
* `bindings_tracked_once` — in a run no turret is bound to a target twice, and
  none is bound to a target it does not track;
* `notified_iff_spares` — in a run every tracking turret stays bound exactly
  if no step removes a target that another turret tracks;
* `death_forgets_iff` — a death is forgotten by every turret exactly if no
  turret but the first one called tracks the target.
-/

namespace TurretMaster

open Runs Observers

section Notice

variable {ι α K : Type}
variable {L : Level ι α K} {c : Scene ι α K} {w w' w₀ : World ι α K}

/-- Every turret that tracks a target is bound to its destruction. -/
def Notified (w : World ι α K) : Prop :=
  ∀ a t, Tracks w a t → a ∈ w.onTargetDestroyed t

/-- Every binding on a target belongs to a turret that tracks it. -/
def BindingsTracked (w : World ι α K) : Prop :=
  ∀ a t, a ∈ w.onTargetDestroyed t → Tracks w a t

/-- Nobody is bound in the first state. -/
theorem bindingsTracked_initial (h : Initial w₀) : BindingsTracked w₀ := by
  intro a t ha
  simp [h.onTargetDestroyed t] at ha

/-- Nobody tracks in the first state. -/
theorem notified_initial (h : Initial w₀) : Notified w₀ := by
  intro a t ha
  simp [Tracks, h.activeTargets a] at ha

/-- No delegate holds two bindings of one turret. -/
def BoundOnce (w : World ι α K) : Prop :=
  ∀ t, (w.onTargetDestroyed t).Nodup

/-- No binding stands twice in the first state. -/
theorem boundOnce_initial (h : Initial w₀) : BoundOnce w₀ := by
  intro t
  rw [h.onTargetDestroyed t]
  exact List.nodup_nil

/-- No turret but `a` tracks `t`. -/
def OnlyTracker (w : World ι α K) (a : ι) (t : α) : Prop :=
  ∀ b, b ≠ a → ¬ Tracks w b t

variable [Field K] [LinearOrder K] [Engine K]

/-- The targets that the event removes from a turret are tracked by no other
turret. -/
def SparesOthers (L : Level ι α K) (w : World ι α K) : Event ι α K → Prop
  | .beginOverlap _ _ _ _ => True
  | .endOverlap _ a otherActor _ =>
      ∀ t, otherActor = some t → L.implements t = true → OnlyTracker w a t
  | .death _ t => ∀ a b, Tracks w a t → Tracks w b t → a = b
  | .tick c a =>
      (w.turret a).currentTarget.key = none →
        ∀ t ∈ rejectedTargets L c a (w.turret a), OnlyTracker w a t
  | .spawned _ =>
      ∀ a t, w.spawning = some a → (w.turret a).currentTarget.key = some t →
        OnlyTracker w a t

/-- Sparing the other observers of the registry, event by event. -/
theorem spares_iff {e : Event ι α K} (hbindings : BindingsTracked w) (h : Notified w) :
    (registry w).Spares (change L w e) ↔ SparesOthers L w e := by
  cases e with
  | beginOverlap c a otherActor k =>
      exact iff_of_true (fun _ _ hremoves => hremoves.elim) trivial
  | endOverlap c a otherActor k =>
      constructor
      · intro hspares t hother himplements
        exact hspares a t ⟨rfl, hother, himplements⟩
      · intro hspares b t hremoves
        obtain ⟨rfl, hother, himplements⟩ := hremoves
        exact hspares t hother himplements
  | death c t =>
      constructor
      · intro hspares a b ha hb
        have hperm := L.broadcastOrder_perm (w.onTargetDestroyed t)
        cases hfirst : (L.broadcastOrder (w.onTargetDestroyed t)).head? with
        | none =>
            rw [List.head?_eq_none_iff.mp hfirst] at hperm
            have hmem := h a t ha
            rw [← hperm.nil_eq] at hmem
            cases hmem
        | some first =>
            have hfirstOnly := hspares first t ⟨rfl, hfirst⟩
            have haFirst : a = first := by_contra fun hne => hfirstOnly a hne ha
            have hbFirst : b = first := by_contra fun hne => hfirstOnly b hne hb
            rw [haFirst, hbFirst]
      · intro hone first s hremoves b hne hb
        obtain ⟨rfl, hfirst⟩ := hremoves
        have hmem := (L.broadcastOrder_perm _).mem_iff.mp (List.mem_of_head? hfirst)
        exact hne (hone b first hb (hbindings first t hmem))
  | tick c a =>
      constructor
      · intro hspares hkey t ht
        exact hspares a t ⟨rfl, hkey, ht⟩
      · intro hspares b t hremoves
        obtain ⟨rfl, hkey, ht⟩ := hremoves
        exact hspares hkey t ht
  | spawned c =>
      constructor
      · intro hspares a t hspawning hkey
        exact hspares a t ⟨hspawning, hkey⟩
      · intro hspares a t hremoves
        exact hspares a t hremoves.1 hremoves.2

variable [DecidableEq ι] [DecidableEq α] [FloorRing K]

/-! ## One step -/

/-- A binding is made and dropped with the membership. -/
theorem bindingsTracked_step {e : Event ι α K} (hwf : WellFormed L w)
    (h : BindingsTracked w) (hstep : Step L w e w') : BindingsTracked w' := by
  have hafter : ((registry w).apply (change L w e)).BoundTracked :=
    Registry.boundTracked_apply h
  rw [← registry_step hwf hstep] at hafter
  exact hafter

/-- **One step** keeps every tracking turret bound exactly if it spares the
targets that others track. -/
theorem notified_step_iff {e : Event ι α K} (hwf : WellFormed L w)
    (hbindings : BindingsTracked w) (h : Notified w) (hstep : Step L w e w') :
    Notified w' ↔ SparesOthers L w e := by
  have hregistry : (registry w').Notified ↔ (registry w).Spares (change L w e) := by
    rw [registry_step hwf hstep]
    exact Registry.notified_apply_iff h
  exact hregistry.trans (spares_iff hbindings h)

/-- **When every tracking turret stays bound.** In a run from a world without
targets and bindings, every tracking turret is bound in every state reached
exactly if every step spares the targets that other turrets track. -/
theorem notified_iff_spares {trace : List (Transition (World ι α K) (Event ι α K))}
    (hinit : Initial w₀) (hrun : Run (Step L) w₀ trace w) :
    Always Notified trace ↔ Along (SparesOthers L) trace := by
  refine hrun.always_iff_along (I := fun w => WellFormed L w ∧ BindingsTracked w) ?_ ?_
    ⟨wellFormed_initial hinit, bindingsTracked_initial hinit⟩ (notified_initial hinit)
  · rintro w e w' ⟨hwf, hbindings⟩ hstep
    exact ⟨wellFormed_step hwf hstep, bindingsTracked_step hwf hbindings hstep⟩
  · rintro w e w' ⟨hwf, hbindings⟩ h hstep
    exact notified_step_iff hwf hbindings h hstep

/-! ## No binding twice -/

/-- **What one step does to a delegate**: nothing, or it clears it, or it adds
a binding of a turret that did not track the target. -/
theorem bindings_step {e : Event ι α K} (hwf : WellFormed L w) (hstep : Step L w e w')
    (t : α) :
    w'.onTargetDestroyed t = w.onTargetDestroyed t ∨ w'.onTargetDestroyed t = [] ∨
      ∃ a, ¬ Tracks w a t ∧ w'.onTargetDestroyed t = w.onTargetDestroyed t ++ [a] := by
  have hremove (c : Scene ι α K) (b : ι) (s : α) :
      (removeTarget c w b s).onTargetDestroyed t = w.onTargetDestroyed t ∨
        (removeTarget c w b s).onTargetDestroyed t = [] := by
    by_cases hts : t = s
    · subst hts
      exact Or.inr removeTarget_onTargetDestroyed_self
    · exact Or.inl (removeTarget_onTargetDestroyed_ne hts)
  cases step_effect hstep with
  | ignoredBegin => exact Or.inl rfl
  | @admitted c a s k _ _ _ _ hnew =>
      by_cases hts : t = s
      · subst hts
        exact Or.inr (Or.inr ⟨a, hnew, admitTarget_onTargetDestroyed_self⟩)
      · exact Or.inl (admitTarget_onTargetDestroyed_ne hts)
  | ignoredEnd => exact Or.inl rfl
  | left => exact (hremove _ _ _).imp_right Or.inl
  | unheard => exact Or.inl rfl
  | destroyed => exact (hremove _ _ _).imp_right Or.inl
  | idled => exact Or.inl rfl
  | tracked => exact Or.inl (by rw [rotateOrFire_onTargetDestroyed])
  | @selected c a w₁ hne hkey hselect =>
      rw [rotateOrFire_onTargetDestroyed, ((hwf a).selection hne hselect).onTargetDestroyed]
      split_ifs
      · exact Or.inr (Or.inl rfl)
      · exact Or.inl rfl
  | released => exact Or.inl rfl
  | @fired c a s _ _ _ => exact (hremove c a s).imp_right Or.inl

/-- A turret that binds itself does not track the target yet, so it is not
bound yet. -/
theorem boundOnce_step {e : Event ι α K} (hwf : WellFormed L w)
    (hbindings : BindingsTracked w) (h : BoundOnce w) (hstep : Step L w e w') :
    BoundOnce w' := by
  intro t
  rcases bindings_step hwf hstep t with hsame | hclear | ⟨a, hnew, hadd⟩
  · rw [hsame]
    exact h t
  · rw [hclear]
    exact List.nodup_nil
  · have ha : a ∉ w.onTargetDestroyed t := fun hmem => hnew (hbindings a t hmem)
    rw [hadd, ← List.concat_eq_append]
    exact (h t).concat ha

/-- **Bindings in every reachable state**: each belongs to a turret that
tracks the target and no turret has two, so a broadcast, in whatever order it
walks them, calls no turret twice and none that does not track the target. -/
theorem bindings_tracked_once {trace : List (Transition (World ι α K) (Event ι α K))}
    (hinit : Initial w₀) (hrun : Run (Step L) w₀ trace w) (t : α) :
    (∀ a ∈ w.onTargetDestroyed t, Tracks w a t) ∧ (w.onTargetDestroyed t).Nodup ∧
      (∀ a ∈ L.broadcastOrder (w.onTargetDestroyed t), Tracks w a t) ∧
      (L.broadcastOrder (w.onTargetDestroyed t)).Nodup := by
  have hinv : WellFormed L w ∧ BindingsTracked w ∧ BoundOnce w := by
    refine hrun.invariant (I := fun w => WellFormed L w ∧ BindingsTracked w ∧ BoundOnce w) ?_
      ⟨wellFormed_initial hinit, bindingsTracked_initial hinit, boundOnce_initial hinit⟩
    intro w e w' ⟨hwf, hbindings, honce⟩ hstep
    exact ⟨wellFormed_step hwf hstep, bindingsTracked_step hwf hbindings hstep,
      boundOnce_step hwf hbindings honce hstep⟩
  obtain ⟨-, hbindings, honce⟩ := hinv
  have hperm := L.broadcastOrder_perm (w.onTargetDestroyed t)
  exact ⟨fun a ha => hbindings a t ha, honce t,
    fun a ha => hbindings a t (hperm.mem_iff.mp ha), hperm.nodup_iff.mpr (honce t)⟩

/-! ## One death -/

/-- **When a death is forgotten by every turret**: exactly if no turret tracks
the target except the owner of the binding that the broadcast calls first. -/
theorem death_forgets_iff {t : α} (hnative : L.native t = true)
    (hcurrent : ∀ a, (w.turret a).currentTarget.key = none ∨
      (w.turret a).currentTarget.key ∈ (w.turret a).activeTargets)
    (hbound : ∀ a, some t ∈ (w.turret a).activeTargets → a ∈ w.onTargetDestroyed t) :
    ∃ w', death L c w t = .ok w' ∧
      ((∀ a, some t ∉ (w'.turret a).activeTargets ∧
          (w'.turret a).currentTarget.key ≠ some t) ↔
        ∀ a, some t ∈ (w.turret a).activeTargets →
          (L.broadcastOrder (w.onTargetDestroyed t)).head? = some a) := by
  have hperm := L.broadcastOrder_perm (w.onTargetDestroyed t)
  have hkey : ∀ a, some t ∉ (w.turret a).activeTargets →
      (w.turret a).currentTarget.key ≠ some t := by
    intro a ha heq
    rcases hcurrent a with hnone | hmem
    · rw [hnone] at heq
      cases heq
    · exact ha (heq ▸ hmem)
  rw [death_eq c hnative]
  cases hfirst : (L.broadcastOrder (w.onTargetDestroyed t)).head? with
  | none =>
      have hempty : w.onTargetDestroyed t = [] := by
        rw [List.head?_eq_none_iff.mp hfirst] at hperm
        exact hperm.nil_eq.symm
      have hnobody : ∀ a, some t ∉ (w.turret a).activeTargets := by
        intro a ha
        have hmem := hbound a ha
        rw [hempty] at hmem
        cases hmem
      exact ⟨w, rfl, iff_of_true (fun a => ⟨hnobody a, hkey a (hnobody a)⟩)
        (fun a ha => absurd ha (hnobody a))⟩
  | some b =>
      refine ⟨removeTarget c w b t, rfl, ?_⟩
      constructor
      · intro hforgot a ha
        by_contra hne
        have hab : a ≠ b := fun heq => hne (heq ▸ rfl)
        have htracks := (hforgot a).1
        rw [removeTarget_turret_ne hab] at htracks
        exact htracks ha
      · intro honly a
        by_cases hab : a = b
        · subst hab
          refine ⟨by simp, ?_⟩
          rw [removeTarget_currentTarget]
          split_ifs with hcur
          · simp
          · exact hcur
        · rw [removeTarget_turret_ne hab]
          have ha : some t ∉ (w.turret a).activeTargets :=
            fun hmem => hab (Option.some.inj (honly a hmem)).symm
          exact ⟨ha, hkey a ha⟩

end Notice

section Alley

attribute [local instance] atan2Engine

/-- Turrets 0 and 1 both track actor 1. -/
noncomputable def alleyPair : World ℕ ℕ ℝ :=
  admitTarget alleyScene (admitTarget alleyScene alleyStart 0 1) 1 1

/-- Both turrets come to track actor 1 without a removal. -/
theorem alleyPair_run : ∃ trace, Run (Step alley) alleyStart trace alleyPair ∧
    Along (SparesOthers alley) trace := by
  have hsecond : some 1 ∉
      ((admitTarget alleyScene alleyStart 0 1).turret 1).activeTargets := by
    simp [admitTarget_turret_ne, alleyStart_initial.activeTargets 1]
  refine ⟨_, (Run.single (alleyStart_enter (k := 0))).snoc
    (alley_enter (k := 0) hsecond), ?_⟩
  simp [Along, SparesOthers]

/-- These two turrets track it. -/
theorem alleyPair_tracks (a : ℕ) : Tracks alleyPair a 1 ↔ a = 0 ∨ a = 1 := by
  have hstart : ¬ Tracks alleyStart a 1 := by
    simp [Tracks, alleyStart_initial.activeTargets a]
  simp [alleyPair, tracks_admitTarget, hstart]

/-- These two turrets are bound, in the order of entry. -/
theorem alleyPair_bindings : alleyPair.onTargetDestroyed 1 = [0, 1] := by
  simp [alleyPair, alleyStart_initial.onTargetDestroyed 1]

/-- Actor 1 comes and goes; no other turret tracks it. -/
theorem alleyAlone_run : ∃ trace, Run (Step alley) alleyStart trace
      (removeTarget alleyScene (admitTarget alleyScene alleyStart 0 1) 0 1) ∧
    Along (SparesOthers alley) trace := by
  refine ⟨_, (Run.single (alleyStart_enter (k := 0))).snoc
    (alley_leave (a := 0) (t := 1) (k := 0)), ?_⟩
  have honly : OnlyTracker (admitTarget alleyScene alleyStart 0 1) 0 1 := by
    intro b hb
    have hstart : ¬ Tracks alleyStart b 1 := by
      simp [Tracks, alleyStart_initial.activeTargets b]
    simp [tracks_admitTarget, hb, hstart]
  simp [Along, SparesOthers, honly]

/-- Actor 1 leaves turret 0 while turret 1 tracks it. -/
theorem alleyPair_leaves : ∃ trace, Run (Step alley) alleyStart trace
      (removeTarget alleyScene alleyPair 0 1) ∧ ¬ Along (SparesOthers alley) trace := by
  obtain ⟨trace, hrun, -⟩ := alleyPair_run
  refine ⟨_, hrun.snoc (alley_leave (a := 0) (t := 1) (k := 0)), fun halong => ?_⟩
  have hspares := (along_concat.mp halong).2 1 rfl rfl
  exact hspares 1 one_ne_zero ((alleyPair_tracks 1).mpr (Or.inr rfl))

/-- A removal that spares the others keeps every tracking turret bound, and one
that does not takes a binding away. -/
theorem notified_iff_spares_alley :
    (∃ trace, Run (Step alley) alleyStart trace
      (removeTarget alleyScene (admitTarget alleyScene alleyStart 0 1) 0 1) ∧
        Always Notified trace) ∧
    ∃ trace, Run (Step alley) alleyStart trace (removeTarget alleyScene alleyPair 0 1) ∧
      ¬ Always Notified trace := by
  constructor
  · obtain ⟨trace, hrun, hspares⟩ := alleyAlone_run
    exact ⟨trace, hrun, (notified_iff_spares alleyStart_initial hrun).mpr hspares⟩
  · obtain ⟨trace, hrun, hspares⟩ := alleyPair_leaves
    exact ⟨trace, hrun, (notified_iff_spares alleyStart_initial hrun).not.mpr hspares⟩

/-- Actor 1 enters the range of turret 0, leaves it and enters it again. -/
noncomputable def alleyAgain : World ℕ ℕ ℝ :=
  admitTarget alleyScene
    (removeTarget alleyScene (admitTarget alleyScene alleyStart 0 1) 0 1) 0 1

/-- Actor 1 comes, goes and comes again. -/
theorem alleyAgain_run : ∃ trace, Run (Step alley) alleyStart trace alleyAgain := by
  have hagain : some 1 ∉ ((removeTarget alleyScene
      (admitTarget alleyScene alleyStart 0 1) 0 1).turret 0).activeTargets := by
    simp
  exact ⟨_, ((Run.single (alleyStart_enter (k := 0))).snoc
    (alley_leave (a := 0) (t := 1) (k := 0))).snoc (alley_enter (k := 0) hagain)⟩

/-- Entering again leaves one binding. -/
theorem bindings_tracked_once_alley :
    ∃ trace, Run (Step alley) alleyStart trace alleyAgain ∧
      (∀ a ∈ alleyAgain.onTargetDestroyed 1, Tracks alleyAgain a 1) ∧
      (alleyAgain.onTargetDestroyed 1).Nodup := by
  obtain ⟨trace, hrun⟩ := alleyAgain_run
  have hbindings := bindings_tracked_once alleyStart_initial hrun 1
  exact ⟨trace, hrun, hbindings.1, hbindings.2.1⟩

/-- Actor 1 leaves turret 0; turret 1 still tracks it and is no longer bound. -/
theorem leaving_unbinds_other :
    Initial alleyStart ∧ ∃ trace w, Run (Step alley) alleyStart trace w ∧
      some 1 ∈ (w.turret 1).activeTargets ∧ 1 ∉ w.onTargetDestroyed 1 := by
  obtain ⟨trace, hrun, -⟩ := alleyPair_run
  refine ⟨alleyStart_initial, _, _,
    hrun.snoc (alley_leave (a := 0) (t := 1) (k := 0)), ?_, by simp⟩
  have htracks : Tracks alleyPair 1 1 := (alleyPair_tracks 1).mpr (Or.inr rfl)
  exact tracks_removeTarget.mpr ⟨htracks, by simp⟩

/-- A current target of the two is an active target. -/
theorem alleyPair_current (a : ℕ) : (alleyPair.turret a).currentTarget.key = none ∨
    (alleyPair.turret a).currentTarget.key ∈ (alleyPair.turret a).activeTargets := by
  obtain ⟨trace, hrun, -⟩ := alleyPair_run
  exact (wellFormed_run alleyStart_initial hrun a).key_mem

/-- Whoever tracks actor 1 is bound. -/
theorem alleyPair_bound (a : ℕ) (ha : some 1 ∈ (alleyPair.turret a).activeTargets) :
    a ∈ alleyPair.onTargetDestroyed 1 := by
  rw [alleyPair_bindings]
  rcases (alleyPair_tracks a).mp ha with rfl | rfl <;> simp

/-- The binding that turret 1 has added last is called first. -/
theorem alleyPair_first :
    (alley.broadcastOrder (alleyPair.onTargetDestroyed 1)).head? = some 1 := by
  rw [alleyPair_bindings]
  rfl

/-- Turrets 0 and 1 both track the actor that dies, and one of them does not
forget it. -/
theorem death_forgets_iff_alley : ∃ w', death alley alleyScene alleyPair 1 = .ok w' ∧
    ¬ ∀ a, some 1 ∉ (w'.turret a).activeTargets ∧
      (w'.turret a).currentTarget.key ≠ some 1 := by
  obtain ⟨w', hw', hiff⟩ :=
    death_forgets_iff (c := alleyScene) (w := alleyPair) (t := 1) (L := alley) rfl
      alleyPair_current alleyPair_bound
  refine ⟨w', hw', hiff.not.mpr fun honly => ?_⟩
  have hfirst := honly 0 ((alleyPair_tracks 0).mpr (Or.inl rfl))
  rw [alleyPair_first] at hfirst
  cases hfirst

/-- Both turrets track actor 1 and are bound; the broadcast of its death
reaches turret 1, whose handler clears the delegate, and turret 0 keeps the
dead target. -/
theorem death_leaves_other_tracking :
    (∀ a, (alleyPair.turret a).currentTarget.key = none ∨
      (alleyPair.turret a).currentTarget.key ∈ (alleyPair.turret a).activeTargets) ∧
    (∀ a, some 1 ∈ (alleyPair.turret a).activeTargets →
      a ∈ alleyPair.onTargetDestroyed 1) ∧
    ∃ w', death alley alleyScene alleyPair 1 = .ok w' ∧
      some 1 ∈ (w'.turret 0).activeTargets := by
  have hlast : (alleyPair.onTargetDestroyed 1).getLast? = some 1 := by
    simp [alleyPair_bindings]
  refine ⟨alleyPair_current, alleyPair_bound, _, (alley_death hlast).2, ?_⟩
  exact tracks_removeTarget.mpr ⟨(alleyPair_tracks 0).mpr (Or.inl rfl), by simp⟩

end Alley

end TurretMaster

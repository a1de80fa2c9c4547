import TurretMaster.Observers
import TurretMaster.WellFormed

/-!
# Who tracks what

Over all runs, tracking is a relation between turrets and targets.  One event
adds at most the pair it admits and takes away the pairs it removes; both are
read off the state before the event.  Turrets and targets are a registry of
observers, and the system refines its changes.

* `tracks_step_iff` — the relation after one event;
* `registry_step` — one event is one change of the registry;
* `lock_kept` — the current target and the aim after one event;
* `tick_shoots` — which tick starts a shot.
-/

namespace TurretMaster

open Observers

section Shot

variable {ι α K : Type} [DecidableEq ι] [Field K] [LinearOrder K] [FloorRing K]
variable {L : Level ι α K} {c : Scene ι α K} {w : World ι α K}

/-- Only a locked turret starts a shot, its own. -/
theorem rotateOrFire_shoots {a b : ι} (hquiet : w.spawning = none)
    (h : (rotateOrFire L c w a).spawning = some b) :
    b = a ∧ ((rotateOrFire L c w a).turret a).currentTarget.key ≠ none := by
  rw [(sameTargeting_rotateOrFire a).currentTarget]
  unfold rotateOrFire fire at h
  dsimp only at h
  split_ifs at h with haim haligned
  · rw [World.modify_spawning, hquiet] at h
    cases h
  · exact ⟨(Option.some.inj h).symm, haim.1⟩
  · rw [hquiet] at h
    cases h

end Shot

section Tracking

variable {ι α K : Type} {L : Level ι α K} {c : Scene ι α K} {w w' : World ι α K}

/-- Turret `a` tracks target `t`. -/
def Tracks (w : World ι α K) (a : ι) (t : α) : Prop :=
  some t ∈ (w.turret a).activeTargets

/-- Equal targeting, equal tracking. -/
theorem tracks_congr (h : ∀ b, SameTargeting (w.turret b) (w'.turret b)) {a : ι} {t : α} :
    Tracks w' a t ↔ Tracks w a t := by
  unfold Tracks
  rw [(h a).activeTargets]

/-- The event shows turret `a` an eligible target `t`. -/
def Enters (L : Level ι α K) (a : ι) (t : α) : Event ι α K → Prop
  | .beginOverlap c b otherActor _ =>
      b = a ∧ otherActor = some t ∧ L.implements t = true ∧ c.isTargetable t = true ∧
        (L.targetableTags a).hasAnyExact (c.targetTags t) = true
  | _ => False

/-- An entry is an overlap that is admitted. -/
theorem exists_of_enters {a : ι} {t : α} {e : Event ι α K} (h : Enters L a t e) :
    ∃ c k, e = .beginOverlap c a (some t) k ∧ L.implements t = true ∧
      c.isTargetable t = true ∧
      (L.targetableTags a).hasAnyExact (c.targetTags t) = true := by
  cases e with
  | beginOverlap c b otherActor k =>
      obtain ⟨rfl, rfl, heligible⟩ := h
      exact ⟨c, k, rfl, heligible⟩
  | endOverlap c b otherActor k => cases h
  | death c s => cases h
  | tick c b => cases h
  | spawned c => cases h

/-- Two turrets locked on the same target with the same aim. -/
structure SameLock (u v : ATurret α K) : Prop where
  currentTarget : v.currentTarget = u.currentTarget
  targetInterceptionRotation :
    v.targetInterceptionRotation = u.targetInterceptionRotation

/-- Equal targeting, equal lock. -/
theorem SameTargeting.sameLock {u v : ATurret α K} (h : SameTargeting u v) :
    SameLock u v :=
  ⟨h.currentTarget, h.targetInterceptionRotation⟩

/-- Equal locks are equal in turn. -/
theorem SameLock.trans {u v x : ATurret α K} (h : SameLock u v) (h' : SameLock v x) :
    SameLock u x :=
  ⟨h'.currentTarget.trans h.currentTarget,
    h'.targetInterceptionRotation.trans h.targetInterceptionRotation⟩

/-! ## What an event removes -/

variable [Field K] [LinearOrder K] [Engine K]

/-- The targets of a turret are those a selection drops and those it leaves. -/
theorem mem_targets_iff (a : ι) (u : ATurret α K) (t : α) :
    some t ∈ u.activeTargets ↔
      t ∈ rejectedTargets L c a u ∨ t ∈ remainingTargets L c a u := by
  rw [← ATurret.mem_targets, ← List.mem_append, rejectedTargets_append_remainingTargets]

/-- No targets, nothing to reject. -/
theorem rejectedTargets_of_nil {a : ι} {u : ATurret α K} (h : u.activeTargets = []) :
    rejectedTargets L c a u = [] := by
  have htargets : u.targets = [] := ATurret.targets_of_map (by simpa using h)
  simp [rejectedTargets, htargets]

/-- The event makes turret `a` drop target `t`: it leaves, its death reaches
the turret first, a selection rejects it, or it has been shot at. -/
def Removes (L : Level ι α K) (w : World ι α K) (a : ι) (t : α) : Event ι α K → Prop
  | .beginOverlap _ _ _ _ => False
  | .endOverlap _ b otherActor _ => b = a ∧ otherActor = some t ∧ L.implements t = true
  | .death _ s => s = t ∧ (L.broadcastOrder (w.onTargetDestroyed t)).head? = some a
  | .tick c b =>
      b = a ∧ (w.turret a).currentTarget.key = none ∧
        t ∈ rejectedTargets L c a (w.turret a)
  | .spawned _ => w.spawning = some a ∧ (w.turret a).currentTarget.key = some t

section Removes

variable {a b : ι} {s t : α} {k : ℕ} {otherActor : Option α}

/-- An ignored end overlap removes nothing. -/
theorem not_removes_of_ignoredEnd
    (hother : ∀ t, otherActor = some t → L.implements t = false) :
    ¬ Removes L w a t (.endOverlap c b otherActor k) := by
  intro hremoves
  have himplements := hremoves.2.2
  rw [hother t hremoves.2.1] at himplements
  cases himplements

/-- What an end overlap removes. -/
theorem removes_left_iff (himplements : L.implements s = true) :
    Removes L w a t (.endOverlap c b (some s) k) ↔ a = b ∧ t = s := by
  constructor
  · intro hremoves
    exact ⟨hremoves.1.symm, (Option.some.inj hremoves.2.1).symm⟩
  · intro hpair
    obtain ⟨rfl, rfl⟩ := hpair
    exact ⟨rfl, rfl, himplements⟩

/-- A death of which nobody is told removes nothing. -/
theorem not_removes_of_unheard (hunbound : w.onTargetDestroyed s = []) :
    ¬ Removes L w a t (.death c s) := by
  intro hremoves
  obtain ⟨rfl, hfirst⟩ := hremoves
  have hmem := (L.broadcastOrder_perm _).mem_iff.mp (List.mem_of_head? hfirst)
  rw [hunbound] at hmem
  cases hmem

/-- A death removes from the first that is told. -/
theorem removes_destroyed_iff
    (hfirst : (L.broadcastOrder (w.onTargetDestroyed s)).head? = some b) :
    Removes L w a t (.death c s) ↔ a = b ∧ t = s := by
  constructor
  · intro hremoves
    obtain ⟨rfl, hhead⟩ := hremoves
    exact ⟨Option.some.inj (hhead.symm.trans hfirst), rfl⟩
  · intro hpair
    obtain ⟨rfl, rfl⟩ := hpair
    exact ⟨rfl, hfirst⟩

/-- A tick without targets removes nothing. -/
theorem not_removes_of_idled (hempty : (w.turret b).activeTargets = []) :
    ¬ Removes L w a t (.tick c b) := by
  intro hremoves
  obtain ⟨rfl, -, hmem⟩ := hremoves
  rw [rejectedTargets_of_nil hempty] at hmem
  cases hmem

/-- Nor does a tick of a locked turret. -/
theorem not_removes_of_tracked (hkey : (w.turret b).currentTarget.key ≠ none) :
    ¬ Removes L w a t (.tick c b) := by
  intro hremoves
  obtain ⟨rfl, hnone, -⟩ := hremoves
  exact hkey hnone

/-- A selection removes what it rejects. -/
theorem removes_selected_iff (hkey : (w.turret b).currentTarget.key = none) :
    Removes L w a t (.tick c b) ↔
      a = b ∧ t ∈ rejectedTargets L c b (w.turret b) := by
  constructor
  · intro hremoves
    obtain ⟨rfl, -, hmem⟩ := hremoves
    exact ⟨rfl, hmem⟩
  · intro hpair
    obtain ⟨rfl, hmem⟩ := hpair
    exact ⟨rfl, hkey, hmem⟩

/-- A spawn without a current target removes nothing. -/
theorem not_removes_of_released (hspawning : w.spawning = some b)
    (hkey : (w.turret b).currentTarget.key = none) :
    ¬ Removes L w a t (.spawned c) := by
  intro hremoves
  obtain rfl := Option.some.inj (hspawning.symm.trans hremoves.1)
  have hcurrent := hremoves.2
  rw [hkey] at hcurrent
  cases hcurrent

/-- A spawn removes the current target. -/
theorem removes_fired_iff (hspawning : w.spawning = some b)
    (hkey : (w.turret b).currentTarget.key = some s) :
    Removes L w a t (.spawned c) ↔ a = b ∧ t = s := by
  constructor
  · intro hremoves
    obtain rfl := Option.some.inj (hspawning.symm.trans hremoves.1)
    exact ⟨rfl, Option.some.inj (hremoves.2.symm.trans hkey)⟩
  · intro hpair
    obtain ⟨rfl, rfl⟩ := hpair
    exact ⟨hspawning, hkey⟩

/-- An event removes a target from one turret only. -/
theorem removes_unique {e : Event ι α K} (ha : Removes L w a t e)
    (hb : Removes L w b t e) : a = b := by
  cases e with
  | beginOverlap c x otherActor k => cases ha
  | endOverlap c x otherActor k => exact ha.1.symm.trans hb.1
  | death c s => exact Option.some.inj (ha.2.symm.trans hb.2)
  | tick c x => exact ha.1.symm.trans hb.1
  | spawned c => exact Option.some.inj (ha.1.symm.trans hb.1)

/-- No event both shows and removes a target. -/
theorem not_enters_of_removes {e : Event ι α K} (ha : Removes L w a t e) :
    ¬ Enters L b t e := by
  intro hb
  cases e with
  | beginOverlap c x otherActor k => exact ha
  | endOverlap c x otherActor k => exact hb
  | death c s => exact hb
  | tick c x => exact hb
  | spawned c => exact hb

end Removes

/-! ## Tracking after an operation -/

variable [DecidableEq ι] [DecidableEq α] [FloorRing K]

/-- Tracking after an admission. -/
theorem tracks_admitTarget {a b : ι} {s t : α} :
    Tracks (admitTarget c w a t) b s ↔ Tracks w b s ∨ (b = a ∧ s = t) := by
  unfold Tracks
  by_cases hb : b = a
  · subst hb
    simp [admitTarget_sameTargeting.activeTargets]
  · simp [admitTarget_turret_ne hb, hb]

/-- Tracking after a removal. -/
theorem tracks_removeTarget {a b : ι} {s t : α} :
    Tracks (removeTarget c w a t) b s ↔ Tracks w b s ∧ ¬ (b = a ∧ s = t) := by
  unfold Tracks
  by_cases hb : b = a
  · subst hb
    simp
  · simp [removeTarget_turret_ne hb, hb]

/-- Tracking after a selection. -/
theorem tracks_selection {a b : ι} {s : α} (hnodup : (w.turret a).targets.Nodup)
    (h : Selection L c w a w') :
    Tracks w' b s ↔ Tracks w b s ∧
      ¬ (b = a ∧ s ∈ rejectedTargets L c a (w.turret a)) := by
  unfold Tracks
  by_cases hb : b = a
  · subst hb
    have hdisjoint : s ∈ remainingTargets L c b (w.turret b) →
        s ∉ rejectedTargets L c b (w.turret b) := by
      have hsplit := rejectedTargets_append_remainingTargets L c b (w.turret b)
      rw [← hsplit] at hnodup
      exact fun hrem hrej => List.disjoint_of_nodup_append hnodup hrej hrem
    rw [mem_targets_iff (L := L) (c := c) b (w.turret b) s, h.activeTargets]
    simp only [List.mem_map, Option.some.injEq, exists_eq_right, true_and]
    tauto
  · rw [h.turret_ne b hb]
    simp [hb]

/-! ## Tracking after one event -/

/-- **Tracking after one event**: what it shows to the turret, and what was
tracked before and is not removed. -/
theorem tracks_step_iff {e : Event ι α K} (hwf : WellFormed L w)
    (hstep : Step L w e w') (a : ι) (t : α) :
    Tracks w' a t ↔ Enters L a t e ∨ (Tracks w a t ∧ ¬ Removes L w a t e) := by
  cases step_effect hstep with
  | @ignoredBegin c b otherActor k hother =>
      rw [tracks_congr sameTargeting_updateTickState]
      simp only [Removes, not_false_eq_true, and_true]
      refine ⟨Or.inr, ?_⟩
      intro h
      rcases h with henters | htracks
      · obtain ⟨rfl, rfl, himplements, htargetable, htags⟩ := henters
        exact hother t rfl himplements htargetable htags
      · exact htracks
  | @admitted c b s k himplements htargetable htags _ _ =>
      rw [tracks_admitTarget]
      simp only [Removes, not_false_eq_true, and_true]
      constructor
      · intro h
        rcases h with htracks | hpair
        · exact Or.inr htracks
        · obtain ⟨rfl, rfl⟩ := hpair
          exact Or.inl ⟨rfl, rfl, himplements, htargetable, htags⟩
      · intro h
        rcases h with henters | htracks
        · exact Or.inr ⟨henters.1.symm, (Option.some.inj henters.2.1).symm⟩
        · exact Or.inl htracks
  | ignoredEnd hother => simp [Enters, not_removes_of_ignoredEnd hother]
  | left himplements _ =>
      rw [tracks_removeTarget, removes_left_iff himplements]
      simp [Enters]
  | unheard hunbound => simp [Enters, not_removes_of_unheard hunbound]
  | destroyed _ hfirst =>
      rw [tracks_removeTarget, removes_destroyed_iff hfirst]
      simp [Enters]
  | idled hempty =>
      rw [tracks_congr sameTargeting_moveToIdle]
      simp [Enters, not_removes_of_idled hempty]
  | tracked _ hkey =>
      rw [tracks_congr sameTargeting_rotateOrFire]
      simp [Enters, not_removes_of_tracked hkey]
  | @selected c b w₁ hne hkey hselect =>
      have hselection := (hwf b).selection hne hselect
      rw [tracks_congr sameTargeting_rotateOrFire,
        tracks_selection (hwf b).nodup_targets hselection, removes_selected_iff hkey]
      simp [Enters]
  | released hspawning hkey =>
      simp [Tracks, Enters, not_removes_of_released hspawning hkey]
  | @fired c b s hspawning hkey _ =>
      show Tracks (removeTarget c w b s) a t ↔ _
      rw [tracks_removeTarget, removes_fired_iff hspawning hkey]
      simp [Enters]

/-! ## The registry of turrets and targets -/

/-- The turrets as observers of the targets. -/
def registry (w : World ι α K) : Registry ι α where
  tracks := Tracks w
  bound a t := a ∈ w.onTargetDestroyed t

/-- The change that an event makes in a world. -/
def change (L : Level ι α K) (w : World ι α K) (e : Event ι α K) : Change ι α where
  joins a t := Enters L a t e ∧ ¬ Tracks w a t
  removes a t := Removes L w a t e
  removes_unique := removes_unique
  not_joins hremoves hjoins := not_enters_of_removes hremoves hjoins.1

/-- Bindings of a world that has removed one target. -/
theorem mem_removeTarget_iff {a b : ι} {s t : α} :
    a ∈ (removeTarget c w b s).onTargetDestroyed t ↔ a ∈ w.onTargetDestroyed t ∧ t ≠ s := by
  by_cases hts : t = s
  · subst hts
    simp
  · simp [removeTarget_onTargetDestroyed_ne hts, hts]

/-- **Bindings after one event**: those made before and the one made now,
unless the target has been removed from some turret. -/
theorem bound_step_iff {e : Event ι α K} (hwf : WellFormed L w) (hstep : Step L w e w')
    (a : ι) (t : α) :
    a ∈ w'.onTargetDestroyed t ↔
      ((Enters L a t e ∧ ¬ Tracks w a t) ∨ a ∈ w.onTargetDestroyed t) ∧
        ∀ b, ¬ Removes L w b t e := by
  cases step_effect hstep with
  | @ignoredBegin c b otherActor k hother =>
      have hjoins : ¬ (Enters L a t (.beginOverlap c b otherActor k) ∧ ¬ Tracks w a t) := by
        intro h
        obtain ⟨⟨rfl, rfl, himplements, htargetable, htags⟩, hnew⟩ := h
        exact hnew (hother t rfl himplements htargetable htags)
      simp [hjoins, Removes]
  | @admitted c b s k himplements htargetable htags _ hnew =>
      have hjoins : (Enters L a t (.beginOverlap c b (some s) k) ∧ ¬ Tracks w a t) ↔
          a = b ∧ t = s := by
        constructor
        · intro h
          exact ⟨h.1.1.symm, (Option.some.inj h.1.2.1).symm⟩
        · intro h
          obtain ⟨rfl, rfl⟩ := h
          exact ⟨⟨rfl, rfl, himplements, htargetable, htags⟩, hnew⟩
      rw [hjoins]
      by_cases hts : t = s
      · subst hts
        simp [Removes, or_comm]
      · simp [admitTarget_onTargetDestroyed_ne hts, hts, Removes]
  | ignoredEnd hother => simp [Enters, not_removes_of_ignoredEnd hother]
  | left himplements _ =>
      rw [mem_removeTarget_iff]
      simp [Enters, removes_left_iff himplements]
  | unheard hunbound => simp [Enters, not_removes_of_unheard hunbound]
  | destroyed _ hfirst =>
      rw [mem_removeTarget_iff]
      simp [Enters, removes_destroyed_iff hfirst]
  | idled hempty => simp [Enters, not_removes_of_idled hempty]
  | tracked _ hkey => simp [Enters, not_removes_of_tracked hkey]
  | @selected c b w₁ hne hkey hselect =>
      rw [rotateOrFire_onTargetDestroyed, ((hwf b).selection hne hselect).onTargetDestroyed]
      by_cases hmem : t ∈ rejectedTargets L c b (w.turret b)
      · simp [removes_selected_iff hkey, hmem]
      · simp [Enters, removes_selected_iff hkey, hmem]
  | released hspawning hkey => simp [Enters, not_removes_of_released hspawning hkey]
  | @fired c b s hspawning hkey _ =>
      show a ∈ (removeTarget c w b s).onTargetDestroyed t ↔ _
      rw [mem_removeTarget_iff]
      simp [Enters, removes_fired_iff hspawning hkey]

/-- **Refinement.** One event of the system is one change of the registry. -/
theorem registry_step {e : Event ι α K} (hwf : WellFormed L w) (hstep : Step L w e w') :
    registry w' = (registry w).apply (change L w e) := by
  ext a t
  · show Tracks w' a t ↔ (Enters L a t e ∧ ¬ Tracks w a t) ∨
      (Tracks w a t ∧ ¬ Removes L w a t e)
    rw [tracks_step_iff hwf hstep]
    have hdisjoint : Enters L a t e → ¬ Removes L w a t e :=
      fun henters hremoves => not_enters_of_removes hremoves henters
    tauto
  · exact bound_step_iff hwf hstep a t

/-! ## The current target after one event -/

/-- A removal leaves a lock alone that is not on the removed target. -/
theorem sameLock_removeTarget {a b : ι} {s : α}
    (hother : a = b → (w.turret a).currentTarget.key ≠ some s) :
    SameLock (w.turret a) ((removeTarget c w b s).turret a) := by
  by_cases hab : a = b
  · subst hab
    refine ⟨?_, removeTarget_targetInterceptionRotation⟩
    rw [removeTarget_currentTarget, if_neg (hother rfl)]
  · rw [removeTarget_turret_ne hab]
    exact ⟨rfl, rfl⟩

/-- An admission keeps every lock. -/
theorem sameLock_admitTarget {a b : ι} {s : α} :
    SameLock (w.turret a) ((admitTarget c w b s).turret a) := by
  by_cases hab : a = b
  · subst hab
    have h := (admitTarget_sameTargeting (c := c) (w := w) (a := a) (t := s)).sameLock
    exact ⟨h.currentTarget, h.targetInterceptionRotation⟩
  · rw [admitTarget_turret_ne hab]
    exact ⟨rfl, rfl⟩

/-- **A lock is kept** by every event that does not remove its target. -/
theorem lock_kept {e : Event ι α K} (hwf : WellFormed L w) (hstep : Step L w e w')
    {a : ι} {t : α} (hkey : (w.turret a).currentTarget.key = some t)
    (hkept : ¬ Removes L w a t e) : SameLock (w.turret a) (w'.turret a) := by
  cases step_effect hstep with
  | ignoredBegin => exact (sameTargeting_updateTickState a).sameLock
  | admitted => exact sameLock_admitTarget
  | ignoredEnd => exact ⟨rfl, rfl⟩
  | @left c b s k himplements _ =>
      refine sameLock_removeTarget fun hab hs => hkept ?_
      obtain rfl := Option.some.inj (hkey.symm.trans hs)
      exact ⟨hab.symm, rfl, himplements⟩
  | unheard => exact ⟨rfl, rfl⟩
  | @destroyed c s b _ hfirst =>
      refine sameLock_removeTarget fun hab hs => hkept ?_
      obtain rfl := Option.some.inj (hkey.symm.trans hs)
      exact ⟨rfl, hab ▸ hfirst⟩
  | idled => exact (sameTargeting_moveToIdle a).sameLock
  | tracked => exact (sameTargeting_rotateOrFire a).sameLock
  | @selected c b w₁ hne hnone hselect =>
      have hab : a ≠ b := by
        intro heq
        rw [heq, hnone] at hkey
        cases hkey
      have hselection := (hwf b).selection hne hselect
      have hsame : SameLock (w.turret a) (w₁.turret a) := by
        rw [hselection.turret_ne a hab]
        exact ⟨rfl, rfl⟩
      exact hsame.trans (sameTargeting_rotateOrFire a).sameLock
  | released => exact ⟨rfl, rfl⟩
  | @fired c b s hspawning hs _ =>
      have hsame : SameLock (w.turret a) ((removeTarget c w b s).turret a) := by
        refine sameLock_removeTarget fun hab hs' => hkept ?_
        obtain rfl := Option.some.inj (hkey.symm.trans hs')
        exact ⟨hab ▸ hspawning, hkey⟩
      exact ⟨hsame.currentTarget, hsame.targetInterceptionRotation⟩

/-! ## The shot under way -/

/-- Only a tick starts a shot, and only its arrival ends it. -/
theorem spawning_kept {e : Event ι α K} (hstep : Step L w e w')
    (htick : ∀ c a, e ≠ .tick c a) (hspawned : ∀ c, e ≠ .spawned c) :
    w'.spawning = w.spawning := by
  cases step_effect hstep with
  | ignoredBegin => rfl
  | admitted => rfl
  | ignoredEnd => rfl
  | left => rfl
  | unheard => rfl
  | destroyed => rfl
  | idled => exact absurd rfl (htick _ _)
  | tracked => exact absurd rfl (htick _ _)
  | selected => exact absurd rfl (htick _ _)
  | released => exact absurd rfl (hspawned _)
  | fired => exact absurd rfl (hspawned _)

/-- No shot is under way once it has arrived. -/
theorem spawned_quiet (hstep : Step L w (.spawned c) w') : w'.spawning = none := by
  cases step_effect hstep with
  | released => rfl
  | fired => rfl

/-- A tick starts a shot of its own turret, at a current target. -/
theorem tick_shoots (hwf : WellFormed L w) {a b : ι} (hstep : Step L w (.tick c a) w')
    (h : w'.spawning = some b) :
    b = a ∧ (w'.turret a).currentTarget.key ≠ none := by
  have hquiet : w.spawning = none := hstep.1
  cases step_effect hstep with
  | idled =>
      have hnone : (moveToIdle L c w a).spawning = none := hquiet
      rw [hnone] at h
      cases h
  | tracked => exact rotateOrFire_shoots hquiet h
  | @selected c a w₁ hne hkey hselect =>
      have hselection := (hwf a).selection hne hselect
      exact rotateOrFire_shoots (hselection.spawning.trans hquiet) h

end Tracking

end TurretMaster

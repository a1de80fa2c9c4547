import TurretMaster.Tracking
import TurretMaster.ShootingAlley

/-!
# The order of overlaps and deaths

The engine delivers the overlap events of a frame in any order, and a death
may come between them.  Each of these events comes down to at most one action
of one turret, and which one it is depends only on what the world knows about
the actor the event is about.  Actions on different actors commute, except
that two admissions to one turret leave their actors in the order of arrival.

* `step_action` — what an event comes down to, in every world that agrees
  about its actor;
* `onFields_comm` — two actions of one turret;
* `either_order` — two events about different actors.
-/

namespace TurretMaster

section Order

variable {ι α K : Type}
variable {L : Level ι α K} {c c' : Scene ι α K} {w w' v : World ι α K}

/-- The event is an overlap or a death and is about this actor; overlaps may
be about the null actor. -/
def Concerns (r : Option α) : Event ι α K → Prop
  | .beginOverlap _ _ otherActor _ => otherActor = r
  | .endOverlap _ _ otherActor _ => otherActor = r
  | .death _ t => some t = r
  | .tick _ _ => False
  | .spawned _ => False

/-- Two worlds agree about an actor: the same turrets track it and its
delegate is the same. -/
structure AgreeAbout (r : Option α) (w v : World ι α K) : Prop where
  tracks : ∀ a t, r = some t → (Tracks v a t ↔ Tracks w a t)
  onTargetDestroyed : ∀ t, r = some t → v.onTargetDestroyed t = w.onTargetDestroyed t

/-- A world agrees with itself. -/
theorem AgreeAbout.refl (r : Option α) (w : World ι α K) : AgreeAbout r w w :=
  ⟨fun _ _ _ => Iff.rfl, fun _ _ => rfl⟩

/-- Two turrets with the same rotation, current target, aim and tick flag. -/
structure SameButList (u v : ATurret α K) : Prop where
  rotationPoint : v.rotationPoint = u.rotationPoint
  currentTarget : v.currentTarget = u.currentTarget
  targetInterceptionRotation :
    v.targetInterceptionRotation = u.targetInterceptionRotation
  actorTickEnabled : v.actorTickEnabled = u.actorTickEnabled

/-- A turret agrees with itself up to its list. -/
theorem SameButList.refl (u : ATurret α K) : SameButList u u := ⟨rfl, rfl, rfl, rfl⟩

variable [DecidableEq α]

/-- An admission and the removal of another actor commute. -/
theorem dropTarget_admission {s t : α} (u : ATurret α K) (hst : s ≠ t) :
    ATurret.dropTarget { u with activeTargets := u.activeTargets ++ [some s] } t =
      { u.dropTarget t with activeTargets := (u.dropTarget t).activeTargets ++ [some s] } := by
  have hkept : some s ≠ some t := fun heq => hst (Option.some.inj heq)
  simp [ATurret.dropTarget_eq, List.filter_append, hkept]

/-- Two removals commute. -/
theorem dropTarget_comm (s t : α) (u : ATurret α K) :
    (u.dropTarget s).dropTarget t = (u.dropTarget t).dropTarget s := by
  have hfilter := List.filter_comm (fun x => decide (x ≠ some s)) (fun x => decide (x ≠ some t))
    u.activeTargets
  by_cases hs : u.currentTarget.key = some s
  · by_cases ht : s = t
    · rw [ht]
    · simp only [ATurret.dropTarget_eq, hfilter]
      simp [hs, ht]
  · simp only [ATurret.dropTarget_eq, hfilter, if_neg hs]
    by_cases ht : u.currentTarget.key = some t
    · simp [ht]
    · simp [hs, ht]

/-! ## The action of an event -/

/-- What a turret does about an actor. -/
inductive Action (α : Type)
  | refresh
  | admission (t : α)
  | removal (t : α)

namespace Action

/-- The actor whose membership and delegate the action changes. -/
def actor : Action α → Option α
  | refresh => none
  | admission t => some t
  | removal t => some t

/-- The change of the turret's fields, before the tick state is updated. -/
def onFields : Action α → ATurret α K → ATurret α K
  | refresh, u => u
  | admission t, u => { u with activeTargets := u.activeTargets ++ [some t] }
  | removal t, u => u.dropTarget t

/-- The change of the delegate of the actor. -/
def onBindings (a : ι) : Action α → List ι → List ι
  | refresh, bindings => bindings
  | admission _, bindings => bindings ++ [a]
  | removal _, _ => []

variable [DecidableEq ι] [Field K] [LinearOrder K] [FloorRing K] [Engine K]

/-- The world after the action of a turret. -/
def run (c : Scene ι α K) (w : World ι α K) (a : ι) : Action α → World ι α K
  | refresh => updateTickState c w a
  | admission t => admitTarget c w a t
  | removal t => removeTarget c w a t

variable (act act' : Action α) {a b : ι} {s t : α}

/-- The turret after its action. -/
theorem run_turret_self :
    (act.run c w a).turret a =
      (act.onFields (w.turret a)).updateTickState (getIdleRotation c a) := by
  cases act with
  | refresh => simp [run, onFields, updateTickState]
  | admission t => simp [run, onFields, admitTarget, updateTickState]
  | removal t => exact removeTarget_turret_self

/-- An action leaves the other turrets alone. -/
theorem run_turret_ne (h : b ≠ a) : (act.run c w a).turret b = w.turret b := by
  cases act with
  | refresh => exact updateTickState_turret_ne h
  | admission t => exact admitTarget_turret_ne h
  | removal t => exact removeTarget_turret_ne h

/-- The delegate of the actor of an action. -/
theorem run_onTargetDestroyed_self (h : act.actor = some t) :
    (act.run c w a).onTargetDestroyed t = act.onBindings a (w.onTargetDestroyed t) := by
  cases act with
  | refresh => cases h
  | admission s =>
      obtain rfl := Option.some.inj h
      exact admitTarget_onTargetDestroyed_self
  | removal s =>
      obtain rfl := Option.some.inj h
      exact removeTarget_onTargetDestroyed_self

/-- An action leaves the other delegates alone. -/
theorem run_onTargetDestroyed_ne (h : act.actor ≠ some t) :
    (act.run c w a).onTargetDestroyed t = w.onTargetDestroyed t := by
  cases act with
  | refresh => rfl
  | admission s => exact admitTarget_onTargetDestroyed_ne fun heq => h (heq ▸ rfl)
  | removal s => exact removeTarget_onTargetDestroyed_ne fun heq => h (heq ▸ rfl)

/-- An action leaves the shot under way alone. -/
theorem run_spawning : (act.run c w a).spawning = w.spawning := by
  cases act <;> rfl

/-- Who tracks an actor that the action is not about stays as it is. -/
theorem tracks_run (h : act.actor ≠ some t) :
    Tracks (act.run c w a) b t ↔ Tracks w b t := by
  cases act with
  | refresh => exact tracks_congr sameTargeting_updateTickState
  | admission s =>
      have hne : t ≠ s := fun heq => h (heq ▸ rfl)
      simp [run, tracks_admitTarget, hne]
  | removal s =>
      have hne : t ≠ s := fun heq => h (heq ▸ rfl)
      simp [run, tracks_removeTarget, hne]

end Action

/-! ## Two actions of one turret -/

/-- **Actions on different actors commute** on the fields of a turret, unless
both are admissions. -/
theorem onFields_comm {act act' : Action α} (u : ATurret α K)
    (hne : ∀ t, act.actor = some t → act'.actor ≠ some t)
    (hadmissions : ∀ s t, act = .admission s → act' ≠ .admission t) :
    act'.onFields (act.onFields u) = act.onFields (act'.onFields u) := by
  cases act with
  | refresh => rfl
  | admission s =>
      cases act' with
      | refresh => rfl
      | admission t => exact absurd rfl (hadmissions s t rfl)
      | removal t => exact dropTarget_admission u fun heq => hne s rfl (heq ▸ rfl)
  | removal s =>
      cases act' with
      | refresh => rfl
      | admission t => exact (dropTarget_admission u fun heq : t = s => hne s rfl (heq ▸ rfl)).symm
      | removal t => exact dropTarget_comm s t u

variable [Field K] [LinearOrder K] [FloorRing K]

/-- The actions do not read the tick flag. -/
theorem onFields_updateTickState (act : Action α) (u : ATurret α K)
    (idleRotation : FRotator K) :
    (act.onFields (u.updateTickState idleRotation)).updateTickState idleRotation =
      (act.onFields u).updateTickState idleRotation := by
  cases act <;>
    simp [Action.onFields, ATurret.updateTickState_eq, ATurret.dropTarget_eq]

/-- Two admissions in either order differ only in the order of the list; the
tick flag cannot tell, for the list is not empty. -/
theorem admissions_sameButList (u : ATurret α K) (idleRotation : FRotator K) (s t : α) :
    SameButList
      (((Action.admission t).onFields ((Action.admission s).onFields u)).updateTickState
        idleRotation)
      (((Action.admission s).onFields ((Action.admission t).onFields u)).updateTickState
        idleRotation) := by
  have hempty (x y : Option α) : (u.activeTargets ++ [x, y]).isEmpty = false := by
    cases u.activeTargets <;> rfl
  constructor <;> simp [Action.onFields, ATurret.updateTickState_eq, hempty]

/-! ## Two events -/

variable [DecidableEq ι] [Engine K]

/-- An action on one actor leaves the world as it was about any other. -/
theorem agreeAbout_run {r r' : Option α} {a : ι} {act : Action α}
    (hact : ∀ t, act.actor = some t → r' = some t) (hne : r ≠ r') :
    AgreeAbout r w (act.run c w a) := by
  have hother (t : α) (ht : r = some t) : act.actor ≠ some t :=
    fun heq => hne (ht.trans (hact t heq).symm)
  exact ⟨fun b t ht => act.tracks_run (hother t ht),
    fun t ht => act.run_onTargetDestroyed_ne (hother t ht)⟩

/-- What an event comes down to: nothing, or one action of one turret.  It is
an action on the actor of the event, an admission only if the event shows the
turret an eligible actor it does not track, and it is the same in every world
that agrees about the actor. -/
theorem step_action {r : Option α} {e : Event ι α K} (hr : Concerns r e)
    (h : Step L w e w') :
    (w' = w ∧ ∀ v, AgreeAbout r w v → Step L v e v) ∨
    ∃ a act, (∀ t, Action.actor act = some t → r = some t) ∧
      (∀ t, act = .admission t → Enters L a t e) ∧
      w' = act.run e.scene w a ∧
      ∀ v, AgreeAbout r w v → Step L v e (act.run e.scene v a) := by
  cases step_effect h with
  | @ignoredBegin c a otherActor k hother =>
      obtain rfl : otherActor = r := hr
      refine Or.inr ⟨a, .refresh, by simp [Action.actor], by simp, rfl, ?_⟩
      intro v hv
      refine ⟨trivial, ?_⟩
      cases otherActor with
      | none => rfl
      | some t =>
          -- nothing but membership keeps an eligible actor out
          have hrefused (himplements : L.implements t = true)
              (hopen : ¬ (decide (some t ∈ (v.turret a).activeTargets) ||
                !c.isTargetable t) = true)
              (htags : ¬ (!(L.targetableTags a).hasAnyExact (c.targetTags t)) = true) :
              False := by
            simp only [Bool.or_eq_true, decide_eq_true_eq, Bool.not_eq_true', not_or,
              Bool.not_eq_false] at hopen htags
            have hmem := hother t rfl himplements hopen.2 htags
            exact hopen.1 ((hv.tracks a t rfl).mpr hmem)
          simp only [handle, onBeginOverlap]
          split_ifs with himplements hopen htags hnative
          · rfl
          · rfl
          · exact (hrefused himplements hopen htags).elim
          · exact (hrefused himplements hopen htags).elim
          · rfl
  | @admitted c a t k himplements htargetable htags hnative hnew =>
      obtain rfl : some t = r := hr
      refine Or.inr ⟨a, .admission t, by simp [Action.actor], ?_, rfl, ?_⟩
      · rintro s ⟨⟩
        exact ⟨rfl, rfl, himplements, htargetable, htags⟩
      · intro v hv
        have hnew' : some t ∉ (v.turret a).activeTargets :=
          fun hmem => hnew ((hv.tracks a t rfl).mp hmem)
        refine ⟨trivial, ?_⟩
        simp [handle, onBeginOverlap, himplements, hnew', htargetable, htags, hnative,
          Action.run, admitTarget, Event.scene]
  | @ignoredEnd c a otherActor k hother =>
      refine Or.inl ⟨rfl, fun v _ => ⟨trivial, ?_⟩⟩
      cases otherActor with
      | none => rfl
      | some t => simp [handle, onEndOverlap, hother t rfl]
  | @left c a t k himplements hnative =>
      obtain rfl : some t = r := hr
      refine Or.inr ⟨a, .removal t, by simp [Action.actor], by simp, rfl, ?_⟩
      intro v _
      refine ⟨trivial, ?_⟩
      simp [handle, onEndOverlap, tryRemoveActiveTarget, himplements, hnative, Action.run,
        removeTarget, Event.scene]
  | @unheard c t hunbound =>
      obtain rfl : some t = r := hr
      refine Or.inl ⟨rfl, fun v hv => ⟨h.1, ?_⟩⟩
      have hnone : L.broadcastOrder (v.onTargetDestroyed t) = [] := by
        rw [hv.onTargetDestroyed t rfl, hunbound]
        exact (L.broadcastOrder_perm []).eq_nil
      simp only [handle, death_eq c h.1, hnone, List.head?_nil]
  | @destroyed c t b hnative hfirst =>
      obtain rfl : some t = r := hr
      refine Or.inr ⟨b, .removal t, by simp [Action.actor], by simp, rfl, ?_⟩
      intro v hv
      refine ⟨hnative, ?_⟩
      rw [← hv.onTargetDestroyed t rfl] at hfirst
      simp only [handle, death_eq c hnative, hfirst, Action.run, Event.scene]
  | idled => exact hr.elim
  | tracked => exact hr.elim
  | selected => exact hr.elim
  | released => exact hr.elim
  | fired => exact hr.elim

/-- The turret `b` after two actions, in either order. -/
theorem run_run_turret {act act' : Action α} {a a' : ι} (b : ι)
    (hforward : c.actorForwardVector = c'.actorForwardVector)
    (hne : ∀ t, act.actor = some t → act'.actor ≠ some t) :
    SameButList ((act'.run c' (act.run c w a) a').turret b)
      ((act.run c (act'.run c' w a') a).turret b) ∧
    (((act.run c (act'.run c' w a') a).turret b).activeTargets =
        ((act'.run c' (act.run c w a) a').turret b).activeTargets ∨
      ∃ s t, a = b ∧ a' = b ∧ act = .admission s ∧ act' = .admission t ∧
        ((act'.run c' (act.run c w a) a').turret b).activeTargets =
          (w.turret b).activeTargets ++ [some s, some t] ∧
        ((act.run c (act'.run c' w a') a).turret b).activeTargets =
          (w.turret b).activeTargets ++ [some t, some s]) := by
  by_cases ha : a = b
  · by_cases ha' : a' = b
    · -- both actions are the turret's own
      subst ha
      subst ha'
      have hidle : getIdleRotation c' a' = getIdleRotation c a' := by
        rw [getIdleRotation, getIdleRotation, hforward]
      simp only [Action.run_turret_self, hidle, onFields_updateTickState]
      by_cases hadmissions : ∀ s t, act = .admission s → act' ≠ .admission t
      · rw [onFields_comm (w.turret a') hne hadmissions]
        exact ⟨.refl _, Or.inl rfl⟩
      · push Not at hadmissions
        obtain ⟨s, t, rfl, rfl⟩ := hadmissions
        refine ⟨admissions_sameButList _ _ s t,
          Or.inr ⟨s, t, trivial, trivial, rfl, rfl, ?_, ?_⟩⟩ <;>
          simp [Action.onFields, ATurret.updateTickState_eq]
    · subst ha
      rw [Action.run_turret_self, Action.run_turret_ne _ (Ne.symm ha'),
        Action.run_turret_ne _ (Ne.symm ha'), Action.run_turret_self]
      exact ⟨.refl _, Or.inl rfl⟩
  · rw [Action.run_turret_ne _ (Ne.symm ha)]
    by_cases ha' : a' = b
    · subst ha'
      rw [Action.run_turret_self, Action.run_turret_self, Action.run_turret_ne _ (Ne.symm ha)]
      exact ⟨.refl _, Or.inl rfl⟩
    · rw [Action.run_turret_ne _ (Ne.symm ha'), Action.run_turret_ne _ (Ne.symm ha'),
        Action.run_turret_ne _ (Ne.symm ha)]
      exact ⟨.refl _, Or.inl rfl⟩

/-- The delegates after two actions on different actors, in either order. -/
theorem run_run_onTargetDestroyed {act act' : Action α} {a a' : ι}
    (hne : ∀ t, act.actor = some t → act'.actor ≠ some t) :
    (act.run c (act'.run c' w a') a).onTargetDestroyed =
      (act'.run c' (act.run c w a) a').onTargetDestroyed := by
  funext t
  by_cases hact : act.actor = some t
  · have hact' : act'.actor ≠ some t := hne t hact
    rw [Action.run_onTargetDestroyed_self _ hact, Action.run_onTargetDestroyed_ne _ hact',
      Action.run_onTargetDestroyed_ne _ hact', Action.run_onTargetDestroyed_self _ hact]
  · rw [Action.run_onTargetDestroyed_ne _ hact]
    by_cases hact' : act'.actor = some t
    · rw [Action.run_onTargetDestroyed_self _ hact', Action.run_onTargetDestroyed_self _ hact',
        Action.run_onTargetDestroyed_ne _ hact]
    · rw [Action.run_onTargetDestroyed_ne _ hact', Action.run_onTargetDestroyed_ne _ hact',
        Action.run_onTargetDestroyed_ne _ hact]

/-! ## Two events -/

/-- **Either order.** Two overlaps or deaths about different actors, in a
frame in which the turret actors do not turn, can also happen in the other
order, with the same outcome for every delegate and every turret; only the
lists of a turret that admits both actors have them in the two orders of
arrival. -/
theorem either_order {r r' : Option α} {e e' : Event ι α K} {w₁ w₁₂ : World ι α K}
    (hr : Concerns r e) (hr' : Concerns r' e') (hne : r ≠ r')
    (hforward : e.scene.actorForwardVector = e'.scene.actorForwardVector)
    (hfirst : Step L w e w₁) (hsecond : Step L w₁ e' w₁₂) :
    ∃ w₂ w₂₁, Step L w e' w₂ ∧ Step L w₂ e w₂₁ ∧
      w₂₁.onTargetDestroyed = w₁₂.onTargetDestroyed ∧ w₂₁.spawning = w₁₂.spawning ∧
      ∀ b, SameButList (w₁₂.turret b) (w₂₁.turret b) ∧
        ((w₂₁.turret b).activeTargets = (w₁₂.turret b).activeTargets ∨
          ∃ s t, Enters L b s e ∧ Enters L b t e' ∧
            (w₁₂.turret b).activeTargets = (w.turret b).activeTargets ++ [some s, some t] ∧
            (w₂₁.turret b).activeTargets =
              (w.turret b).activeTargets ++ [some t, some s]) := by
  rcases step_action hr hfirst with ⟨rfl, hidle⟩ | ⟨a, act, hactor, henters, rfl, hagain⟩
  · -- the first event does nothing, before the second one and after it
    have hagree : AgreeAbout r w₁ w₁₂ := by
      rcases step_action hr' hsecond with ⟨rfl, -⟩ | ⟨a', act', hactor', -, rfl, -⟩
      · exact .refl _ _
      · exact agreeAbout_run hactor' hne
    exact ⟨w₁₂, w₁₂, hsecond, hidle w₁₂ hagree, rfl, rfl, fun b => ⟨.refl _, Or.inl rfl⟩⟩
  · have hback : AgreeAbout r' (act.run e.scene w a) w := by
      have hagree := agreeAbout_run (c := e.scene) (w := w) (a := a) hactor hne.symm
      exact ⟨fun b t ht => (hagree.tracks b t ht).symm,
        fun t ht => (hagree.onTargetDestroyed t ht).symm⟩
    rcases step_action hr' hsecond with ⟨rfl, hidle'⟩ | ⟨a', act', hactor', henters', rfl, hagain'⟩
    · exact ⟨w, _, hidle' w hback, hfirst, rfl, rfl, fun b => ⟨.refl _, Or.inl rfl⟩⟩
    · have hactors : ∀ t, act.actor = some t → act'.actor ≠ some t :=
        fun t ht ht' => hne ((hactor t ht).trans (hactor' t ht').symm)
      refine ⟨_, _, hagain' w hback, hagain _ (agreeAbout_run hactor' hne),
        run_run_onTargetDestroyed hactors, by simp only [Action.run_spawning], fun b => ?_⟩
      obtain ⟨hsame, hlist⟩ :=
        run_run_turret b hforward hactors
      refine ⟨hsame, ?_⟩
      rcases hlist with heq | ⟨s, t, rfl, rfl, hs, ht, h₁₂, h₂₁⟩
      · exact Or.inl heq
      · exact Or.inr ⟨s, t, henters s hs, henters' t ht, h₁₂, h₂₁⟩

end Order

section Alley

attribute [local instance] atan2Engine

/-- Actors 1 and 2 enter the range of turret 0 in one frame. -/
theorem either_order_alley :
    ∃ w₂ w₂₁,
      Step alley alleyStart (.beginOverlap alleyScene 0 (some 2) 0) w₂ ∧
      Step alley w₂ (.beginOverlap alleyScene 0 (some 1) 0) w₂₁ ∧
      ∀ b, SameButList
        ((admitTarget alleyScene (admitTarget alleyScene alleyStart 0 1) 0 2).turret b)
        (w₂₁.turret b) := by
  have hfirst : Step alley alleyStart (.beginOverlap alleyScene 0 (some 1) 0)
      (admitTarget alleyScene alleyStart 0 1) := alleyStart_enter
  have hsecond : Step alley (admitTarget alleyScene alleyStart 0 1)
      (.beginOverlap alleyScene 0 (some 2) 0)
      (admitTarget alleyScene (admitTarget alleyScene alleyStart 0 1) 0 2) :=
    alley_enter (by
      simp [admitTarget_sameTargeting.activeTargets, alleyStart_initial.activeTargets 0])
  have hone : Concerns (some 1) (Event.beginOverlap alleyScene 0 (some 1) 0) := rfl
  have htwo : Concerns (some 2) (Event.beginOverlap alleyScene 0 (some 2) 0) := rfl
  have hne : (some 1 : Option ℕ) ≠ some 2 := by simp
  obtain ⟨w₂, w₂₁, h₂, h₂₁, -, -, hturret⟩ :=
    either_order hone htwo hne rfl hfirst hsecond
  exact ⟨w₂, w₂₁, h₂, h₂₁, fun b => (hturret b).1⟩

end Alley

end TurretMaster

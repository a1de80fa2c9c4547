import TurretMaster.Locality
import TurretMaster.DestructionNotice

/-!
# A turret alone

Turrets share nothing but the delegates of their targets, and those decide
only which turret is told of a death.  Given the deaths it is told of, a turret
behaves as if it were the only one.

* `Alone` — a world in which one turret lives the life it has in another;
* `alone_match`, `turret_of_misses` — the events that reach it, and the others;
* `runs_alone` — every run has a solo run of the events that reach the turret;
* `non_interference` — those events decide the turret's fields.
-/

namespace TurretMaster

open Runs

section NonInterference

variable {ι α K : Type}
variable {L : Level ι α K} {c : Scene ι α K} {w w' v w₀ v₀ : World ι α K} {b : ι}

/-- In `v` turret `b` lives the life it has in `w`, and no other turret tracks,
is bound or shoots. -/
structure Alone (b : ι) (w v : World ι α K) : Prop where
  turret : v.turret b = w.turret b
  spawning : v.spawning = some b ↔ w.spawning = some b
  shooter : ∀ a, v.spawning = some a → a = b
  bound : ∀ a t, a ∈ v.onTargetDestroyed t ↔ a = b ∧ Tracks v b t

/-- A turret alone is quiet when no shot is under way. -/
theorem Alone.quiet (h : Alone b w v) (hquiet : w.spawning = none) : v.spawning = none := by
  by_contra hsome
  obtain ⟨a, ha⟩ := Option.ne_none_iff_exists'.mp hsome
  obtain rfl := h.shooter a ha
  rw [h.spawning, hquiet] at ha
  cases ha

/-- First states with the same turret start its life alike. -/
theorem alone_initial (hw : Initial w₀) (hv : Initial v₀) (hturret : v₀.turret b = w₀.turret b) :
    Alone b w₀ v₀ := by
  refine ⟨hturret, ?_, ?_, fun a t => ?_⟩
  · simp [hw.spawning, hv.spawning]
  · simp [hv.spawning]
  · simp [hv.onTargetDestroyed t, Tracks, hv.activeTargets b]

/-! ## The events that reach the turret -/

variable [DecidableEq ι]

/-- The event is an overlap or a tick of turret `b`, the spawn of its
projectile, or a death of which it is told. -/
def reaches (L : Level ι α K) (b : ι) (x : Transition (World ι α K) (Event ι α K)) : Bool :=
  match x.event with
  | .beginOverlap _ a _ _ => decide (a = b)
  | .endOverlap _ a _ _ => decide (a = b)
  | .death _ t => decide ((L.broadcastOrder (x.source.onTargetDestroyed t)).head? = some b)
  | .tick _ a => decide (a = b)
  | .spawned _ => decide (x.source.spawning = some b)

/-- An entry reaches the turret that is entered. -/
theorem eq_of_enters {e : Event ι α K} {a : ι} {t : α} (hreaches : reaches L b ⟨w, e, w'⟩ = true)
    (h : Enters L a t e) : a = b := by
  obtain ⟨c, k, rfl, -⟩ := exists_of_enters h
  simpa [reaches] using hreaches

variable [Field K] [LinearOrder K] [Engine K]

/-- A removal reaches the turret that drops the target. -/
theorem eq_of_removes {e : Event ι α K} {a : ι} {t : α}
    (hreaches : reaches L b ⟨w, e, w'⟩ = true) (h : Removes L w a t e) : a = b := by
  cases e with
  | beginOverlap c x otherActor k => exact h.elim
  | endOverlap c x otherActor k => exact h.1.symm.trans (of_decide_eq_true hreaches)
  | death c s =>
      obtain ⟨rfl, hfirst⟩ := h
      exact Option.some.inj (hfirst.symm.trans (of_decide_eq_true hreaches))
  | tick c x => exact h.1.symm.trans (of_decide_eq_true hreaches)
  | spawned c => exact Option.some.inj (h.1.symm.trans (of_decide_eq_true hreaches))

variable [DecidableEq α] [FloorRing K]

/-- Such an event leaves no binding of another turret. -/
theorem bound_of_reaches {e : Event ι α K} (hwf : WellFormed L v) (hstep : Step L v e w')
    (hreaches : reaches L b ⟨v, e, w'⟩ = true)
    (hbound : ∀ a t, a ∈ v.onTargetDestroyed t ↔ a = b ∧ Tracks v b t) (a : ι) (t : α) :
    a ∈ w'.onTargetDestroyed t ↔ a = b ∧ Tracks w' b t := by
  rw [bound_step_iff hwf hstep, tracks_step_iff hwf hstep, hbound]
  constructor
  · rintro ⟨⟨henters, -⟩ | ⟨rfl, htracks⟩, hkept⟩
    · obtain rfl := eq_of_enters hreaches henters
      exact ⟨rfl, Or.inl henters⟩
    · exact ⟨rfl, Or.inr ⟨htracks, hkept a⟩⟩
  · rintro ⟨rfl, henters | ⟨htracks, hkept⟩⟩
    · refine ⟨?_, fun x hremoves => not_enters_of_removes hremoves henters⟩
      by_cases htracks : Tracks v a t
      · exact Or.inr ⟨rfl, htracks⟩
      · exact Or.inl ⟨henters, htracks⟩
    · refine ⟨Or.inr ⟨rfl, htracks⟩, fun x hremoves => ?_⟩
      obtain rfl := eq_of_removes hreaches hremoves
      exact hkept hremoves

/-- A begin overlap reads the fields of its turret. -/
theorem onBeginOverlap_local {otherActor : Option α} (hturret : v.turret b = w.turret b)
    (h : onBeginOverlap L c w b otherActor = .ok w') :
    ∃ v', onBeginOverlap L c v b otherActor = .ok v' ∧ v'.turret b = w'.turret b ∧
      v'.spawning = v.spawning := by
  cases otherActor with
  | none =>
      obtain rfl := Except.ok.inj h
      exact ⟨_, rfl, by simp [updateTickState, hturret], rfl⟩
  | some t =>
      simp only [onBeginOverlap, hturret] at h ⊢
      split_ifs at h ⊢ with himplements hold htags hnative
      · obtain rfl := Except.ok.inj h
        exact ⟨_, rfl, by simp [updateTickState, hturret], rfl⟩
      · obtain rfl := Except.ok.inj h
        exact ⟨_, rfl, by simp [updateTickState, hturret], rfl⟩
      · obtain rfl := Except.ok.inj h
        exact ⟨_, rfl, by simp [updateTickState, hturret], rfl⟩
      · obtain rfl := Except.ok.inj h
        exact ⟨_, rfl, by simp [updateTickState, hturret], rfl⟩

/-- **An event that reaches the turret** happens to it alone as well. -/
theorem alone_match {e : Event ι α K} (hwf : WellFormed L w) (hbindings : BindingsTracked w)
    (hwf' : WellFormed L v) (h : Alone b w v) (hstep : Step L w e w')
    (hreaches : reaches L b ⟨w, e, w'⟩ = true) :
    ∃ v', Step L v e v' ∧ reaches L b ⟨v, e, v'⟩ = true ∧ v'.turret b = w'.turret b ∧
      (v'.spawning = some b ↔ w'.spawning = some b) ∧ ∀ a, v'.spawning = some a → a = b := by
  cases e with
  | beginOverlap c a otherActor k =>
      obtain rfl : a = b := of_decide_eq_true hreaches
      have hkept := spawning_kept hstep (by simp) (by simp)
      obtain ⟨v', hv', hturret, hspawning⟩ := onBeginOverlap_local h.turret hstep.2
      refine ⟨v', ⟨trivial, hv'⟩, hreaches, hturret, ?_, ?_⟩
      · rw [hspawning, hkept, h.spawning]
      · rw [hspawning]
        exact h.shooter
  | endOverlap c a otherActor k =>
      obtain rfl : a = b := of_decide_eq_true hreaches
      cases step_effect hstep with
      | ignoredEnd hother =>
          refine ⟨v, ⟨trivial, ?_⟩, hreaches, h.turret, h.spawning, h.shooter⟩
          cases otherActor with
          | none => rfl
          | some t => simp [handle, onEndOverlap, hother t rfl]
      | @left c a t k himplements hnative =>
          refine ⟨removeTarget c v a t, ⟨trivial, ?_⟩, hreaches,
            removeTarget_turret_congr h.turret t, h.spawning, h.shooter⟩
          simp [handle, onEndOverlap, tryRemoveActiveTarget, himplements, hnative, removeTarget]
  | death c t =>
      have hfirst := of_decide_eq_true hreaches
      dsimp only at hfirst
      cases step_effect hstep with
      | unheard hunbound =>
          have hmem := (L.broadcastOrder_perm _).mem_iff.mp (List.mem_of_head? hfirst)
          rw [hunbound] at hmem
          cases hmem
      | @destroyed c t x hnative hx =>
          obtain rfl : x = b := Option.some.inj (hx.symm.trans hfirst)
          have hmem := (L.broadcastOrder_perm _).mem_iff.mp (List.mem_of_head? hfirst)
          have htracks : Tracks v x t := by
            unfold Tracks
            rw [h.turret]
            exact hbindings x t hmem
          -- the turret is the only one bound
          have hhead : (L.broadcastOrder (v.onTargetDestroyed t)).head? = some x := by
            have hperm := L.broadcastOrder_perm (v.onTargetDestroyed t)
            cases horder : (L.broadcastOrder (v.onTargetDestroyed t)).head? with
            | none =>
                rw [List.head?_eq_none_iff.mp horder] at hperm
                have hbound := (h.bound x t).mpr ⟨rfl, htracks⟩
                rw [hperm.nil_eq.symm] at hbound
                cases hbound
            | some y =>
                have hbound := hperm.mem_iff.mp (List.mem_of_head? horder)
                rw [((h.bound y t).mp hbound).1]
          refine ⟨removeTarget c v x t, ⟨hnative, ?_⟩, decide_eq_true hhead,
            removeTarget_turret_congr h.turret t, h.spawning, h.shooter⟩
          simp only [handle, death_eq c hnative, hhead]
  | tick c a =>
      obtain rfl : a = b := of_decide_eq_true hreaches
      obtain ⟨v', -, hstep', hturret, hshot, -, -⟩ :=
        tick_local (hwf a) h.turret (h.quiet hstep.1) hstep
      refine ⟨v', hstep', hreaches, hturret, by rw [hshot], fun x hx => ?_⟩
      exact (tick_shoots hwf' hstep' hx).1
  | spawned c =>
      have hspawning : w.spawning = some b := of_decide_eq_true hreaches
      have hspawning' := h.spawning.mpr hspawning
      obtain ⟨v', -, hstep', hturret, -, -⟩ := spawned_local h.turret hspawning hspawning' hstep
      refine ⟨v', hstep', decide_eq_true hspawning', hturret, ?_, ?_⟩
      · simp [spawned_quiet hstep, spawned_quiet hstep']
      · simp [spawned_quiet hstep']

/-- An event that misses a turret leaves its shot alone. -/
theorem spawning_of_misses {e : Event ι α K} (hwf : WellFormed L w) (hstep : Step L w e w')
    (hmisses : reaches L b ⟨w, e, w'⟩ = false) :
    w'.spawning = some b ↔ w.spawning = some b := by
  cases e with
  | beginOverlap c a otherActor k => rw [spawning_kept hstep (by simp) (by simp)]
  | endOverlap c a otherActor k => rw [spawning_kept hstep (by simp) (by simp)]
  | death c t => rw [spawning_kept hstep (by simp) (by simp)]
  | tick c a =>
      have hquiet : w.spawning = none := hstep.1
      rw [hquiet]
      refine ⟨fun hshot => ?_, nofun⟩
      exact absurd (tick_shoots hwf hstep hshot).1.symm (of_decide_eq_false hmisses)
  | spawned c =>
      rw [spawned_quiet hstep]
      exact ⟨nofun, fun hshot => absurd hshot (of_decide_eq_false hmisses)⟩

/-- **The other events** do nothing to the turret. -/
theorem turret_of_misses {e : Event ι α K} (hwf : WellFormed L w) (hstep : Step L w e w')
    (hmisses : reaches L b ⟨w, e, w'⟩ = false) : w'.turret b = w.turret b := by
  cases step_effect hstep with
  | ignoredBegin => exact updateTickState_turret_ne (Ne.symm (of_decide_eq_false hmisses))
  | admitted => exact admitTarget_turret_ne (Ne.symm (of_decide_eq_false hmisses))
  | ignoredEnd => rfl
  | left => exact removeTarget_turret_ne (Ne.symm (of_decide_eq_false hmisses))
  | unheard => rfl
  | @destroyed c t x _ hfirst =>
      have hnot := of_decide_eq_false hmisses
      refine removeTarget_turret_ne ?_
      rintro rfl
      exact hnot hfirst
  | idled => exact moveToIdle_turret_ne (Ne.symm (of_decide_eq_false hmisses))
  | tracked => exact rotateOrFire_turret_ne (Ne.symm (of_decide_eq_false hmisses))
  | selected hne _ hdetermine =>
      have hb := Ne.symm (of_decide_eq_false hmisses)
      rw [rotateOrFire_turret_ne hb, ((hwf _).selection hne hdetermine).turret_ne b hb]
  | released => rfl
  | @fired c x t hspawning _ _ =>
      have hnot := of_decide_eq_false hmisses
      refine removeTarget_turret_ne ?_
      rintro rfl
      exact hnot hspawning

/-! ## The solo run -/

variable {trace trace' : List (Transition (World ι α K) (Event ι α K))}

/-- A run and the solo run of the events that reach the turret. -/
theorem solo_of_run (hinit : Initial w₀) (hinit' : Initial v₀)
    (hturret : v₀.turret b = w₀.turret b) (hrun : Run (Step L) w₀ trace w) :
    ∃ solo v, Run (Step L) v₀ solo v ∧ v.turret b = w.turret b ∧
      solo.map (·.event) = (trace.filter (reaches L b)).map (·.event) := by
  have hproject := hrun.project (T := Step L) (p := reaches L b)
    (R := fun s u => WellFormed L s ∧ BindingsTracked s ∧ WellFormed L u ∧ Alone b s u)
    ?_ ?_ (u := v₀) ⟨wellFormed_initial hinit, bindingsTracked_initial hinit,
      wellFormed_initial hinit', alone_initial hinit hinit' hturret⟩
  · obtain ⟨solo, v, hsolo, ⟨-, -, -, halone⟩, hevents⟩ := hproject
    exact ⟨solo, v, hsolo, halone.turret, hevents⟩
  · rintro s e s' u ⟨hwf, hbindings, hwf', halone⟩ hstep hreaches
    obtain ⟨u', hstep', hreaches', hturret, hspawning, hshooter⟩ :=
      alone_match hwf hbindings hwf' halone hstep hreaches
    exact ⟨u', hstep', wellFormed_step hwf hstep, bindingsTracked_step hwf hbindings hstep,
      wellFormed_step hwf' hstep', hturret, hspawning, hshooter,
      bound_of_reaches hwf' hstep' hreaches' halone.bound⟩
  · rintro s e s' u ⟨hwf, hbindings, hwf', halone⟩ hstep hmisses
    have hturret := turret_of_misses hwf hstep hmisses
    have hspawning := spawning_of_misses hwf hstep hmisses
    exact ⟨wellFormed_step hwf hstep, bindingsTracked_step hwf hbindings hstep, hwf',
      halone.turret.trans hturret.symm, halone.spawning.trans hspawning.symm, halone.shooter,
      halone.bound⟩

/-- **A turret is on its own.** For every run and every turret, the events that
reach the turret are a run of the system by themselves, from the same start,
and leave the turret with the same fields. -/
theorem runs_alone (hinit : Initial w₀) (hrun : Run (Step L) w₀ trace w) (b : ι) :
    ∃ solo v, Run (Step L) w₀ solo v ∧ v.turret b = w.turret b ∧
      solo.map (·.event) = (trace.filter (reaches L b)).map (·.event) :=
  solo_of_run hinit hinit rfl hrun

/-- **Non-interference.** Two runs that start with the same fields of a turret,
and in which the same events reach it, end with the same fields of it, whatever
the other turrets are and whatever happens to them. -/
theorem non_interference {w₀' : World ι α K} (hinit : Initial w₀) (hinit' : Initial w₀')
    (hturret : w₀'.turret b = w₀.turret b) (hrun : Run (Step L) w₀ trace w)
    (hrun' : Run (Step L) w₀' trace' w')
    (hevents : (trace'.filter (reaches L b)).map (·.event) =
      (trace.filter (reaches L b)).map (·.event)) :
    w'.turret b = w.turret b := by
  obtain ⟨solo, v, hsolo, hv, hsoloEvents⟩ := solo_of_run hinit hinit' hturret hrun
  obtain ⟨solo', v', hsolo', hv', hsoloEvents'⟩ := solo_of_run hinit' hinit' rfl hrun'
  have hstep (s : World ι α K) (e : Event ι α K) (s₁ s₂ : World ι α K) (h₁ : Step L s e s₁)
      (h₂ : Step L s e s₂) : s₁ = s₂ := Except.ok.inj (h₁.2.symm.trans h₂.2)
  have hsame : solo'.map (·.event) = solo.map (·.event) := by
    rw [hsoloEvents', hsoloEvents, hevents]
  rw [← hv, ← hv', hsolo'.end_unique hstep hsolo hsame]

end NonInterference

section Alley

attribute [local instance] atan2Engine

/-- Actor 1 enters the areas of turrets 0 and 1. -/
theorem alleyPair_recorded : Run (Step alley) alleyStart
    ([⟨alleyStart, .beginOverlap alleyScene 0 (some 1) 0, admitTarget alleyScene alleyStart 0 1⟩] ++
      [⟨admitTarget alleyScene alleyStart 0 1, .beginOverlap alleyScene 1 (some 1) 0, alleyPair⟩])
    alleyPair := by
  refine (Run.single alleyStart_enter).snoc (alley_enter ?_)
  simp [admitTarget_turret_ne, alleyStart_initial.activeTargets 1]

/-- Of the two entries only the second reaches turret 1. -/
theorem runs_alone_alley : ∃ solo v, Run (Step alley) alleyStart solo v ∧
    v.turret 1 = alleyPair.turret 1 ∧ solo.length = 1 := by
  obtain ⟨solo, v, hsolo, hturret, hevents⟩ := runs_alone alleyStart_initial alleyPair_recorded 1
  have hlength := congrArg List.length hevents
  rw [List.length_map] at hlength
  exact ⟨solo, v, hsolo, hturret, by rw [hlength]; simp [reaches]⟩

/-- Without the first, turret 1 is the same. -/
theorem non_interference_alley :
    alleyPair.turret 1 = (admitTarget alleyScene alleyStart 1 1).turret 1 := by
  have halone : Step alley alleyStart (.beginOverlap alleyScene 1 (some 1) 0)
      (admitTarget alleyScene alleyStart 1 1) := alleyStart_enter
  exact non_interference alleyStart_initial alleyStart_initial rfl (Run.single halone)
    alleyPair_recorded (by simp [reaches])

end Alley

end TurretMaster

import TurretMaster.StuckRotation
import TurretMaster.RotationBound

/-!
# The pose of a turret over a run

Only a turret's own ticks turn it, towards its idle rotation when it has no
targets and towards its aim when it has.  What both kinds of turn keep holds in
every state of a run.

* `rotationPoint_cases` — the pose after one event;
* `pose_of_turns` — the pose after turns to one goal;
* `pose_invariant` — a property that every turn keeps;
* `pose_envelope` — roll, pitch and yaw over every run.
-/

namespace TurretMaster

open Runs ClampedDecay

/-! ## Frame times -/

section FrameTimes

variable {ι α K : Type} [DecidableEq ι] {c : Scene ι α K} {w w' : World ι α K} {a : ι}

/-- The frame time of an event, if it is a tick of turret `a`. -/
def tickDelta (a : ι) : Event ι α K → Option K
  | .tick c b => if b = a then some c.deltaSeconds else none
  | _ => none

/-- The frame times of the ticks of turret `a`, oldest first. -/
def tickDeltas (a : ι) (trace : List (Transition (World ι α K) (Event ι α K))) : List K :=
  trace.filterMap (fun x => tickDelta a x.event)

/-- The frame times, one event longer. -/
theorem tickDeltas_concat (trace : List (Transition (World ι α K) (Event ι α K)))
    (x : Transition (World ι α K) (Event ι α K)) :
    tickDeltas a (trace ++ [x]) = tickDeltas a trace ++ (tickDelta a x.event).toList := by
  rw [tickDeltas, List.filterMap_append]
  cases h : tickDelta a x.event <;> simp [tickDeltas, h]

/-- A tick of the turret has a frame time. -/
theorem tickDelta_self : tickDelta a (.tick c a : Event ι α K) = some c.deltaSeconds :=
  if_pos rfl

/-- One tick has one frame time. -/
theorem tickDeltas_single : tickDeltas a [⟨w, .tick c a, w'⟩] = [c.deltaSeconds] := by
  rw [tickDeltas, List.filterMap_cons, tickDelta_self, List.filterMap_nil]

/-- No other event has one. -/
theorem tickDelta_of_not_tick {e : Event ι α K} (h : ∀ c, e ≠ .tick c a) :
    tickDelta a e = none := by
  cases e with
  | tick c b =>
      refine if_neg ?_
      rintro rfl
      exact h c rfl
  | _ => rfl

end FrameTimes

/-! ## One event -/

section Poses

variable {ι α K : Type} [Field K] [LinearOrder K]
variable {L : Level ι α K} {c : Scene ι α K} {w w' w₀ : World ι α K} {a : ι}

/-- A turn reads nothing but the rotation. -/
theorem turnTowards_rotationPoint_congr {u v : ATurret α K} {target : FRotator K}
    {deltaSeconds turnSpeed : K} (h : u.rotationPoint = v.rotationPoint) :
    (u.turnTowards target deltaSeconds turnSpeed).rotationPoint =
      (v.turnTowards target deltaSeconds turnSpeed).rotationPoint := by
  simp only [ATurret.turnTowards, ATurret.setPitch, ATurret.setYaw, h]

/-- The pitch after a turn is within the limits of `SetPitch`. -/
theorem turnTowards_pitch_mem [IsStrictOrderedRing K] (u : ATurret α K) (target : FRotator K)
    (deltaSeconds turnSpeed : K) :
    (u.turnTowards target deltaSeconds turnSpeed).rotationPoint.pitch ∈ Set.Icc (-70) 80 :=
  clamp_mem_Icc (by norm_num)

variable [FloorRing K] [DecidableEq ι]

/-- Rotating or firing turns the turret to its aim or leaves it as it is. -/
theorem rotateOrFire_rotationPoint_cases :
    ((rotateOrFire L c w a).turret a).rotationPoint = (w.turret a).rotationPoint ∨
      ((rotateOrFire L c w a).turret a).rotationPoint =
        ((w.turret a).turnTowards ((rotateOrFire L c w a).turret a).targetInterceptionRotation
          c.deltaSeconds (L.turnSpeed a)).rotationPoint := by
  rw [(sameTargeting_rotateOrFire (L := L) (c := c) (w := w) (a := a) a).targetInterceptionRotation]
  unfold rotateOrFire fire
  dsimp only
  split_ifs
  · right
    simp
  · exact Or.inl rfl
  · exact Or.inl rfl

variable [Engine K]

/-- Where a tick of turret `a` turns it: to the idle rotation or to the aim. -/
def turnGoal (c : Scene ι α K) (a : ι) (w w' : World ι α K) : FRotator K :=
  if (w.turret a).activeTargets.isEmpty then getIdleRotation c a
  else (w'.turret a).targetInterceptionRotation

/-- Updating a tick flag turns no turret. -/
theorem updateTickState_rotationPoint (b : ι) :
    ((updateTickState c w b).turret a).rotationPoint = (w.turret a).rotationPoint := by
  by_cases hb : a = b
  · subst hb
    simp [updateTickState, ATurret.updateTickState_eq]
  · rw [updateTickState_turret_ne hb]

/-- Turning to idle is a turn to the idle rotation. -/
theorem moveToIdle_rotationPoint_self :
    ((moveToIdle L c w a).turret a).rotationPoint =
      ((w.turret a).turnTowards (getIdleRotation c a) c.deltaSeconds
        (L.turnSpeed a)).rotationPoint := by
  simp [moveToIdle, updateTickState, ATurret.updateTickState_eq]

variable [DecidableEq α]

/-- A removal turns no turret. -/
theorem removeTarget_rotationPoint (b : ι) (t : α) :
    ((removeTarget c w b t).turret a).rotationPoint = (w.turret a).rotationPoint := by
  by_cases hb : a = b
  · subst hb
    rw [removeTarget_turret_self, ATurret.updateTickState_eq, ATurret.dropTarget_eq]
  · rw [removeTarget_turret_ne hb]

/-- An admission turns no turret. -/
theorem admitTarget_rotationPoint (b : ι) (t : α) :
    ((admitTarget c w b t).turret a).rotationPoint = (w.turret a).rotationPoint := by
  by_cases hb : a = b
  · subst hb
    simp [admitTarget, updateTickState, ATurret.updateTickState_eq]
  · rw [admitTarget_turret_ne hb]

/-- **The pose after one event**: a tick of the turret may have turned it to
its goal, and nothing else turns it. -/
theorem rotationPoint_cases {e : Event ι α K} (hwf : WellFormed L w) (hstep : Step L w e w')
    (a : ι) :
    (w'.turret a).rotationPoint = (w.turret a).rotationPoint ∨
      ∃ c, e = .tick c a ∧
        (w'.turret a).rotationPoint =
          ((w.turret a).turnTowards (turnGoal c a w w') c.deltaSeconds
            (L.turnSpeed a)).rotationPoint := by
  cases step_effect hstep with
  | ignoredBegin => exact Or.inl (updateTickState_rotationPoint _)
  | admitted => exact Or.inl (admitTarget_rotationPoint _ _)
  | ignoredEnd => exact Or.inl rfl
  | left => exact Or.inl (removeTarget_rotationPoint _ _)
  | unheard => exact Or.inl rfl
  | destroyed => exact Or.inl (removeTarget_rotationPoint _ _)
  | @idled c b hempty =>
      by_cases hb : a = b
      · subst hb
        refine Or.inr ⟨c, rfl, ?_⟩
        rw [moveToIdle_rotationPoint_self, turnGoal, hempty]
        rfl
      · rw [moveToIdle_turret_ne hb]
        exact Or.inl rfl
  | @tracked c b hne _ =>
      by_cases hb : a = b
      · subst hb
        refine rotateOrFire_rotationPoint_cases.imp_right fun hturned => ⟨c, rfl, ?_⟩
        rw [turnGoal, if_neg (by simpa using hne)]
        exact hturned
      · rw [rotateOrFire_turret_ne hb]
        exact Or.inl rfl
  | @selected c b w₁ hne _ hselect =>
      have hselection := (hwf b).selection hne hselect
      by_cases hb : a = b
      · subst hb
        have hsame := hselection.rotationPoint
        rcases rotateOrFire_rotationPoint_cases (L := L) (c := c) (w := w₁) (a := a)
          with hkept | hturned
        · exact Or.inl (hkept.trans hsame)
        · refine Or.inr ⟨c, rfl, ?_⟩
          rw [turnGoal, if_neg (by simpa using hne), hturned]
          exact turnTowards_rotationPoint_congr hsame
      · rw [rotateOrFire_turret_ne hb, hselection.turret_ne a hb]
        exact Or.inl rfl
  | released => exact Or.inl rfl
  | fired => exact Or.inl (removeTarget_rotationPoint _ _)

variable {trace : List (Transition (World ι α K) (Event ι α K))}

/-- Nothing but its own ticks turns a turret. -/
theorem unturned_by_others (hwf : WellFormed L w) (hrun : Run (Step L) w trace w') (a : ι) :
    ∀ x ∈ trace, (∀ c, x.event ≠ .tick c a) →
      (x.target.turret a).rotationPoint = (x.source.turret a).rotationPoint := by
  intro x hx hother
  obtain ⟨hsource, hstep, -⟩ := hrun.each (I := WellFormed L) (D := fun _ => True)
    (fun x h _ hstep => wellFormed_step h hstep) hwf (fun _ _ => trivial) x hx
  rcases rotationPoint_cases hsource hstep a with hsame | ⟨c, hevent, -⟩
  · exact hsame
  · exact absurd hevent (hother c)

/-- No event changes the roll. -/
theorem roll_kept {e : Event ι α K} (hwf : WellFormed L w) (hstep : Step L w e w') (a : ι) :
    (w'.turret a).rotationPoint.roll = (w.turret a).rotationPoint.roll := by
  rcases rotationPoint_cases hwf hstep a with hsame | ⟨c, -, hturned⟩
  · rw [hsame]
  · rw [hturned]
    rfl

/-- **The pose after turns to one goal** is the first one, turned once for each
tick of the turret. -/
theorem pose_of_turns {target : FRotator K} (hwf : WellFormed L w)
    (hrun : Run (Step L) w trace w')
    (hturns : ∀ x ∈ trace, ∀ c, x.event = .tick c a → (x.target.turret a).rotationPoint =
      ((x.source.turret a).turnTowards target c.deltaSeconds (L.turnSpeed a)).rotationPoint) :
    (w'.turret a).rotationPoint =
      ((w.turret a).turnFrames target (L.turnSpeed a) (tickDeltas a trace)).rotationPoint := by
  induction hrun with
  | nil => rfl
  | @snoc m f trace e init last ih =>
      have hpose := ih fun x hx => hturns x (List.mem_append_left _ hx)
      have hm := init.invariant (fun _ _ _ h hstep => wellFormed_step h hstep) hwf
      rw [tickDeltas_concat]
      by_cases htick : ∃ c, e = .tick c a
      · obtain ⟨c, rfl⟩ := htick
        have hturned := hturns _ (List.mem_append_right _ (List.mem_singleton_self _)) c rfl
        rw [hturned, tickDelta_self, Option.toList_some, turnFrames_snoc]
        exact turnTowards_rotationPoint_congr hpose
      · push Not at htick
        rw [tickDelta_of_not_tick htick, Option.toList_none, List.append_nil, ← hpose]
        rcases rotationPoint_cases hm last a with hsame | ⟨c, hevent, -⟩
        · exact hsame
        · exact absurd hevent (htick c)

/-- The goal of a transition, if it is a tick of turret `a`, meets `G`. -/
def GoalsMeet (a : ι) (G : FRotator K → Prop)
    (trace : List (Transition (World ι α K) (Event ι α K))) : Prop :=
  ∀ x ∈ trace, ∀ c, x.event = .tick c a → G (turnGoal c a x.source x.target)

/-- **A property of the pose** that a turn to any goal of the run keeps holds
throughout the run. -/
theorem pose_invariant {P G : FRotator K → Prop} (hwf : WellFormed L w)
    (hturn : ∀ u : ATurret α K, ∀ target deltaSeconds, P u.rotationPoint → G target →
      P (u.turnTowards target deltaSeconds (L.turnSpeed a)).rotationPoint)
    (hrun : Run (Step L) w trace w') (hstart : P (w.turret a).rotationPoint)
    (hgoals : GoalsMeet a G trace) :
    Always (fun s => P (s.turret a).rotationPoint) trace ∧ P (w'.turret a).rotationPoint := by
  have hkept := hrun.always (I := fun s => WellFormed L s ∧ P (s.turret a).rotationPoint)
    (D := fun x => ∀ c, x.event = Event.tick c a → G (turnGoal c a x.source x.target))
    (fun x h hgoal hstep => by
      refine ⟨wellFormed_step h.1 hstep, ?_⟩
      rcases rotationPoint_cases h.1 hstep a with hsame | ⟨c, hevent, hturned⟩
      · rw [hsame]
        exact h.2
      · rw [hturned]
        exact hturn _ _ _ h.2 (hgoal c hevent))
    ⟨hwf, hstart⟩ hgoals
  exact ⟨fun x hx => (hkept.1 x hx).2, hkept.2.2⟩

variable [IsStrictOrderedRing K]

/-- **The envelope of the pose.** In every run, from any state on its way to any
later one, nothing but its own ticks turns a turret; its roll stays what it was,
its pitch stays what it was at first until it is within the limits of `SetPitch`
and then stays within them, and its yaw stays in any interval that contains the
first yaw and the yaws of all goals it has turned to. -/
theorem pose_envelope {m : World ι α K}
    {before after : List (Transition (World ι α K) (Event ι α K))} (hinit : Initial w₀)
    (hbefore : Run (Step L) w₀ before m) (hafter : Run (Step L) m after w) {lo hi : K}
    (hyaw : (w₀.turret a).rotationPoint.yaw ∈ Set.Icc lo hi)
    (hgoals : GoalsMeet a (fun target => target.yaw ∈ Set.Icc lo hi) (before ++ after)) :
    (∀ x ∈ before ++ after, (∀ c, x.event ≠ .tick c a) →
      (x.target.turret a).rotationPoint = (x.source.turret a).rotationPoint) ∧
    (w.turret a).rotationPoint.roll = (w₀.turret a).rotationPoint.roll ∧
    ((w.turret a).rotationPoint.pitch = (w₀.turret a).rotationPoint.pitch ∨
      (w.turret a).rotationPoint.pitch ∈ Set.Icc (-70) 80) ∧
    ((m.turret a).rotationPoint.pitch ∈ Set.Icc (-70) 80 →
      (w.turret a).rotationPoint.pitch ∈ Set.Icc (-70) 80) ∧
    (w.turret a).rotationPoint.yaw ∈ Set.Icc lo hi := by
  have hwf : WellFormed L w₀ := wellFormed_initial hinit
  have hwfm : WellFormed L m := wellFormed_run hinit hbefore
  have hturn (u : ATurret α K) (target : FRotator K) (deltaSeconds : K)
      (hpose : u.rotationPoint.roll = (w₀.turret a).rotationPoint.roll ∧
        (u.rotationPoint.pitch = (w₀.turret a).rotationPoint.pitch ∨
          u.rotationPoint.pitch ∈ Set.Icc (-70) 80) ∧ u.rotationPoint.yaw ∈ Set.Icc lo hi)
      (hgoal : target.yaw ∈ Set.Icc lo hi) :
      let r := (u.turnTowards target deltaSeconds (L.turnSpeed a)).rotationPoint
      r.roll = (w₀.turret a).rotationPoint.roll ∧
        (r.pitch = (w₀.turret a).rotationPoint.pitch ∨ r.pitch ∈ Set.Icc (-70) 80) ∧
          r.yaw ∈ Set.Icc lo hi :=
    ⟨hpose.1, Or.inr (turnTowards_pitch_mem _ _ _ _),
      fInterpTo_mem_Icc hpose.2.2 hgoal deltaSeconds (L.turnSpeed a)⟩
  obtain ⟨-, hm⟩ := pose_invariant (P := fun r => r.roll = (w₀.turret a).rotationPoint.roll ∧
    (r.pitch = (w₀.turret a).rotationPoint.pitch ∨ r.pitch ∈ Set.Icc (-70) 80) ∧
    r.yaw ∈ Set.Icc lo hi) hwf hturn hbefore ⟨rfl, Or.inl rfl, hyaw⟩
    fun x hx => hgoals x (List.mem_append_left _ hx)
  obtain ⟨-, hroll, hpitch, hyaw'⟩ := pose_invariant (P := fun r =>
    r.roll = (w₀.turret a).rotationPoint.roll ∧
    (r.pitch = (w₀.turret a).rotationPoint.pitch ∨ r.pitch ∈ Set.Icc (-70) 80) ∧
    r.yaw ∈ Set.Icc lo hi) hwfm hturn hafter hm
    fun x hx => hgoals x (List.mem_append_right _ hx)
  refine ⟨?_, hroll, hpitch, ?_, hyaw'⟩
  · intro x hx
    rcases List.mem_append.mp hx with hx | hx
    · exact unturned_by_others hwf hbefore a x hx
    · exact unturned_by_others hwfm hafter a x hx
  · intro hwithin
    exact (pose_invariant (P := fun r => r.pitch ∈ Set.Icc (-70) 80) (G := fun _ => True) hwfm
      (fun u target deltaSeconds _ _ => turnTowards_pitch_mem u target deltaSeconds _) hafter
      hwithin fun _ _ _ _ => trivial).2

end Poses

section Alley

attribute [local instance] atan2Engine

/-- In the alley a turret looks straight ahead when it is idle. -/
theorem alley_getIdleRotation_yaw (a : ℕ) : (getIdleRotation alleyScene a).yaw = 0 :=
  atan2Degrees_eq_zero_iff.mpr ⟨zero_le_one, rfl⟩

/-- A first tick without targets. -/
theorem alleyStart_idle : Step alley alleyStart (.tick alleyScene 0)
    (moveToIdle alley alleyScene alleyStart 0) := by
  refine ⟨rfl, ?_⟩
  simp [handle, tick, alleyStart_initial.activeTargets 0]

/-- After its first tick turret 0 still tracks nothing. -/
theorem alleyIdled_activeTargets :
    ((moveToIdle alley alleyScene alleyStart 0).turret 0).activeTargets = [] := by
  rw [(sameTargeting_moveToIdle 0).activeTargets]
  exact alleyStart_initial.activeTargets 0

/-- A second one. -/
theorem alleyStart_idles : Step alley (moveToIdle alley alleyScene alleyStart 0)
    (.tick alleyScene 0)
    (moveToIdle alley alleyScene (moveToIdle alley alleyScene alleyStart 0) 0) := by
  refine ⟨rfl, ?_⟩
  simp [handle, tick, alleyIdled_activeTargets]

/-- In two ticks turret 0 tilts within its limits and does not turn sideways. -/
theorem pose_envelope_alley :
    ((moveToIdle alley alleyScene (moveToIdle alley alleyScene alleyStart 0) 0).turret
        0).rotationPoint.pitch ∈ Set.Icc (-70 : ℝ) 80 ∧
    ((moveToIdle alley alleyScene (moveToIdle alley alleyScene alleyStart 0) 0).turret
        0).rotationPoint.yaw ∈ Set.Icc (0 : ℝ) 0 := by
  have hstart : (alleyStart.turret 0).rotationPoint.yaw ∈ Set.Icc (0 : ℝ) 0 := by
    simp [alleyStart, freshTurret, ATurret.updateTickState_eq]
  obtain ⟨-, -, -, hpitch, hyaw⟩ := pose_envelope (a := 0) alleyStart_initial
    (Run.single alleyStart_idle) (Run.single alleyStart_idles) hstart (by
      intro x hx c hevent
      simp only [List.cons_append, List.nil_append, List.mem_cons, List.not_mem_nil,
        or_false] at hx
      rcases hx with rfl | rfl
      · obtain ⟨rfl, -⟩ := Event.tick.inj hevent
        simp [turnGoal, alleyStart_initial.activeTargets 0, alley_getIdleRotation_yaw]
      · obtain ⟨rfl, -⟩ := Event.tick.inj hevent
        simp [turnGoal, alleyIdled_activeTargets, alley_getIdleRotation_yaw])
  refine ⟨hpitch ?_, hyaw⟩
  rw [moveToIdle_rotationPoint_self]
  exact turnTowards_pitch_mem _ _ _ _

end Alley

end TurretMaster

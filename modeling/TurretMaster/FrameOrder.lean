import TurretMaster.Locality
import TurretMaster.Schedule
import TurretMaster.Faults
import TurretMaster.DestructionNotice

/-!
# The order of the turrets in a frame

In a frame every turret ticks once, in an order the engine chooses.  A whole
tick writes nothing that another turret's tick reads, and what two ticks both
write they both clear, so the order does not show.

* `wholeTick_local` — a whole tick in two worlds;
* `wholeTick_comm` — two whole ticks;
* `frame_order` — all ticks of a frame.
-/

namespace TurretMaster

open Runs Schedule

section FrameOrder

variable {ι α K : Type} [DecidableEq ι] [DecidableEq α]
variable [Field K] [LinearOrder K] [FloorRing K] [Engine K]

/-- All of `Tick`, with a projectile that spawns at once. -/
def wholeTick (L : Level ι α K) (c : Scene ι α K) (w : World ι α K) (a : ι) :
    Except Fault (World ι α K) :=
  (tick L c w a).bind fun w => if w.spawning = none then .ok w else tickAfterFire L c w a

/-- A frame in which these turrets tick, each in its own scene. -/
def frame (L : Level ι α K) (c : ι → Scene ι α K) (turrets : List ι) (w : World ι α K) :
    Except Fault (World ι α K) :=
  schedule (fun a w => wholeTick L (c a) w a) turrets w

variable {L : Level ι α K} {c : Scene ι α K} {w w' v : World ι α K} {a b : ι}

/-- Between frames: every turret is well formed and no shot is under way. -/
structure AtRest (L : Level ι α K) (w : World ι α K) : Prop where
  wellFormed : WellFormed L w
  quiet : w.spawning = none

/-- At rest every turret can tick. -/
theorem tick_total (h : AtRest L w) (c : Scene ι α K) (a : ι) :
    ∃ w', Step L w (.tick c a) w' := by
  obtain ⟨w', hw'⟩ := tick_ok (c := c) (h.wellFormed a)
  exact ⟨w', h.quiet, hw'⟩

/-- A shot under way can arrive. -/
theorem spawned_total (hwf : WellFormed L w) (hspawning : w.spawning = some a)
    (c : Scene ι α K) : ∃ w', Step L w (.spawned c) w' := by
  obtain ⟨w', hw'⟩ := tickAfterFire_ok (c := c) (hwf a)
  refine ⟨w', by simp [Enabled, hspawning], ?_⟩
  simpa only [handle, hspawning] using hw'

/-- **A whole tick is local**: it has no fault, and it does the same in every
world in which the turret has the same fields. -/
theorem wholeTick_local (h : AtRest L w) (hquiet : v.spawning = none)
    (hturret : v.turret a = w.turret a) (c : Scene ι α K) :
    ∃ w' v' dropped, wholeTick L c w a = .ok w' ∧ wholeTick L c v a = .ok v' ∧
      AtRest L w' ∧ v'.spawning = none ∧ v'.turret a = w'.turret a ∧
      LocalTo a dropped w w' ∧ LocalTo a dropped v v' := by
  obtain ⟨w₁, hstep⟩ := tick_total h c a
  obtain ⟨v₁, dropped, hstep', hturret₁, hshot, hlocal, hlocal'⟩ :=
    tick_local (h.wellFormed a) hturret hquiet hstep
  have hwf₁ := wellFormed_step h.wellFormed hstep
  have htick : tick L c w a = .ok w₁ := hstep.2
  have htick' : tick L c v a = .ok v₁ := hstep'.2
  cases hspawning : w₁.spawning with
  | none =>
      have hnone : v₁.spawning = none := hshot.trans hspawning
      refine ⟨w₁, v₁, dropped, ?_, ?_, ⟨hwf₁, hspawning⟩, hnone, hturret₁, hlocal, hlocal'⟩
      · simp [wholeTick, htick, Except.bind, hspawning]
      · simp [wholeTick, htick', Except.bind, hnone]
  | some b =>
      obtain ⟨rfl, -⟩ := tick_shoots h.wellFormed hstep hspawning
      have hspawning' : v₁.spawning = some b := hshot.trans hspawning
      obtain ⟨w₂, hspawned⟩ := spawned_total hwf₁ hspawning c
      obtain ⟨v₂, more, hspawned', hturret₂, hlater, hlater'⟩ :=
        spawned_local hturret₁ hspawning hspawning' hspawned
      have hend : tickAfterFire L c w₁ b = .ok w₂ := by
        simpa only [handle, hspawning] using hspawned.2
      have hend' : tickAfterFire L c v₁ b = .ok v₂ := by
        simpa only [handle, hspawning'] using hspawned'.2
      refine ⟨w₂, v₂, dropped ++ more, ?_, ?_,
        ⟨wellFormed_step hwf₁ hspawned, spawned_quiet hspawned⟩, spawned_quiet hspawned', hturret₂,
        hlocal.trans hlater, hlocal'.trans hlater'⟩
      · simp [wholeTick, htick, Except.bind, hspawning, hend]
      · simp [wholeTick, htick', Except.bind, hspawning', hend']

/-- At rest a whole tick does not fault and leaves the world at rest. -/
theorem wholeTick_total (h : AtRest L w) (c : Scene ι α K) (a : ι) :
    ∃ w', wholeTick L c w a = .ok w' ∧ AtRest L w' := by
  obtain ⟨w', -, -, hw', -, hrest, -⟩ := wholeTick_local (v := w) h h.quiet rfl c
  exact ⟨w', hw', hrest⟩

/-- **Two whole ticks can be exchanged.** -/
theorem wholeTick_comm (h : AtRest L w) (c : ι → Scene ι α K) (a b : ι) :
    (wholeTick L (c a) w a).bind (fun w => wholeTick L (c b) w b) =
      (wholeTick L (c b) w b).bind (fun w => wholeTick L (c a) w a) := by
  by_cases hab : b = a
  · rw [hab]
  obtain ⟨wa, _, _, hwa, _, hresta, _, _, hlocalA, _⟩ := wholeTick_local h h.quiet rfl (c a)
  obtain ⟨wb, _, _, hwb, _, hrestb, _, _, hlocalB, _⟩ := wholeTick_local h h.quiet rfl (c b)
  -- each turret ticks in the world that the other has left
  obtain ⟨wa', wba, dropped, hwa', hwba, -, hquiet, hturret, ha, hba⟩ :=
    wholeTick_local h hrestb.quiet (hlocalB.turret_ne a (Ne.symm hab)) (c a)
  obtain ⟨wb', wab, dropped', hwb', hwab, -, hquiet', hturret', hb, hab'⟩ :=
    wholeTick_local h hresta.quiet (hlocalA.turret_ne b hab) (c b)
  obtain rfl := Except.ok.inj (hwa.symm.trans hwa')
  obtain rfl := Except.ok.inj (hwb.symm.trans hwb')
  rw [hwa, hwb]
  change wholeTick L (c b) wa b = wholeTick L (c a) wb a
  rw [hwab, hwba, LocalTo.exchange hab ha hb hba hab' hturret hturret' (hquiet'.trans hquiet.symm)]

/-! ## The frame -/

variable {w₀ : World ι α K} {before : List (Transition (World ι α K) (Event ι α K))}

/-- A whole tick is one or two steps of the system. -/
theorem wholeTick_run (h : AtRest L w) (hrun : Run (Step L) w₀ before w)
    (hok : wholeTick L c w a = .ok w') : ∃ trace, Run (Step L) w₀ trace w' := by
  obtain ⟨m, hstep⟩ := tick_total h c a
  have htick : tick L c w a = .ok m := hstep.2
  simp only [wholeTick, htick, Except.bind] at hok
  split_ifs at hok with hnone
  · obtain rfl := Except.ok.inj hok
    exact ⟨_, hrun.snoc hstep⟩
  · obtain ⟨b, hspawning⟩ := Option.ne_none_iff_exists'.mp hnone
    obtain ⟨rfl, -⟩ := tick_shoots h.wellFormed hstep hspawning
    refine ⟨_, (hrun.snoc hstep).snoc (e := .spawned c) ⟨by simp [Enabled, hspawning], ?_⟩⟩
    simpa only [handle, hspawning] using hok

/-- **The order of the turrets.** In every state reached between frames, the
frame in which the turrets of a list tick has no fault and is a run of the
system, and ticking them in any other order leaves the same world. -/
theorem frame_order (hinit : Initial w₀) (hrun : Run (Step L) w₀ before w)
    (hquiet : w.spawning = none) (c : ι → Scene ι α K) {turrets turrets' : List ι}
    (hperm : turrets.Perm turrets') :
    (∃ w' trace, frame L c turrets w = .ok w' ∧ Run (Step L) w₀ trace w') ∧
      frame L c turrets w = frame L c turrets' w := by
  have hrest : AtRest L w := ⟨wellFormed_run hinit hrun, hquiet⟩
  have hact (a : ι) (s : World ι α K) (hs : AtRest L s ∧ ∃ trace, Run (Step L) w₀ trace s) :
      ∃ s', wholeTick L (c a) s a = .ok s' ∧ AtRest L s' ∧ ∃ trace, Run (Step L) w₀ trace s' := by
    obtain ⟨hrest, trace, hrun⟩ := hs
    obtain ⟨s', hs', hrest'⟩ := wholeTick_total hrest (c a) a
    exact ⟨s', hs', hrest', wholeTick_run hrest hrun hs'⟩
  obtain ⟨w', hw', -, trace, hrun'⟩ := schedule_ok hact turrets ⟨hrest, before, hrun⟩
  refine ⟨⟨w', trace, hw', hrun'⟩, ?_⟩
  exact schedule_perm hact (fun a b s hs => wholeTick_comm hs.1 c a b) hperm ⟨hrest, before, hrun⟩

end FrameOrder

section Alley

attribute [local instance] atan2Engine

/-- Turrets 0 and 1, which both track actor 1, tick in either order. -/
theorem frame_order_alley : frame alley (fun _ => alleyScene) [0, 1] alleyPair =
    frame alley (fun _ => alleyScene) [1, 0] alleyPair := by
  obtain ⟨trace, hrun, -⟩ := alleyPair_run
  exact (frame_order alleyStart_initial hrun rfl (fun _ => alleyScene) (List.Perm.swap 1 0 [])).2

end Alley

end TurretMaster

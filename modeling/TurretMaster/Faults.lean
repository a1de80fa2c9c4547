import TurretMaster.TargetingInvariant

/-!
# Which assertion can fail

An actor can implement `UTargetable` in a blueprint without being an
`ITargetable` in C++; the checked casts of the overlap handlers trip on it.  In
a reachable state nothing else trips: no null or foreign target is ever in a
list, and a selection always finds its current target.

* `onBeginOverlap_error_iff`, `tryRemoveActiveTarget_error_iff` — the casts;
* `faults_iff` — all handlers, in every reachable state.
-/

namespace TurretMaster

open Runs

section Faults

variable {ι α K : Type} [DecidableEq ι] [DecidableEq α]
variable [Field K] [LinearOrder K] [FloorRing K] [Engine K]
variable {L : Level ι α K} {c : Scene ι α K} {w w' w₀ : World ι α K} {a : ι}

/-- The actor implements the interface in a blueprint only. -/
def BlueprintOnly (L : Level ι α K) (t : α) : Prop :=
  L.implements t = true ∧ L.native t = false

/-- An overlap that casts a blueprint-only actor: a begin overlap when the
actor is eligible, an end overlap in any case. -/
def BadCast (L : Level ι α K) : Event ι α K → Prop
  | .beginOverlap c a otherActor _ => ∃ t, otherActor = some t ∧ BlueprintOnly L t ∧
      c.isTargetable t = true ∧ (L.targetableTags a).hasAnyExact (c.targetTags t) = true
  | .endOverlap _ _ otherActor _ => ∃ t, otherActor = some t ∧ BlueprintOnly L t
  | _ => False

/-- Which removals fault, and how. -/
theorem tryRemoveActiveTarget_error_iff {otherActor : Option α} {fault : Fault} :
    tryRemoveActiveTarget L c w a otherActor = .error fault ↔
      fault = .castChecked ∧ ∃ t, otherActor = some t ∧ L.native t = false := by
  cases otherActor with
  | none => simp [tryRemoveActiveTarget]
  | some t =>
      cases hnative : L.native t
      · simp [tryRemoveActiveTarget, hnative, @eq_comm _ fault]
      · simp [tryRemoveActiveTarget, hnative]

/-- Which begin overlaps fault, and how. -/
theorem onBeginOverlap_error_iff {t : α} {fault : Fault} (hwf : (w.turret a).WellFormed L) :
    onBeginOverlap L c w a (some t) = .error fault ↔
      fault = .castChecked ∧ BlueprintOnly L t ∧ c.isTargetable t = true ∧
        (L.targetableTags a).hasAnyExact (c.targetTags t) = true := by
  simp only [onBeginOverlap, BlueprintOnly]
  split_ifs with himplements hold htags hnative
  · -- tracked already, so native, or not targetable
    simp only [Bool.or_eq_true, decide_eq_true_eq, Bool.not_eq_true'] at hold
    constructor
    · intro h
      cases h
    · rintro ⟨-, ⟨-, hforeign⟩, htargetable, -⟩
      rcases hold with hmem | hclosed
      · rw [hwf.native t hmem] at hforeign
        cases hforeign
      · rw [hclosed] at htargetable
        cases htargetable
  · simp only [Bool.not_eq_true'] at htags
    simp [htags]
  · simp [hnative]
  · simp only [Bool.or_eq_true, decide_eq_true_eq, Bool.not_eq_true', not_or, Bool.not_eq_false]
      at hold htags
    simp [himplements, hnative, hold.2, htags, @eq_comm _ fault]
  · simp [himplements]

/-- A tick of a well-formed turret trips on nothing. -/
theorem tick_ok (hwf : (w.turret a).WellFormed L) : ∃ w', tick L c w a = .ok w' := by
  unfold tick
  split_ifs with hempty
  · exact ⟨_, rfl⟩
  · have hne : (w.turret a).activeTargets ≠ [] := fun hnil => hempty (by simp [hnil])
    obtain ⟨w', hw', -⟩ := determineNewTarget_wellFormed (c := c) hwf hne
    exact ⟨_, by rw [hw']; rfl⟩
  · exact ⟨_, rfl⟩

/-- Nor does what is left of it after a shot. -/
theorem tickAfterFire_ok (hwf : (w.turret a).WellFormed L) :
    ∃ w', tickAfterFire L c w a = .ok w' := by
  unfold tickAfterFire
  cases hkey : (w.turret a).currentTarget.key with
  | none => exact ⟨_, rfl⟩
  | some t =>
      have hnative := hwf.native t (hwf.current_mem hkey)
      simp [tryRemoveActiveTarget, hnative, Except.map]

variable {trace : List (Transition (World ι α K) (Event ι α K))}

/-- **Which assertion can fail, and when.** In every reachable state the handler
of an enabled event fails exactly at an overlap that casts a blueprint-only
actor, and the assertion is that of the checked cast. -/
theorem faults_iff (hinit : Initial w₀) (hrun : Run (Step L) w₀ trace w) {e : Event ι α K}
    (henabled : Enabled L w e) (fault : Fault) :
    handle L w e = .error fault ↔ fault = .castChecked ∧ BadCast L e := by
  have hwf := wellFormed_run hinit hrun
  have hnever {result : Except Fault (World ι α K)} (hok : ∃ w', result = .ok w') :
      ¬ result = .error fault := by
    obtain ⟨w', rfl⟩ := hok
    simp
  cases e with
  | beginOverlap c a otherActor k =>
      cases otherActor with
      | none => simp [handle, onBeginOverlap, BadCast]
      | some t =>
          rw [handle, onBeginOverlap_error_iff (hwf a)]
          simp [BadCast]
  | endOverlap c a otherActor k =>
      cases otherActor with
      | none => simp [handle, onEndOverlap, BadCast]
      | some t =>
          simp only [handle, onEndOverlap, BadCast, BlueprintOnly]
          split_ifs with himplements
          · rw [tryRemoveActiveTarget_error_iff]
            simp [himplements]
          · simp [himplements]
  | death c t =>
      refine iff_of_false (hnever ?_) (fun h => h.2)
      simp only [handle, death_eq c henabled]
      cases (L.broadcastOrder (w.onTargetDestroyed t)).head? <;> exact ⟨_, rfl⟩
  | tick c a => exact iff_of_false (hnever (tick_ok (hwf a))) (fun h => h.2)
  | spawned c =>
      refine iff_of_false (hnever ?_) (fun h => h.2)
      obtain ⟨a, ha⟩ := Option.ne_none_iff_exists'.mp henabled
      simp only [handle, ha]
      exact tickAfterFire_ok (hwf a)

end Faults

section Alley

attribute [local instance] atan2Engine

/-- The alley with targets made in blueprints. -/
noncomputable def alleyOfBlueprints : Level ℕ ℕ ℝ :=
  { alley with native := fun _ => false, native_implements := by simp }

/-- One that has never been let in trips the turret as it leaves. -/
theorem faults_iff_alley : handle alleyOfBlueprints alleyStart
    (.endOverlap alleyScene 0 (some 1) 0) = .error .castChecked := by
  have hbad : BadCast alleyOfBlueprints
      (.endOverlap alleyScene 0 (some 1) 0 : Event ℕ ℕ ℝ) := ⟨1, rfl, rfl, rfl⟩
  have henabled : Enabled alleyOfBlueprints alleyStart
      (.endOverlap alleyScene 0 (some 1) 0 : Event ℕ ℕ ℝ) := trivial
  exact (faults_iff alleyStart_initial (Run.nil _) henabled _).mpr ⟨rfl, hbad⟩

end Alley

end TurretMaster

import TurretMaster.FireCount

/-!
# The ledger of a target

Every admission of a target to a turret ends in one of four ways, or has not
ended yet; and every shot is followed by the loss of its target, after the
spawn of the projectile or in the middle of it.  Both are kept as ledgers.

* `lost_eq` — what a departure is, in terms of removals;
* `tracked_balance`, `shooting_balance` — one transition balances;
* `admissions_ledger` — so does every run, in both ledgers.
-/

namespace TurretMaster

open Runs

/-- How a turret loses a target. -/
inductive Departure
  | left
  | destroyed
  | rejected
  | shot
deriving DecidableEq

section Ledger

variable {ι α K : Type} [DecidableEq ι] [DecidableEq α]
variable [Field K] [LinearOrder K] [Engine K]
variable {L : Level ι α K} {c : Scene ι α K} {w w' w₀ : World ι α K} {a : ι} {t : α}

instance (w : World ι α K) (a : ι) (t : α) : Decidable (Tracks w a t) :=
  inferInstanceAs (Decidable (some t ∈ (w.turret a).activeTargets))

instance (w : World ι α K) (a : ι) (t : α) : Decidable (ShootingAt w a t) :=
  inferInstanceAs (Decidable (w.spawning = some a ∧ (w.turret a).currentTarget.key = some t))

/-- Turret `a` loses target `t` because it leaves. -/
def departsLeft (L : Level ι α K) (a : ι) (t : α)
    (x : Transition (World ι α K) (Event ι α K)) : Bool :=
  match x.event with
  | .endOverlap _ b otherActor _ =>
      decide (b = a ∧ otherActor = some t ∧ L.implements t = true) &&
        decide (Tracks x.source a t)
  | _ => false

/-- It is told of its death. -/
def departsDestroyed (L : Level ι α K) (a : ι) (t : α)
    (x : Transition (World ι α K) (Event ι α K)) : Bool :=
  match x.event with
  | .death _ s =>
      decide (s = t ∧ (L.broadcastOrder (x.source.onTargetDestroyed t)).head? = some a) &&
        decide (Tracks x.source a t)
  | _ => false

/-- A selection finds no way to hit it. -/
def departsRejected (L : Level ι α K) (a : ι) (t : α)
    (x : Transition (World ι α K) (Event ι α K)) : Bool :=
  match x.event with
  | .tick c b =>
      decide (b = a ∧ (x.source.turret a).currentTarget.key = none ∧
        t ∈ rejectedTargets L c a (x.source.turret a))
  | _ => false

/-- The projectile fired at it has spawned. -/
def departsShot (a : ι) (t : α) (x : Transition (World ι α K) (Event ι α K)) : Bool :=
  match x.event with
  | .spawned _ => decide (ShootingAt x.source a t)
  | _ => false

/-- Turret `a` loses target `t` in a given way. -/
def departs (L : Level ι α K) (a : ι) (t : α) :
    Departure → Transition (World ι α K) (Event ι α K) → Bool
  | .left => departsLeft L a t
  | .destroyed => departsDestroyed L a t
  | .rejected => departsRejected L a t
  | .shot => departsShot a t

/-- Turret `a` loses target `t` while it is shooting at it. -/
def interrupted (L : Level ι α K) (a : ι) (t : α)
    (x : Transition (World ι α K) (Event ι α K)) : Bool :=
  (departsLeft L a t x || departsDestroyed L a t x) && decide (ShootingAt x.source a t)

/-! ## One transition -/

/-- All departures of a transition. -/
def lost (L : Level ι α K) (a : ι) (t : α)
    (x : Transition (World ι α K) (Event ι α K)) : ℕ :=
  (departsLeft L a t x).toNat + (departsDestroyed L a t x).toNat +
    (departsRejected L a t x).toNat + (departsShot a t x).toNat

/-- **A departure is the removal of a tracked target.** -/
theorem lost_eq {e : Event ι α K} (hwf : WellFormed L w) [Decidable (Removes L w a t e)] :
    lost L a t ⟨w, e, w'⟩ = (decide (Tracks w a t ∧ Removes L w a t e)).toNat := by
  have hone {p : Bool} (hiff : p = true ↔ Tracks w a t ∧ Removes L w a t e) :
      p.toNat = (decide (Tracks w a t ∧ Removes L w a t e)).toNat := by
    congr 1
    rw [Bool.eq_iff_iff, hiff, decide_eq_true_eq]
  cases e with
  | beginOverlap c b otherActor k =>
      exact hone (p := false) (by simp [Removes])
  | endOverlap c b otherActor k =>
      refine Eq.trans ?_ (hone (p := departsLeft L a t ⟨w, .endOverlap c b otherActor k, w'⟩) ?_)
      · simp [lost, departsDestroyed, departsRejected, departsShot]
      · simp [departsLeft, Removes, and_comm]
  | death c s =>
      refine Eq.trans ?_ (hone (p := departsDestroyed L a t ⟨w, .death c s, w'⟩) ?_)
      · simp [lost, departsLeft, departsRejected, departsShot]
      · simp [departsDestroyed, Removes, and_comm]
  | tick c b =>
      have htracked : t ∈ rejectedTargets L c a (w.turret a) → Tracks w a t :=
        fun hmem => (mem_targets_iff a (w.turret a) t).mpr (Or.inl hmem)
      refine Eq.trans ?_ (hone (p := departsRejected L a t ⟨w, .tick c b, w'⟩) ?_)
      · simp [lost, departsLeft, departsDestroyed, departsShot]
      · rw [departsRejected, decide_eq_true_eq]
        exact ⟨fun h => ⟨htracked h.2.2, h⟩, fun h => h.2⟩
  | spawned c =>
      refine Eq.trans ?_ (hone (p := departsShot a t ⟨w, .spawned c, w'⟩) ?_)
      · simp [lost, departsLeft, departsDestroyed, departsRejected]
      · rw [departsShot, decide_eq_true_eq]
        exact ⟨fun h => ⟨(hwf a).current_mem h.2, h⟩, fun h => h.2⟩

/-- A departure that ends a shot removes what was shot at. -/
theorem no_ends_of_kept {e : Event ι α K} (hkept : ¬ (ShootingAt w a t ∧ Removes L w a t e)) :
    (departsShot a t ⟨w, e, w'⟩).toNat + (interrupted L a t ⟨w, e, w'⟩).toNat = 0 := by
  have hshot : departsShot a t ⟨w, e, w'⟩ = false := by
    rw [← Bool.not_eq_true]
    intro h
    cases e with
    | spawned c =>
        have hshooting : ShootingAt w a t := of_decide_eq_true h
        exact hkept ⟨hshooting, hshooting⟩
    | _ => cases h
  have hinterrupted : interrupted L a t ⟨w, e, w'⟩ = false := by
    rw [← Bool.not_eq_true]
    intro h
    simp only [interrupted, Bool.and_eq_true, Bool.or_eq_true, decide_eq_true_eq] at h
    obtain ⟨hdeparts, hshooting⟩ := h
    refine hkept ⟨hshooting, ?_⟩
    cases e with
    | endOverlap c b otherActor k =>
        rcases hdeparts with hleft | hnever
        · simp only [departsLeft, Bool.and_eq_true, decide_eq_true_eq] at hleft
          exact hleft.1
        · cases hnever
    | death c s =>
        rcases hdeparts with hnever | hdestroyed
        · cases hnever
        · simp only [departsDestroyed, Bool.and_eq_true, decide_eq_true_eq] at hdestroyed
          exact hdestroyed.1
    | _ => simp [departsLeft, departsDestroyed] at hdeparts
  simp [hshot, hinterrupted]

variable [FloorRing K]

/-- **Tracking balances**: it begins with an admission and ends with a
departure. -/
theorem tracked_balance {e : Event ι α K} (hwf : WellFormed L w) (hstep : Step L w e w') :
    (decide (Tracks w' a t)).toNat + lost L a t ⟨w, e, w'⟩ =
      (decide (Tracks w a t)).toNat + (admissions a t ⟨w, e, w'⟩).toNat := by
  classical
  have hafter := tracks_step_iff hwf hstep a t
  have hnever : Removes L w a t e → ¬ Enters L a t e := not_enters_of_removes
  have hadmitted : admissions a t ⟨w, e, w'⟩ = decide (Enters L a t e ∧ ¬ Tracks w a t) := by
    rw [Bool.eq_iff_iff, admissions_iff hwf hstep, decide_eq_true_eq]
  rw [lost_eq hwf, hadmitted]
  by_cases htracks : Tracks w a t
  · by_cases hremoves : Removes L w a t e
    · simp [hafter, htracks, hremoves, hnever hremoves]
    · simp [hafter, htracks, hremoves]
  · by_cases henters : Enters L a t e <;> simp [hafter, htracks, henters]

/-- Only a tick selects a target. -/
theorem key_kept_back {e : Event ι α K} (hstep : Step L w e w') (htick : ∀ c b, e ≠ .tick c b)
    (hkey : (w'.turret a).currentTarget.key = some t) :
    (w.turret a).currentTarget.key = some t := by
  have hremove {c : Scene ι α K} {b : ι} {s : α}
      (h : ((removeTarget c w b s).turret a).currentTarget.key = some t) :
      (w.turret a).currentTarget.key = some t := by
    by_cases hb : a = b
    · subst hb
      rw [removeTarget_currentTarget] at h
      split_ifs at h
      exact h
    · rwa [removeTarget_turret_ne hb] at h
  cases step_effect hstep with
  | ignoredBegin => rwa [(sameTargeting_updateTickState a).currentTarget] at hkey
  | admitted => rwa [sameLock_admitTarget.currentTarget] at hkey
  | ignoredEnd => exact hkey
  | left => exact hremove hkey
  | unheard => exact hkey
  | destroyed => exact hremove hkey
  | idled => exact absurd rfl (htick _ _)
  | tracked => exact absurd rfl (htick _ _)
  | selected => exact absurd rfl (htick _ _)
  | released => exact hkey
  | fired => exact hremove hkey

/-- A turret that shoots afterwards has just fired or was shooting before. -/
theorem shootingAt_back {e : Event ι α K} (hwf : WellFormed L w) (hstep : Step L w e w')
    (h : ShootingAt w' a t) : fires a t ⟨w, e, w'⟩ = true ∨ ShootingAt w a t := by
  by_cases htick : ∃ c b, e = .tick c b
  · obtain ⟨c, b, rfl⟩ := htick
    obtain ⟨rfl, -⟩ := tick_shoots hwf hstep h.1
    exact Or.inl (decide_eq_true ⟨rfl, h.1, h.2⟩)
  · push Not at htick
    refine Or.inr ⟨?_, key_kept_back hstep htick h.2⟩
    by_cases hspawned : ∃ c, e = .spawned c
    · obtain ⟨c, rfl⟩ := hspawned
      have hnone := h.1
      rw [spawned_quiet hstep] at hnone
      cases hnone
    · push Not at hspawned
      rw [← spawning_kept hstep htick hspawned]
      exact h.1

/-- What a turret is shooting at is not lost by a tick. -/
theorem ends_of_removes {e : Event ι α K} (hwf : WellFormed L w) (hstep : Step L w e w')
    (h : ShootingAt w a t) (hremoves : Removes L w a t e) :
    (departsShot a t ⟨w, e, w'⟩).toNat + (interrupted L a t ⟨w, e, w'⟩).toNat = 1 := by
  have htracks : Tracks w a t := (hwf a).current_mem h.2
  cases e with
  | beginOverlap c b otherActor k => exact hremoves.elim
  | endOverlap c b otherActor k =>
      have hleft : departsLeft L a t ⟨w, .endOverlap c b otherActor k, w'⟩ = true := by
        simp only [departsLeft, Bool.and_eq_true, decide_eq_true_eq]
        exact ⟨hremoves, htracks⟩
      simp [departsShot, interrupted, hleft, h]
  | death c s =>
      have hdestroyed : departsDestroyed L a t ⟨w, .death c s, w'⟩ = true := by
        simp only [departsDestroyed, Bool.and_eq_true, decide_eq_true_eq]
        exact ⟨hremoves, htracks⟩
      simp [departsShot, interrupted, hdestroyed, h]
  | tick c b =>
      have hquiet : w.spawning = none := hstep.1
      rw [ShootingAt, hquiet] at h
      cases h.1
  | spawned c => simp [departsShot, interrupted, departsLeft, departsDestroyed, h]

/-- **Shooting balances**: it begins with a `Fire` and ends with the loss of
its target. -/
theorem shooting_balance {e : Event ι α K} (hwf : WellFormed L w) (hstep : Step L w e w') :
    (decide (ShootingAt w' a t)).toNat +
        ((departsShot a t ⟨w, e, w'⟩).toNat + (interrupted L a t ⟨w, e, w'⟩).toNat) =
      (decide (ShootingAt w a t)).toNat + (fires a t ⟨w, e, w'⟩).toNat := by
  cases hfires : fires a t ⟨w, e, w'⟩ with
  | true =>
      obtain ⟨hpending, hspent, -⟩ := pending_of_fires hwf hstep hfires
      have hafter : ShootingAt w' a t := by
        by_contra hnot
        cases e with
        | tick c b =>
            obtain ⟨-, hspawning, hkey⟩ := of_decide_eq_true hfires
            exact hnot ⟨hspawning, hkey⟩
        | _ => cases hfires
      rw [no_ends_of_kept (fun h => hpending.2 h.1)]
      simp [hafter, hpending.2]
  | false =>
      by_cases hbefore : ShootingAt w a t
      · by_cases hremoves : Removes L w a t e
        · have hgone : ¬ ShootingAt w' a t := by
            intro h
            have htracks : Tracks w' a t := (wellFormed_step hwf hstep a).current_mem h.2
            rcases (tracks_step_iff hwf hstep a t).mp htracks with henters | hkept
            · exact not_enters_of_removes hremoves henters
            · exact hkept.2 hremoves
          rw [ends_of_removes hwf hstep hbefore hremoves]
          simp [hgone, hbefore]
        · rw [no_ends_of_kept (fun h => hremoves h.2)]
          simp [hbefore, shootingAt_kept hwf hstep hbefore hremoves]
      · have hgone : ¬ ShootingAt w' a t := by
          intro h
          rcases shootingAt_back hwf hstep h with hfire | hshooting
          · rw [hfires] at hfire
            cases hfire
          · exact hbefore hshooting
        rw [no_ends_of_kept (fun h => hbefore h.1)]
        simp [hgone, hbefore]

/-! ## Every run -/

variable {trace : List (Transition (World ι α K) (Event ι α K))}

/-- **The ledger of a target.** In every run the admissions of a target to a
turret are its departures, each for one of four reasons, and one more while it
is tracked; and the shots at it are the departures after a shot, those that
interrupt one, and one more while a shot is under way. -/
theorem admissions_ledger (hinit : Initial w₀) (hrun : Run (Step L) w₀ trace w) (a : ι) (t : α) :
    trace.countP (admissions a t) =
      trace.countP (departs L a t .left) + trace.countP (departs L a t .destroyed) +
        trace.countP (departs L a t .rejected) + trace.countP (departs L a t .shot) +
        (decide (Tracks w a t)).toNat ∧
    trace.countP (fires a t) =
      trace.countP (departs L a t .shot) + trace.countP (interrupted L a t) +
        (decide (ShootingAt w a t)).toNat := by
  have hwf₀ : WellFormed L w₀ := wellFormed_initial hinit
  have hkept (s : World ι α K) (e : Event ι α K) (s' : World ι α K) (h : WellFormed L s)
      (hstep : Step L s e s') : WellFormed L s' := wellFormed_step h hstep
  have hnone : ¬ Tracks w₀ a t := by simp [Tracks, hinit.activeTargets a]
  have hquiet : ¬ ShootingAt w₀ a t := by simp [ShootingAt, hinit.spawning]
  have htracked := Run.balance (fun s => (decide (Tracks s a t)).toNat)
    (fun x => (admissions a t x).toNat) (lost L a t) hkept
    (fun _ _ _ h hstep => tracked_balance h hstep) hrun hwf₀
  have hshooting := Run.balance (fun s => (decide (ShootingAt s a t)).toNat)
    (fun x => (fires a t x).toNat)
    (fun x => (departsShot a t x).toNat + (interrupted L a t x).toNat) hkept
    (fun _ _ _ h hstep => shooting_balance h hstep) hrun hwf₀
  unfold lost at htracked
  simp only [List.sum_map_add, sum_map_toNat, hnone, hquiet, decide_false, Bool.toNat_false]
    at htracked hshooting
  simp only [departs]
  omega

end Ledger

section Alley

attribute [local instance] atan2Engine

/-- Turret 0 is looking at actor 1 when it enters, so the next tick fires; the
shot is still under way. -/
theorem admissions_ledger_alley :
    ∃ trace w, Run (Step alley) alleyAligned trace w ∧
      trace.countP (departs alley 0 1 .shot) + trace.countP (interrupted alley 0 1) +
        (decide (ShootingAt w 0 1)).toNat = 1 := by
  obtain ⟨w, hstep, hspawning, hkey⟩ := alleyAligned_fires
  have hrun := (Run.single alleyAligned_enter).snoc hstep
  refine ⟨_, w, hrun, ?_⟩
  rw [← (admissions_ledger alleyAligned_initial hrun 0 1).2]
  simp [fires, hspawning, hkey]

end Alley

end TurretMaster

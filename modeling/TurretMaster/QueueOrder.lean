import TurretMaster.FirstCome
import TurretMaster.FireCount
import TurretMaster.TargetLock

/-!
# First come, first shot at

To its targets a turret is a server with a queue: an overlap joins, whatever
removes a target makes it leave, and a tick that selects serves.  Every event
of the system is one operation of every turret's server, so what holds of such
servers holds of turrets.

* `server_step` — an event is an operation of the server;
* `current_target_first_come` — the list is in the order of arrival, and the
  current target is its head;
* `no_overtaking` — who is served before whom.
-/

namespace TurretMaster

open Runs FirstCome

section QueueOrder

variable {ι α K : Type}
variable {L : Level ι α K} {c : Scene ι α K} {w w' w₀ : World ι α K}

/-- A turret as a server of its targets. -/
def ATurret.server (u : ATurret α K) : Server α := ⟨u.targets, u.currentTarget.key⟩

/-- Equal targeting, equal server. -/
theorem server_congr {u v : ATurret α K} (h : SameTargeting u v) : v.server = u.server := by
  rw [ATurret.server, ATurret.server, ATurret.targets, ATurret.targets, h.activeTargets,
    h.currentTarget]

/-- The first server is empty and free. -/
theorem server_valid_initial (hinit : Initial w₀) (a : ι) :
    (w₀.turret a).server = ⟨[], none⟩ := by
  have htargets : (w₀.turret a).targets = [] :=
    ATurret.targets_of_map (by simpa using hinit.activeTargets a)
  rw [ATurret.server, htargets, hinit.currentTarget a]

variable [DecidableEq α] [Field K] [LinearOrder K] [FloorRing K] [Engine K]

/-- A selection serves. -/
theorem server_selection {a : ι} (h : Selection L c w a w') :
    (w'.turret a).server =
      (w.turret a).server.apply (.serve (acceptable L c a (w.turret a).rotationPoint)) := by
  have htargets := ATurret.targets_of_map h.activeTargets
  have hkey : (w'.turret a).currentTarget.key =
      (remainingTargets L c a (w.turret a)).head? := by
    rw [h.currentTarget, currentOf]
    cases (remainingTargets L c a (w.turret a)).head? <;> rfl
  rw [ATurret.server, htargets, hkey]
  rfl

variable [DecidableEq ι]

/-- What an event means to the server of turret `a`. -/
def queueOp (L : Level ι α K) (a : ι) (w : World ι α K) : Event ι α K → Op α
  | .beginOverlap c b otherActor _ =>
      otherActor.elim .rest fun t =>
        if b = a ∧ L.implements t = true ∧ c.isTargetable t = true ∧
            (L.targetableTags a).hasAnyExact (c.targetTags t) = true ∧
            (w.turret a).activeTargets.contains (some t) = false then .join t
        else .rest
  | .endOverlap _ b otherActor _ =>
      otherActor.elim .rest fun t =>
        if b = a ∧ L.implements t = true then .leave t else .rest
  | .death _ t =>
      if (L.broadcastOrder (w.onTargetDestroyed t)).head? = some a then .leave t else .rest
  | .tick c b =>
      if b = a ∧ (w.turret a).currentTarget.key = none then
        .serve (acceptable L c a (w.turret a).rotationPoint)
      else .rest
  | .spawned _ =>
      if w.spawning = some a then (w.turret a).currentTarget.key.elim .rest .leave else .rest

/-! ## The server after an operation -/

/-- Dropping an entry before or after the null entries. -/
theorem reduceOption_filter (list : List (Option α)) (t : α) :
    (list.filter (· ≠ some t)).reduceOption = list.reduceOption.filter (· ≠ t) := by
  induction list with
  | nil => rfl
  | cons s rest ih =>
      cases s with
      | none => simpa [List.reduceOption_cons_of_none] using ih
      | some s =>
          by_cases hs : s = t
          · simpa [hs, List.reduceOption_cons_of_some] using ih
          · simpa [hs, List.reduceOption_cons_of_some] using ih

/-- A removal is a departure. -/
theorem server_removeTarget_self {a : ι} {t : α} :
    ((removeTarget c w a t).turret a).server = (w.turret a).server.apply (.leave t) := by
  rw [ATurret.server, ATurret.targets, removeTarget_activeTargets, reduceOption_filter,
    removeTarget_currentTarget]
  by_cases hkey : (w.turret a).currentTarget.key = some t <;>
    simp [Server.apply, ATurret.server, ATurret.targets, hkey]

/-- A removal is a departure. -/
theorem server_removeTarget {a b : ι} {t : α} :
    ((removeTarget c w b t).turret a).server =
      (w.turret a).server.apply (if b = a then .leave t else .rest) := by
  by_cases hb : b = a
  · subst hb
    rw [if_pos rfl]
    exact server_removeTarget_self
  · rw [if_neg hb, removeTarget_turret_ne (Ne.symm hb)]
    rfl

/-- An admission is an arrival. -/
theorem server_admitTarget_self {a : ι} {t : α} :
    ((admitTarget c w a t).turret a).server = (w.turret a).server.apply (.join t) := by
  rw [server_congr admitTarget_sameTargeting]
  simp [Server.apply, ATurret.server, ATurret.targets, List.reduceOption_append,
    List.reduceOption_singleton]

/-- **An event is an operation** of the server of every turret. -/
theorem server_step {e : Event ι α K} (hwf : WellFormed L w) (hstep : Step L w e w') (a : ι) :
    FirstCome.Step (w.turret a).server (queueOp L a w e) (w'.turret a).server := by
  have hrest {v : World ι α K} {op : Op α} (hop : op = .rest)
      (hsame : (v.turret a).server = (w.turret a).server) :
      FirstCome.Step (w.turret a).server op (v.turret a).server := by
    rw [hop, hsame]
    exact ⟨trivial, rfl⟩
  have hremoval {c : Scene ι α K} {b : ι} {t : α} {op : Op α}
      (hop : op = if b = a then .leave t else .rest) :
      FirstCome.Step (w.turret a).server op ((removeTarget c w b t).turret a).server := by
    rw [hop, server_removeTarget]
    refine ⟨?_, rfl⟩
    split_ifs <;> trivial
  cases step_effect hstep with
  | @ignoredBegin c b otherActor k hother =>
      refine hrest ?_ (server_congr (sameTargeting_updateTickState a))
      cases otherActor with
      | none => rfl
      | some t =>
          refine if_neg ?_
          rintro ⟨rfl, himplements, htargetable, htags, hnew⟩
          have hmem := hother t rfl himplements htargetable htags
          simp [hmem] at hnew
  | @admitted c b t k himplements htargetable htags _ hnew =>
      by_cases hb : b = a
      · subst hb
        have hjoin : queueOp L b w (.beginOverlap c b (some t) k) = .join t :=
          if_pos ⟨rfl, himplements, htargetable, htags, by simpa using hnew⟩
        rw [hjoin, server_admitTarget_self]
        exact ⟨fun hmem => hnew (ATurret.mem_targets.mp hmem), rfl⟩
      · refine hrest (if_neg fun h => hb h.1) ?_
        rw [admitTarget_turret_ne (Ne.symm hb)]
  | @ignoredEnd c b otherActor k hother =>
      refine hrest ?_ rfl
      cases otherActor with
      | none => rfl
      | some t =>
          refine if_neg fun h => ?_
          rw [hother t rfl] at h
          cases h.2
  | left himplements _ => exact hremoval (by simp [queueOp, himplements])
  | unheard hunbound =>
      refine hrest (if_neg ?_) rfl
      have hnone := (L.broadcastOrder_perm []).eq_nil
      rw [hunbound, hnone]
      simp
  | @destroyed c t b _ hfirst => exact hremoval (by simp [queueOp, hfirst])
  | @idled c b hempty =>
      by_cases hb : b = a
      · subst hb
        have hnone : (w.turret b).currentTarget.key = none := by
          rcases (hwf b).key_mem with hnone | hmem
          · exact hnone
          · rw [hempty] at hmem
            cases hmem
        have htargets : (w.turret b).targets = [] := ATurret.targets_of_map (by simpa using hempty)
        rw [queueOp, if_pos ⟨rfl, hnone⟩, server_congr (sameTargeting_moveToIdle b)]
        refine ⟨hnone, ?_⟩
        simp [Server.apply, ATurret.server, htargets, hnone]
      · exact hrest (if_neg fun h => hb h.1) (server_congr (sameTargeting_moveToIdle a))
  | @tracked c b _ hkey =>
      refine hrest (if_neg ?_) (server_congr (sameTargeting_rotateOrFire a))
      rintro ⟨rfl, hnone⟩
      exact hkey hnone
  | @selected c b w₁ hne hkey hselect =>
      have hselection := (hwf b).selection hne hselect
      rw [server_congr (sameTargeting_rotateOrFire a)]
      by_cases hb : b = a
      · subst hb
        rw [queueOp, if_pos ⟨rfl, hkey⟩, server_selection hselection]
        exact ⟨hkey, rfl⟩
      · refine hrest (if_neg fun h => hb h.1) ?_
        rw [hselection.turret_ne a (Ne.symm hb)]
  | @released c b hspawning hkey =>
      refine hrest ?_ rfl
      by_cases hb : b = a
      · subst hb
        rw [queueOp, if_pos hspawning, hkey]
        rfl
      · exact if_neg fun h => hb (Option.some.inj (hspawning.symm.trans h))
  | @fired c b t hspawning hkey _ =>
      refine hremoval ?_
      by_cases hb : b = a
      · subst hb
        rw [queueOp, if_pos hspawning, hkey, if_pos rfl]
        rfl
      · rw [if_neg hb]
        exact if_neg fun h => hb (Option.some.inj (hspawning.symm.trans h))

/-! ## Runs -/

/-- The target that turret `a` adds to its list in a transition. -/
def arrival (a : ι) (x : Transition (World ι α K) (Event ι α K)) : Option α :=
  match x.event with
  | .beginOverlap _ _ (some t) _ => if admissions a t x then some t else none
  | _ => none

/-- The arrivals at turret `a`, oldest first. -/
def arrivals (a : ι) (trace : List (Transition (World ι α K) (Event ι α K))) : List α :=
  trace.filterMap (arrival a)

/-- The arrival of an event is the one of its operation. -/
theorem queueOp_arrival {e : Event ι α K} (hwf : WellFormed L w) (hstep : Step L w e w')
    (a : ι) : (queueOp L a w e).arrival = arrival a ⟨w, e, w'⟩ := by
  cases e with
  | beginOverlap c b otherActor k =>
      cases otherActor with
      | none => rfl
      | some t =>
          have hiff := admissions_iff hwf hstep (a := a) (t := t)
          simp only [Enters, true_and, Tracks] at hiff
          simp only [queueOp, arrival, Option.elim_some, hiff, List.contains_eq_mem,
            decide_eq_false_iff_not]
          split_ifs with hjoin hadmitted hadmitted
          · rfl
          · exact absurd ⟨⟨hjoin.1, hjoin.2.1, hjoin.2.2.1, hjoin.2.2.2.1⟩, hjoin.2.2.2.2⟩ hadmitted
          · obtain ⟨⟨hb, himplements, htargetable, htags⟩, hnew⟩ := hadmitted
            exact absurd ⟨hb, himplements, htargetable, htags, hnew⟩ hjoin
          · rfl
  | endOverlap c b otherActor k =>
      cases otherActor with
      | none => rfl
      | some t =>
          simp only [queueOp, arrival, Option.elim_some]
          split_ifs <;> rfl
  | death c s =>
      simp only [queueOp, arrival]
      split_ifs <;> rfl
  | tick c b =>
      simp only [queueOp, arrival]
      split_ifs <;> rfl
  | spawned c =>
      simp only [queueOp, arrival]
      split_ifs
      · cases (w.turret a).currentTarget.key <;> rfl
      · rfl

variable {before trace : List (Transition (World ι α K) (Event ι α K))}

/-- The run of the server of turret `a` in a run of the system. -/
def serverTrace (L : Level ι α K) (a : ι)
    (trace : List (Transition (World ι α K) (Event ι α K))) :
    List (Transition (Server α) (Op α)) :=
  trace.map fun x =>
    ⟨(x.source.turret a).server, queueOp L a x.source x.event, (x.target.turret a).server⟩

/-- **Refinement.** A run of the system is a run of every turret's server. -/
theorem server_run (hwf : WellFormed L w) (hrun : Run (Step L) w trace w') (a : ι) :
    Run FirstCome.Step (w.turret a).server (serverTrace L a trace) (w'.turret a).server :=
  Run.simulate (I := WellFormed L) (g := queueOp L a)
    (fun _ _ _ h hstep => wellFormed_step h hstep)
    (fun _ _ _ h hstep => server_step h hstep a) hrun hwf

/-- The arrivals of the server are the admissions of the turret. -/
theorem arrivals_serverTrace (hwf : WellFormed L w) (hrun : Run (Step L) w trace w') (a : ι) :
    FirstCome.arrivals (serverTrace L a trace) = arrivals a trace := by
  rw [FirstCome.arrivals, serverTrace, arrivals, List.filterMap_map]
  refine List.filterMap_congr fun x hx => ?_
  obtain ⟨⟨earlier, hearlier⟩, hstep⟩ := hrun.mem_reached x hx
  have hsource := hearlier.invariant (fun _ _ _ h hstep => wellFormed_step h hstep) hwf
  exact queueOp_arrival hsource hstep a

/-- **First come, first served.** In every reachable state the targets of a
turret stand in the order in which each of them was last admitted, and a
current target is the first of them. -/
theorem current_target_first_come (hinit : Initial w₀) (hrun : Run (Step L) w₀ trace w) (a : ι) :
    (w.turret a).activeTargets.Sublist ((arrivals a trace).dedup.map some) ∧
    ∀ t, (w.turret a).currentTarget.key = some t →
      (w.turret a).activeTargets.head? = some (some t) := by
  have hserver := server_run (wellFormed_initial hinit) hrun a
  have hnull := (wellFormed_run hinit hrun a).notNull
  rw [ATurret.activeTargets_eq hnull]
  refine ⟨?_, ?_⟩
  · have hsub := queue_sublist_arrivals hserver (by rw [server_valid_initial hinit])
    rw [arrivals_serverTrace (wellFormed_initial hinit) hrun] at hsub
    exact hsub.map some
  · intro t ht
    have hvalid := valid_run hserver (by
      rw [server_valid_initial hinit]
      exact ⟨List.nodup_nil, by simp⟩)
    have hhead : (w.turret a).targets.head? = some t := hvalid.serving_head t ht
    rw [List.head?_map, hhead]
    rfl

/-- **No overtaking.** Before a turret locks on a target, every target that
was ahead of it in the list has been removed from that turret. -/
theorem no_overtaking {a : ι} {s t : α} (hinit : Initial w₀)
    (hreach : Run (Step L) w₀ before w) (hrun : Run (Step L) w trace w')
    (hahead : some s ∈ (w.turret a).activeTargets.takeWhile (· ≠ some t))
    (hkey : (w'.turret a).currentTarget.key = some t) :
    ∃ x ∈ trace, Tracks x.source a s ∧ Removes L x.source a s x.event := by
  have hwf := wellFormed_run hinit hreach
  have hvalid := valid_run (server_run (wellFormed_initial hinit) hreach a) (by
    rw [server_valid_initial hinit]
    exact ⟨List.nodup_nil, by simp⟩)
  have hserver : Ahead s t (w.turret a).server.queue := by
    rw [ATurret.activeTargets_eq (hwf a).notNull, List.takeWhile_map, List.mem_map] at hahead
    obtain ⟨r, hr, hrs⟩ := hahead
    obtain rfl := Option.some.inj hrs
    show r ∈ (w.turret a).targets.takeWhile (· ≠ t)
    simpa [Function.comp_def] using hr
  obtain ⟨y, hy, hbefore, hafter⟩ :=
    departs_of_served (server_run hwf hrun a) hvalid hserver hkey
  obtain ⟨x, hx, rfl⟩ := List.mem_map.mp hy
  have htracked : Tracks x.source a s := ATurret.mem_targets.mp hbefore
  refine ⟨x, hx, htracked, ?_⟩
  by_contra hkept
  obtain ⟨⟨earlier, hearlier⟩, hstep⟩ := hrun.mem_reached x hx
  have hsource := hearlier.invariant (fun _ _ _ h hstep => wellFormed_step h hstep) hwf
  have hstill := (tracks_step_iff hsource hstep a s).mpr (Or.inr ⟨htracked, hkept⟩)
  exact hafter (ATurret.mem_targets.mpr hstill)

end QueueOrder

section Alley

attribute [local instance] atan2Engine

/-- The queue is reached. -/
theorem alleyQueue_run : ∃ trace, Run (Step alley) alleyStart trace alleyQueue := by
  have hnew : some 1 ∉ ((admitTarget alleyScene alleyStart 0 0).turret 0).activeTargets := by
    simp [admitTarget_sameTargeting.activeTargets, alleyStart_initial.activeTargets 0]
  exact ⟨_, (Run.single (alleyStart_enter (k := 0))).snoc (alley_enter (k := 0) hnew)⟩

/-- The first tick passes over actor 0 and locks turret 0 on actor 1. -/
theorem alleyQueue_tick : ∃ w, Step alley alleyQueue (.tick alleyScene 0) w ∧
    (w.turret 0).currentTarget.key = some 1 := by
  have hactive := alleyQueue_activeTargets
  have htargets : (alleyQueue.turret 0).targets = [0, 1] :=
    ATurret.targets_of_map (by simpa using hactive)
  obtain ⟨w₁, hw₁⟩ := alleyQueue_selects
  have hselect := determineNewTarget_selection alley alleyScene (by simp [hactive])
    (by simp [hactive]) (by simp [hactive]) hw₁
  refine ⟨rotateOrFire alley alleyScene w₁ 0, ⟨rfl, ?_⟩, ?_⟩
  · simp [handle, tick, hactive, alleyQueue_key, hw₁, Except.map]
  · have hzero : acceptable alley alleyScene 0 (alleyQueue.turret 0).rotationPoint 0 = false :=
      rfl
    rw [(sameTargeting_rotateOrFire 0).currentTarget, selection_key alley alleyScene hselect,
      htargets]
    simp [hzero, alley_acceptable_one]

/-- Once actor 1 is the current target it heads the list. -/
theorem current_target_first_come_alley :
    ∃ w : World ℕ ℕ ℝ, (w.turret 0).currentTarget.key = some 1 ∧
      (w.turret 0).activeTargets.head? = some (some 1) := by
  obtain ⟨trace, hrun⟩ := alleyQueue_run
  obtain ⟨w, hstep, hkey⟩ := alleyQueue_tick
  have hfirst := current_target_first_come alleyStart_initial (hrun.snoc hstep) 0
  exact ⟨w, hkey, hfirst.2 1 hkey⟩

/-- Actor 0 was ahead of actor 1 and is gone. -/
theorem no_overtaking_alley :
    ∃ trace w, Run (Step alley) alleyQueue trace w ∧
      (w.turret 0).currentTarget.key = some 1 ∧
      ∃ x ∈ trace, Tracks x.source 0 0 ∧ Removes alley x.source 0 0 x.event := by
  obtain ⟨before, hreach⟩ := alleyQueue_run
  obtain ⟨w, hstep, hkey⟩ := alleyQueue_tick
  have hahead : some 0 ∈ (alleyQueue.turret 0).activeTargets.takeWhile (· ≠ some 1) := by
    simp [alleyQueue_activeTargets]
  exact ⟨_, w, Run.single hstep, hkey,
    no_overtaking alleyStart_initial hreach (Run.single hstep) hahead hkey⟩

end Alley

end TurretMaster

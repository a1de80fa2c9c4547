import TurretMaster.Runs

/-!
# First come, first served

A server with a queue.  Customers join at the end and may leave from any
place.  When it is free, the server may look through the queue from its head:
it sends away whom it is not able to serve and serves the first one it can.

* `valid_step` — whoever is served is the head of the queue;
* `queue_sublist_arrivals` — the queue is in the order of the last arrivals;
* `departs_of_served` — nobody is served before those ahead have gone.
-/

namespace FirstCome

open Runs

variable {α : Type*}

/-- A queue and the customer that is served. -/
structure Server (α : Type*) where
  queue : List α
  serving : Option α

/-- What can happen: nothing, an arrival, a departure, the choice of whom to
serve. -/
inductive Op (α : Type*)
  | rest
  | join (x : α)
  | leave (x : α)
  | serve (able : α → Bool)

/-- The customer an operation brings. -/
def Op.arrival : Op α → Option α
  | .join x => some x
  | _ => none

/-- All arrivals of a run, oldest first. -/
def arrivals (trace : List (Transition (Server α) (Op α))) : List α :=
  trace.filterMap (·.event.arrival)

/-- The arrivals, one operation longer. -/
theorem arrivals_concat (trace : List (Transition (Server α) (Op α)))
    (t : Transition (Server α) (Op α)) :
    arrivals (trace ++ [t]) = arrivals trace ++ t.event.arrival.toList := by
  rw [arrivals, List.filterMap_append]
  cases h : t.event.arrival <;> simp [arrivals, h]

/-- `x` is in the queue and comes before any `y`. -/
def Ahead [DecidableEq α] (x y : α) (queue : List α) : Prop :=
  x ∈ queue.takeWhile (· ≠ y)

section Ahead

variable [DecidableEq α] {x y : α} {queue : List α}

/-- Who is ahead is in the queue. -/
theorem Ahead.mem (h : Ahead x y queue) : x ∈ queue :=
  (List.takeWhile_prefix _).subset h

/-- Who is ahead in a queue with one more at its head. -/
theorem ahead_cons {z : α} : Ahead x y (z :: queue) ↔ z ≠ y ∧ (x = z ∨ Ahead x y queue) := by
  by_cases hz : z = y <;> simp [Ahead, hz]

/-- Later arrivals overtake nobody. -/
theorem Ahead.append (h : Ahead x y queue) (later : List α) : Ahead x y (queue ++ later) := by
  induction queue with
  | nil => cases h.mem
  | cons z queue ih =>
      rw [List.cons_append, ahead_cons]
      rw [ahead_cons] at h
      exact ⟨h.1, h.2.imp_right ih⟩

/-- Leaving keeps the order of those that stay. -/
theorem Ahead.filter {kept : α → Bool} (h : Ahead x y queue) (hx : kept x = true) :
    Ahead x y (queue.filter kept) := by
  induction queue with
  | nil => cases h.mem
  | cons z queue ih =>
      rw [ahead_cons] at h
      obtain ⟨hzy, hxz⟩ := h
      cases hz : kept z with
      | true =>
          rw [List.filter_cons_of_pos hz, ahead_cons]
          exact ⟨hzy, hxz.imp_right ih⟩
      | false =>
          rw [List.filter_cons_of_neg (by simp [hz])]
          rcases hxz with rfl | hrest
          · rw [hx] at hz
            cases hz
          · exact ih hrest

/-- So does the dropping of a first part. -/
theorem Ahead.dropWhile {gone : α → Bool} (h : Ahead x y queue) (hnodup : queue.Nodup)
    (hx : x ∈ queue.dropWhile gone) : Ahead x y (queue.dropWhile gone) := by
  induction queue with
  | nil => cases hx
  | cons z queue ih =>
      obtain ⟨hz, hrest⟩ := List.nodup_cons.mp hnodup
      cases hgone : gone z with
      | false =>
          rw [List.dropWhile_cons_of_neg (by simp [hgone])]
          exact h
      | true =>
          rw [List.dropWhile_cons_of_pos hgone] at hx ⊢
          rw [ahead_cons] at h
          rcases h.2 with rfl | hahead
          · exact absurd ((List.dropWhile_sublist _).mem hx) hz
          · exact ih hahead hrest hx

/-- Nobody is ahead of the head. -/
theorem not_ahead_of_head (h : queue.head? = some y) : ¬ Ahead x y queue := by
  cases queue with
  | nil => cases h
  | cons z queue =>
      obtain rfl : z = y := Option.some.inj h
      rw [ahead_cons]
      exact fun hahead => hahead.1 rfl

end Ahead

namespace Server

variable [DecidableEq α]

/-- The server after an operation. -/
def apply (s : Server α) : Op α → Server α
  | .rest => s
  | .join x => { s with queue := s.queue ++ [x] }
  | .leave x => ⟨s.queue.filter (· ≠ x), if s.serving = some x then none else s.serving⟩
  | .serve able =>
      let queue := s.queue.dropWhile (fun x => !able x)
      ⟨queue, queue.head?⟩

/-- Nobody joins twice, and only a free server looks for a customer. -/
def Allows (s : Server α) : Op α → Prop
  | .rest => True
  | .join x => x ∉ s.queue
  | .leave _ => True
  | .serve _ => s.serving = none

/-- Nobody queues twice, and the head is served. -/
structure Valid (s : Server α) : Prop where
  nodup : s.queue.Nodup
  serving_head : ∀ x, s.serving = some x → s.queue.head? = some x

end Server

section Steps

variable [DecidableEq α] {s s' f : Server α} {op : Op α} {x y : α}

/-- An allowed operation. -/
def Step (s : Server α) (op : Op α) (s' : Server α) : Prop :=
  s.Allows op ∧ s' = s.apply op

/-- **One step** keeps the customer that is served at the head. -/
theorem valid_step (h : s.Valid) (hstep : Step s op s') : s'.Valid := by
  obtain ⟨hallows, rfl⟩ := hstep
  cases op with
  | rest => exact h
  | join z =>
      refine ⟨?_, ?_⟩
      · show (s.queue ++ [z]).Nodup
        rw [List.nodup_append]
        refine ⟨h.nodup, List.nodup_singleton z, ?_⟩
        rintro v hv _ hz rfl
        rw [List.mem_singleton] at hz
        exact hallows (hz ▸ hv)
      · intro v hv
        show (s.queue ++ [z]).head? = some v
        rw [List.head?_append, h.serving_head v hv]
        rfl
  | leave z =>
      refine ⟨h.nodup.filter _, ?_⟩
      intro v hv
      show (s.queue.filter (· ≠ z)).head? = some v
      change (if s.serving = some z then none else s.serving) = some v at hv
      split_ifs at hv with hserving
      have hne : v ≠ z := fun heq => hserving (heq ▸ hv)
      have hhead := h.serving_head v hv
      cases hqueue : s.queue with
      | nil => rw [hqueue] at hhead; cases hhead
      | cons u rest =>
          rw [hqueue] at hhead
          obtain rfl : u = v := Option.some.inj hhead
          rw [List.filter_cons_of_pos (by simpa using hne)]
          rfl
  | serve able => exact ⟨h.nodup.sublist (List.dropWhile_sublist _), fun v hv => hv⟩

/-- Who is ahead stays ahead, as long as he stays. -/
theorem ahead_step (h : s.Valid) (hstep : Step s op s') (hahead : Ahead x y s.queue)
    (hstays : x ∈ s'.queue) : Ahead x y s'.queue := by
  obtain ⟨-, rfl⟩ := hstep
  cases op with
  | rest => exact hahead
  | join z => exact hahead.append [z]
  | leave z => exact hahead.filter (List.mem_filter.mp hstays).2
  | serve able => exact hahead.dropWhile h.nodup hstays

/-! ## Runs -/

variable {trace : List (Transition (Server α) (Op α))}

/-- A run keeps the server valid. -/
theorem valid_run (hrun : Run Step s trace f) (h : s.Valid) : f.Valid :=
  hrun.invariant (fun _ _ _ h hstep => valid_step h hstep) h

/-- A list in the order of the last occurrences keeps its order when a new
element comes. -/
theorem sublist_dedup_concat {queue seen : List α} (h : queue.Sublist seen.dedup)
    (hnew : x ∉ queue) : (queue ++ [x]).Sublist (seen ++ [x]).dedup := by
  induction seen generalizing queue with
  | nil =>
      rw [List.dedup_nil, List.sublist_nil] at h
      rw [h]
      exact .refl _
  | cons z seen ih =>
      rw [List.cons_append]
      by_cases hz : z ∈ seen
      · rw [List.dedup_cons_of_mem hz] at h
        rw [List.dedup_cons_of_mem (List.mem_append_left _ hz)]
        exact ih h hnew
      · rw [List.dedup_cons_of_notMem hz] at h
        by_cases hzx : z = x
        · subst hzx
          rw [List.dedup_cons_of_mem (by simp)]
          refine ih ?_ hnew
          cases h with
          | cons _ hsub => exact hsub
          | cons_cons _ hsub => exact absurd List.mem_cons_self hnew
        · rw [List.dedup_cons_of_notMem (by simp [hz, hzx])]
          cases h with
          | cons _ hsub => exact (ih hsub hnew).cons z
          | cons_cons _ hsub =>
              exact (ih hsub fun hmem => hnew (List.mem_cons_of_mem z hmem)).cons_cons z

/-- **The queue is in the order of arrival.** From an empty queue, whoever is
in the queue stands there in the order in which each came last. -/
theorem queue_sublist_arrivals (hrun : Run Step s trace f) (hempty : s.queue = []) :
    f.queue.Sublist (arrivals trace).dedup := by
  induction hrun with
  | nil => simp [hempty]
  | @snoc m f trace op init last ih =>
      obtain ⟨hallows, rfl⟩ := last
      rw [arrivals_concat]
      cases op with
      | rest =>
          show m.queue.Sublist (arrivals trace ++ []).dedup
          rw [List.append_nil]
          exact ih
      | join z => exact sublist_dedup_concat ih hallows
      | leave z =>
          show (m.queue.filter (· ≠ z)).Sublist (arrivals trace ++ []).dedup
          rw [List.append_nil]
          exact List.filter_sublist.trans ih
      | serve able =>
          show (m.queue.dropWhile (fun x => !able x)).Sublist (arrivals trace ++ []).dedup
          rw [List.append_nil]
          exact (List.dropWhile_sublist _).trans ih

/-- **No overtaking.** Before `y` is served everybody ahead of `y` has left
the queue. -/
theorem departs_of_served (hrun : Run Step s trace f) (h : s.Valid)
    (hahead : Ahead x y s.queue) (hserved : f.serving = some y) :
    ∃ t ∈ trace, x ∈ t.source.queue ∧ x ∉ t.target.queue := by
  by_contra hstays
  push Not at hstays
  have hkept := hrun.always (I := fun s => s.Valid ∧ Ahead x y s.queue)
    (D := fun t => x ∈ t.source.queue → x ∈ t.target.queue)
    (fun t hI hD hstep => ⟨valid_step hI.1 hstep, ahead_step hI.1 hstep hI.2 (hD hI.2.mem)⟩)
    ⟨h, hahead⟩ hstays
  obtain ⟨-, hvalid, hstill⟩ := hkept
  exact not_ahead_of_head (hvalid.serving_head y hserved) hstill

end Steps

end FirstCome

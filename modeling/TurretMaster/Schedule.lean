import Mathlib

/-!
# Schedules

A schedule performs the action of each agent of a list in turn; an action may
fail.  When, under an invariant, no action fails and the actions of any two
agents can be exchanged, the order of the agents does not matter.

* `schedule_ok` — no failure;
* `schedule_perm` — the order of the agents.
-/

namespace Schedule

variable {σ β ε : Type*}

/-- The actions of the agents, one after the other. -/
def schedule (act : β → σ → Except ε σ) : List β → σ → Except ε σ
  | [], s => .ok s
  | b :: rest, s => (act b s).bind (schedule act rest)

variable {act : β → σ → Except ε σ} {I : σ → Prop}

/-- Under the invariant every schedule succeeds and keeps it. -/
theorem schedule_ok (hact : ∀ b s, I s → ∃ s', act b s = .ok s' ∧ I s') (agents : List β) {s : σ}
    (hs : I s) : ∃ s', schedule act agents s = .ok s' ∧ I s' := by
  induction agents generalizing s with
  | nil => exact ⟨s, rfl, hs⟩
  | cons b rest ih =>
      obtain ⟨m, hm, hIm⟩ := hact b s hs
      obtain ⟨s', hs', hIs'⟩ := ih hIm
      exact ⟨s', by rw [schedule, hm]; exact hs', hIs'⟩

/-- **The order does not matter** when any two actions can be exchanged. -/
theorem schedule_perm (hact : ∀ b s, I s → ∃ s', act b s = .ok s' ∧ I s')
    (hswap : ∀ b b' s, I s → (act b s).bind (act b') = (act b' s).bind (act b))
    {agents agents' : List β} (hperm : agents.Perm agents') {s : σ} (hs : I s) :
    schedule act agents s = schedule act agents' s := by
  induction hperm generalizing s with
  | nil => rfl
  | cons b _ ih =>
      obtain ⟨m, hm, hIm⟩ := hact b s hs
      rw [schedule, schedule, hm]
      exact ih hIm
  | swap b b' rest =>
      obtain ⟨m, hm, hIm⟩ := hact b s hs
      obtain ⟨m', hm', hIm'⟩ := hact b' s hs
      have hboth := hswap b b' s hs
      rw [hm, hm'] at hboth
      change act b' m = act b m' at hboth
      rw [schedule, schedule, hm, hm']
      change schedule act (b :: rest) m' = schedule act (b' :: rest) m
      rw [schedule, schedule, hboth]
  | trans _ _ ih ih' => exact (ih hs).trans (ih' hs)

end Schedule

import Mathlib

/-!
# Broadcasting over a multicast delegate

A broadcast walks an invocation list and calls each binding that is still
bound when it is reached; the called code may change the state the bindings
live in, the list included.  The walk is stated for any state, any bindings
and any fallible call.

* `broadcast_unbound` — nothing happens when no listed binding is bound;
* `broadcast_cons_clearing` — a call that unbinds the rest of the list is the
  only one the broadcast makes.
-/

namespace Multicast

variable {σ β ε : Type*}

/-- Call, in order, every binding of the list that is still bound when the
walk reaches it. -/
def broadcast (bound : σ → β → Bool) (call : β → σ → Except ε σ) :
    List β → σ → Except ε σ
  | [], s => .ok s
  | b :: rest, s =>
      if bound s b then (call b s).bind (broadcast bound call rest)
      else broadcast bound call rest s

variable {bound : σ → β → Bool} {call : β → σ → Except ε σ}

/-- A list without bound entries is walked without a call. -/
theorem broadcast_unbound {s : σ} {bs : List β}
    (h : ∀ b ∈ bs, bound s b = false) :
    broadcast bound call bs s = .ok s := by
  induction bs with
  | nil => rfl
  | cons b rest ih =>
      rw [List.forall_mem_cons] at h
      simp [broadcast, h.1, ih h.2]

/-- **A clearing call is the last one.**  If calling the first binding leaves
no entry of the list bound, the broadcast is that one call. -/
theorem broadcast_cons_clearing {s : σ} {b : β} {rest : List β}
    (hb : bound s b = true)
    (hclear : ∀ s', call b s = .ok s' → ∀ b' ∈ rest, bound s' b' = false) :
    broadcast bound call (b :: rest) s = call b s := by
  cases hcall : call b s with
  | error err => simp [broadcast, hb, hcall, Except.bind]
  | ok s' =>
      simp [broadcast, hb, hcall, Except.bind, broadcast_unbound (hclear s' hcall)]

end Multicast

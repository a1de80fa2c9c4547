import Mathlib

/-!
# Observers of subjects

Observers track subjects and leave a callback with each subject they track. An
event lets pairs of observer and subject join and removes others; removing a
pair clears every callback that is left with its subject.  Which observers and
subjects there are, and what the events are, is left open.

* `boundTracked_apply` — callbacks never outlive the tracking;
* `notified_apply_iff` — every tracking observer keeps its callback exactly if
  no other one tracks a subject that is removed.
-/

namespace Observers

variable {ι α : Type*}

/-- Who tracks what, and whose callback is left with which subject. -/
@[ext]
structure Registry (ι α : Type*) where
  tracks : ι → α → Prop
  bound : ι → α → Prop

/-- What one event changes.  At most one observer drops a subject at a time,
and none joins it then. -/
structure Change (ι α : Type*) where
  joins : ι → α → Prop
  removes : ι → α → Prop
  removes_unique : ∀ {a b t}, removes a t → removes b t → a = b
  not_joins : ∀ {a b t}, removes a t → ¬ joins b t

namespace Registry

/-- The registry after a change. -/
def apply (r : Registry ι α) (d : Change ι α) : Registry ι α where
  tracks a t := d.joins a t ∨ (r.tracks a t ∧ ¬ d.removes a t)
  bound a t := (d.joins a t ∨ r.bound a t) ∧ ∀ b, ¬ d.removes b t

/-- Every callback belongs to an observer that tracks the subject. -/
def BoundTracked (r : Registry ι α) : Prop := ∀ a t, r.bound a t → r.tracks a t

/-- Every tracking observer has its callback with the subject. -/
def Notified (r : Registry ι α) : Prop := ∀ a t, r.tracks a t → r.bound a t

/-- What is removed from one observer is tracked by no other. -/
def Spares (r : Registry ι α) (d : Change ι α) : Prop :=
  ∀ a t, d.removes a t → ∀ b, b ≠ a → ¬ r.tracks b t

variable {r : Registry ι α} {d : Change ι α}

/-- A change keeps every binding that of an observer. -/
theorem boundTracked_apply (h : r.BoundTracked) : (r.apply d).BoundTracked := by
  intro a t hbound
  rcases hbound with ⟨hjoins | hold, hkept⟩
  · exact Or.inl hjoins
  · exact Or.inr ⟨h a t hold, hkept a⟩

/-- **When every tracking observer keeps its callback.** -/
theorem notified_apply_iff (h : r.Notified) : (r.apply d).Notified ↔ r.Spares d := by
  constructor
  · intro hafter a t hremoves b hb htracks
    have hkept : ¬ d.removes b t := fun hb' => hb (d.removes_unique hb' hremoves)
    have hbound := hafter b t (Or.inr ⟨htracks, hkept⟩)
    exact hbound.2 a hremoves
  · intro hspares a t htracks
    rcases htracks with hjoins | ⟨hold, hkept⟩
    · exact ⟨Or.inl hjoins, fun b hremoves => d.not_joins hremoves hjoins⟩
    · refine ⟨Or.inr (h a t hold), ?_⟩
      intro b hremoves
      by_cases hab : a = b
      · exact hkept (hab ▸ hremoves)
      · exact hspares b t hremoves a hab hold

end Registry

end Observers

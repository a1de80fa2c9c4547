import Mathlib

/-!
# Recorded runs of a labelled transition relation

A run is stored together with its transitions, oldest first, so that a
statement about "every step taken so far" or "the number of such steps" is a
statement about one list.  Nothing here knows which system is running.

* `Run.invariant` / `Run.invariant_along` — the induction rule, without and
  with a side condition on the steps taken;
* `Run.always` — the same for conditions on whole transitions, in every state;
* `Run.always_iff_along` — when one step keeps a property exactly if it meets
  a condition, a run keeps it throughout exactly if all its steps do;
* `Run.tally`, `Run.count` — counters driven by the transitions;
* `Run.last_change` — the transition that made a property true for good;
* `Run.since_iff` — a property that one kind of step sets and another clears;
* `Run.simulate` — a refinement map takes runs to runs;
* `Run.project` — so does a relation that matches some of the steps;
* `Run.end_unique` — a deterministic relation, and its runs;
* `Run.balance` — what has come in is what has gone out and what is there.
-/

namespace Runs

/-- One recorded transition. -/
structure Transition (σ ε : Type*) where
  source : σ
  event : ε
  target : σ

variable {σ ε : Type*} {step : σ → ε → σ → Prop}

/-- `Run step start trace finish`: the transitions of `trace`, oldest first,
lead from `start` to `finish`. -/
inductive Run (step : σ → ε → σ → Prop) :
    σ → List (Transition σ ε) → σ → Prop
  | nil (s : σ) : Run step s [] s
  | snoc {s m f : σ} {trace : List (Transition σ ε)} {e : ε}
      (init : Run step s trace m) (last : step m e f) :
      Run step s (trace ++ [⟨m, e, f⟩]) f

/-- Run `trace` keeps `P` in every state it enters. -/
def Always (P : σ → Prop) (trace : List (Transition σ ε)) : Prop :=
  ∀ x ∈ trace, P x.target

/-- Every step of `trace` meets `C` in the state in which it is taken. -/
def Along (C : σ → ε → Prop) (trace : List (Transition σ ε)) : Prop :=
  ∀ x ∈ trace, C x.source x.event

/-- A property of all states, one transition longer. -/
theorem always_concat {P : σ → Prop} {trace : List (Transition σ ε)}
    {x : Transition σ ε} :
    Always P (trace ++ [x]) ↔ Always P trace ∧ P x.target := by
  simp [Always, or_imp, forall_and]

/-- A property of all transitions, one transition longer. -/
theorem along_concat {C : σ → ε → Prop} {trace : List (Transition σ ε)}
    {x : Transition σ ε} :
    Along C (trace ++ [x]) ↔ Along C trace ∧ C x.source x.event := by
  simp [Along, or_imp, forall_and]

/-- A one-step run. -/
theorem Run.single {s f : σ} {e : ε} (h : step s e f) :
    Run step s [⟨s, e, f⟩] f :=
  Run.snoc (Run.nil s) h

/-- A property that every admissible step keeps survives a run of admissible
steps. -/
theorem Run.invariant_along {I : σ → Prop} {C : σ → ε → Prop}
    (hstep : ∀ s e s', I s → C s e → step s e s' → I s')
    {s f : σ} {trace : List (Transition σ ε)} (hrun : Run step s trace f)
    (hs : I s) (hC : Along C trace) : I f := by
  induction hrun with
  | nil => exact hs
  | @snoc m f trace e init last ih =>
      rw [along_concat] at hC
      exact hstep m e f (ih hC.1) hC.2 last

/-- A property that every step keeps survives every run. -/
theorem Run.invariant {I : σ → Prop}
    (hstep : ∀ s e s', I s → step s e s' → I s')
    {s f : σ} {trace : List (Transition σ ε)} (hrun : Run step s trace f)
    (hs : I s) : I f :=
  hrun.invariant_along (C := fun _ _ => True)
    (fun s e s' hI _ h => hstep s e s' hI h) hs (fun _ _ => trivial)

/-- A property that every admissible transition keeps holds in every state
that a run of admissible transitions enters. -/
theorem Run.always {I : σ → Prop} {D : Transition σ ε → Prop}
    (hstep : ∀ x : Transition σ ε, I x.source → D x →
      step x.source x.event x.target → I x.target)
    {s f : σ} {trace : List (Transition σ ε)} (hrun : Run step s trace f)
    (hs : I s) (hD : ∀ x ∈ trace, D x) : Always I trace ∧ I f := by
  induction hrun with
  | nil => exact ⟨by simp [Always], hs⟩
  | @snoc m f trace e init last ih =>
      obtain ⟨halways, hm⟩ := ih (fun x hx => hD x (List.mem_append_left _ hx))
      have hf : I f := hstep ⟨m, e, f⟩ hm (hD _ (by simp)) last
      exact ⟨always_concat.mpr ⟨halways, hf⟩, hf⟩

/-- Under the same conditions every recorded transition is a step between
states with the property. -/
theorem Run.each {I : σ → Prop} {D : Transition σ ε → Prop}
    (hstep : ∀ x : Transition σ ε, I x.source → D x →
      step x.source x.event x.target → I x.target)
    {s f : σ} {trace : List (Transition σ ε)} (hrun : Run step s trace f)
    (hs : I s) (hD : ∀ x ∈ trace, D x) :
    ∀ x ∈ trace, I x.source ∧ step x.source x.event x.target ∧ I x.target := by
  induction hrun with
  | nil => simp
  | @snoc m f trace e init last ih =>
      have hinit : ∀ x ∈ trace, D x := fun x hx => hD x (List.mem_append_left _ hx)
      have hm : I m := (init.always hstep hs hinit).2
      intro x hx
      rcases List.mem_append.mp hx with hx | hx
      · exact ih hinit x hx
      · obtain rfl := List.mem_singleton.mp hx
        exact ⟨hm, last, hstep _ hm (hD _ (by simp)) last⟩

/-- Every recorded transition is a step, taken in a state that a prefix of
the run reaches. -/
theorem Run.mem_reached {s f : σ} {trace : List (Transition σ ε)}
    (hrun : Run step s trace f) :
    ∀ x ∈ trace, (∃ before, Run step s before x.source) ∧
      step x.source x.event x.target := by
  induction hrun with
  | nil => simp
  | @snoc m f trace e init last ih =>
      intro x hx
      rcases List.mem_append.mp hx with hx | hx
      · exact ih x hx
      · obtain rfl := List.mem_singleton.mp hx
        exact ⟨⟨trace, init⟩, last⟩

/-- When, under an invariant, one step keeps `P` exactly if it meets `C`, a
run keeps `P` throughout exactly if all its steps meet `C`. -/
theorem Run.always_iff_along {I P : σ → Prop} {C : σ → ε → Prop}
    (hI : ∀ s e s', I s → step s e s' → I s')
    (hP : ∀ s e s', I s → P s → step s e s' → (P s' ↔ C s e))
    {s f : σ} {trace : List (Transition σ ε)} (hrun : Run step s trace f)
    (hIs : I s) (hPs : P s) : Always P trace ↔ Along C trace := by
  -- the statement for the final state is carried along for the next step
  suffices h : (Always P trace ↔ Along C trace) ∧ (Always P trace → P f) from h.1
  induction hrun with
  | nil => exact ⟨by simp [Always, Along], fun _ => hPs⟩
  | @snoc m f trace e init last ih =>
      have hIm := init.invariant hI hIs
      rw [always_concat, along_concat]
      refine ⟨?_, fun h => h.2⟩
      constructor
      · rintro ⟨hpre, hf⟩
        exact ⟨ih.1.mp hpre, (hP m e f hIm (ih.2 hpre) last).mp hf⟩
      · rintro ⟨hpre, hC⟩
        have hpre' := ih.1.mpr hpre
        exact ⟨hpre', (hP m e f hIm (ih.2 hpre') last).mpr hC⟩

/-- Two counters driven by the transitions of a run: an invariant of state
and counters that each transition keeps holds at the end. -/
theorem Run.tally {p q : Transition σ ε → Bool} {I : σ → ℕ → ℕ → Prop}
    (hstep : ∀ m e f i j, I m i j → step m e f →
      I f (i + (p ⟨m, e, f⟩).toNat) (j + (q ⟨m, e, f⟩).toNat))
    {s f : σ} {trace : List (Transition σ ε)} (hrun : Run step s trace f)
    (hs : I s 0 0) : I f (trace.countP p) (trace.countP q) := by
  have hcount (r : Transition σ ε → Bool) (x : Transition σ ε) :
      List.countP r [x] = (r x).toNat := by
    cases h : r x <;> simp [h]
  induction hrun with
  | nil => exact hs
  | @snoc m f trace e init last ih =>
      simpa [List.countP_append, hcount] using hstep m e f _ _ ih last

/-- One counter driven by the transitions of a run of admissible ones. -/
theorem Run.count {I : σ → ℕ → Prop} {D : Transition σ ε → Prop} {p : Transition σ ε → Bool}
    (hstep : ∀ (x : Transition σ ε) n, I x.source n → D x →
      step x.source x.event x.target → I x.target (n + (p x).toNat))
    {s f : σ} {trace : List (Transition σ ε)} (hrun : Run step s trace f)
    (hs : I s 0) (hD : ∀ x ∈ trace, D x) : I f (trace.countP p) := by
  induction hrun with
  | nil => exact hs
  | @snoc m f trace e init last ih =>
      have hm := ih fun x hx => hD x (List.mem_append_left _ hx)
      have hf := hstep ⟨m, e, f⟩ _ hm (hD _ (by simp)) last
      cases hp : p ⟨m, e, f⟩ <;> simpa [List.countP_append, hp] using hf

/-- A property that holds at the end and not at the start became true in one
recorded transition and has held in every state since. -/
theorem Run.last_change {P : σ → Prop} {s f : σ}
    {trace : List (Transition σ ε)} (hrun : Run step s trace f)
    (hs : ¬ P s) (hf : P f) :
    ∃ before x after, trace = before ++ x :: after ∧
      ¬ P x.source ∧ P x.target ∧ Always P after := by
  induction hrun with
  | nil => exact absurd hf hs
  | @snoc m f trace e init last ih =>
      by_cases hm : P m
      · obtain ⟨before, x, after, rfl, hsrc, htgt, hafter⟩ := ih hm
        refine ⟨before, x, after ++ [⟨m, e, f⟩], by simp, hsrc, htgt, ?_⟩
        exact always_concat.mpr ⟨hafter, hf⟩
      · exact ⟨trace, ⟨m, e, f⟩, [], rfl, hm, hf, by simp [Always]⟩

/-- Some transition of the trace was a `set`, and none since was a `clear`. -/
def Since (clear set : Transition σ ε → Prop) (trace : List (Transition σ ε)) : Prop :=
  ∃ before x after, trace = before ++ x :: after ∧ set x ∧ ∀ y ∈ after, ¬ clear y

/-- Nothing has happened in an empty run. -/
theorem not_since_nil {clear set : Transition σ ε → Prop} : ¬ Since clear set [] := by
  simp [Since]

/-- What has happened since, one transition longer. -/
theorem since_concat {clear set : Transition σ ε → Prop} {trace : List (Transition σ ε)}
    {x : Transition σ ε} :
    Since clear set (trace ++ [x]) ↔ set x ∨ (Since clear set trace ∧ ¬ clear x) := by
  constructor
  · rintro ⟨before, y, after, htrace, hset, hkept⟩
    rcases List.eq_nil_or_concat' after with rfl | ⟨after', z, rfl⟩
    · obtain ⟨-, hlast⟩ := List.append_inj' htrace rfl
      obtain rfl : x = y := by simpa using hlast
      exact Or.inl hset
    · rw [← List.cons_append, ← List.append_assoc] at htrace
      obtain ⟨hpre, hlast⟩ := List.append_inj' htrace rfl
      obtain rfl : x = z := by simpa using hlast
      exact Or.inr ⟨⟨before, y, after', hpre, hset,
        fun u hu => hkept u (List.mem_append_left _ hu)⟩, hkept x (by simp)⟩
  · rintro (hset | ⟨⟨before, y, after, rfl, hset, hkept⟩, hx⟩)
    · exact ⟨trace, x, [], rfl, hset, by simp⟩
    · refine ⟨before, y, after ++ [x], by simp, hset, fun u hu => ?_⟩
      rcases List.mem_append.mp hu with hu | hu
      · exact hkept u hu
      · rwa [List.mem_singleton.mp hu]

/-- **Set and cleared.** A property that a transition sets, or keeps unless it
clears it, holds exactly if it has been set and not cleared since. -/
theorem Run.since_iff {I P : σ → Prop} {clear set : Transition σ ε → Prop}
    (hI : ∀ s e s', I s → step s e s' → I s')
    (hstep : ∀ s e s', I s → step s e s' →
      (P s' ↔ set ⟨s, e, s'⟩ ∨ (P s ∧ ¬ clear ⟨s, e, s'⟩)))
    {s f : σ} {trace : List (Transition σ ε)} (hrun : Run step s trace f) (hs : I s)
    (hstart : ¬ P s) : P f ↔ Since clear set trace := by
  induction hrun with
  | nil => exact iff_of_false hstart not_since_nil
  | @snoc m f trace e init last ih =>
      rw [since_concat, hstep m e f (init.invariant hI hs) last, ih]

/-- **Refinement.** Under an invariant, a map of states and events that takes
steps to steps takes runs to runs. -/
theorem Run.simulate {σ' ε' : Type*} {step' : σ' → ε' → σ' → Prop} {I : σ → Prop}
    {φ : σ → σ'} {g : σ → ε → ε'} (hI : ∀ s e s', I s → step s e s' → I s')
    (hstep : ∀ s e s', I s → step s e s' → step' (φ s) (g s e) (φ s'))
    {s f : σ} {trace : List (Transition σ ε)} (hrun : Run step s trace f) (hs : I s) :
    Run step' (φ s)
      (trace.map (fun x => ⟨φ x.source, g x.source x.event, φ x.target⟩)) (φ f) := by
  induction hrun with
  | nil => exact Run.nil _
  | @snoc m f trace e init last ih =>
      rw [List.map_append]
      exact Run.snoc ih (hstep m e f (init.invariant hI hs) last)

/-- **Projection.** A relation under which the steps that `p` picks are matched
one by one, and the other steps by nothing, takes a run to a run of the events
that `p` picks. -/
theorem Run.project {σ' : Type*} {T : σ' → ε → σ' → Prop} {R : σ → σ' → Prop}
    {p : Transition σ ε → Bool}
    (hmatch : ∀ s e s' u, R s u → step s e s' → p ⟨s, e, s'⟩ = true →
      ∃ u', T u e u' ∧ R s' u')
    (hskip : ∀ s e s' u, R s u → step s e s' → p ⟨s, e, s'⟩ = false → R s' u)
    {s f : σ} {trace : List (Transition σ ε)} (hrun : Run step s trace f) {u : σ'} (hs : R s u) :
    ∃ trace' u', Run T u trace' u' ∧ R f u' ∧
      trace'.map (·.event) = (trace.filter p).map (·.event) := by
  induction hrun with
  | nil => exact ⟨[], u, Run.nil u, hs, rfl⟩
  | @snoc m f trace e init last ih =>
      obtain ⟨trace', u', hrun', hR, hevents⟩ := ih
      cases hp : p ⟨m, e, f⟩ with
      | true =>
          obtain ⟨u'', hstep', hR'⟩ := hmatch m e f u' hR last hp
          refine ⟨_, u'', hrun'.snoc hstep', hR', ?_⟩
          simp [List.filter_append, hp, hevents]
      | false =>
          refine ⟨trace', u', hrun', hskip m e f u' hR last hp, ?_⟩
          simp [List.filter_append, hp, hevents]

/-- **Determinism.** When a state and an event fix the next state, the start
and the events of a run fix its end. -/
theorem Run.end_unique (hstep : ∀ s e s₁ s₂, step s e s₁ → step s e s₂ → s₁ = s₂)
    {s f f' : σ} {trace trace' : List (Transition σ ε)} (hrun : Run step s trace f)
    (hrun' : Run step s trace' f') (hevents : trace.map (·.event) = trace'.map (·.event)) :
    f = f' := by
  induction hrun generalizing trace' f' with
  | nil =>
      cases hrun' with
      | nil => rfl
      | snoc init last => simp at hevents
  | @snoc m f trace e init last ih =>
      cases hrun' with
      | nil => simp at hevents
      | @snoc m' f' trace' e' init' last' =>
          simp only [List.map_append, List.map_singleton] at hevents
          obtain ⟨hpre, hlast⟩ := List.append_inj' hevents rfl
          obtain rfl := ih init' hpre
          obtain rfl : e = e' := by simpa using hlast
          exact hstep m e f f' last last'

/-- A sum of truth values counts. -/
theorem sum_map_toNat {β : Type*} (p : β → Bool) (list : List β) :
    (list.map (fun x => (p x).toNat)).sum = list.countP p := by
  induction list with
  | nil => rfl
  | cons x rest ih =>
      cases hx : p x
      · simp [ih, hx]
      · simp [ih, hx, Nat.add_comm]

/-- **A ledger.** When every transition balances, under an invariant, so does
the run. -/
theorem Run.balance {I : σ → Prop} (stock : σ → ℕ) (came gone : Transition σ ε → ℕ)
    (hI : ∀ s e s', I s → step s e s' → I s')
    (hstep : ∀ s e s', I s → step s e s' →
      stock s' + gone ⟨s, e, s'⟩ = stock s + came ⟨s, e, s'⟩)
    {s f : σ} {trace : List (Transition σ ε)} (hrun : Run step s trace f) (hs : I s) :
    stock f + (trace.map gone).sum = stock s + (trace.map came).sum := by
  induction hrun with
  | nil => rfl
  | @snoc m f trace e init last ih =>
      have hlast := hstep m e f (init.invariant hI hs) last
      simp only [List.map_append, List.map_singleton, List.sum_append, List.sum_singleton]
      omega

end Runs

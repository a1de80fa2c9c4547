import TurretMaster.Locality
import TurretMaster.TargetLock

/-!
# The order of gameplay tags

A container of gameplay tags has no order that means anything, but
`DetermineTargetType` keeps the last matching tag it comes to.  It logs an
error when it has come to several, and exactly then the order can decide the
type of a target, and with it how the turret aims.

* `determineTargetType_perm_iff` — when the order decides the type;
* `handle_withTags` — otherwise it decides nothing.
-/

namespace TurretMaster

open Runs

/-- `MatchingTagCount` at the end of `DetermineTargetType`, which logs an error
if it is above one. -/
def matchingTagCount (tagContainer : FGameplayTagContainer) : ℕ :=
  tagContainer.countP (·.matchesTag TMGameplayTags.targetType)

/-- With one matching tag the order does not matter. -/
theorem determineTargetType_of_perm {tags tags' : FGameplayTagContainer}
    (hperm : tags'.Perm tags) (hone : matchingTagCount tags ≤ 1) (targetType : FGameplayTag) :
    determineTargetType tags' targetType = determineTargetType tags targetType := by
  have hfilter := hperm.filter (·.matchesTag TMGameplayTags.targetType)
  rw [matchingTagCount, List.countP_eq_length_filter] at hone
  rw [determineTargetType_eq, determineTargetType_eq]
  generalize tags.filter (·.matchesTag TMGameplayTags.targetType) = matching at hfilter hone
  rcases matching with _ | ⟨tag, _ | ⟨other, rest⟩⟩
  · rw [hfilter.eq_nil]
  · rw [List.perm_singleton.mp hfilter]
  · simp at hone

/-- A matching tag that is put last is the one that is found. -/
theorem determineTargetType_last {tags : FGameplayTagContainer} {tag : FGameplayTag}
    (hmatches : tag.matchesTag TMGameplayTags.targetType = true) (targetType : FGameplayTag) :
    determineTargetType (tags ++ [tag]) targetType = (true, tag) := by
  simp [determineTargetType_eq, List.filter_append, hmatches]

/-- **When the order decides the type**: all orders of the tags give the same
type exactly if `DetermineTargetType` does not log its error. -/
theorem determineTargetType_perm_iff {tags : FGameplayTagContainer} (hnodup : tags.Nodup)
    (targetType : FGameplayTag) :
    (∀ tags', tags'.Perm tags →
      determineTargetType tags' targetType = determineTargetType tags targetType) ↔
      matchingTagCount tags ≤ 1 := by
  refine ⟨fun hall => ?_, fun hone tags' hperm => determineTargetType_of_perm hperm hone _⟩
  by_contra hmany
  rw [matchingTagCount, List.countP_eq_length_filter, not_le] at hmany
  obtain ⟨s, hs, t, ht, hne⟩ : ∃ s ∈ tags.filter (·.matchesTag TMGameplayTags.targetType),
      ∃ t ∈ tags.filter (·.matchesTag TMGameplayTags.targetType), s ≠ t := by
    have hfilter := hnodup.filter (·.matchesTag TMGameplayTags.targetType)
    generalize tags.filter (·.matchesTag TMGameplayTags.targetType) = matching at hmany hfilter
    rcases matching with _ | ⟨s, _ | ⟨t, rest⟩⟩
    · simp at hmany
    · simp at hmany
    · refine ⟨s, by simp, t, by simp, ?_⟩
      rintro rfl
      simp at hfilter
  have hlast {tag : FGameplayTag}
      (hmem : tag ∈ tags.filter (·.matchesTag TMGameplayTags.targetType)) :
      determineTargetType tags targetType = (true, tag) := by
    obtain ⟨hin, hmatches⟩ := List.mem_filter.mp hmem
    have hperm : (tags.erase tag ++ [tag]).Perm tags :=
      (List.perm_append_singleton tag _).trans (List.perm_cons_erase hin).symm
    rw [← hall _ hperm, determineTargetType_last hmatches]
  have hboth := (hlast hs).symm.trans (hlast ht)
  exact hne (Prod.mk.inj hboth).2

/-- An enemy that is stationary and has no gravity. -/
theorem determineTargetType_perm_iff_two : ¬ ∀ tags', tags'.Perm
    [TMGameplayTags.targetTypeStationary, TMGameplayTags.targetTypeProjectileNoGravity] →
      determineTargetType tags' FGameplayTag.empty = determineTargetType
        [TMGameplayTags.targetTypeStationary, TMGameplayTags.targetTypeProjectileNoGravity]
        FGameplayTag.empty := by
  rw [determineTargetType_perm_iff (by decide)]
  decide

section TagOrder

variable {ι α K : Type}
variable {L : Level ι α K} {c : Scene ι α K} {w w₁ w₀ : World ι α K} {a : ι}
variable {tags : α → FGameplayTagContainer}

/-- The scene with other tags. -/
def Scene.withTags (c : Scene ι α K) (tags : α → FGameplayTagContainer) : Scene ι α K :=
  { c with targetTags := tags }

/-- The event in another scene. -/
def Event.inScene (c : Scene ι α K) : Event ι α K → Event ι α K
  | .beginOverlap _ a otherActor k => .beginOverlap c a otherActor k
  | .endOverlap _ a otherActor k => .endOverlap c a otherActor k
  | .death _ t => .death c t
  | .tick _ a => .tick c a
  | .spawned _ => .spawned c

/-- The containers have the same tags in another order, and at most one of
them for each target is a type. -/
structure Reordered (c : Scene ι α K) (tags : α → FGameplayTagContainer) : Prop where
  perm : ∀ t, (tags t).Perm (c.targetTags t)
  single : ∀ t, matchingTagCount (c.targetTags t) ≤ 1

/-- The types do not depend on the order. -/
theorem determinedType_withTags (h : Reordered c tags) :
    determinedType (c.withTags tags) = determinedType c := by
  funext t
  have htype := determineTargetType_of_perm (h.perm t) (h.single t) FGameplayTag.empty
  simp only [determinedType, Scene.withTags, htype]

variable [Field K] [LinearOrder K] [Engine K]

/-- Nor do the interception points, -/
theorem interceptionOf_withTags (h : Reordered c tags) (turretRot : FRotator K) :
    interceptionOf L (c.withTags tags) a turretRot = interceptionOf L c a turretRot := by
  funext t
  rw [interceptionOf, interceptionOf, determinedType_withTags h]
  rfl

/-- nor which targets are accepted. -/
theorem acceptable_withTags (h : Reordered c tags) (turretRot : FRotator K) :
    acceptable L (c.withTags tags) a turretRot = acceptable L c a turretRot := by
  funext t
  rw [acceptable, acceptable, interceptionOf_withTags h]
  rfl

variable [DecidableEq α] [FloorRing K]

/-- A selection is one for the other order too. -/
theorem selection_withTags (h : Reordered c tags)
    (hselect : Selection L (c.withTags tags) w a w₁) : Selection L c w a w₁ := by
  have hremaining : remainingTargets L (c.withTags tags) a (w.turret a) =
      remainingTargets L c a (w.turret a) := by
    rw [remainingTargets, remainingTargets, acceptable_withTags h]
  have hrejected : rejectedTargets L (c.withTags tags) a (w.turret a) =
      rejectedTargets L c a (w.turret a) := by
    rw [rejectedTargets, rejectedTargets, acceptable_withTags h]
  obtain ⟨hother, hspawning, hrotation, hactive, hcurrent, haim, hbindings, hflag⟩ := hselect
  rw [hremaining] at hactive hcurrent
  rw [hrejected] at hflag
  simp only [hrejected] at hbindings
  refine ⟨hother, hspawning, hrotation, hactive, ?_, fun t ht => ?_, hbindings, hflag⟩
  · rw [hcurrent, currentOf, currentOf, determinedType_withTags h]
  · rw [haim t ht, interceptionOf_withTags h]
    rfl

variable [DecidableEq ι]

/-- The selection does not depend on the order. -/
theorem determineNewTarget_withTags (hwf : (w.turret a).WellFormed L) (h : Reordered c tags)
    (hne : (w.turret a).activeTargets ≠ []) :
    determineNewTarget L (c.withTags tags) w a = determineNewTarget L c w a := by
  obtain ⟨w₁, hw₁, hselect⟩ := determineNewTarget_wellFormed (c := c) hwf hne
  obtain ⟨w₂, hw₂, hselect'⟩ := determineNewTarget_wellFormed (c := c.withTags tags) hwf hne
  have htargets : (w.turret a).targets ≠ [] := by
    intro hnil
    rw [ATurret.activeTargets_eq hwf.notNull, hnil] at hne
    exact hne rfl
  rw [hw₁, hw₂, selection_unique htargets hselect (selection_withTags h hselect')]

/-- Nor does an admission. -/
theorem onBeginOverlap_withTags (h : Reordered c tags) (otherActor : Option α) :
    onBeginOverlap L (c.withTags tags) w a otherActor = onBeginOverlap L c w a otherActor := by
  cases otherActor with
  | none => rfl
  | some t =>
      have htags : (L.targetableTags a).hasAnyExact ((c.withTags tags).targetTags t) =
          (L.targetableTags a).hasAnyExact (c.targetTags t) :=
        (h.perm t).any_eq
      simp only [onBeginOverlap, htags]
      rfl

variable {trace : List (Transition (World ι α K) (Event ι α K))}

/-- **The order of the tags decides nothing else.** In every reachable state,
the handler of an event does the same if the tags of the targets come in another
order, provided `DetermineTargetType` logs no error for a target. -/
theorem handle_withTags (hinit : Initial w₀) (hrun : Run (Step L) w₀ trace w) (e : Event ι α K)
    (h : Reordered e.scene tags) :
    handle L w (e.inScene (e.scene.withTags tags)) = handle L w e := by
  have hwf := wellFormed_run hinit hrun
  cases e with
  | beginOverlap c a otherActor k => exact onBeginOverlap_withTags h otherActor
  | endOverlap c a otherActor k => rfl
  | death c t => rfl
  | tick c a =>
      simp only [handle, Event.inScene, Event.scene, tick]
      split_ifs with hempty hkey
      · rfl
      · have hne : (w.turret a).activeTargets ≠ [] := fun hnil => hempty (by simp [hnil])
        rw [determineNewTarget_withTags (c := c) (hwf a) h hne]
        rfl
      · rfl
  | spawned c => rfl

end TagOrder

section Alley

attribute [local instance] atan2Engine

/-- Actor 1 is selected all the same if it names its type first. -/
theorem handle_withTags_alley : handle alley alleyOne
    (.tick (alleyScene.withTags fun t => (alleyScene.targetTags t).reverse) 0) =
      handle alley alleyOne (.tick alleyScene 0) := by
  obtain ⟨trace, hrun⟩ := alleyOne_run
  refine handle_withTags alleyStart_initial hrun (.tick alleyScene 0)
    ⟨fun t => List.reverse_perm _, fun t => ?_⟩
  simp only [Event.scene, alleyScene]
  split_ifs <;> decide

end Alley

end TurretMaster

import TurretMaster.Engine

/-!
# Targets: gameplay tags and target data

Gameplay tags are dot-separated names in a tree; a tag is kept as the list of
its parts, the empty list being the empty tag.
-/

namespace TurretMaster

/-- A gameplay tag by the parts of its name; `FGameplayTag()` has none. -/
structure FGameplayTag where
  parts : List String
deriving DecidableEq

namespace FGameplayTag

/-- `FGameplayTag()`, the empty tag. -/
def empty : FGameplayTag := ⟨[]⟩

/-- The tag or one of its parents is `tagToCheck`; an empty `tagToCheck`
matches nothing. -/
def matchesTag (tag tagToCheck : FGameplayTag) : Bool :=
  tagToCheck ≠ empty && tagToCheck.parts.isPrefixOf tag.parts

/-- `FGameplayTag::MatchesTagExact`. -/
def matchesTagExact (tag tagToCheck : FGameplayTag) : Bool :=
  tagToCheck ≠ empty && tag = tagToCheck

/-- The empty tag is below no tag. -/
theorem ne_empty_of_matchesTag {tag tagToCheck : FGameplayTag}
    (h : tag.matchesTag tagToCheck = true) : tag ≠ empty := by
  rintro rfl
  obtain ⟨parts⟩ := tagToCheck
  cases parts <;> simp [matchesTag, empty] at h

end FGameplayTag

/-- `FGameplayTagContainer`, in iteration order. -/
abbrev FGameplayTagContainer := List FGameplayTag

/-- Some tag of `tags` stands, exactly, in `container`. -/
def FGameplayTagContainer.hasAnyExact
    (container tags : FGameplayTagContainer) : Bool :=
  tags.any (fun tag => container.contains tag)

namespace TMGameplayTags

/-- `TargetType`. -/
def targetType : FGameplayTag := ⟨["TargetType"]⟩

/-- `TargetType.Projectile.Gravity`. -/
def targetTypeProjectileGravity : FGameplayTag :=
  ⟨["TargetType", "Projectile", "Gravity"]⟩

/-- `TargetType.Projectile.NoGravity`. -/
def targetTypeProjectileNoGravity : FGameplayTag :=
  ⟨["TargetType", "Projectile", "NoGravity"]⟩

/-- `TargetType.Stationary`. -/
def targetTypeStationary : FGameplayTag := ⟨["TargetType", "Stationary"]⟩

/-- `Target.Enemy`. -/
def targetEnemy : FGameplayTag := ⟨["Target", "Enemy"]⟩

end TMGameplayTags

/-- What a target reports for movement prediction. -/
structure FTargetData (K : Type) where
  location : FVector K
  velocity : FVector K

end TurretMaster

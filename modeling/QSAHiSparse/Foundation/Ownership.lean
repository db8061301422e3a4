import Mathlib.Logic.ExistsUnique
import Mathlib.Tactic.Common

namespace QSAHiSparse
namespace Foundation

/-!
# Sole ownership

Resources are opened, handed from holder to holder, and closed.  Ownership is
sole when only open resources are held and every open one has exactly one
holder.  Each rule below is about an update of one resource: what it asks is
that everything else stays as it was.
-/

variable {η ρ : Type}

structure SoleOwner (isOpen : ρ -> Prop) (holds : η -> ρ -> Prop) : Prop where
  held_open : forall holder resource, holds holder resource -> isOpen resource
  unique : forall resource, isOpen resource -> ∃! holder, holds holder resource

namespace SoleOwner

variable {isOpen isOpen' : ρ -> Prop} {holds holds' : η -> ρ -> Prop}

theorem eq_of_holds (owned : SoleOwner isOpen holds) {first second : η} {resource : ρ}
    (one : holds first resource) (other : holds second resource) : first = second :=
  (owned.unique resource (owned.held_open first resource one)).unique one other

theorem congr (owned : SoleOwner isOpen holds)
    (sameOpen : forall resource, isOpen' resource <-> isOpen resource)
    (sameHolds : forall holder resource, holds' holder resource <-> holds holder resource) :
    SoleOwner isOpen' holds' where
  held_open := by
    intro holder resource held
    exact (sameOpen resource).mpr (owned.held_open _ _ ((sameHolds _ _).mp held))
  unique := by
    intro resource opened
    simp only [sameHolds]
    exact owned.unique resource ((sameOpen resource).mp opened)

/-- A new resource is given to one holder. -/
theorem grant (owned : SoleOwner isOpen holds) (granted : ρ) (owner : η)
    (new : ¬ isOpen granted)
    (opens : forall resource, isOpen' resource <-> resource = granted ∨ isOpen resource)
    (gives : forall holder resource,
      holds' holder resource <-> (holder = owner ∧ resource = granted) ∨ holds holder resource) :
    SoleOwner isOpen' holds' where
  held_open := by
    intro holder resource held
    rcases (gives _ _).mp held with ⟨_, same⟩ | before
    · exact (opens resource).mpr (Or.inl same)
    · exact (opens resource).mpr (Or.inr (owned.held_open _ _ before))
  unique := by
    intro resource opened
    rcases (opens resource).mp opened with rfl | before
    · refine ⟨owner, (gives _ _).mpr (Or.inl ⟨rfl, rfl⟩), fun other held => ?_⟩
      rcases (gives _ _).mp held with ⟨same, _⟩ | held
      · exact same
      · exact absurd (owned.held_open _ _ held) new
    · rcases owned.unique resource before with ⟨holder, held, only⟩
      refine ⟨holder, (gives _ _).mpr (Or.inr held), fun other otherHeld => ?_⟩
      rcases (gives _ _).mp otherHeld with ⟨_, same⟩ | otherHeld
      · exact absurd (same ▸ before) new
      · exact only other otherHeld

/-- A held resource is handed to another holder. -/
theorem transfer (owned : SoleOwner isOpen holds) (former owner : η) {moved : ρ}
    (held : holds former moved)
    (moves : forall holder resource, holds' holder resource <->
      (holder = owner ∧ resource = moved) ∨ (resource ≠ moved ∧ holds holder resource)) :
    SoleOwner isOpen holds' where
  held_open := by
    intro holder resource holding
    rcases (moves _ _).mp holding with ⟨_, rfl⟩ | ⟨_, before⟩
    · exact owned.held_open _ _ held
    · exact owned.held_open _ _ before
  unique := by
    intro resource opened
    by_cases same : resource = moved
    · refine ⟨owner, (moves _ _).mpr (Or.inl ⟨rfl, same⟩), fun other holding => ?_⟩
      rcases (moves _ _).mp holding with ⟨equal, _⟩ | ⟨different, _⟩
      · exact equal
      · exact absurd same different
    · rcases owned.unique resource opened with ⟨holder, holding, only⟩
      refine ⟨holder, (moves _ _).mpr (Or.inr ⟨same, holding⟩), fun other otherHolding => ?_⟩
      rcases (moves _ _).mp otherHolding with ⟨_, equal⟩ | ⟨_, before⟩
      · exact absurd equal same
      · exact only other before

/-- A resource is closed and let go. -/
theorem release (owned : SoleOwner isOpen holds) (closed : ρ)
    (closes : forall resource, isOpen' resource <-> resource ≠ closed ∧ isOpen resource)
    (drops : forall holder resource,
      holds' holder resource <-> resource ≠ closed ∧ holds holder resource) :
    SoleOwner isOpen' holds' where
  held_open := by
    intro holder resource held
    rcases (drops _ _).mp held with ⟨different, before⟩
    exact (closes resource).mpr ⟨different, owned.held_open _ _ before⟩
  unique := by
    intro resource opened
    rcases (closes resource).mp opened with ⟨different, before⟩
    rcases owned.unique resource before with ⟨holder, held, only⟩
    refine ⟨holder, (drops _ _).mpr ⟨different, held⟩, fun other otherHeld => ?_⟩
    exact only other ((drops _ _).mp otherHeld).2

end SoleOwner

end Foundation
end QSAHiSparse

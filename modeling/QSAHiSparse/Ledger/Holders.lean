import QSAHiSparse.Ledger.Outcomes

namespace QSAHiSparse
namespace Ledger

open Foundation

/-!
# Held leases and their phases under the ledger's updates

Every update of the ledger is about one lease.  Each lemma says what the update
leaves of the other leases, or what can be concluded from a phase that is found
after it.
-/

variable {slots : QSAHiSparseSlots} {lease other : QSAHiSparseLease}

/-- Two held leases of one row are the same lease. -/
theorem held_unique (held : slots.Holds lease) (heldOther : slots.Holds other)
    (same : other.reqPoolIdx = lease.reqPoolIdx) : other = lease := by
  unfold QSAHiSparseSlots.Holds at held heldOther
  rw [same, held] at heldOther
  exact (Option.some.inj heldOther).symm

/-- A phase that is in neither list is not one that both permit. -/
theorem permits_disjoint {first second : List Phase} (permits : slots.Permits lease first)
    (others : slots.Permits lease second) (apart : forall phase, phase ∈ first -> phase ∉ second) :
    False := by
  rcases permits with ⟨_, phase, present, member⟩
  rcases others with ⟨_, phase', present', member'⟩
  rw [present] at present'
  cases present'
  exact apart phase member member'

/-- The phase of another held lease's row is not touched. -/
theorem setPhase_other {phase : Phase} {phases : List Phase} (held : slots.Holds lease)
    (different : other ≠ lease) (permits : slots.Permits other phases) :
    (slots.setPhase lease phase).Permits other phases := by
  have rows : other.reqPoolIdx ≠ lease.reqPoolIdx := fun same =>
    different (held_unique held permits.1 same)
  rcases permits with ⟨heldOther, current, present, member⟩
  refine ⟨heldOther, current, ?_, member⟩
  change (slots.phases.set lease.reqPoolIdx phase).get? other.reqPoolIdx = some current
  rw [Dict.get?_set_of_ne _ _ rows, present]

/-- A grant of a free row leaves the held leases alone. -/
theorem grant_holds {rest : List Nat} (free : slots.active.get? lease.reqPoolIdx = none)
    (held : slots.Holds other) : (slots.grant lease rest).Holds other := by
  have rows : other.reqPoolIdx ≠ lease.reqPoolIdx := by
    intro same
    unfold QSAHiSparseSlots.Holds at held
    rw [same, free] at held
    cases held
  change (slots.active.set lease.reqPoolIdx lease).get? other.reqPoolIdx = some other
  rw [Dict.get?_set_of_ne _ _ rows]
  exact held

theorem grant_permits {rest : List Nat} {phases : List Phase}
    (free : slots.active.get? lease.reqPoolIdx = none) (permits : slots.Permits other phases) :
    (slots.grant lease rest).Permits other phases := by
  have rows : other.reqPoolIdx ≠ lease.reqPoolIdx := by
    intro same
    have held := permits.1
    unfold QSAHiSparseSlots.Holds at held
    rw [same, free] at held
    cases held
  rcases permits with ⟨held, current, present, member⟩
  refine ⟨grant_holds free held, current, ?_, member⟩
  change (slots.phases.set lease.reqPoolIdx .prefill).get? other.reqPoolIdx = some current
  rw [Dict.get?_set_of_ne _ _ rows, present]

/-- A committed release leaves the leases of other rows alone. -/
theorem giveBack_holds (rows : other.reqPoolIdx ≠ lease.reqPoolIdx) (held : slots.Holds other) :
    (slots.giveBack lease).Holds other := by
  change (slots.active.erase lease.reqPoolIdx).get? other.reqPoolIdx = some other
  rw [Dict.get?_erase_of_ne _ rows]
  exact held

theorem giveBack_permits {phases : List Phase} (held : slots.Holds lease)
    (different : other ≠ lease) (permits : slots.Permits other phases) :
    (slots.giveBack lease).Permits other phases := by
  have rows : other.reqPoolIdx ≠ lease.reqPoolIdx := fun same =>
    different (held_unique held permits.1 same)
  rcases permits with ⟨heldOther, current, present, member⟩
  refine ⟨giveBack_holds rows heldOther, current, ?_, member⟩
  change (slots.phases.erase lease.reqPoolIdx).get? other.reqPoolIdx = some current
  rw [Dict.get?_erase_of_ne _ rows, present]

/-- Leaving the lane changes neither the held leases nor their phases. -/
theorem leaveLane_permits {phases : List Phase} :
    (slots.leaveLane lease).Permits other phases <-> slots.Permits other phases := by
  unfold QSAHiSparseSlots.leaveLane
  by_cases owner : slots.prefillOwner = some lease
  · rw [if_pos owner]
    exact Iff.rfl
  · rw [if_neg owner]

theorem leaveLane_holds :
    (slots.leaveLane lease).Holds other <-> slots.Holds other := by
  unfold QSAHiSparseSlots.leaveLane
  by_cases owner : slots.prefillOwner = some lease
  · rw [if_pos owner]
    exact Iff.rfl
  · rw [if_neg owner]

/-- A phase found after a change of phase is the new one, or the one another
lease had before. -/
theorem setPhase_cases {phase : Phase} {phases : List Phase} (held : slots.Holds lease)
    (permits : (slots.setPhase lease phase).Permits other phases) :
    (other = lease ∧ phase ∈ phases) ∨ (other ≠ lease ∧ slots.Permits other phases) := by
  rcases permits with ⟨heldOther, current, present, member⟩
  change (slots.phases.set lease.reqPoolIdx phase).get? other.reqPoolIdx = some current at present
  by_cases same : other.reqPoolIdx = lease.reqPoolIdx
  · rw [same, Dict.get?_set_self] at present
    cases present
    exact Or.inl ⟨held_unique held heldOther same, member⟩
  · rw [Dict.get?_set_of_ne _ _ same] at present
    refine Or.inr ⟨?_, heldOther, current, present, member⟩
    rintro rfl
    exact same rfl

/-- A lease found after a grant is the granted one or was held before. -/
theorem grant_holds_cases {rest : List Nat} (held : (slots.grant lease rest).Holds other) :
    other = lease ∨ (other.reqPoolIdx ≠ lease.reqPoolIdx ∧ slots.Holds other) := by
  change (slots.active.set lease.reqPoolIdx lease).get? other.reqPoolIdx = some other at held
  by_cases same : other.reqPoolIdx = lease.reqPoolIdx
  · rw [same, Dict.get?_set_self] at held
    exact Or.inl (Option.some.inj held).symm
  · rw [Dict.get?_set_of_ne _ _ same] at held
    exact Or.inr ⟨same, held⟩

/-- A phase found after a grant is the prefill of the granted lease, or one from
before. -/
theorem grant_cases {rest : List Nat} {phases : List Phase}
    (permits : (slots.grant lease rest).Permits other phases) :
    (other = lease ∧ Phase.prefill ∈ phases) ∨ slots.Permits other phases := by
  rcases permits with ⟨held, current, present, member⟩
  change (slots.phases.set lease.reqPoolIdx .prefill).get? other.reqPoolIdx = some current
    at present
  rcases grant_holds_cases held with rfl | ⟨rows, before⟩
  · rw [Dict.get?_set_self] at present
    cases present
    exact Or.inl ⟨rfl, member⟩
  · rw [Dict.get?_set_of_ne _ _ rows] at present
    exact Or.inr ⟨before, current, present, member⟩

/-- A lease found after a committed release was held before, in another row. -/
theorem giveBack_holds_cases (held : (slots.giveBack lease).Holds other) :
    other.reqPoolIdx ≠ lease.reqPoolIdx ∧ slots.Holds other := by
  change (slots.active.erase lease.reqPoolIdx).get? other.reqPoolIdx = some other at held
  rw [Dict.get?_erase] at held
  by_cases same : other.reqPoolIdx = lease.reqPoolIdx
  · rw [if_pos same] at held
    cases held
  · rw [if_neg same] at held
    exact ⟨same, held⟩

theorem giveBack_cases {phases : List Phase}
    (permits : (slots.giveBack lease).Permits other phases) :
    other.reqPoolIdx ≠ lease.reqPoolIdx ∧ slots.Permits other phases := by
  rcases permits with ⟨held, current, present, member⟩
  rcases giveBack_holds_cases held with ⟨rows, before⟩
  change (slots.phases.erase lease.reqPoolIdx).get? other.reqPoolIdx = some current at present
  rw [Dict.get?_erase_of_ne _ rows] at present
  exact ⟨rows, before, current, present, member⟩

end Ledger
end QSAHiSparse

import QSAHiSparse.Coordinator.Staging
import QSAHiSparse.Ledger.Stale
import QSAHiSparse.Runtime.PendingReleases

namespace QSAHiSparse
namespace Coordinator

open Foundation
open Ledger
open QSAHiSparse.Runtime

/-!
# Leases that were handed off

A handoff that returns takes a lease from its prefill to its decode.  A lease is
granted once, so no later handoff returns it again.
-/

/-! ## The lease afterwards -/

/-- The lease was granted and is past its handoff; while it is held, its request
is in the table. -/
structure Handed (lease : QSAHiSparseLease) (state : Tenancy) : Prop where
  recorded : Recorded state.slots lease
  past : ¬ state.slots.Permits lease [.prefill, .copying]
  listed : state.slots.Holds lease -> state.requests.get? lease.reqPoolIdx = some lease

namespace Handed

variable {lease : QSAHiSparseLease} {state after : Tenancy}

theorem of_ready (valid : state.Valid) (ready : state.slots.Permits lease [.hostReady])
    (found : state.requests.get? lease.reqPoolIdx = some lease) : Handed lease state where
  recorded := by
    unfold Recorded
    rw [(valid.ledger.own_entry _ lease ready.1).2]
    exact Int.le_refl _
  past early := permits_disjoint early ready (by decide)
  listed _ := found

/-- A lease that was granted is not granted again. -/
theorem held_before {change : Change} (recorded : Recorded state.slots lease)
    (step : Tenancy.Step state change after) (held : after.slots.Holds lease) :
    state.slots.Holds lease := by
  cases step with
  | granted changed rest real positive named free newer unowned slots =>
      rcases grant_holds_cases held with rfl | ⟨_, before⟩
      · exact absurd recorded (Int.not_le.mpr newer)
      · exact before
  | drained changed ready found unmarked =>
      have stays : ((state.slots.setPhase changed .releasing).leaveLane changed).Holds lease := held
      have before : (state.slots.setPhase changed .releasing).Holds lease :=
        leaveLane_holds.mp stays
      exact before
  | committed changed ready closed => exact (giveBack_holds_cases held).2
  | _ => exact held

/-- Every change keeps it. -/
theorem step {change : Change} (handed : Handed lease state)
    (step : Tenancy.Step state change after) : Handed lease after := by
  refine ⟨?_, fun early => ?_, fun held => ?_⟩
  · exact Int.le_trans handed.recorded (step.move.lastGeneration_mono lease.reqPoolIdx)
  · rcases step.phase_cases early with before | ⟨phase, inside, sets⟩
    · exact handed.past before
    · cases step with
      | granted changed rest real positive named free newer unowned slots =>
          cases sets
          exact absurd handed.recorded (Int.not_le.mpr newer)
      | copying changed ready owner =>
          cases sets
          rcases ready with ⟨held, phase, present, member⟩
          exact handed.past ⟨held, phase, present, List.mem_cons.mpr
            (Or.inl (List.mem_singleton.mp member))⟩
      | enlisted => cases sets
      | marked => cases sets
      | settled => cases sets
      | committed => cases sets
      | deferred => cases sets
      | popped => cases sets
      | grouped => cases sets
      | _ =>
          cases sets
          exact absurd inside (by decide)
  · have before := held_before handed.recorded step held
    have found := handed.listed before
    cases step with
    | enlisted changed heldChanged =>
        change (state.requests.set changed.reqPoolIdx changed).get? lease.reqPoolIdx = some lease
        rw [Dict.get?_set]
        by_cases same : lease.reqPoolIdx = changed.reqPoolIdx
        · rw [if_pos same, held_unique heldChanged before same]
        · rw [if_neg same]
          exact found
    | committed changed ready closed =>
        change (state.requests.erase changed.reqPoolIdx).get? lease.reqPoolIdx = some lease
        rw [Dict.get?_erase_of_ne _ (giveBack_holds_cases held).1]
        exact found
    | _ => exact found

end Handed

/-- The tenancy is a valid one, and these leases were handed off. -/
structure Settled (leases : List QSAHiSparseLease) (state : Tenancy) : Prop where
  valid : state.Valid
  handed : forall lease, lease ∈ leases -> Handed lease state

theorem Settled.step {leases : List QSAHiSparseLease} {state after : Tenancy} {change : Change}
    (settled : Settled leases state) (step : Tenancy.Step state change after) :
    Settled leases after :=
  ⟨settled.valid.step step, fun lease member => (settled.handed lease member).step step⟩

/-! ## The handoff -/

section Handoff

variable {δ : Type} (machine : Machine δ) (config : Config)

/-- The last step of a handoff that writes the ledger. -/
theorem finishStaging_ready (lease : QSAHiSparseLease) (runtime : QSAHiSparseRuntime δ) :
    Leaves (fun _ after => after.slots.Permits lease [.hostReady]) (fun _ _ => True)
      ((finishStaging machine lease).run runtime) := by
  have anywhere {α : Type} (program : Method (QSAHiSparseRuntime δ) α) :
      Preserves (fun _ => True) program := by
    intro state _
    cases program.run state <;> trivial
  have finishes : Ensures (fun _ => True)
      (finishHandoff ledger lease (some (device.zoom (machine.ask .handoffQuery))) :
        Method (QSAHiSparseRuntime δ) PUnit)
      (fun _ after => after.slots.Permits lease [.hostReady]) (fun _ _ => True) := by
    intro state _
    have quiet : forall query, some (device.zoom (machine.ask .handoffQuery)) = some query ->
        Quiet ledger query := by
      intro query same
      cases same
      apply Keeps.of_leaves
      intro here
      apply (device.leaves_zoom _ _).mpr
      cases (machine.ask .handoffQuery).run (device.get here) <;> exact rfl
    apply (finishHandoff_outcome lease ledger _ quiet state).mono
    · rintro _ after ⟨⟨permits, _⟩, same⟩
      change after.slots = _ at same
      rw [same]
      exact permits.1.setPhase_permits .hostReady
    · exact fun _ _ _ => trivial
  unfold finishStaging
  refine Ensures.bind (anywhere _) (fun done => ?_) runtime trivial
  refine Ensures.bind (anywhere _) fun _ => ?_
  refine Ensures.bind (anywhere _) fun _ => ?_
  refine Ensures.bind finishes fun _ => ?_
  exact fun state ready => ready

/-- A handoff that returns found its lease in prefill and leaves it ready. -/
theorem handoffBody_ready (reqIdx : Int) (rid : String) (runtime : QSAHiSparseRuntime δ) :
    Leaves
      (fun handed after => runtime.requests.get? reqIdx = some handed.1 ∧ handed.1.rid = rid ∧
        runtime.slots.Permits handed.1 [.prefill] ∧ after.slots.Permits handed.1 [.hostReady])
      (fun _ _ => True) ((handoffBody machine config reqIdx rid).run runtime) := by
  have anywhere {α : Type} (program : Method (QSAHiSparseRuntime δ) α) :
      Preserves (fun _ => True) program := by
    intro state _
    cases program.run state <;> trivial
  unfold handoffBody
  apply (Leaves.bind_iff _ _ _).mpr
  apply ((request_leaves reqIdx rid runtime).and (request_matches reqIdx rid runtime)).mono
  · rintro lease here ⟨⟨rfl, found, _⟩, _, named, _⟩
    apply (Leaves.bind_iff _ _ _).mpr
    apply (Leaves.get_iff _).mpr
    apply (Leaves.bind_iff _ _ _).mpr
    apply (device_leaves (machine.outside .availableSize) here).mono
    · rintro _ _ ⟨next, rfl⟩
      apply (Leaves.bind_iff _ _ _).mpr
      apply (ledger.leaves_zoom _ _).mpr
      apply Leaves.mono (beginHandoff_outcome here.slots lease)
      · rintro _ slots ⟨⟨permits, _⟩, rfl⟩
        have rest : Ensures (fun _ => True) (do
            device.zoom (machine.outside .eventLog)
            handoffLayers machine config lease (here.caches lease).seqLen
            let done <- finishStaging machine lease
            snapshotLease machine config
            let same <- device.zoom (machine.ask .indexOwnership)
            raiseIf (same = false)
              (.assertionError "QSA P2 handoff changed logical index ownership")
            device.zoom (machine.outside .eventLog)
            return (lease, done))
            (fun handed after => here.requests.get? reqIdx = some handed.1 ∧ handed.1.rid = rid ∧
              here.slots.Permits handed.1 [.prefill] ∧ after.slots.Permits handed.1 [.hostReady])
            (fun _ _ => True) := by
          have ready : HostOnly fun runtime : QSAHiSparseRuntime δ =>
              runtime.slots.Permits lease [.hostReady] := fun _ _ stays => stays
          have steady := ready.steady machine
          refine Ensures.bind (anywhere _) fun _ => ?_
          refine Ensures.bind (anywhere _) fun _ => ?_
          refine Ensures.bind (fun state _ => finishStaging_ready machine lease state) fun done => ?_
          refine Ensures.bind (fun state stays => (steady.snapshotLease state stays).mono
            (fun _ _ kept => kept) fun _ _ _ => trivial) fun _ => ?_
          refine Ensures.bind (fun state stays => (steady.ask _ state stays).mono
            (fun _ _ kept => kept) fun _ _ _ => trivial) fun same => ?_
          refine Ensures.bind (fun state stays => (Preserves.raiseIf _ _ state stays).mono
            (fun _ _ kept => kept) fun _ _ _ => trivial) fun _ => ?_
          refine Ensures.bind (fun state stays => (steady.outside _ state stays).mono
            (fun _ _ kept => kept) fun _ _ _ => trivial) fun _ => ?_
          exact fun state stays => ⟨found, named, permits, stays⟩
        exact rest _ trivial
      · exact fun _ _ _ => trivial
    · exact fun _ _ _ => trivial
  · exact fun _ _ _ => trivial

theorem handoff_ready (reqIdx : Int) (rid : String) (runtime : QSAHiSparseRuntime δ) :
    Leaves
      (fun handed after => runtime.requests.get? reqIdx = some handed.1 ∧ handed.1.rid = rid ∧
        runtime.slots.Permits handed.1 [.prefill] ∧ after.slots.Permits handed.1 [.hostReady])
      (fun _ _ => True) ((handoff machine config reqIdx rid).run runtime) := by
  unfold handoff
  apply (Leaves.bind_iff _ _ _).mpr
  apply (request_leaves reqIdx rid runtime).mono
  · rintro lease here ⟨rfl, _, _⟩
    apply (Leaves.exceptException_iff _ _ _).mpr
    apply (handoffBody_ready machine config reqIdx rid here).mono
    · exact fun _ _ handed => handed
    · refine fun cause after _ => ⟨fun _ => ?_, fun _ => trivial⟩
      apply (Leaves.bind_iff _ _ _).mpr
      cases (handoffFailed machine lease).run after with
      | ok value last => exact trivial
      | error cause last => exact trivial
  · exact fun _ _ _ => trivial

/-- The same, between invariants: other leases stay handed off, and the lease
returned is not one of them and is now. -/
theorem handoff_settled (leases : List QSAHiSparseLease) (reqIdx : Int) (rid : String)
    {runtime : QSAHiSparseRuntime δ} (idle : Idle (Settled leases) runtime) :
    Leaves
      (fun handed after => Idle (Settled (leases ++ [handed.1])) after ∧ handed.1 ∉ leases ∧
        handed.1.reqPoolIdx = reqIdx ∧ handed.1.rid = rid)
      (fun _ after => Idle (Settled leases) after)
      ((handoff machine config reqIdx rid).run runtime) := by
  have kept := @handoff_idle δ machine config
    (fun state => Settled leases state ∧ state.requests = runtime.requests) reqIdx rid runtime
    (fun lease found => by
      rintro change before after allowed ⟨settled, same⟩ step
      refine ⟨settled.step step, ?_⟩
      rcases allowed with rfl | rfl | rfl
      · cases step
        exact same
      · cases step
        exact same
      · cases step
        exact same) ⟨⟨idle.1, rfl⟩, idle.2⟩
  apply (kept.and (handoff_ready machine config reqIdx rid runtime)).mono
  · rintro handed after ⟨⟨⟨settled, same⟩, unset⟩, found, named, prefill, ready⟩
    have owner := (idle.1.valid.owned reqIdx handed.1 found).1
    have fresh : handed.1 ∉ leases := by
      intro member
      apply (idle.1.handed handed.1 member).past
      rcases prefill with ⟨held, phase, present, inside⟩
      exact ⟨held, phase, present, List.mem_cons.mpr (Or.inl (List.mem_singleton.mp inside))⟩
    refine ⟨⟨⟨settled.valid, fun lease member => ?_⟩, unset⟩, fresh, owner, named⟩
    rcases List.mem_append.mp member with old | new
    · exact settled.handed lease old
    · rw [List.mem_singleton.mp new]
      apply Handed.of_ready settled.valid ready
      rw [same, owner]
      exact found
  · exact fun _ after both => ⟨both.1.1.1, both.1.2⟩

end Handoff

end Coordinator
end QSAHiSparse

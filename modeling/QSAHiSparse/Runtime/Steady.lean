import QSAHiSparse.Runtime.Release

namespace QSAHiSparse
namespace Runtime

open Foundation
open Ledger

/-!
# Programs that only wait, ask and compute

Most of what a forward does makes device calls that queue no copy, checks, and
writes nothing of the runtime.  Such a program preserves whatever these calls
preserve, on any machine.
-/

section Requests

variable {δ : Type} (reqIdx : Int) (rid : String)

theorem request_reads : Reads (request reqIdx rid : Method (QSAHiSparseRuntime δ) _) := by
  apply Reads.of_preserves
  intro start
  unfold request
  refine Preserves.get_bind fun self => ?_
  refine Preserves.bind (Preserves.getItem _ _) fun lease => ?_
  refine Preserves.bind (Reads.zoom (require_reads lease [])).preserves fun _ => ?_
  exact Preserves.bind (Preserves.raiseIf _ _) fun _ => Preserves.pure lease

/-- The lease returned is the one of the row's cache, and is held. -/
theorem request_leaves (runtime : QSAHiSparseRuntime δ) :
    Leaves
      (fun lease after => after = runtime ∧ runtime.requests.get? reqIdx = some lease ∧
        runtime.slots.Holds lease)
      (fun _ after => after = runtime) ((request reqIdx rid).run runtime) := by
  unfold request
  apply (Leaves.bind_iff _ _ _).mpr
  apply (Leaves.get_iff _).mpr
  apply (Leaves.bind_iff _ _ _).mpr
  apply (Leaves.getItem_iff _ _ _).mpr
  refine ⟨fun _ => rfl, fun lease found => ?_⟩
  apply (Leaves.bind_iff _ _ _).mpr
  apply (ledger.leaves_zoom _ _).mpr
  apply Leaves.mono (require_checks runtime.slots lease [])
  · rintro _ slots ⟨⟨held, _⟩, rfl⟩
    apply (Leaves.bind_iff _ _ _).mpr
    apply (Leaves.raiseIf_iff _ _ _).mpr
    exact ⟨fun _ => rfl, fun _ => ⟨rfl, found, held⟩⟩
  · rintro _ slots ⟨_, rfl⟩
    rfl

/-- The request that is returned is the row's. -/
theorem request_matches (runtime : QSAHiSparseRuntime δ) :
    Leaves
      (fun value _ => runtime.requests.get? reqIdx = some value ∧ value.rid = rid ∧
        value.generation = runtime.reqGeneration reqIdx)
      (fun _ after => after = runtime) ((request reqIdx rid).run runtime) := by
  unfold request
  apply (Leaves.bind_iff _ _ _).mpr
  apply (Leaves.get_iff _).mpr
  apply (Leaves.bind_iff _ _ _).mpr
  apply (Leaves.getItem_iff _ _ _).mpr
  refine ⟨fun _ => rfl, fun found present => ?_⟩
  apply (Leaves.bind_iff _ _ _).mpr
  apply (ledger.leaves_zoom _ _).mpr
  apply Leaves.mono (require_checks runtime.slots found [])
  · rintro _ slots ⟨_, rfl⟩
    apply (Leaves.bind_iff _ _ _).mpr
    apply (Leaves.raiseIf_iff _ _ _).mpr
    refine ⟨fun _ => rfl, fun same => ?_⟩
    push Not at same
    exact ⟨present, same⟩
  · rintro _ slots ⟨_, rfl⟩
    rfl

variable {reqIdx rid}

theorem request_returns {runtime : QSAHiSparseRuntime δ} {lease : QSAHiSparseLease}
    (found : runtime.requests.get? reqIdx = some lease) (named : lease.rid = rid)
    (current : lease.generation = runtime.reqGeneration reqIdx)
    (held : runtime.slots.Holds lease) :
    Leaves (fun value after => value = lease ∧ after = runtime) (fun _ _ => False)
      ((request reqIdx rid).run runtime) := by
  unfold request
  apply (Leaves.bind_iff _ _ _).mpr
  apply (Leaves.get_iff _).mpr
  apply (Leaves.bind_iff _ _ _).mpr
  apply (Leaves.getItem_iff _ _ _).mpr
  constructor
  · intro absent
    rw [found] at absent
    cases absent
  intro other present
  rw [found] at present
  cases present
  apply (Leaves.bind_iff _ _ _).mpr
  apply (ledger.leaves_zoom _ _).mpr
  apply Leaves.mono (require_checks runtime.slots lease [])
  · rintro _ slots ⟨_, rfl⟩
    apply (Leaves.bind_iff _ _ _).mpr
    apply (Leaves.raiseIf_iff _ _ _).mpr
    constructor
    · exact fun changed => changed.elim (absurd named) (absurd current)
    · exact fun _ => ⟨rfl, rfl⟩
  · rintro _ slots ⟨refused, _⟩
    exact refused ⟨held, fun none => absurd rfl none⟩

variable (reqIdx rid)

/-- What requiring a lease shows. -/
theorem zoom_require_ensures {phases : List Phase} (asked : phases ≠ [])
    (lease : QSAHiSparseLease) {invariant : QSAHiSparseRuntime δ -> Prop} :
    Ensures invariant (ledger.zoom (require lease phases))
      (fun _ after => invariant after ∧ after.slots.Permits lease phases)
      (fun _ after => invariant after) := by
  intro runtime holds
  apply Leaves.mono (zoom_require_outcome lease ledger asked runtime)
  · rintro _ after ⟨permits, rfl⟩
    exact ⟨holds, permits⟩
  · rintro _ after ⟨_, rfl⟩
    exact holds

end Requests

section Steady

variable {δ : Type} {machine : Machine δ} {config : Config}
  {invariant : QSAHiSparseRuntime δ -> Prop}

/-- Every call that queues no copy preserves the invariant, returning or not. -/
structure Steady (machine : Machine δ) (invariant : QSAHiSparseRuntime δ -> Prop) : Prop where
  submit : forall site work,
    Preserves invariant (device.zoom (machine.submit site .compute work))
  record : forall site stream, Preserves invariant (device.zoom (machine.record site stream))
  waitEvent : forall site stream mark,
    Preserves invariant (device.zoom (machine.waitEvent site stream mark))
  synchronize : forall site mark,
    Preserves invariant (device.zoom (machine.synchronize site mark))
  drain : forall site stream, Preserves invariant (device.zoom (machine.drain site stream))
  outside : forall site, Preserves invariant (device.zoom (machine.outside site))
  ask : forall site, Preserves invariant (device.zoom (machine.ask site))

namespace Steady

variable (steady : Steady machine invariant)

include steady

/-! ## Batches and eager forwards -/

theorem checkGraphRow (graph : Bool) (lease : QSAHiSparseLease) :
    Preserves invariant (checkGraphRow machine config graph lease) := by
  unfold Runtime.checkGraphRow
  refine Preserves.ite (fun _ => ?_) (fun _ => Preserves.pure PUnit.unit)
  refine Preserves.get_bind fun self => ?_
  refine Preserves.bind (Preserves.raiseIf _ _) fun _ => ?_
  exact Preserves.bind (steady.ask _) fun same => Preserves.raiseIf _ _

theorem checkDeviceRows : Preserves invariant (checkDeviceRows machine config) := by
  unfold Runtime.checkDeviceRows
  refine Preserves.ite (fun _ => ?_) (fun _ => Preserves.pure PUnit.unit)
  exact Preserves.bind (steady.ask _) fun same => Preserves.raiseIf _ _

theorem logBatch (decode : Bool) (states : List QSAHiSparseLease) :
    Preserves invariant (logBatch machine decode states) := by
  unfold Runtime.logBatch
  refine Preserves.get_bind fun self => ?_
  refine Preserves.bind (Preserves.forEach _ fun lease _ => ?_) fun _ => steady.outside _
  exact Preserves.bind (Reads.zoom (ringWriteLocation_reads lease _)).preserves fun _ =>
    Preserves.pure PUnit.unit

theorem storeKv (li : Nat) : Preserves invariant (storeKv machine config li) := by
  unfold Runtime.storeKv
  refine Preserves.get_bind fun self => ?_
  refine Preserves.bind (Preserves.raiseIf _ _) fun _ => ?_
  exact Preserves.forEach _ fun lease _ => steady.submit _ _

theorem waitFor (site : Site) (stream : Stream) (event : Option Event) :
    Preserves invariant (waitFor machine site stream event) := by
  unfold Runtime.waitFor
  refine Preserves.get_bind fun self => ?_
  split
  · exact Preserves.pure PUnit.unit
  · exact steady.waitEvent _ _ _

theorem recordBegin : Preserves invariant (recordBegin machine config) := by
  unfold Runtime.recordBegin
  refine Preserves.ite (fun _ => ?_) (fun _ => Preserves.pure PUnit.unit)
  exact Preserves.bind (steady.record _ _) fun _ => Preserves.pure PUnit.unit

theorem selected (li rows : Nat) : Preserves invariant (selected machine li rows) := by
  unfold Runtime.selected
  refine Preserves.get_bind fun self => ?_
  refine Preserves.bind (Preserves.raiseIf _ _) fun _ => ?_
  refine Preserves.bind (Preserves.forEach _ fun lease _ => ?_) fun _ => ?_
  · unfold checkSelected
    refine Preserves.bind (request_reads _ _).preserves fun _ => ?_
    refine Preserves.bind (Reads.zoom (require_reads lease _)).preserves fun _ => ?_
    refine Preserves.get_bind fun self => ?_
    split
    · exact Preserves.throw _
    · exact Preserves.raiseIf _ _
  refine Preserves.bind (Preserves.forEach _ fun lease _ => ?_) fun _ => ?_
  · unfold waitSelected
    refine Preserves.get_bind fun self => ?_
    split
    · exact Preserves.throw _
    · exact steady.waitFor _ _ _
  · exact Preserves.forEach _ fun lease _ => steady.submit _ _

/-! ## Handoff -/

theorem checkChunk : Preserves invariant (checkChunk machine config) := by
  unfold Runtime.checkChunk
  refine Preserves.ite (fun _ => ?_) (fun _ => Preserves.pure PUnit.unit)
  exact Preserves.bind (steady.ask _) fun same => Preserves.raiseIf _ _

theorem handoffTail (lease : QSAHiSparseLease) (li : Nat) (promptLen : Int) :
    Preserves invariant (handoffTail machine lease li promptLen) := by
  unfold Runtime.handoffTail
  refine Preserves.ite (fun _ => ?_) (fun _ => Preserves.pure PUnit.unit)
  exact Preserves.bind (Reads.zoom (stagingSlice_reads lease _ _)).preserves fun _ =>
    steady.submit _ _

theorem snapshotLease : Preserves invariant (snapshotLease machine config) := by
  unfold Runtime.snapshotLease
  exact Preserves.ite (fun _ => steady.outside _) (fun _ => Preserves.pure PUnit.unit)

/-! ## Replays -/

theorem replayGraph : Preserves invariant (replayGraph machine config) := by
  unfold Runtime.replayGraph
  refine Preserves.get_bind fun self => ?_
  refine Preserves.forEach _ fun li _ => Preserves.forEach _ fun row _ => ?_
  unfold replayRow
  refine Preserves.bind (steady.submit _ _) fun _ => ?_
  refine Preserves.bind (Preserves.forEach _ fun block _ => steady.submit _ _) fun _ => ?_
  exact steady.submit _ _

theorem drainGraphStreams : Preserves invariant (drainGraphStreams machine) := by
  have attempted {program : Method (QSAHiSparseRuntime δ) PUnit}
      (preserves : Preserves invariant program) : Preserves invariant (attempt program) :=
    Preserves.tryCatch (Preserves.bind preserves fun _ => Preserves.pure none)
      fun error => Preserves.pure (some error)
  unfold Runtime.drainGraphStreams
  refine Preserves.bind (attempted (steady.drain _ _)) fun first => ?_
  refine Preserves.bind (attempted (steady.drain _ _)) fun second => ?_
  split
  · exact Preserves.throw _
  · exact Preserves.pure PUnit.unit

theorem checkBytes (site : Site) (message : String) :
    Preserves invariant (checkBytes machine site message) :=
  Preserves.bind (steady.ask _) fun _ => Preserves.raiseIf _ _

theorem checkCopied (closing : List (QSAHiSparseLease × Int)) :
    Preserves invariant (checkCopied machine closing) := by
  refine Preserves.bind ?_ fun _ => steady.outside _
  unfold checkCopies
  refine Preserves.get_bind fun self => ?_
  split
  · refine Preserves.bind (steady.synchronize _ _) fun _ => ?_
    exact Preserves.bind (steady.checkBytes _ _) fun _ => steady.outside _
  · exact Preserves.pure PUnit.unit

/-! ## Release -/

theorem synchronizeEvent (self : QSAHiSparseRuntime δ) (event : Event) :
    Preserves invariant (synchronizeEvent machine self event) := by
  unfold Runtime.synchronizeEvent
  split
  · exact Preserves.pure PUnit.unit
  · exact steady.synchronize _ _

end Steady

/-- What does not look at the device. -/
def HostOnly (invariant : QSAHiSparseRuntime δ -> Prop) : Prop :=
  forall runtime next, invariant runtime -> invariant { runtime with device := next }

/-- Any device program preserves it. -/
theorem HostOnly.device {α : Type} (hostOnly : HostOnly invariant) (program : Method δ α) :
    Preserves invariant (device.zoom program) := by
  intro runtime holds
  apply (Runtime.device.leaves_zoom program runtime).mpr
  cases program.run (Runtime.device.get runtime) with
  | ok value next => exact hostOnly runtime next holds
  | error cause next => exact hostOnly runtime next holds

/-- Any machine is steady for it. -/
theorem HostOnly.steady (hostOnly : HostOnly invariant) (machine : Machine δ) :
    Steady machine invariant where
  submit _ _ := hostOnly.device _
  record _ _ := hostOnly.device _
  waitEvent _ _ _ := hostOnly.device _
  synchronize _ _ := hostOnly.device _
  drain _ _ := hostOnly.device _
  outside _ := hostOnly.device _
  ask _ := hostOnly.device _

theorem strictly_preserves {program : Method (QSAHiSparseRuntime δ) PUnit}
    (preserves : Preserves invariant program) : Preserves invariant (strictly config program) :=
  Preserves.ite (fun _ => preserves) (fun _ => Preserves.pure PUnit.unit)

end Steady

end Runtime
end QSAHiSparse

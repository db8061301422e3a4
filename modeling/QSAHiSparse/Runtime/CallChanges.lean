import QSAHiSparse.Foundation.Calls
import QSAHiSparse.Runtime.Changes

namespace QSAHiSparse
namespace Runtime

open Foundation
open Ledger

/-!
# The changes of every call

A handoff, a replay and a release change the phase of leases between device
calls that may raise, so each is followed statement by statement.  The last
theorem collects what every call may change, and with it every reachable runtime
has a reachable tenancy.
-/

section Handoff

variable {δ : Type} (machine : Machine δ) {config : Config} {holds : Tenancy -> Prop}
  {lease : QSAHiSparseLease}

/-- The changes of a handoff. -/
def handoffChanges (lease : QSAHiSparseLease) (change : Change) : Prop :=
  change = .copying lease ∨ change = .staged lease ∨ change = .handoffFailed lease

theorem Idle.hostOnly (holds : Tenancy -> Prop) : HostOnly (Idle (δ := δ) holds) :=
  (idle_lasts (fun _ => True) holds).hostOnly

theorem finishStaging_idle (closed : Closed (handoffChanges lease) holds) :
    Preserves (Idle holds) (finishStaging machine lease) := by
  have lasts := idle_lasts (δ := δ) (fun _ => True) holds
  have steady := lasts.hostOnly.steady machine
  have finishes : Preserves (Idle holds)
      (finishHandoff ledger lease (some (device.zoom (machine.ask .handoffQuery)))) := by
    unfold finishHandoff
    refine Ensures.bind (zoom_require_ensures (by simp) lease) fun _ => ?_
    -- The query does not change the phase that the first check found.
    have both : HostOnly fun runtime : QSAHiSparseRuntime δ =>
        Idle holds runtime ∧ runtime.slots.Permits lease [.copying] :=
      fun runtime next both => ⟨lasts.hostOnly runtime next both.1, both.2⟩
    refine Preserves.andThen (both.device _) (fun _ _ both => both.1) fun completed => ?_
    refine Preserves.andThen (Preserves.raiseIf _ _) (fun _ _ both => both.1) fun _ => ?_
    rintro runtime ⟨⟨kept, none⟩, permits⟩
    apply (ledger.leaves_zoom _ _).mpr
    apply (Leaves.bind_iff _ _ _).mpr
    apply (Leaves.get_iff _).mpr
    apply (Leaves.bind_iff _ _ _).mpr
    apply (Leaves.raiseIf_iff _ _ _).mpr
    refine ⟨fun _ => ⟨kept, none⟩, fun owner => ?_⟩
    rw [not_not] at owner
    exact ⟨closed _ _ _ (Or.inr (Or.inl rfl)) kept (.staged lease permits owner), none⟩
  unfold finishStaging
  refine Preserves.bind (steady.record _ _) fun done => ?_
  refine Preserves.bind (steady.synchronize _ _) fun _ => ?_
  refine Preserves.bind (withCache_lasts lasts trivial _) fun _ => ?_
  exact Preserves.bind finishes fun _ => Preserves.pure done

theorem handoffBody_idle {reqIdx : Int} (rid : String) {runtime : QSAHiSparseRuntime δ}
    (found : runtime.requests.get? reqIdx = some lease)
    (closed : Closed (handoffChanges lease) holds) (idle : Idle holds runtime) :
    Leaves (fun _ => Idle holds) (fun _ => Idle holds)
      ((handoffBody machine config reqIdx rid).run runtime) := by
  have lasts := idle_lasts (δ := δ) (fun _ => True) holds
  have steady := lasts.hostOnly.steady machine
  have begins : Preserves (Idle holds)
      (ledger.zoom (beginHandoff lease) : Method (QSAHiSparseRuntime δ) PUnit) := by
    rintro runtime ⟨kept, none⟩
    apply (ledger.leaves_zoom _ _).mpr
    apply Leaves.mono (beginHandoff_outcome runtime.slots lease)
    · rintro _ slots ⟨⟨permits, owner, _⟩, rfl⟩
      rw [not_not] at owner
      exact ⟨closed _ _ _ (Or.inl rfl) kept (.copying lease permits owner), none⟩
    · rintro _ slots ⟨_, rfl⟩
      exact ⟨kept, none⟩
  have rest (promptLen : Int) : Preserves (Idle holds) (do
      device.zoom (machine.outside .availableSize)
      ledger.zoom (beginHandoff lease)
      device.zoom (machine.outside .eventLog)
      handoffLayers machine config lease promptLen
      let done <- finishStaging machine lease
      snapshotLease machine config
      let same <- device.zoom (machine.ask .indexOwnership)
      raiseIf (same = false) (.assertionError "QSA P2 handoff changed logical index ownership")
      device.zoom (machine.outside .eventLog)
      return (lease, done)) := by
    refine Preserves.bind (steady.outside _) fun _ => ?_
    refine Preserves.bind begins fun _ => ?_
    refine Preserves.bind (steady.outside _) fun _ => ?_
    refine Preserves.bind (handoffLayers_lasts machine lasts trivial promptLen) fun _ => ?_
    refine Preserves.bind (finishStaging_idle machine closed) fun done => ?_
    refine Preserves.bind steady.snapshotLease fun _ => ?_
    refine Preserves.bind (steady.ask _) fun same => ?_
    refine Preserves.bind (Preserves.raiseIf _ _) fun _ => ?_
    exact Preserves.bind (steady.outside _) fun _ => Preserves.pure _
  unfold handoffBody
  apply (Leaves.bind_iff _ _ _).mpr
  apply (request_leaves reqIdx rid runtime).mono
  · rintro other here ⟨rfl, again, _⟩
    rw [found] at again
    cases again
    apply (Leaves.bind_iff _ _ _).mpr
    apply (Leaves.get_iff _).mpr
    exact rest _ here idle
  · rintro cause here rfl
    exact idle

theorem handoff_idle (reqIdx : Int) (rid : String) {runtime : QSAHiSparseRuntime δ}
    (closed : forall lease, runtime.requests.get? reqIdx = some lease ->
      Closed (handoffChanges lease) holds) (idle : Idle holds runtime) :
    Leaves (fun _ => Idle holds) (fun _ => Idle holds)
      ((handoff machine config reqIdx rid).run runtime) := by
  have steady := (Idle.hostOnly (δ := δ) holds).steady machine
  unfold handoff
  apply (Leaves.bind_iff _ _ _).mpr
  apply (request_leaves reqIdx rid runtime).mono
  · rintro lease here ⟨rfl, found, held⟩
    -- The body never gives the lease back, so the handler still finds it held.
    have stays : Closed (handoffChanges lease) fun state =>
        holds state ∧ state.slots.Holds lease := by
      apply (closed lease found).and
      intro change before after allowed held step
      rcases allowed with rfl | rfl | rfl
      · cases step
        exact held
      · cases step
        exact held
      · cases step
        exact held
    have fails : Ensures (Idle fun state => holds state ∧ state.slots.Holds lease)
        (modify fun self : QSAHiSparseRuntime δ =>
          { self with slots := self.slots.setPhase lease .failed } :
            Method (QSAHiSparseRuntime δ) PUnit) (fun _ => Idle holds) (fun _ => Idle holds) := by
      rintro runtime ⟨⟨kept, heldHere⟩, none⟩
      exact ⟨closed lease found _ _ _ (Or.inr (Or.inr rfl)) kept (.handoffFailed lease heldHere),
        none⟩
    apply (Leaves.exceptException_iff _ _ _).mpr
    apply (handoffBody_idle machine rid found stays ⟨⟨idle.1, held⟩, idle.2⟩).mono
    · rintro _ after ⟨⟨kept, _⟩, none⟩
      exact ⟨kept, none⟩
    · rintro cause after handled
      refine ⟨fun _ => ?_, fun _ => ⟨handled.1.1, handled.2⟩⟩
      apply (Leaves.bind_iff _ _ _).mpr
      unfold handoffFailed
      apply (Leaves.tryFinally_iff _ _ _).mpr
      have drains := (Idle.hostOnly fun state => holds state ∧ state.slots.Holds lease).device
        (machine.drain .handoffDrain .copy) after handled
      have handles : Ensures (Idle fun state => holds state ∧ state.slots.Holds lease)
          (do
            modify fun self : QSAHiSparseRuntime δ =>
              { self with slots := self.slots.setPhase lease .failed }
            device.zoom (machine.outside .eventLog) : Method (QSAHiSparseRuntime δ) PUnit)
          (fun _ => Idle holds) (fun _ => Idle holds) :=
        Ensures.bind fails fun _ => steady.outside _
      apply drains.mono
      · exact fun _ last handled => handles last handled
      · exact fun _ last handled => handles last handled
  · rintro cause here rfl
    exact idle

end Handoff

section Release

variable {δ : Type} (machine : Machine δ) {config : Config} {holds : Tenancy -> Prop}

/-- The changes of a release. -/
def releaseChanges (lease : QSAHiSparseLease) (change : Change) : Prop :=
  change = .settled [lease] ∨ change = .interrupted lease ∨ change = .drainFailed lease ∨
    change = .drained lease

/-- The lease is not marked any more when this returns. -/
theorem drainFailedLease_idle {lease : QSAHiSparseLease}
    (closed : Closed (releaseChanges lease) holds) :
    Ensures (Idle holds) (drainFailedLease machine lease)
      (fun _ => Idle fun state => holds state ∧ lease ∉ state.failed)
      (fun _ => Idle (δ := δ) holds) := by
  have steady := (Idle.hostOnly (δ := δ) holds).steady machine
  intro runtime idle
  unfold drainFailedLease
  apply (Leaves.bind_iff _ _ _).mpr
  apply (Leaves.get_iff _).mpr
  by_cases marked : lease ∈ runtime.graphFailedLeases
  · rw [if_pos marked]
    apply (Leaves.bind_iff _ _ _).mpr
    apply (steady.drainGraphStreams runtime idle).mono
    · rintro _ after ⟨kept, none⟩
      have settled := closed _ _ _ (Or.inl rfl) kept (.settled [lease])
      have same : after.graphFailedLeases.filter (· ∉ [lease]) =
          after.graphFailedLeases.filter (· ≠ lease) := by
        simp only [List.mem_singleton, ne_eq]
      refine ⟨⟨?_, fun member => ?_⟩, none⟩
      · change holds { after.tenancy with failed := after.graphFailedLeases.filter (· ≠ lease) }
        rw [<- same]
        exact settled
      · have both := List.mem_filter.mp member
        exact absurd rfl (of_decide_eq_true both.2)
    · exact fun _ _ idle => idle
  · rw [if_neg marked]
    exact ⟨⟨idle.1, marked⟩, idle.2⟩

/-- The waits of a drain only wait. -/
theorem synchronizeAll_beside (self : QSAHiSparseRuntime δ) (terminal : Mark)
    (events : List Event) (start : QSAHiSparseRuntime δ) :
    Preserves (Beside start)
      (synchronizeAll (device.zoom (machine.synchronize .terminalSynchronize terminal))
        (events.map fun event => some (synchronizeEvent machine self event))) := by
  have steady := (beside_hostOnly start).steady machine
  unfold synchronizeAll
  refine Preserves.bind (steady.synchronize _ _) fun _ => ?_
  refine Preserves.forEach _ fun waiting member => ?_
  rcases List.mem_map.mp member with ⟨event, _, rfl⟩
  exact steady.synchronizeEvent self event

theorem drainLease_idle {lease : QSAHiSparseLease} (closed : Closed (releaseChanges lease) holds)
    (listed : forall state, holds state ->
      state.requests.get? lease.reqPoolIdx = some lease ∧ lease ∉ state.failed) :
    Preserves (Idle holds) (drainLease machine config lease) := by
  have steady := (Idle.hostOnly (δ := δ) holds).steady machine
  unfold drainLease
  refine Preserves.bind (Preserves.raiseIf _ _) fun _ => ?_
  refine Preserves.bind (steady.record _ _) fun terminal => ?_
  rintro runtime ⟨kept, none⟩
  apply (Leaves.bind_iff _ _ _).mpr
  apply (Leaves.get_iff _).mpr
  apply Ledger.drain_leaves
  · exact fun _ _ => ⟨kept, none⟩
  intro starts
  have waits := synchronizeAll_beside machine runtime terminal (runtime.caches lease).events
    { runtime with slots := runtime.slots.setPhase lease .releasing } _ (Beside.refl _)
  apply waits.mono
  · rintro _ last ⟨next, rfl⟩
    exact ⟨closed _ _ _ (Or.inr (Or.inr (Or.inr rfl))) kept
      (.drained lease starts.1 (listed _ kept).1 (listed _ kept).2), none⟩
  · rintro cause last ⟨next, rfl⟩
    constructor
    · intro _
      exact ⟨closed _ _ _ (Or.inr (Or.inr (Or.inl rfl))) kept (.drainFailed lease starts.1),
        none⟩
    · intro _
      exact ⟨closed _ _ _ (Or.inr (Or.inl rfl)) kept (.interrupted lease starts.1), none⟩

theorem release_idle (reqIdx : Int) (rid : String) {runtime : QSAHiSparseRuntime δ}
    (owned : forall lease, runtime.requests.get? reqIdx = some lease -> lease.reqPoolIdx = reqIdx)
    (closed : forall lease, runtime.requests.get? reqIdx = some lease ->
      Closed (releaseChanges lease) holds) (idle : Idle holds runtime) :
    Leaves (fun _ => Idle holds) (fun _ => Idle holds)
      ((release machine config reqIdx rid).run runtime) := by
  unfold release
  apply (Leaves.bind_iff _ _ _).mpr
  apply (Leaves.get_iff _).mpr
  by_cases absent : runtime.requests.contains reqIdx = false
  · rw [if_pos absent]
    apply (Leaves.bind_iff _ _ _).mpr
    apply (Leaves.raiseIf_iff _ _ _).mpr
    exact ⟨fun _ => idle, fun _ => idle⟩
  rw [if_neg absent]
  unfold releaseHeld
  apply (Leaves.bind_iff _ _ _).mpr
  apply (request_leaves reqIdx rid runtime).mono
  · rintro lease here ⟨rfl, found, _⟩
    have listed : here.tenancy.requests.get? lease.reqPoolIdx = some lease := by
      rw [owned lease found]
      exact found
    -- No change of a release touches the request table, or marks the lease.
    have stays : Closed (releaseChanges lease) fun state =>
        holds state ∧ state.requests.get? lease.reqPoolIdx = some lease := by
      apply (closed lease found).and
      intro change before after allowed listed step
      rcases allowed with rfl | rfl | rfl | rfl
      · cases step
        exact listed
      · cases step
        exact listed
      · cases step
        exact listed
      · cases step
        exact listed
    have settles : Closed (releaseChanges lease) fun state =>
        (holds state ∧ state.requests.get? lease.reqPoolIdx = some lease) ∧
          lease ∉ state.failed := by
      apply stays.and
      intro change before after allowed unmarked step
      rcases allowed with rfl | rfl | rfl | rfl
      · cases step
        exact fun member => unmarked (List.mem_filter.mp member).1
      · cases step
        exact unmarked
      · cases step
        exact unmarked
      · cases step
        exact unmarked
    have steady := (Idle.hostOnly (δ := δ) fun state =>
      (holds state ∧ state.requests.get? lease.reqPoolIdx = some lease) ∧
        lease ∉ state.failed).steady machine
    have drains : Preserves (Idle fun state =>
        (holds state ∧ state.requests.get? lease.reqPoolIdx = some lease) ∧
          lease ∉ state.failed) (do
          device.zoom (machine.outside .eventLog)
          drainLease machine config lease
          device.zoom (machine.outside .eventLog)
          return some lease) := by
      refine Preserves.bind (steady.outside _) fun _ => ?_
      refine Preserves.bind (drainLease_idle machine settles fun _ both => ⟨both.1.2, both.2⟩)
        fun _ => ?_
      exact Preserves.bind (steady.outside _) fun _ => Preserves.pure _
    have rest := Ensures.bind (drainFailedLease_idle machine stays) fun _ =>
      drains.escaping fun _ _ both => ⟨both.1.1, both.2⟩
    apply (rest here ⟨⟨idle.1, listed⟩, idle.2⟩).mono
    · exact fun _ _ both => ⟨both.1.1.1, both.2⟩
    · exact fun _ _ both => ⟨both.1.1, both.2⟩
  · rintro cause here rfl
    exact idle

/-! ## The commit and the flush -/

/-- The changes of `after_release`. -/
def commitChanges (lease : QSAHiSparseLease) (change : Change) : Prop :=
  change = .deferred lease ∨ change = .flushed lease ∨ change = .committed lease

theorem deferRelease_idle {lease : QSAHiSparseLease} (closed : Closed (commitChanges lease) holds)
    {runtime : QSAHiSparseRuntime δ} (grouped : runtime.freeGroupOpen = true)
    (idle : Idle holds runtime) :
    Leaves (fun _ => Idle holds) (fun _ => Idle holds)
      ((deferRelease machine lease).run runtime) := by
  have steady := (Idle.hostOnly (δ := δ) holds).steady machine
  unfold deferRelease
  apply (Leaves.bind_iff _ _ _).mpr
  apply Leaves.mono (zoom_require_outcome lease ledger (by simp) runtime)
  · rintro _ here ⟨permits, rfl⟩
    apply (Leaves.bind_iff _ _ _).mpr
    apply (Leaves.get_iff _).mpr
    apply (Leaves.bind_iff _ _ _).mpr
    apply (Leaves.raiseIf_iff _ _ _).mpr
    refine ⟨fun _ => idle, fun fresh => ?_⟩
    exact steady.outside _
      { here with pendingReleases := here.pendingReleases ++ [lease] }
      ⟨closed _ _ _ (Or.inl rfl) idle.1 (.deferred lease permits grouped fresh), idle.2⟩
  · rintro _ here ⟨_, rfl⟩
    exact idle

theorem flushDrained_idle {lease : QSAHiSparseLease} (closed : Closed (commitChanges lease) holds) :
    Preserves (Idle fun state => holds state ∧ state.freeGroupOpen = false)
      (flushDrained machine lease : Method (QSAHiSparseRuntime δ) PUnit) := by
  unfold flushDrained
  intro runtime idle
  apply (Leaves.bind_iff _ _ _).mpr
  apply (Leaves.get_iff _).mpr
  apply (Leaves.bind_iff _ _ _).mpr
  apply (Leaves.getItem_iff _ _ _).mpr
  refine ⟨fun _ => idle, fun phase _ => ?_⟩
  by_cases drained : phase = .drained
  · rw [if_pos drained]
    apply (Leaves.bind_iff _ _ _).mpr
    apply ((Idle.hostOnly _).device (machine.outside .flushCheck) runtime idle).mono
    · rintro _ after ⟨⟨kept, grouped⟩, none⟩
      apply (ledger.leaves_zoom _ _).mpr
      apply Leaves.mono (logicalFlushed_outcome after.slots lease runtime.freeGroupOpen)
      · rintro _ slots ⟨⟨permits, _⟩, rfl⟩
        have flushed := closed _ _ _ (Or.inr (Or.inl rfl)) kept (.flushed lease permits grouped)
        exact ⟨⟨flushed, grouped⟩, none⟩
      · rintro _ slots ⟨_, rfl⟩
        exact ⟨⟨kept, grouped⟩, none⟩
    · exact fun _ _ idle => idle
  · rw [if_neg drained]
    exact idle

theorem commitLease_idle {lease : QSAHiSparseLease} (closed : Closed (commitChanges lease) holds) :
    Preserves (Idle fun state => holds state ∧ state.freeGroupOpen = false)
      (commitLease machine lease : Method (QSAHiSparseRuntime δ) PUnit) := by
  have lasts := idle_lasts (δ := δ) (fun _ => True) fun state =>
    holds state ∧ state.freeGroupOpen = false
  have commits : Preserves (Idle fun state => holds state ∧ state.freeGroupOpen = false) (do
      ledger.zoom (commitRelease lease)
      modify fun self : QSAHiSparseRuntime δ =>
        { self with
          requests := self.requests.erase lease.reqPoolIdx
          commits := self.commits ++ [(lease, self.device)] }
      device.zoom (machine.outside .eventLog) : Method (QSAHiSparseRuntime δ) PUnit) := by
    rintro runtime ⟨⟨kept, grouped⟩, none⟩
    apply (Leaves.bind_iff _ _ _).mpr
    apply (ledger.leaves_zoom _ _).mpr
    apply Leaves.mono (commitRelease_outcome runtime.slots lease)
    · rintro _ slots ⟨⟨permits, _⟩, rfl⟩
      apply (Leaves.bind_iff _ _ _).mpr
      apply (Leaves.modify_iff _ _).mpr
      apply lasts.hostOnly.device
      have committed := closed _ _ _ (Or.inr (Or.inr rfl)) kept (.committed lease permits grouped)
      refine ⟨⟨?_, grouped⟩, none⟩
      unfold QSAHiSparseRuntime.tenancy
      rw [List.map_append]
      exact committed
    · rintro _ slots ⟨_, rfl⟩
      exact ⟨⟨kept, grouped⟩, none⟩
  unfold commitLease
  refine Preserves.get_bind fun self => ?_
  refine Preserves.bind (Preserves.getItem _ _) fun state => ?_
  refine Preserves.bind (withCache_lasts lasts trivial _) fun _ => ?_
  refine Preserves.bind (modify_idle (fun _ => rfl) fun _ => rfl) fun _ => ?_
  exact Preserves.bind (lasts.hostOnly.device _) fun _ => commits

theorem afterRelease_idle {lease : QSAHiSparseLease}
    (closed : Closed (commitChanges lease) holds) :
    Preserves (Idle holds) (afterRelease machine lease : Method (QSAHiSparseRuntime δ) PUnit) := by
  unfold afterRelease
  refine Preserves.bind (Reads.zoom (require_reads lease _)).preserves fun _ => ?_
  rintro runtime ⟨kept, none⟩
  apply (Leaves.bind_iff _ _ _).mpr
  apply (Leaves.get_iff _).mpr
  by_cases grouped : runtime.freeGroupOpen = true
  · rw [if_pos grouped]
    exact deferRelease_idle machine closed grouped ⟨kept, none⟩
  · rw [if_neg grouped]
    have ungrouped := Bool.eq_false_iff.mpr grouped
    have commits : Preserves (Idle fun state => holds state ∧ state.freeGroupOpen = false) (do
        flushDrained machine lease
        commitLease machine lease : Method (QSAHiSparseRuntime δ) PUnit) :=
      Preserves.bind (flushDrained_idle machine closed) fun _ => commitLease_idle machine closed
    apply (commits runtime ⟨⟨kept, ungrouped⟩, none⟩).mono
    · exact fun _ _ both => ⟨both.1.1, both.2⟩
    · exact fun _ _ both => ⟨both.1.1, both.2⟩

/-- The changes of the loop over the pending releases. -/
def flushChanges (pending : List QSAHiSparseLease) (change : Change) : Prop :=
  exists lease, lease ∈ pending ∧ (change = .flushed lease ∨ change = .committed lease ∨
    change = .popped lease)

/-- A turn on a pending lease never defers it again, so the list stands still
until its head is popped. -/
theorem flushTurn_idle {pending rest : List QSAHiSparseLease} {lease : QSAHiSparseLease}
    (member : lease ∈ pending) (closed : Closed (flushChanges pending) holds)
    {runtime : QSAHiSparseRuntime δ} (listed : runtime.pendingReleases = lease :: rest)
    (idle : Idle holds runtime) :
    Leaves (fun _ => Idle holds) (fun _ => Idle holds)
      ((tryFinally (afterRelease machine lease) (popReleased lease) :
        Method (QSAHiSparseRuntime δ) PUnit).run runtime) := by
  have stands : Closed (commitChanges lease) fun state =>
      holds state ∧ state.pendingReleases = lease :: rest := by
    rintro change before after allowed ⟨kept, same⟩ step
    rcases allowed with rfl | rfl | rfl
    · cases step with
      | deferred _ permits opened fresh =>
          rw [same] at fresh
          exact absurd List.mem_cons_self fresh
    · refine ⟨closed _ _ _ ⟨lease, member, Or.inl rfl⟩ kept step, ?_⟩
      cases step
      exact same
    · refine ⟨closed _ _ _ ⟨lease, member, Or.inr (Or.inl rfl)⟩ kept step, ?_⟩
      cases step
      exact same
  have pops : Ensures (Idle fun state => holds state ∧ state.pendingReleases = lease :: rest)
      (popReleased lease : Method (QSAHiSparseRuntime δ) PUnit) (fun _ => Idle holds)
      (fun _ => Idle holds) := by
    rintro runtime ⟨⟨kept, same⟩, none⟩
    change runtime.pendingReleases = lease :: rest at same
    unfold popReleased
    apply (Leaves.modify_iff _ _).mpr
    by_cases active : runtime.slots.active.contains lease.reqPoolIdx = true
    · rw [if_pos active]
      exact ⟨kept, none⟩
    · rw [if_neg active]
      refine ⟨?_, none⟩
      have popped := closed _ _ _ ⟨lease, member, Or.inr (Or.inr rfl)⟩ kept
        (.popped lease rest same (Bool.eq_false_iff.mpr active))
      unfold QSAHiSparseRuntime.tenancy
      rw [same]
      exact popped
  apply (Leaves.tryFinally_iff _ _ _).mpr
  apply (afterRelease_idle machine stands runtime ⟨⟨idle.1, listed⟩, idle.2⟩).mono
  · exact fun _ after handled => pops after handled
  · exact fun _ after handled => pops after handled

theorem flushPending_idle {pending : List QSAHiSparseLease}
    (closed : Closed (flushChanges pending) holds) (turns : Nat) :
    Preserves (Idle fun state => holds state ∧ state.pendingReleases ⊆ pending)
      (flushPending machine turns : Method (QSAHiSparseRuntime δ) PUnit) := by
  induction turns with
  | zero => exact Preserves.pure PUnit.unit
  | succ turns previous =>
      unfold flushPending
      rintro runtime ⟨⟨kept, within⟩, none⟩
      apply (Leaves.bind_iff _ _ _).mpr
      apply (Leaves.get_iff _).mpr
      have shrinks : Closed (flushChanges pending) fun state =>
          holds state ∧ state.pendingReleases ⊆ pending := by
        apply closed.and
        rintro change before after ⟨lease, member, allowed⟩ within step
        rcases allowed with rfl | rfl | rfl
        · cases step
          exact within
        · cases step
          exact within
        · cases step with
          | popped _ rest listed inactive =>
              rw [listed] at within
              exact fun other later => within (List.mem_cons_of_mem _ later)
      cases listed : runtime.pendingReleases with
      | nil => exact ⟨⟨kept, within⟩, none⟩
      | cons lease rest =>
          have member : lease ∈ pending := within (by
            change lease ∈ runtime.pendingReleases
            rw [listed]
            exact List.mem_cons_self)
          apply (Leaves.bind_iff _ _ _).mpr
          apply (flushTurn_idle machine member shrinks listed ⟨⟨kept, within⟩, none⟩).mono
          · exact fun _ after handled => previous after handled
          · exact fun _ _ handled => handled

end Release

section Replay

variable {δ : Type} (machine : Machine δ) {config : Config} {holds : Tenancy -> Prop}

/-- The changes of a failed replay of these rows. -/
def replayChanges (rows : QSAHiSparseLease -> Prop) (change : Change) : Prop :=
  (exists lease, rows lease ∧ change = .replayFailed lease) ∨
    exists leases, (forall lease, lease ∈ leases -> rows lease) ∧
      (change = .marked leases ∨ change = .settled leases)

/-- Inside a replay the leases of the batch decode or have failed. -/
def InReplay (rows : QSAHiSparseLease -> Prop) (holds : Tenancy -> Prop)
    (runtime : QSAHiSparseRuntime δ) : Prop :=
  holds runtime.tenancy ∧ forall saved, runtime.graphBatch = some saved ->
    forall row, row ∈ saved -> rows row.1 ∧ runtime.slots.Permits row.1 [.decode, .failed]

variable {rows : QSAHiSparseLease -> Prop}

theorem Idle.inReplay {runtime : QSAHiSparseRuntime δ} (idle : Idle holds runtime) :
    InReplay rows holds runtime := by
  refine ⟨idle.1, fun saved present => ?_⟩
  rw [idle.2] at present
  cases present

theorem inReplay_lasts (touched rows : QSAHiSparseLease -> Prop) (holds : Tenancy -> Prop) :
    Lasts touched (InReplay (δ := δ) rows holds) := by
  rintro before after ⟨kept, permits⟩ apart
  have slots : after.slots = before.slots := congrArg Tenancy.slots apart.tenancy
  refine ⟨?_, fun saved present row member => ?_⟩
  · rw [apart.tenancy]
    exact kept
  · rw [slots]
    exact permits saved (apart.batch.symm.trans present) row member

/-- The leases that decode. -/
def decoding (runtime : QSAHiSparseRuntime δ) (lease : QSAHiSparseLease) : Prop :=
  runtime.slots.Permits lease [.decode]

/-- The state that a replay begins with. -/
theorem begun_inReplay {batch : ForwardBatch} {states : List QSAHiSparseLease}
    {seqLens : List Int} {runtime before after : QSAHiSparseRuntime δ}
    (beside : Beside runtime before) (accepted : Accepted config batch runtime states seqLens)
    (routed : Routed (begun config true states seqLens before) after)
    (kept : holds runtime.tenancy) : InReplay (decoding runtime) holds after := by
  rcases beside with ⟨next, rfl⟩
  rcases routed with ⟨last, _, _, _, _, rfl⟩
  refine ⟨kept, fun saved present row member => ?_⟩
  cases present
  have decodes := (accepted.rows row member).2
  rcases decodes with ⟨held, phase, found, inside⟩
  exact ⟨⟨held, phase, found, inside⟩, held, phase, found,
    List.mem_cons.mpr (Or.inl (List.mem_singleton.mp inside))⟩

theorem prepareGraphReplay_inReplay (batch : ForwardBatch) (count : Nat)
    {runtime : QSAHiSparseRuntime δ} (idle : Idle holds runtime) :
    Leaves (fun _ => InReplay (decoding runtime) holds)
      (fun _ => InReplay (decoding runtime) holds)
      ((prepareGraphReplay machine config batch count).run runtime) := by
  have lasts := inReplay_lasts (δ := δ) (fun _ => True) (decoding runtime) holds
  have steady := lasts.hostOnly.steady machine
  unfold prepareGraphReplay
  apply (Leaves.bind_iff _ _ _).mpr
  apply (Leaves.get_iff _).mpr
  apply (Leaves.bind_iff _ _ _).mpr
  apply (Leaves.raiseIf_iff _ _ _).mpr
  refine ⟨fun _ => idle.inReplay, fun exact => ?_⟩
  push Not at exact
  have rest : Preserves (InReplay (decoding runtime) holds) (do
      let self <- get
      waitFor machine .graphWait .compute
        (if self.graphCopyPending then some .graphCopyDone else none)
      device.zoom (machine.outside .graphLengths)
      modify fun self => { self with graphSeqLens := (batch.seqLens.getD []).take count }) := by
    refine Preserves.get_bind fun self => ?_
    refine Preserves.bind (steady.waitFor _ _ _) fun _ => ?_
    refine Preserves.bind (steady.outside _) fun _ => ?_
    exact Preserves.modify fun runtime kept =>
      lasts runtime _ kept ⟨rfl, rfl, rfl, fun _ _ => rfl⟩
  apply (Leaves.bind_iff _ _ _).mpr
  apply beginDecode_leaves machine exact.2.2.2.1 true runtime
  · rintro cause after ⟨next, rfl⟩
    exact lasts.hostOnly runtime next idle.inReplay
  · intro before states seqLens beside accepted
    rw [startDecode_run]
    apply (routeDecode_leaves machine states seqLens batch.extendSeqLens _).mono
    · exact fun _ after routed => rest after (begun_inReplay beside accepted routed.1 idle.1)
    · exact fun _ after routed => begun_inReplay beside accepted routed.1 idle.1

/-- The leases of a batch fail one after the other, and then all have. -/
theorem failLeases_closed (closed : Closed (replayChanges rows) holds)
    (leases : List QSAHiSparseLease) {state : Tenancy}
    (permits : forall lease, lease ∈ leases ->
      rows lease ∧ state.slots.Permits lease [.decode, .failed])
    (kept : holds state) :
    holds { state with slots := failLeases leases state.slots } := by
  induction leases generalizing state with
  | nil => exact kept
  | cons lease leases previous =>
      have first := permits lease List.mem_cons_self
      have failed := closed _ _ _ (Or.inl ⟨lease, first.1, rfl⟩) kept
        (.replayFailed lease first.2)
      have others : forall other, other ∈ leases -> rows other ∧
          (state.slots.setPhase lease .failed).Permits other [.decode, .failed] := ?_
      · exact @previous { state with slots := state.slots.setPhase lease .failed } others failed
      intro other member
      have known := permits other (List.mem_cons_of_mem _ member)
      refine ⟨known.1, ?_⟩
      by_cases same : other = lease
      · rw [same]
        rcases first.2.1.setPhase_permits .failed with ⟨held, phase, found, inside⟩
        exact ⟨held, phase, found, List.mem_cons_of_mem _ inside⟩
      · exact setPhase_other first.2.1 same known.2

/-- What a later failure leaves of an earlier one. -/
theorem failLeases_failed {leases : List QSAHiSparseLease} {slots : QSAHiSparseSlots}
    {lease : QSAHiSparseLease} (failed : slots.Permits lease [.failed])
    (held : forall other, other ∈ leases -> slots.Holds other) :
    (failLeases leases slots).Permits lease [.failed] := by
  induction leases generalizing slots with
  | nil => exact failed
  | cons other leases previous =>
      have heldOther := held other List.mem_cons_self
      refine previous ?_ fun later member => held later (List.mem_cons_of_mem _ member)
      by_cases same : lease = other
      · rw [same]
        exact heldOther.setPhase_permits .failed
      · exact setPhase_other heldOther same failed

theorem failLeases_permits {leases : List QSAHiSparseLease} {slots : QSAHiSparseSlots}
    (held : forall lease, lease ∈ leases -> slots.Holds lease) {lease : QSAHiSparseLease}
    (member : lease ∈ leases) : (failLeases leases slots).Permits lease [.failed] := by
  induction leases generalizing slots with
  | nil => cases member
  | cons other leases previous =>
      have heldOther := held other List.mem_cons_self
      have heldLater : forall later, later ∈ leases ->
          (slots.setPhase other .failed).Holds later :=
        fun later present => held later (List.mem_cons_of_mem _ present)
      rcases List.mem_cons.mp member with rfl | later
      · change (failLeases leases (slots.setPhase lease .failed)).Permits lease [.failed]
        exact failLeases_failed (heldOther.setPhase_permits .failed) heldLater
      · exact previous heldLater later

theorem failGraphReplay_idle (closed : Closed (replayChanges rows) holds)
    (cause : Option PyError) {runtime : QSAHiSparseRuntime δ}
    (inside : InReplay rows holds runtime) :
    Leaves (fun _ => Idle holds) (fun _ => Idle holds)
      ((failGraphReplay machine cause).run runtime) := by
  have hostOnly : HostOnly fun runtime : QSAHiSparseRuntime δ => holds runtime.tenancy :=
    fun _ _ kept => kept
  have drains {leases : List QSAHiSparseLease} (all : forall lease, lease ∈ leases -> rows lease) :
      Preserves (fun runtime : QSAHiSparseRuntime δ => holds runtime.tenancy)
        (drainFailed machine cause leases) := by
    unfold drainFailed
    refine Preserves.bind ?_ fun error => ?_
    · exact Preserves.tryCatch (Preserves.bind (hostOnly.steady machine).drainGraphStreams
        fun _ => Preserves.pure none) fun error => Preserves.pure (some error)
    · split
      · refine Preserves.modify fun runtime kept => ?_
        exact closed _ _ _ (Or.inr ⟨leases, all, Or.inr rfl⟩) kept (.settled leases)
      · exact Preserves.throw _
      · exact Preserves.pure PUnit.unit
  unfold failGraphReplay
  apply (Leaves.bind_iff _ _ _).mpr
  apply (Leaves.get_iff _).mpr
  cases batch : runtime.graphBatch with
  | none => exact ⟨inside.1, batch⟩
  | some saved =>
      apply (Leaves.bind_iff _ _ _).mpr
      apply (Leaves.modify_iff _ _).mpr
      let leases := (saved.map Prod.fst).filter fun lease =>
        runtime.slots.active.get? lease.reqPoolIdx = some lease
      have known (lease : QSAHiSparseLease) (member : lease ∈ leases) :
          rows lease ∧ runtime.slots.Permits lease [.decode, .failed] := by
        rcases List.mem_map.mp (List.mem_filter.mp member).1 with ⟨row, present, rfl⟩
        exact inside.2 saved batch row present
      have failed : holds { runtime.tenancy with slots := failLeases leases runtime.slots } :=
        failLeases_closed closed leases known inside.1
      have marked := closed _ _ _
        (Or.inr ⟨leases, fun lease member => (known lease member).1, Or.inl rfl⟩) failed
        (.marked leases fun lease member =>
          failLeases_permits (fun other present => (known other present).2.1) member)
      have drained := drains (fun lease member => (known lease member).1)
        { runtime with
          graphFailedLeases := runtime.graphFailedLeases ∪ leases
          slots := failLeases leases runtime.slots } marked
      apply (Leaves.tryFinally_iff _ _ _).mpr
      apply drained.mono
      · exact fun _ after kept => ⟨kept, rfl⟩
      · exact fun _ after kept => ⟨kept, rfl⟩

/-- Whatever raises inside a replay, its handler ends it. -/
theorem contained_idle (closed : Closed (replayChanges rows) holds)
    {program : Method (QSAHiSparseRuntime δ) PUnit} {runtime : QSAHiSparseRuntime δ}
    {post : PUnit -> QSAHiSparseRuntime δ -> Prop}
    (body : Leaves post (fun _ => InReplay rows holds) (program.run runtime)) :
    Leaves post (fun _ => Idle holds)
      ((tryCatch program fun error => do
        failGraphReplay machine (some error)
        throw error : Method (QSAHiSparseRuntime δ) PUnit).run runtime) := by
  apply (Leaves.tryCatch_iff _ _ _).mpr
  apply body.mono (fun _ _ leaves => leaves)
  intro error after inside
  apply (Leaves.bind_iff _ _ _).mpr
  exact (failGraphReplay_idle machine closed (some error) inside).mono (fun _ _ idle => idle)
    fun _ _ idle => idle

theorem finishGraphReplay_inReplay (closed : Closed (replayChanges rows) holds) (count : Nat) :
    Ensures (InReplay rows holds) (finishGraphReplay machine config count)
      (fun _ => Idle holds) (fun _ => InReplay (δ := δ) rows holds) := by
  intro runtime inside
  unfold finishGraphReplay
  apply (Leaves.bind_iff _ _ _).mpr
  apply (Leaves.get_iff _).mpr
  cases batch : runtime.graphBatch with
  | none => exact inside
  | some saved =>
      apply (Leaves.bind_iff _ _ _).mpr
      apply (Leaves.raiseIf_iff _ _ _).mpr
      refine ⟨fun _ => inside, fun _ => ?_⟩
      have finishes := @finishSaved_lasts _ machine config _ _
        (inReplay_lasts (δ := δ) (fun _ => True) rows holds) _ (fun row (_ : row ∈ saved) => trivial)
      have contained := contained_idle machine closed (finishes runtime inside)
      apply (Leaves.tryFinally_iff _ _ _).mpr
      apply contained.mono
      · exact fun _ after here => ⟨here.1, rfl⟩
      · intro _ after idle
        exact (show Idle holds { after with graphBatch := none } from ⟨idle.1, rfl⟩).inReplay

theorem graphForward_idle (batch : ForwardBatch) (count : Nat) {runtime : QSAHiSparseRuntime δ}
    (closed : Closed (replayChanges (decoding runtime)) holds) (idle : Idle holds runtime) :
    Leaves (fun _ => Idle holds) (fun _ => Idle holds)
      ((graphForward machine config batch count).run runtime) := by
  have steady := (inReplay_lasts (δ := δ) (fun _ => True) (decoding runtime)
    holds).hostOnly.steady machine
  have body : Leaves (fun _ => Idle holds) (fun _ => InReplay (decoding runtime) holds)
      ((do
        prepareGraphReplay machine config batch count
        replayGraph machine config
        finishGraphReplay machine config count).run runtime) := by
    apply (Leaves.bind_iff _ _ _).mpr
    apply (prepareGraphReplay_inReplay machine batch count idle).mono
    · intro _ prepared inside
      exact Ensures.bind steady.replayGraph
        (fun _ => finishGraphReplay_inReplay machine closed count) prepared inside
    · exact fun _ _ inside => inside
  exact contained_idle machine closed body

end Replay

/-! ## All calls -/

/-- The changes that a call may make. -/
inductive Call.May (before : Tenancy) : Call -> Change -> Prop where
  | granted (batch : ForwardBatch) (lease : QSAHiSparseLease) :
      May before (.beginBatch batch) (.granted lease)
  | enlisted (batch : ForwardBatch) (lease : QSAHiSparseLease) :
      May before (.beginBatch batch) (.enlisted lease)
  | handoff (reqIdx : Int) (rid : String) (lease : QSAHiSparseLease) (change : Change) :
      before.requests.get? reqIdx = some lease -> handoffChanges lease change ->
      May before (.handoff reqIdx rid) change
  | admitted (lease : QSAHiSparseLease) : May before (.admitDecode lease) (.admitted lease)
  | replay (batch : ForwardBatch) (count : Nat) (change : Change) :
      replayChanges (fun lease => before.slots.Permits lease [.decode]) change ->
      May before (.graphForward batch count) change
  | release (reqIdx : Int) (rid : String) (lease : QSAHiSparseLease) (change : Change) :
      before.requests.get? reqIdx = some lease -> releaseChanges lease change ->
      May before (.release reqIdx rid) change
  | afterRelease (lease : QSAHiSparseLease) (change : Change) : commitChanges lease change ->
      May before (.afterRelease (some lease)) change
  | opened : May before .freeGroupBegin (.grouped true)
  | closed : May before .freeGroupEnd (.grouped false)
  | flush (change : Change) : flushChanges before.pendingReleases change ->
      May before .freeGroupEnd change
  | logicalFlush (change : Change) : flushChanges before.pendingReleases change ->
      May before .logicalFlush change

section All

variable {δ : Type} (machine : Machine δ) (config : Config)

/-- A call keeps whatever its changes keep, and leaves no replay behind. -/
theorem perform_idle {holds : Tenancy -> Prop} {runtime : QSAHiSparseRuntime δ}
    (valid : runtime.tenancy.Valid) (call : Call)
    (closed : Closed (Call.May runtime.tenancy call) holds) (idle : Idle holds runtime) :
    Idle holds (finalState ((perform machine config call).run runtime)) := by
  have steady := (Idle.hostOnly (δ := δ) holds).steady machine
  cases call with
  | regenerate reqIdx generation => exact idle
  | beginBatch batch =>
      refine (beginBatch_idle machine (closed.weaken ?_) batch).finalState idle
      rintro change ⟨lease, rfl | rfl⟩
      · exact .granted batch lease
      · exact .enlisted batch lease
  | storeKv li => exact (steady.storeKv li).finalState idle
  | afterStore li => exact (afterStore_idle machine li).finalState idle
  | selected li rows => exact (steady.selected li rows).finalState idle
  | handoff reqIdx rid =>
      apply Leaves.finalState_iff.mp
      apply (Leaves.bind_iff _ _ _).mpr
      apply (handoff_idle machine reqIdx rid (fun lease found =>
        closed.weaken fun change allowed => .handoff reqIdx rid lease change found allowed) idle).mono
      · exact fun _ _ idle => idle
      · exact fun _ _ idle => idle
  | admitDecode lease =>
      refine (admitLease_idle lease (closed.weaken ?_)).finalState idle
      rintro change rfl
      exact .admitted lease
  | graphForward batch count =>
      apply Leaves.finalState_iff.mp
      exact graphForward_idle machine batch count (closed.weaken fun change allowed =>
        .replay batch count change allowed) idle
  | release reqIdx rid =>
      apply Leaves.finalState_iff.mp
      apply (Leaves.bind_iff _ _ _).mpr
      apply (release_idle machine reqIdx rid (fun lease found => (valid.owned _ _ found).1)
        (fun lease found => closed.weaken fun change allowed =>
          .release reqIdx rid lease change found allowed) idle).mono
      · exact fun _ _ idle => idle
      · exact fun _ _ idle => idle
  | afterRelease lease =>
      cases lease with
      | none => exact idle
      | some lease =>
          exact (afterRelease_idle machine (closed.weaken fun change allowed =>
            .afterRelease lease change allowed)).finalState idle
  | freeGroupBegin =>
      exact ⟨closed _ _ _ .opened idle.1 (.grouped true), idle.2⟩
  | freeGroupEnd =>
      have flush := flushPending_idle machine (closed.weaken fun change allowed =>
        .flush change allowed) runtime.pendingReleases.length
      have ended : Idle (fun state => holds state ∧
          state.pendingReleases ⊆ runtime.tenancy.pendingReleases)
          { runtime with freeGroupOpen := false } :=
        ⟨⟨closed _ _ _ .closed idle.1 (.grouped false), fun _ member => member⟩, idle.2⟩
      have final := flush.finalState ended
      exact ⟨final.1.1, final.2⟩
  | logicalFlush =>
      have flush := flushPending_idle machine (closed.weaken fun change allowed =>
        .logicalFlush change allowed) runtime.pendingReleases.length
      have final := @Preserves.finalState _ _ _ _ _ flush runtime
        ⟨⟨idle.1, fun _ member => member⟩, idle.2⟩
      exact ⟨final.1.1, final.2⟩

/-- The changes of a call lead from the tenancy before it to the one after it. -/
theorem perform_changes {runtime : QSAHiSparseRuntime δ} (valid : runtime.tenancy.Valid)
    (none : runtime.graphBatch = none) (call : Call) :
    Changes (Call.May runtime.tenancy call) runtime.tenancy
      (finalState ((perform machine config call).run runtime)).tenancy :=
  (perform_idle machine config valid call (changes_closed runtime.tenancy)
    ⟨Changes.refl _ _, none⟩).1

/-- Whatever is called on a runtime, its tenancy is a reachable one, and no
replay is left behind. -/
theorem callAll_reachable (geometry : Geometry) (start : δ) (calls : List Call) :
    Idle tenancies.Reachable
      (callAll (perform machine config) (.initial config geometry start) calls) := by
  apply callAll_induction (Idle tenancies.Reachable)
  · intro runtime call idle
    refine perform_idle machine config (tenancies_valid idle.1) call ?_ idle
    exact fun change before after _ reachable step => reachable.step step
  · exact ⟨⟨_, [], ⟨geometry, rfl⟩, .nil _⟩, rfl⟩

theorem callAll_valid (geometry : Geometry) (start : δ) (calls : List Call) :
    (callAll (perform machine config) (.initial config geometry start) calls).tenancy.Valid :=
  tenancies_valid (callAll_reachable machine config geometry start calls).1

/-- The geometry is the one the runtime was built with. -/
theorem callAll_geometry (geometry : Geometry) (start : δ) (calls : List Call) :
    (callAll (perform machine config) (.initial config geometry start)
      calls).slots.geometry = geometry := by
  have built : Idle (fun state => state.Valid ∧ state.slots.geometry = geometry)
      (callAll (perform machine config) (.initial config geometry start) calls) := by
    apply callAll_induction (Idle fun state => state.Valid ∧ state.slots.geometry = geometry)
    · intro runtime call idle
      refine perform_idle machine config idle.1.1 call ?_ idle
      exact fun change before after _ both step =>
        ⟨both.1.step step, step.move.geometry.trans both.2⟩
    · exact ⟨⟨.initial geometry, rfl⟩, rfl⟩
  exact built.1.2

/-- The ledger of a runtime is one that calls of its own methods reach. -/
theorem callAll_ledger (geometry : Geometry) (start : δ) (calls : List Call) :
    exists operations, (callAll (perform machine config) (.initial config geometry start)
      calls).slots = performAll (.initial geometry) operations := by
  rcases tenancies_performAll (callAll_reachable machine config geometry start calls).1 with
    ⟨other, operations, same⟩
  have built := (performAll_ledgerInvariant other operations).2
  rw [<- same] at built
  have equal : other = geometry :=
    built.symm.trans (callAll_geometry machine config geometry start calls)
  exact ⟨operations, equal ▸ same⟩

end All

end Runtime
end QSAHiSparse

import QSAHiSparse.Runtime.DecodeBatch
import QSAHiSparse.Runtime.Tenancy

namespace QSAHiSparse
namespace Runtime

open Foundation
open Ledger
open Decode (chunkOffsets)

/-!
# Which changes a call makes

Every call of the runtime leaves its tenancy alone or changes it by steps of the
transition system, each under the checks that the step names.  Only then can an
invariant of the system be read off a reachable runtime.
-/

section Apart

variable {δ : Type}

/-- The fields that decide who holds what. -/
def QSAHiSparseRuntime.tenancy (self : QSAHiSparseRuntime δ) : Tenancy where
  slots := self.slots
  requests := self.requests
  failed := self.graphFailedLeases
  pendingReleases := self.pendingReleases
  freeGroupOpen := self.freeGroupOpen
  commits := self.commits.map Prod.fst

/-- At most the device, buffers, and the caches of the touched leases differ. -/
structure Apart (touched : QSAHiSparseLease -> Prop) (before after : QSAHiSparseRuntime δ) :
    Prop where
  tenancy : after.tenancy = before.tenancy
  generations : after.reqGeneration = before.reqGeneration
  batch : after.graphBatch = before.graphBatch
  caches : forall lease, ¬ touched lease -> after.caches lease = before.caches lease

theorem Apart.refl (touched : QSAHiSparseLease -> Prop) (runtime : QSAHiSparseRuntime δ) :
    Apart touched runtime runtime :=
  ⟨rfl, rfl, rfl, fun _ _ => rfl⟩

theorem Apart.trans {touched : QSAHiSparseLease -> Prop}
    {first second third : QSAHiSparseRuntime δ} (left : Apart touched first second)
    (right : Apart touched second third) : Apart touched first third where
  tenancy := right.tenancy.trans left.tenancy
  generations := right.generations.trans left.generations
  batch := right.batch.trans left.batch
  caches := fun lease untouched => (right.caches lease untouched).trans (left.caches lease untouched)

/-- A write to the cache of a touched lease. -/
theorem apart_withCache {touched : QSAHiSparseLease -> Prop} {lease : QSAHiSparseLease}
    (touches : touched lease) (update : RequestCache -> RequestCache)
    (runtime : QSAHiSparseRuntime δ) : Apart touched runtime (runtime.withCache lease update) where
  tenancy := rfl
  generations := rfl
  batch := rfl
  caches := fun other untouched => by
    have different : other ≠ lease := fun same => untouched (same ▸ touches)
    exact Function.update_of_ne different _ _

/-- What outlasts such writes. -/
def Lasts (touched : QSAHiSparseLease -> Prop) (invariant : QSAHiSparseRuntime δ -> Prop) : Prop :=
  forall before after, invariant before -> Apart touched before after -> invariant after

variable {touched : QSAHiSparseLease -> Prop} {invariant : QSAHiSparseRuntime δ -> Prop}

theorem Lasts.hostOnly (lasts : Lasts touched invariant) : HostOnly invariant :=
  fun runtime _ holds => lasts runtime _ holds ⟨rfl, rfl, rfl, fun _ _ => rfl⟩

theorem Lasts.and {other : QSAHiSparseRuntime δ -> Prop} (left : Lasts touched invariant)
    (right : Lasts touched other) : Lasts touched fun runtime => invariant runtime ∧ other runtime :=
  fun before after holds apart => ⟨left before after holds.1 apart, right before after holds.2 apart⟩

end Apart

section Programs

variable {δ : Type} (machine : Machine δ) {config : Config}
  {touched : QSAHiSparseLease -> Prop} {invariant : QSAHiSparseRuntime δ -> Prop}
  (lasts : Lasts touched invariant)

include lasts

theorem withCache_lasts {lease : QSAHiSparseLease} (touches : touched lease)
    (update : RequestCache -> RequestCache) :
    Preserves invariant
      (modify fun self => self.withCache lease update :
        Method (QSAHiSparseRuntime δ) PUnit) :=
  Preserves.modify fun runtime holds => lasts runtime _ holds (apart_withCache touches update runtime)

/-! ## Batches and eager forwards -/

theorem constructCache_lasts {lease : QSAHiSparseLease} (touches : touched lease) :
    Preserves invariant (constructCache machine config lease) := by
  unfold constructCache
  refine Preserves.bind (Reads.zoom (ringSlice_reads lease)).preserves fun _ => ?_
  exact Preserves.bind (lasts.hostOnly.device _) fun _ => withCache_lasts lasts touches _

theorem afterStoreRow_lasts (li : Nat) {lease : QSAHiSparseLease} (touches : touched lease) :
    Preserves invariant (afterStoreRow machine config li lease) := by
  have steady := lasts.hostOnly.steady machine
  unfold afterStoreRow
  refine Preserves.bind (Reads.zoom (require_reads lease _)).preserves fun _ => ?_
  refine Preserves.get_bind fun self => ?_
  refine Preserves.ite (fun _ => Preserves.pure PUnit.unit) fun _ => ?_
  split
  · exact Preserves.throw _
  · unfold closeLayer
    refine Preserves.bind (Preserves.raiseIf _ _) fun _ => ?_
    refine Preserves.bind (steady.waitFor _ _ _) fun _ => ?_
    refine Preserves.bind (steady.submit _ _) fun _ => ?_
    refine Preserves.bind (steady.record _ _) fun producer => ?_
    refine Preserves.bind (steady.waitEvent _ _ _) fun _ => ?_
    refine Preserves.bind steady.recordBegin fun _ => ?_
    unfold writeBackBlock
    refine Preserves.bind (lasts.hostOnly.device _) fun _ => ?_
    exact Preserves.bind (steady.record _ _) fun done => withCache_lasts lasts touches _

/-! ## Handoff -/

theorem handoffChunk_lasts {lease : QSAHiSparseLease} (touches : touched lease)
    (li stop offset : Nat) :
    Preserves invariant (handoffChunk machine config lease li stop offset) := by
  have steady := lasts.hostOnly.steady machine
  unfold handoffChunk
  refine Preserves.bind (Reads.zoom (stagingSlice_reads lease _ _)).preserves fun _ => ?_
  refine Preserves.bind (steady.submit _ _) fun _ => ?_
  refine Preserves.bind (steady.record _ _) fun producer => ?_
  refine Preserves.bind (steady.waitEvent _ _ _) fun _ => ?_
  unfold submitChunk
  refine Preserves.bind ?_ fun done => ?_
  · refine Preserves.bind (lasts.hostOnly.device _) fun _ => ?_
    refine Preserves.bind (steady.record _ _) fun done => ?_
    exact Preserves.bind (withCache_lasts lasts touches _) fun _ => Preserves.pure done
  · exact Preserves.bind (steady.synchronize _ _) fun _ => steady.checkChunk

theorem makeState_lasts {lease : QSAHiSparseLease} (touches : touched lease) (li : Nat)
    (blocks : Int) : Preserves invariant (makeState machine config lease li blocks) := by
  unfold makeState
  refine Preserves.bind (Reads.zoom (require_reads lease _)).preserves fun _ => ?_
  refine Preserves.bind (request_reads _ _).preserves fun _ => ?_
  refine Preserves.get_bind fun self => ?_
  refine Preserves.bind (Preserves.raiseIf _ _) fun _ => ?_
  exact Preserves.bind (lasts.hostOnly.device _) fun _ => withCache_lasts lasts touches _

theorem handoffLayers_lasts {lease : QSAHiSparseLease} (touches : touched lease)
    (promptLen : Int) :
    Preserves invariant (handoffLayers machine config lease promptLen) := by
  have steady := lasts.hostOnly.steady machine
  unfold handoffLayers
  refine Preserves.ite (fun _ => ?_) (fun _ => Preserves.pure PUnit.unit)
  refine Preserves.bind (Preserves.forEach _ fun li _ => ?_) fun _ =>
    withCache_lasts lasts touches _
  unfold handoffLayer
  refine Preserves.bind (Preserves.forEach _ fun offset _ =>
    handoffChunk_lasts machine lasts touches li _ offset) fun _ => ?_
  refine Preserves.bind (steady.handoffTail lease li promptLen) fun _ => ?_
  exact Preserves.bind (makeState_lasts machine lasts touches li _) fun _ => steady.outside _

/-! ## Replays -/

omit lasts in
theorem checkSaved_reads (row : QSAHiSparseLease × Int) :
    Reads (checkSaved row : Method (QSAHiSparseRuntime δ) PUnit) := by
  apply Reads.of_preserves
  intro start
  unfold checkSaved
  refine Preserves.bind (request_reads _ _).preserves fun held => ?_
  refine Preserves.bind (Reads.zoom (require_reads row.1 _)).preserves fun _ => ?_
  exact Preserves.get_bind fun self => Preserves.raiseIf _ _

theorem copyClosings_lasts (producer : Mark) {closing : List (QSAHiSparseLease × Int)}
    (touches : forall row, row ∈ closing -> touched row.1) :
    Preserves invariant (copyClosings machine producer closing) := by
  have steady := lasts.hostOnly.steady machine
  have writes (update : QSAHiSparseRuntime δ -> QSAHiSparseRuntime δ)
      (apart : forall runtime, Apart touched runtime (update runtime)) :
      Preserves invariant (modify update : Method (QSAHiSparseRuntime δ) PUnit) :=
    Preserves.modify fun runtime holds => lasts runtime _ holds (apart runtime)
  unfold copyClosings
  refine Preserves.ite (fun _ => Preserves.pure PUnit.unit) fun _ => ?_
  refine Preserves.bind (writes _ fun _ => ⟨rfl, rfl, rfl, fun _ _ => rfl⟩) fun _ => ?_
  refine Preserves.bind (steady.waitEvent _ _ _) fun _ => ?_
  refine Preserves.bind (Preserves.forEach _ fun row _ => ?_) fun _ => ?_
  · unfold copyClosing
    exact Preserves.get_bind fun self => Preserves.forEach _ fun li _ => lasts.hostOnly.device _
  refine Preserves.bind (steady.record _ _) fun done => ?_
  refine Preserves.bind (writes _ fun _ => ⟨rfl, rfl, rfl, fun _ _ => rfl⟩) fun _ => ?_
  refine Preserves.bind (Preserves.forEach _ fun row member => ?_) fun _ => steady.outside _
  exact withCache_lasts lasts (touches row member) _

theorem finishSaved_lasts {saved : List (QSAHiSparseLease × Int)}
    (touches : forall row, row ∈ saved -> touched row.1) :
    Preserves invariant (finishSaved machine config saved) := by
  have steady := lasts.hostOnly.steady machine
  have closes (row : QSAHiSparseLease × Int) (member : row ∈ closingRows saved) :
      touched row.1 := by
    rcases List.mem_map.mp member with ⟨other, present, rfl⟩
    exact touches other (List.mem_filter.mp present).1
  unfold finishSaved
  refine Preserves.bind (steady.ask _) fun known => ?_
  refine Preserves.bind (Preserves.raiseIf _ _) fun _ => ?_
  refine Preserves.bind (Preserves.forEach _ fun row _ => (checkSaved_reads row).preserves) fun _ => ?_
  refine Preserves.bind (steady.record _ _) fun producer => ?_
  refine Preserves.bind (strictly_preserves (Preserves.bind (steady.synchronize _ _) fun _ =>
    steady.checkBytes _ _)) fun _ => ?_
  refine Preserves.bind (copyClosings_lasts machine lasts producer closes) fun _ => ?_
  exact Preserves.bind (strictly_preserves (steady.checkCopied _)) fun _ => steady.outside _

end Programs

/-! ## Invariants of the transition system -/

section Closed

/-- What every allowed change keeps. -/
def Closed (allowed : Change -> Prop) (holds : Tenancy -> Prop) : Prop :=
  forall change before after, allowed change -> holds before ->
    Tenancy.Step before change after -> holds after

/-- Some allowed changes lead from one tenancy to the other. -/
def Changes (allowed : Change -> Prop) (before after : Tenancy) : Prop :=
  exists changes, (forall change, change ∈ changes -> allowed change) ∧
    tenancies.Run before changes after

variable {allowed : Change -> Prop} {holds : Tenancy -> Prop}

theorem Closed.weaken {wider : Change -> Prop} (closed : Closed wider holds)
    (narrows : forall change, allowed change -> wider change) : Closed allowed holds :=
  fun change before after allows => closed change before after (narrows change allows)

theorem Closed.and {others : Tenancy -> Prop} (closed : Closed allowed holds)
    (other : forall change before after, allowed change -> others before ->
      Tenancy.Step before change after -> others after) :
    Closed allowed fun state => holds state ∧ others state :=
  fun change before after allows both step =>
    ⟨closed change before after allows both.1 step, other change before after allows both.2 step⟩

theorem Changes.refl (allowed : Change -> Prop) (state : Tenancy) : Changes allowed state state :=
  ⟨[], fun _ member => absurd member List.not_mem_nil, .nil state⟩

theorem changes_closed (start : Tenancy) : Closed allowed (Changes allowed start) := by
  rintro change before after allows ⟨changes, all, run⟩ step
  refine ⟨changes ++ [change], ?_, run.snoc step⟩
  intro other member
  rcases List.mem_append.mp member with old | new
  · exact all other old
  · rw [List.mem_singleton.mp new]
    exact allows

theorem Changes.weaken {wider : Change -> Prop} {before after : Tenancy}
    (changes : Changes allowed before after)
    (widens : forall change, allowed change -> wider change) : Changes wider before after := by
  rcases changes with ⟨labels, all, run⟩
  exact ⟨labels, fun change member => widens change (all change member), run⟩

/-- What every allowed change keeps holds after any of them. -/
theorem Changes.invariant {before after : Tenancy} (changes : Changes allowed before after)
    (closed : Closed allowed holds) (start : holds before) : holds after := by
  rcases changes with ⟨labels, all, run⟩
  induction run with
  | nil => exact start
  | snoc _ step previous =>
      refine closed _ _ _ (all _ (List.mem_append_right _ (List.mem_singleton_self _))) ?_ step
      exact previous fun change member => all change (List.mem_append_left _ member)

/-- An invariant of the tenancy of a runtime outside a replay. -/
def Idle {δ : Type} (holds : Tenancy -> Prop) (runtime : QSAHiSparseRuntime δ) : Prop :=
  holds runtime.tenancy ∧ runtime.graphBatch = none

theorem idle_lasts {δ : Type} (touched : QSAHiSparseLease -> Prop) (holds : Tenancy -> Prop) :
    Lasts touched (Idle (δ := δ) holds) := by
  rintro before after ⟨kept, none⟩ apart
  refine ⟨?_, apart.batch.trans none⟩
  rw [apart.tenancy]
  exact kept

end Closed

/-! ## The changes of each call -/

section Calls

variable {δ : Type} (machine : Machine δ) {config : Config} {holds : Tenancy -> Prop}

/-- A write that leaves the tenancy and the replay alone. -/
theorem modify_idle {update : QSAHiSparseRuntime δ -> QSAHiSparseRuntime δ}
    (tenancy : forall runtime, (update runtime).tenancy = runtime.tenancy)
    (batch : forall runtime, (update runtime).graphBatch = runtime.graphBatch) :
    Preserves (Idle holds) (modify update : Method (QSAHiSparseRuntime δ) PUnit) := by
  apply Preserves.modify
  rintro runtime ⟨kept, none⟩
  exact ⟨(tenancy runtime).symm ▸ kept, (batch runtime).trans none⟩

theorem acquireRequest_idle
    (closed : Closed (fun change => exists lease, change = .granted lease ∨
      change = .enlisted lease) holds) (reqIdx : Int) (rid : String) :
    Preserves (Idle holds) (acquireRequest machine config reqIdx rid) := by
  have steady := (idle_lasts (δ := δ) (fun _ => True) holds).hostOnly.steady machine
  unfold acquireRequest
  refine Preserves.get_bind fun self => ?_
  rintro runtime ⟨kept, none⟩
  apply (Leaves.bind_iff _ _ _).mpr
  apply (ledger.leaves_zoom _ _).mpr
  apply Leaves.mono (acquire_outcome runtime.slots reqIdx _ rid)
  · rintro lease slots ⟨⟨wellFormed, absent, newer, unowned, _⟩, slot, rest, free, named, rfl⟩
    have row : lease.reqPoolIdx = reqIdx := by rw [named]
    have granted : Idle holds { runtime with slots := runtime.slots.grant lease rest } := by
      refine ⟨closed _ _ _ ⟨lease, Or.inl rfl⟩ kept
        (.granted lease rest ?_ ?_ ?_ ?_ ?_ ?_ ?_), none⟩
      · rw [row]
        omega
      · rw [named]
        change 0 < self.reqGeneration reqIdx
        omega
      · rw [named]
        exact fun nameless => wellFormed (Or.inr (Or.inr nameless))
      · rw [row]
        exact Dict.get?_eq_none_iff.mpr fun member => absent (decide_eq_true member)
      · rw [named]
        exact Int.lt_of_not_ge newer
      · exact Classical.not_not.mp unowned
      · rw [named]
        exact free
    have both : Lasts (fun _ => True) fun runtime : QSAHiSparseRuntime δ =>
        Idle holds runtime ∧ runtime.slots.Holds lease :=
      (idle_lasts _ holds).and fun before after held apart => by
        have same : after.slots = before.slots := congrArg Tenancy.slots apart.tenancy
        rw [same]
        exact held
    have held : (runtime.slots.grant lease rest).Holds lease := Dict.get?_set_self _ _ _
    apply (Leaves.bind_iff _ _ _).mpr
    apply (constructCache_lasts machine both trivial _ ⟨granted, held⟩).mono
    · rintro _ constructed ⟨⟨keptHere, noneHere⟩, heldHere⟩
      have listed := closed _ _ _ ⟨lease, Or.inr rfl⟩ keptHere (.enlisted lease heldHere)
      rw [row] at listed
      exact steady.outside _ { constructed with requests := constructed.requests.set reqIdx lease }
        ⟨listed, noneHere⟩
    · exact fun _ _ holds => holds.1
  · rintro _ slots ⟨_, rfl⟩
    exact ⟨kept, none⟩

theorem startBatch_idle (decode : Bool) (states : List QSAHiSparseLease)
    (seqLens extendSeqLens : List Int) :
    Preserves (Idle holds)
      (startBatch machine config decode false states seqLens extendSeqLens) := by
  have lasts := idle_lasts (δ := δ) (fun _ => True) holds
  have steady := lasts.hostOnly.steady machine
  have decodes : Preserves (Idle holds) (routeDecode machine states seqLens) := by
    unfold routeDecode
    refine Preserves.get_bind fun self => ?_
    refine Preserves.bind (Preserves.mapEach states fun lease _ =>
      (Reads.zoom (ringWriteLocation_reads lease _)).preserves) fun locations => ?_
    exact Preserves.bind (steady.outside _) fun _ => modify_idle (fun _ => rfl) fun _ => rfl
  have extended (lease : QSAHiSparseLease) (extend : Int) : Preserves (Idle holds)
      (routeExtend lease extend : Method (QSAHiSparseRuntime δ) PUnit) := by
    unfold routeExtend
    refine Preserves.get_bind fun self => ?_
    refine Preserves.bind (Reads.zoom (stagingSlice_reads lease _ _)).preserves fun segment => ?_
    exact modify_idle (fun _ => rfl) fun _ => rfl
  unfold startBatch
  refine Preserves.bind (modify_idle (fun _ => rfl) fun _ => rfl) fun _ => ?_
  refine Preserves.bind (Preserves.forEach _ fun row _ => ?_) fun _ => ?_
  · exact withCache_lasts lasts trivial _
  refine Preserves.bind (modify_idle (fun _ => rfl) fun _ => rfl) fun _ => ?_
  refine Preserves.bind ?_ fun _ => steady.logBatch decode states
  unfold route
  refine Preserves.ite (fun _ => Preserves.pure PUnit.unit) fun _ => ?_
  refine Preserves.ite (fun _ => decodes) fun _ => ?_
  split
  · exact extended _ _
  · exact Preserves.throw _

theorem beginBatch_idle
    (closed : Closed (fun change => exists lease, change = .granted lease ∨
      change = .enlisted lease) holds) (batch : ForwardBatch) :
    Preserves (Idle holds) (beginBatch machine config batch false) := by
  have steady := (idle_lasts (δ := δ) (fun _ => True) holds).hostOnly.steady machine
  have admits (decode : Bool) (row : Row) :
      Preserves (Idle holds) (admitRow machine config decode false row) := by
    unfold admitRow
    refine Preserves.bind (Preserves.raiseIf _ _) fun _ => ?_
    refine Preserves.bind ?_ fun _ => ?_
    · unfold admitRequest
      refine Preserves.get_bind fun self => ?_
      refine Preserves.ite (fun _ => Preserves.pure PUnit.unit) fun _ => ?_
      exact Preserves.bind (Preserves.raiseIf _ _) fun _ =>
        acquireRequest_idle machine closed row.reqIdx row.rid
    refine Preserves.bind (request_reads row.reqIdx row.rid).preserves fun lease => ?_
    refine Preserves.bind (Reads.zoom (require_reads lease _)).preserves fun _ => ?_
    exact Preserves.bind (steady.checkGraphRow false lease) fun _ => Preserves.pure lease
  have rows (decode : Bool) (reqIndices seqLens : List Int) : Preserves (Idle holds)
      (beginRows machine config decode false batch reqIndices seqLens) := by
    unfold beginRows
    refine Preserves.bind (Preserves.raiseIf _ _) fun _ => ?_
    refine Preserves.bind steady.checkDeviceRows fun _ => ?_
    refine Preserves.bind (Preserves.mapEach _ fun row _ => admits decode row) fun states => ?_
    refine Preserves.bind (Preserves.raiseIf _ _) fun _ => ?_
    exact startBatch_idle machine decode states seqLens batch.extendSeqLens
  have forward (decode : Bool) : Preserves (Idle holds)
      (beginForward machine config decode false batch) := by
    unfold beginForward
    refine Preserves.get_bind fun self => ?_
    split
    · exact Preserves.bind (Preserves.raiseIf _ _) fun _ => rows decode _ _
    · exact Preserves.throw _
  unfold beginBatch
  cases batch.mode with
  | idle => exact modify_idle (fun _ => rfl) fun _ => rfl
  | other => exact Preserves.throw _
  | extend => exact forward false
  | decode => exact forward true

theorem afterStore_idle (li : Nat) : Preserves (Idle holds) (afterStore machine config li) := by
  unfold afterStore
  refine Preserves.get_bind fun self => ?_
  exact Preserves.forEach _ fun lease _ =>
    afterStoreRow_lasts machine (idle_lasts (fun _ => True) holds) li trivial

theorem admitLease_idle (lease : QSAHiSparseLease)
    (closed : Closed (· = .admitted lease) holds) :
    Preserves (Idle holds) (admitLease lease : Method (QSAHiSparseRuntime δ) PUnit) := by
  rintro runtime ⟨kept, none⟩
  unfold admitLease
  apply (ledger.leaves_zoom _ _).mpr
  apply Leaves.mono (admitDecode_outcome runtime.slots lease)
  · rintro _ slots ⟨⟨permits, _⟩, rfl⟩
    exact ⟨closed _ _ _ rfl kept (.admitted lease permits), none⟩
  · rintro _ slots ⟨_, rfl⟩
    exact ⟨kept, none⟩

end Calls

end Runtime
end QSAHiSparse

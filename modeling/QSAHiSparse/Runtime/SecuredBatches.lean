import QSAHiSparse.Runtime.Awaited

namespace QSAHiSparse
namespace Runtime

open Foundation
open Ledger

/-!
# Batches and eager forwards keep every copy awaited

Admission submits no copy and touches the events of a new cache only.  The
eager `after_store` submits a copy and records the event that covers it; a raise
between the two is the one thing here that loses a copy.
-/

section Batches

variable (plan : Plan) (config : Config)

/-! ## Admission -/

/-- A new lease is settled and its cache is new. -/
theorem constructCache_preserves (lease : QSAHiSparseLease) :
    Preserves
      (fun runtime => Secured noStray runtime ∧ Settled runtime.device lease ∧
        runtime.slots.Holds lease)
      (constructCache (queueMachine plan) config lease) := by
  unfold constructCache
  refine Preserves.bind (Reads.zoom (ringSlice_reads lease)).preserves fun _ => ?_
  refine Preserves.bind ?_ fun _ => ?_
  · apply (submit_compute_waits plan _ _).preserves
    exact (secured_lasting noStray).and ((settled_lasting lease).and
      (Lasting.ofHost fun _ _ holds => holds))
  · apply Preserves.modify
    rintro runtime ⟨secured, settled, held⟩
    exact ⟨secured.withCache lease _ (Or.inl settled), settled, held⟩

theorem acquireRequest_preserves (reqIdx : Int) (rid : String) :
    Preserves (Secured noStray) (acquireRequest (queueMachine plan) config reqIdx rid) := by
  unfold acquireRequest
  refine Preserves.get_bind fun self => ?_
  intro runtime secured
  apply (Leaves.bind_iff _ _ _).mpr
  apply (ledger.leaves_zoom _ _).mpr
  apply Leaves.mono (acquire_outcome runtime.slots reqIdx _ rid)
  · rintro lease slots ⟨⟨_, absent, _⟩, slot, rest, _, named, rfl⟩
    have row : lease.reqPoolIdx = reqIdx := by rw [named]
    have free : runtime.slots.active.get? lease.reqPoolIdx = none := by
      rw [row]
      apply Dict.get?_eq_none_iff.mpr
      exact fun member => absent (decide_eq_true member)
    have settled : Settled runtime.device lease := by
      intro index pending
      have held := (secured.live lease index pending).1
      unfold QSAHiSparseSlots.Holds at held
      rw [free] at held
      cases held
    have granted : Secured noStray { runtime with slots := runtime.slots.grant lease rest } :=
      secured.withSlots (fun _ held => grant_holds free held)
        (fun _ _ permits => grant_permits free permits)
    have held : (runtime.slots.grant lease rest).Holds lease := Dict.get?_set_self _ _ _
    apply (Leaves.bind_iff _ _ _).mpr
    apply (constructCache_preserves plan config lease _ ⟨granted, settled, held⟩).mono
    · rintro _ constructed ⟨secured, settled, held⟩
      have listed : Secured noStray
          { constructed with requests := constructed.requests.set reqIdx lease } :=
        { secured with
          owned := by
            intro index other found
            change (constructed.requests.set reqIdx lease).get? index = some other at found
            rw [Dict.get?_set] at found
            by_cases same : index = reqIdx
            · rw [if_pos same] at found
              cases found
              exact ⟨row.trans same.symm, held⟩
            · rw [if_neg same] at found
              exact secured.owned index other found }
      exact (outside_waits plan _).preserves (secured_lasting noStray) _ listed
    · exact fun _ _ holds => holds.1
  · rintro _ slots ⟨_, rfl⟩
    exact secured

variable {config}

theorem admitRequest_preserves (decode : Bool) (row : Row) :
    Preserves (Secured noStray) (admitRequest (queueMachine plan) config decode row) := by
  unfold admitRequest
  refine Preserves.get_bind fun self => ?_
  refine Preserves.ite (fun _ => Preserves.pure PUnit.unit) fun _ => ?_
  exact Preserves.bind (Preserves.raiseIf _ _) fun _ =>
    acquireRequest_preserves plan config row.reqIdx row.rid

theorem admitRow_preserves (decode graph : Bool) (row : Row) :
    Preserves (Secured noStray) (admitRow (queueMachine plan) config decode graph row) := by
  unfold admitRow
  refine Preserves.bind (Preserves.raiseIf _ _) fun _ => ?_
  refine Preserves.bind (admitRequest_preserves plan decode row) fun _ => ?_
  refine Preserves.bind (request_reads row.reqIdx row.rid).preserves fun lease => ?_
  refine Preserves.bind (Reads.zoom (require_reads lease _)).preserves fun _ => ?_
  refine Preserves.bind
    (((secured_lasting noStray).steady plan).checkGraphRow graph lease) fun _ => ?_
  exact Preserves.pure lease

theorem RequestCache.advance_events (decode : Bool) (seq : Int) (cache : RequestCache) :
    (cache.advance decode seq).events = cache.events := by
  unfold RequestCache.advance
  cases decode <;> rfl

theorem route_preserves (decode : Bool) (states : List QSAHiSparseLease)
    (seqLens extendSeqLens : List Int) :
    Preserves (Secured noStray)
      (route (queueMachine plan) config decode states seqLens extendSeqLens) := by
  have decodes : Preserves (Secured noStray) (routeDecode (queueMachine plan) states seqLens) := by
    unfold routeDecode
    refine Preserves.get_bind fun self => ?_
    refine Preserves.bind (Preserves.mapEach states fun lease _ =>
      (Reads.zoom (ringWriteLocation_reads lease _)).preserves) fun locations => ?_
    refine Preserves.bind ((outside_waits plan _).preserves (secured_lasting noStray)) fun _ => ?_
    exact Preserves.modify fun runtime secured => { secured with }
  have extended (lease : QSAHiSparseLease) (extend : Int) : Preserves (Secured noStray)
      (routeExtend lease extend : Method (QSAHiSparseRuntime CopyQueue) PUnit) := by
    unfold routeExtend
    refine Preserves.get_bind fun self => ?_
    refine Preserves.bind (Reads.zoom (stagingSlice_reads lease _ _)).preserves fun segment => ?_
    exact Preserves.modify fun runtime secured => { secured with }
  unfold route
  refine Preserves.ite (fun _ => Preserves.pure PUnit.unit) fun _ => ?_
  refine Preserves.ite (fun _ => decodes) fun _ => ?_
  split
  · exact extended _ _
  · exact Preserves.throw _

theorem startBatch_preserves (decode graph : Bool) (states : List QSAHiSparseLease)
    (seqLens extendSeqLens : List Int) :
    Preserves (Secured noStray)
      (startBatch (queueMachine plan) config decode graph states seqLens extendSeqLens) := by
  unfold startBatch
  refine Preserves.bind (Preserves.modify fun runtime secured => { secured with }) fun _ => ?_
  refine Preserves.bind (Preserves.forEach _ fun row _ => ?_) fun _ => ?_
  · apply Preserves.modify
    exact fun runtime secured =>
      secured.withCache row.1 _ (Or.inr (RequestCache.advance_events decode row.2 _))
  refine Preserves.bind (Preserves.modify fun runtime secured => { secured with }) fun _ => ?_
  refine Preserves.bind (route_preserves plan decode states seqLens extendSeqLens) fun _ => ?_
  exact ((secured_lasting noStray).steady plan).logBatch decode states

theorem beginBatch_preserves (batch : ForwardBatch) (graph : Bool) :
    Preserves (Secured noStray) (beginBatch (queueMachine plan) config batch graph) := by
  have rows (decode : Bool) (reqIndices seqLens : List Int) : Preserves (Secured noStray)
      (beginRows (queueMachine plan) config decode graph batch reqIndices seqLens) := by
    unfold beginRows
    refine Preserves.bind (Preserves.raiseIf _ _) fun _ => ?_
    refine Preserves.bind ((secured_lasting noStray).steady plan).checkDeviceRows fun _ => ?_
    refine Preserves.bind
      (Preserves.mapEach _ fun row _ => admitRow_preserves plan decode graph row) fun states => ?_
    refine Preserves.bind (Preserves.raiseIf _ _) fun _ => ?_
    exact startBatch_preserves plan decode graph states seqLens batch.extendSeqLens
  have forward (decode : Bool) : Preserves (Secured noStray)
      (beginForward (queueMachine plan) config decode graph batch) := by
    unfold beginForward
    refine Preserves.get_bind fun self => ?_
    split
    · exact Preserves.bind (Preserves.raiseIf _ _) fun _ => rows decode _ _
    · exact Preserves.throw _
  unfold beginBatch
  cases batch.mode with
  | idle => exact Preserves.modify fun runtime secured => { secured with }
  | other => exact Preserves.throw _
  | extend => exact forward false
  | decode => exact forward true

/-! ## The eager writeback -/

/-- A decoding lease with a state for the layer. -/
structure Writing (li : Nat) (lease : QSAHiSparseLease)
    (runtime : QSAHiSparseRuntime CopyQueue) : Prop where
  secured : Secured noStray runtime
  decodes : runtime.slots.Permits lease [.decode]
  layer : li < (runtime.caches lease).states.length

theorem writing_lasting (li : Nat) (lease : QSAHiSparseLease) : Lasting (Writing li lease) := by
  intro before after writing later
  have secured := writing.secured.later later
  rcases later with ⟨queue, rfl, _, _⟩
  exact ⟨secured, writing.decodes, writing.layer⟩

theorem decode_live {slots : QSAHiSparseSlots} {lease : QSAHiSparseLease}
    (permits : slots.Permits lease [.decode]) : slots.Permits lease livePhases := by
  rcases permits with ⟨held, phase, present, member⟩
  rw [List.mem_singleton] at member
  exact ⟨held, phase, present, by rw [member]; decide⟩

/-- The event set for a layer is among the events of the cache. -/
theorem setDone_mem {cache : RequestCache} {li : Nat} (event : Event)
    (inside : li < cache.states.length) : event ∈ (cache.setDone li event).events := by
  unfold RequestCache.events RequestCache.setDone
  apply List.mem_append_left
  apply List.mem_filterMap.mpr
  refine ⟨{ cache.states[li] with done := some event }, ?_, rfl⟩
  apply List.mem_iff_getElem?.mpr
  refine ⟨li, ?_⟩
  rw [List.getElem?_modify_eq, List.getElem?_eq_getElem inside]
  rfl

/-- A writeback that returns has queued its copy and recorded it; one that raises
has queued none, or has lost it. -/
theorem writeBackBlock_leaves {lease : QSAHiSparseLease} {li : Nat} (block : Int)
    {runtime : QSAHiSparseRuntime CopyQueue} (writing : Writing li lease runtime) :
    Leaves (fun _ => Secured noStray) (fun _ => Accounted plan)
      ((writeBackBlock (queueMachine plan) lease li block).run runtime) := by
  unfold writeBackBlock
  apply (Leaves.bind_iff _ _ _).mpr
  apply submit_copy_leaves
  · intro submitting next
    have here := writing_lasting li lease _ _ writing next.later
    have queued := @Secured.submitted _ _ here.secured (.writeBack lease li block)
      (decode_live here.decodes)
    apply (Leaves.bind_iff _ _ _).mpr
    apply record_leaves
    · intro recording nextRecord
      have stray := queued.later nextRecord.later
      have states : (recording.caches lease).states.length =
          (submitting.caches lease).states.length := by
        rcases nextRecord.later with ⟨queue, rfl, _, _⟩
        rfl
      have covered := stray.recorded lease (RequestCache.setDone li
        (.own (recording.device.mark .copy))) (setDone_mem _ (states ▸ here.layer)) rfl
      exact covered.weaken fun other both => both.1.elim id fun same => both.2 same
    · intro fault _ faults nextRecord
      refine Or.inr fun contained => ?_
      have never := contained.writebackDone _ nextRecord.made
      exact absurd (never.symm.trans faults) (fun none => nomatch none)
  · intro fault after faults next
    cases took : fault.took with
    | false => exact Or.inl (writing.secured.later next.later)
    | true =>
        refine Or.inr fun contained => ?_
        have never := contained.writeback _ fault next.made faults
        exact absurd (never.symm.trans took) Bool.false_ne_true

theorem closeLayer_leaves {lease : QSAHiSparseLease} {li : Nat}
    (block : Int) (state : LayerState) {runtime : QSAHiSparseRuntime CopyQueue}
    (writing : Writing li lease runtime) :
    Leaves (fun _ => Secured noStray) (fun _ => Accounted plan)
      ((closeLayer (queueMachine plan) config lease li block state).run runtime) := by
  have lasting := writing_lasting li lease
  -- Every step up to the copy outlasts; the copy itself is the lemma above.
  have writes : Ensures (Writing li lease) (writeBackBlock (queueMachine plan) lease li block)
      (fun _ => Secured noStray) (fun _ => Accounted plan) :=
    fun runtime writing => writeBackBlock_leaves plan block writing
  have escape (_ : PyError) (after : QSAHiSparseRuntime CopyQueue)
      (writing : Writing li lease after) : Accounted plan after := Or.inl writing.secured
  have whole : Ensures (Writing li lease)
      (closeLayer (queueMachine plan) config lease li block state)
      (fun _ => Secured noStray) (fun _ => Accounted plan) := by
    unfold closeLayer
    refine Preserves.andThen (Preserves.raiseIf _ _) escape fun _ => ?_
    refine Preserves.andThen ((lasting.steady plan).waitFor _ _ _) escape fun _ => ?_
    refine Preserves.andThen ((submit_compute_waits plan _ _).preserves lasting) escape fun _ => ?_
    refine Preserves.andThen ((record_waits plan _ _).preserves lasting) escape fun producer => ?_
    refine Preserves.andThen ((waitEvent_waits plan _ _ _).preserves lasting) escape fun _ => ?_
    exact Preserves.andThen (lasting.steady plan).recordBegin escape fun _ => writes
  exact whole runtime writing

theorem afterStore_ensures (li : Nat) :
    Ensures (Secured noStray) (afterStore (queueMachine plan) config li)
      (fun _ => Secured noStray) (fun _ => Accounted plan) := by
  have row (lease : QSAHiSparseLease) :
      Ensures (Secured noStray) (afterStoreRow (queueMachine plan) config li lease)
        (fun _ => Secured noStray) (fun _ => Accounted plan) := by
    unfold afterStoreRow
    intro runtime secured
    apply (Leaves.bind_iff _ _ _).mpr
    apply (zoom_require_ensures (by simp) lease runtime secured).mono
    · rintro _ here ⟨secured, decodes⟩
      apply (Leaves.bind_iff _ _ _).mpr
      apply (Leaves.get_iff _).mpr
      by_cases skipped : (here.caches lease).offloaded = false ∨
          (here.caches lease).seqLen % 4 ≠ 0
      · rw [if_pos skipped]
        exact secured
      · rw [if_neg skipped]
        split
        · exact Or.inl secured
        · next state found =>
            have layer := (List.getElem?_eq_some_iff.mp found).1
            exact closeLayer_leaves plan _ state ⟨secured, decodes, layer⟩
    · exact fun _ _ => Or.inl
  unfold afterStore
  exact fun self => Ensures.forEach _ (fun lease _ => row lease) self

end Batches

end Runtime
end QSAHiSparse

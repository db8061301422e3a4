import QSAHiSparse.Runtime.SecuredBatches

namespace QSAHiSparse
namespace Runtime

open Foundation
open Ledger

/-!
# Handoffs keep every copy awaited

A handoff waits for each chunk before it submits the next, so the lease is
settled between two turns.  Inside a turn the copy is stray until its event is
recorded; a raise in between is answered by the drain of the handler.
-/

section Handoff

variable (plan : Plan) {config : Config}

/-- A copying lease between two chunks. -/
structure Staging (lease : QSAHiSparseLease) (runtime : QSAHiSparseRuntime CopyQueue) : Prop where
  secured : Secured noStray runtime
  settled : Settled runtime.device lease
  copies : runtime.slots.Permits lease [.copying]

theorem staging_lasting (lease : QSAHiSparseLease) : Lasting (Staging lease) := by
  intro before after staging later
  have secured := staging.secured.later later
  have settled := staging.settled.later later
  rcases later with ⟨queue, rfl, _, _⟩
  exact ⟨secured, settled, staging.copies⟩

/-- How a handoff of the lease raises: with every copy accounted for, or by an
exception whose handler drains the copy stream. -/
def Loose (lease : QSAHiSparseLease) (cause : PyError)
    (runtime : QSAHiSparseRuntime CopyQueue) : Prop :=
  Accounted plan runtime ∨
    (Secured (fun other => other = lease) runtime ∧ cause.isException = true ∧
      (plan runtime.device.calls .handoffDrain).fault = none)

variable {plan}

theorem Staging.loose {lease : QSAHiSparseLease} (cause : PyError)
    (runtime : QSAHiSparseRuntime CopyQueue) (staging : Staging lease runtime) :
    Loose plan lease cause runtime :=
  Or.inl (Or.inl staging.secured)

theorem copying_live {slots : QSAHiSparseSlots} {lease : QSAHiSparseLease}
    (permits : slots.Permits lease [.copying]) : slots.Permits lease livePhases := by
  rcases permits with ⟨held, phase, present, member⟩
  rw [List.mem_singleton] at member
  exact ⟨held, phase, present, by rw [member]; decide⟩

variable (plan)

/-- A recorded chunk: its event covers everything submitted. -/
structure Chunked (lease : QSAHiSparseLease) (done : Mark)
    (runtime : QSAHiSparseRuntime CopyQueue) : Prop where
  secured : Secured noStray runtime
  covers : done = runtime.device.mark .copy
  copies : runtime.slots.Permits lease [.copying]

theorem submitChunk_leaves (lease : QSAHiSparseLease)
    (li start stop : Nat) {runtime : QSAHiSparseRuntime CopyQueue}
    (staging : Staging lease runtime) :
    Leaves (Chunked lease) (Loose plan lease)
      ((submitChunk (queueMachine plan) lease li start stop).run runtime) := by
  have queued (after : QSAHiSparseRuntime CopyQueue) (later : Later runtime after) :
      Secured (fun other => other = lease)
        { after with device := after.device.submit .copy (.copyChunk lease li start stop) } := by
    have here := staging_lasting lease _ _ staging later
    exact (@Secured.submitted _ _ here.secured (.copyChunk lease li start stop)
      (copying_live here.copies)).weaken fun other either => either.elim False.elim id
  -- A raise that the handler does not answer by a drain loses the copy.
  have raises (cause : PyError) (after : QSAHiSparseRuntime CopyQueue)
      (stray : Secured (fun other => other = lease) after)
      (handled : plan.Contained after.device.made -> cause.isException = true ∧
        (plan after.device.calls .handoffDrain).fault = none) : Loose plan lease cause after := by
    by_cases contained : plan.Contained after.device.made
    · exact Or.inr ⟨stray, handled contained⟩
    · exact Or.inl (Or.inr contained)
  unfold submitChunk
  apply (Leaves.bind_iff _ _ _).mpr
  apply submit_copy_leaves
  · intro submitting next
    have copies : submitting.slots.Permits lease [.copying] :=
      (staging_lasting lease _ _ staging next.later).copies
    apply (Leaves.bind_iff _ _ _).mpr
    apply record_leaves
    · intro recording nextRecord
      have stray := (queued submitting next.later).later nextRecord.later
      have covered := @Secured.recorded _ _ stray lease
        (fun cache => { cache with handoffEvent := some (recording.device.mark .copy) })
        (.own (recording.device.mark .copy))
        (List.mem_append_right _ (List.mem_singleton_self _)) rfl
      refine ⟨covered.weaken fun other both => both.2 both.1, rfl, ?_⟩
      rcases nextRecord.later with ⟨queue, rfl, _, _⟩
      exact copies
    · intro fault after faults nextRecord
      refine raises _ _ ((queued submitting next.later).later nextRecord.later) fun contained => ?_
      rw [nextRecord.calls]
      exact contained.chunkDone _ fault nextRecord.made faults
  · intro fault after faults next
    cases took : fault.took with
    | false => exact Or.inl (Or.inl (staging.secured.later next.later))
    | true =>
        refine raises _ _ (queued after next.later) fun contained => ?_
        change _ ∧ (plan after.device.calls .handoffDrain).fault = none
        rw [next.calls]
        exact contained.chunkCopy _ fault next.made faults took

/-- The wait for a chunk settles the lease again. -/
theorem synchronizeChunk_leaves {lease : QSAHiSparseLease} {done : Mark}
    {runtime : QSAHiSparseRuntime CopyQueue} (chunked : Chunked lease done runtime) :
    Leaves (fun _ => Staging lease) (Loose plan lease)
      ((device.zoom ((queueMachine plan).synchronize .chunkSynchronize done)).run runtime) := by
  apply synchronize_leaves
  · intro after later completed
    have secured := chunked.secured.later later
    have covers := chunked.covers
    rcases later with ⟨queue, rfl, submitted, _⟩
    refine ⟨secured, ?_, chunked.copies⟩
    intro index pending
    have reached := completed (by rw [covers]; rfl)
    have inside := pending.index_lt
    have waiting := pending.1
    rw [covers] at reached
    change runtime.device.submitted.length ≤ queue.completed at reached
    rw [<- submitted] at reached
    exact absurd waiting (by
      change ¬ queue.completed ≤ index
      change index < queue.submitted.length at inside
      omega)
  · exact fun _ _ later => Or.inl (Or.inl (chunked.secured.later later))

theorem handoffChunk_ensures (lease : QSAHiSparseLease)
    (li stop offset : Nat) :
    Ensures (Staging lease) (handoffChunk (queueMachine plan) config lease li stop offset)
      (fun _ => Staging lease) (Loose plan lease) := by
  have lasting := staging_lasting lease
  unfold handoffChunk
  refine Preserves.andThen (Reads.zoom (stagingSlice_reads lease _ _)).preserves Staging.loose
    fun _ => ?_
  refine Preserves.andThen ((submit_compute_waits plan _ _).preserves lasting) Staging.loose
    fun _ => ?_
  refine Preserves.andThen ((record_waits plan _ _).preserves lasting) Staging.loose
    fun producer => ?_
  refine Preserves.andThen ((waitEvent_waits plan _ _ _).preserves lasting) Staging.loose
    fun _ => ?_
  refine Ensures.bind (fun runtime staging =>
    submitChunk_leaves plan lease li _ _ staging) fun done => ?_
  refine Ensures.bind (fun runtime chunked => synchronizeChunk_leaves plan chunked) fun _ => ?_
  exact (lasting.steady plan).checkChunk.escaping Staging.loose

/-- A settled lease may get any events. -/
theorem Staging.withCache {lease : QSAHiSparseLease} {runtime : QSAHiSparseRuntime CopyQueue}
    (staging : Staging lease runtime) (update : RequestCache -> RequestCache) :
    Staging lease (runtime.withCache lease update) :=
  ⟨staging.secured.withCache lease update (Or.inl staging.settled), staging.settled,
    staging.copies⟩

theorem makeState_preserves (lease : QSAHiSparseLease) (li : Nat) (blocks : Int) :
    Preserves (Staging lease) (makeState (queueMachine plan) config lease li blocks) := by
  unfold makeState
  refine Preserves.bind (Reads.zoom (require_reads lease _)).preserves fun _ => ?_
  refine Preserves.bind (request_reads _ _).preserves fun _ => ?_
  refine Preserves.get_bind fun self => ?_
  refine Preserves.bind (Preserves.raiseIf _ _) fun _ => ?_
  refine Preserves.bind
    ((submit_compute_waits plan _ _).preserves (staging_lasting lease)) fun _ => ?_
  exact Preserves.modify fun runtime staging => staging.withCache _

theorem handoffLayers_ensures (lease : QSAHiSparseLease)
    (promptLen : Int) :
    Ensures (Staging lease) (handoffLayers (queueMachine plan) config lease promptLen)
      (fun _ => Staging lease) (Loose plan lease) := by
  have layer (li : Nat) : Ensures (Staging lease)
      (handoffLayer (queueMachine plan) config lease promptLen li)
      (fun _ => Staging lease) (Loose plan lease) := by
    unfold handoffLayer
    refine Ensures.bind (Ensures.forEach _ fun offset _ =>
      handoffChunk_ensures plan lease li _ offset) fun _ => ?_
    refine Preserves.andThen (((staging_lasting lease).steady plan).handoffTail lease li promptLen)
      Staging.loose fun _ => ?_
    refine Preserves.andThen (makeState_preserves plan lease li _) Staging.loose fun _ => ?_
    exact ((outside_waits plan _).preserves (staging_lasting lease)).escaping Staging.loose
  unfold handoffLayers
  by_cases offload : config.offload = true
  · rw [if_pos offload]
    refine Ensures.bind (Ensures.forEach _ fun li _ => layer li) fun _ => ?_
    exact fun runtime staging => staging.withCache _
  · rw [if_neg offload]
    exact fun runtime staging => staging

/-- Nothing is lost between the last event of a handoff and its end. -/
theorem finishHandoff_preserves (lease : QSAHiSparseLease) :
    Preserves (Secured noStray)
      (finishHandoff ledger lease
        (some (device.zoom ((queueMachine plan).ask .handoffQuery)))) := by
  unfold finishHandoff
  refine Preserves.bind (Reads.zoom (require_reads lease _)).preserves fun _ => ?_
  refine Preserves.bind ((ask_waits plan _).preserves (secured_lasting noStray)) fun completed => ?_
  refine Preserves.bind (Preserves.raiseIf _ _) fun _ => ?_
  intro runtime secured
  apply (ledger.leaves_zoom _ _).mpr
  apply (Leaves.bind_iff _ _ _).mpr
  apply (Leaves.get_iff _).mpr
  apply (Leaves.bind_iff _ _ _).mpr
  apply (Leaves.raiseIf_iff _ _ _).mpr
  refine ⟨fun _ => secured, fun _ => ?_⟩
  exact secured.withSlots (fun _ held => held)
    (fun _ _ permits => @setPhase_live _ _ _ .hostReady (by decide) permits)

theorem finishStaging_ensures (lease : QSAHiSparseLease) :
    Ensures (Staging lease) (finishStaging (queueMachine plan) lease)
      (fun _ => Secured noStray) (Loose plan lease) := by
  have lasting := staging_lasting lease
  unfold finishStaging
  refine Preserves.andThen ((record_waits plan _ _).preserves lasting) Staging.loose fun done => ?_
  refine Preserves.andThen ((synchronize_waits plan _ _).preserves lasting) Staging.loose
    fun _ => ?_
  refine Preserves.andThen (Preserves.modify fun runtime staging => staging.withCache _)
    Staging.loose fun _ => ?_
  refine Ensures.bind ?_ fun _ => fun runtime secured => secured
  intro runtime staging
  exact (finishHandoff_preserves plan lease runtime staging.secured).mono (fun _ _ => id)
    (fun _ _ secured => Or.inl (Or.inl secured))

/-- A lease that has just begun its handoff is settled. -/
theorem Secured.beginStaging {lease : QSAHiSparseLease} {runtime : QSAHiSparseRuntime CopyQueue}
    (secured : Secured noStray runtime) (prefills : runtime.slots.Permits lease [.prefill]) :
    Staging lease { runtime with slots := runtime.slots.setPhase lease .copying } where
  secured := secured.withSlots (fun _ held => held)
    (fun _ _ permits => setPhase_live (by decide) permits)
  settled := fun index pending =>
    permits_disjoint prefills (secured.live lease index pending) (by decide)
  copies := prefills.1.setPhase_permits .copying

theorem handoffBody_leaves {reqIdx : Int} (rid : String)
    {lease : QSAHiSparseLease} {runtime : QSAHiSparseRuntime CopyQueue}
    (secured : Secured noStray runtime) (found : runtime.requests.get? reqIdx = some lease) :
    Leaves (fun _ => Secured noStray) (Loose plan lease)
      ((handoffBody (queueMachine plan) config reqIdx rid).run runtime) := by
  have lasting := secured_lasting noStray
  have loosen (cause : PyError) (after : QSAHiSparseRuntime CopyQueue)
      (secured : Secured noStray after) : Loose plan lease cause after := Or.inl (Or.inl secured)
  unfold handoffBody
  apply (Leaves.bind_iff _ _ _).mpr
  apply Leaves.mono (request_leaves reqIdx rid runtime)
  · rintro other after ⟨rfl, foundOther, _⟩
    rw [found] at foundOther
    cases foundOther
    apply (Leaves.bind_iff _ _ _).mpr
    apply (Leaves.get_iff _).mpr
    refine Preserves.andThen ((outside_waits plan _).preserves lasting) loosen ?_ after secured
    intro _ asking secured
    apply (Leaves.bind_iff _ _ _).mpr
    apply (ledger.leaves_zoom _ _).mpr
    apply Leaves.mono (beginHandoff_outcome asking.slots lease)
    · rintro _ slots ⟨⟨prefills, _⟩, rfl⟩
      have staging := secured.beginStaging prefills
      refine Preserves.andThen ((outside_waits plan _).preserves (staging_lasting lease))
        Staging.loose ?_ _ staging
      intro _
      refine Ensures.bind (handoffLayers_ensures plan lease _) fun _ => ?_
      refine Ensures.bind (finishStaging_ensures plan lease) fun done => ?_
      refine Preserves.andThen ((lasting.steady plan).snapshotLease) loosen fun _ => ?_
      refine Preserves.andThen ((ask_waits plan _).preserves lasting) loosen fun same => ?_
      refine Preserves.andThen (Preserves.raiseIf _ _) loosen fun _ => ?_
      refine Preserves.andThen ((outside_waits plan _).preserves lasting) loosen fun _ => ?_
      exact fun _ secured => secured
    · rintro cause slots ⟨_, rfl⟩
      exact loosen cause asking secured
  · rintro cause _ rfl
    exact loosen cause _ secured

/-! ## The handler -/

/-- Every copy has completed once the copy stream is drained. -/
theorem settled_of_drained {queue : CopyQueue}
    (drained : queue.submitted.length ≤ queue.completed) (lease : QSAHiSparseLease) :
    Settled queue lease := by
  intro index pending
  have inside := pending.index_lt
  have waiting := pending.1
  omega

theorem handoffFailed_leaves {lease : QSAHiSparseLease} {cause : PyError}
    {runtime : QSAHiSparseRuntime CopyQueue} (loose : Loose plan lease cause runtime) :
    Leaves (fun _ => Accounted plan) (fun _ => Accounted plan)
      ((handoffFailed (queueMachine plan) lease).run runtime) := by
  have drained : Leaves (fun _ => Accounted plan) (fun _ => Accounted plan)
      ((device.zoom ((queueMachine plan).drain .handoffDrain .copy)).run runtime) := by
    apply drain_leaves
    · intro after later completed
      rcases loose with accounted | ⟨stray, _, _⟩
      · exact accounted_lasting plan _ _ accounted later
      · exact Or.inl ((stray.later later).ofSettled fun other _ =>
          settled_of_drained (completed rfl) other)
    · intro _ after faults later
      rcases loose with accounted | ⟨_, _, clean⟩
      · exact accounted_lasting plan _ _ accounted later
      · exact absurd clean faults
  have closes : Preserves (Accounted plan) (do
      modify fun self : QSAHiSparseRuntime CopyQueue =>
        { self with slots := self.slots.setPhase lease .failed }
      device.zoom ((queueMachine plan).outside .eventLog)) := by
    refine Preserves.bind (Preserves.modify fun runtime accounted => ?_) fun _ => ?_
    · rcases accounted with secured | lost
      · exact Or.inl (secured.withSlots (fun _ held => held)
          (fun _ _ permits => setPhase_live (by decide) permits))
      · exact Or.inr lost
    · exact (outside_waits plan _).preserves (accounted_lasting plan)
  unfold handoffFailed
  apply (Leaves.tryFinally_iff _ _ _).mpr
  exact drained.mono (fun _ after => closes after) (fun _ after => closes after)

theorem handoff_ensures (reqIdx : Int) (rid : String) :
    Ensures (Secured noStray) (handoff (queueMachine plan) config reqIdx rid)
      (fun _ => Secured noStray) (fun _ => Accounted plan) := by
  intro runtime secured
  unfold handoff
  apply (Leaves.bind_iff _ _ _).mpr
  apply Leaves.mono (request_leaves reqIdx rid runtime)
  · rintro lease after ⟨rfl, found, _⟩
    apply (Leaves.exceptException_iff _ _ _).mpr
    apply (handoffBody_leaves plan rid secured found).mono
    · exact fun _ _ secured => secured
    · intro cause failed loose
      constructor
      · intro _
        apply (Leaves.bind_iff _ _ _).mpr
        exact (handoffFailed_leaves plan loose).mono (fun _ _ accounted => accounted)
          (fun _ _ accounted => accounted)
      · intro bare
        rcases loose with accounted | ⟨_, exception, _⟩
        · exact accounted
        · rw [bare] at exception
          cases exception
  · rintro _ _ rfl
    exact Or.inl secured

end Handoff

end Runtime
end QSAHiSparse

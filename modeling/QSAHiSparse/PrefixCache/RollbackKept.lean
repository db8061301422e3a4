import QSAHiSparse.PrefixCache.CaptureKept
import QSAHiSparse.PrefixCache.RestoreKept

namespace QSAHiSparse
namespace PrefixCache

open Foundation
open HostPrefix
open QSAHiSparse.Runtime (Machine)

/-!
# Rollbacks, releases and flushes keep the invariant

A rollback first waits for the stream of the restore.  From then on the record
has no stream, so its reader may be closed whenever the transaction ends.
-/

section Rollback

variable {δ υ Element : Type} {cache after : QSAHostPrefixCache δ υ Element}
  (machine : Machine δ) (config : PrefixConfig) (upstream : Upstream δ υ Element)

/-- The handle has a record whose stream was waited for. -/
def Waited (handle : CacheRequestHandle) (reader : Option Nat)
    (cache : QSAHostPrefixCache δ υ Element) : Prop :=
  Kept none cache ∧ (exists record, cache.restoring.get? handle = some record ∧
    record.restoreStream = none) ∧ cache.matched.get? handle = reader

theorem Waited.apart (handle : CacheRequestHandle) (reader : Option Nat) :
    Apart (Waited handle reader : QSAHostPrefixCache δ υ Element -> Prop) :=
  Kept.apart none fun _ matched restoring => (exists record, restoring.get? handle = some record ∧
    record.restoreStream = none) ∧ matched.get? handle = reader

theorem Waited.restoring {handle : CacheRequestHandle} {reader : Option Nat}
    (waited : Waited handle reader cache) : Restoring handle reader cache := by
  rcases waited with ⟨kept, ⟨record, found, _⟩, matched⟩
  exact ⟨kept, found ▸ Option.some_ne_none record, matched⟩

/-- The reader of the record is not being restored. -/
theorem Waited.idle {handle : CacheRequestHandle} {reader : Option Nat}
    (waited : Waited handle reader cache) :
    forall position, reader = some position -> awaited cache.history position = none := by
  rcases waited with ⟨kept, ⟨record, found, waitedFor⟩, matched⟩
  intro position same
  apply kept.drained.record_unawaited kept.owned found waitedFor
  rw [kept.owned.recorded handle record found, matched, same]

/-- A note in the record leaves its reader and its stream alone. -/
theorem Waited.note {handle : CacheRequestHandle} {reader : Option Nat}
    (waited : Waited handle reader cache) {update : RestoreRecord -> RestoreRecord}
    (sameReader : forall record, (update record).reader = record.reader)
    (sameStream : forall record, (update record).restoreStream = record.restoreStream) :
    Waited handle reader (cache.updateRecord handle update) := by
  rcases waited with ⟨kept, ⟨record, found, waitedFor⟩, matched⟩
  refine ⟨kept.updateRecord handle sameReader sameStream, ⟨update record, ?_, ?_⟩, ?_⟩
  · unfold QSAHostPrefixCache.updateRecord
    simp only [found]
    exact Dict.get?_set_self _ _ _
  · rw [sameStream, waitedFor]
  · unfold QSAHostPrefixCache.updateRecord
    simp only [found]
    exact matched

theorem note_waited {handle : CacheRequestHandle} {reader : Option Nat}
    {update : RestoreRecord -> RestoreRecord}
    (sameReader : forall record, (update record).reader = record.reader)
    (sameStream : forall record, (update record).restoreStream = record.restoreStream) :
    Preserves (Waited handle reader : QSAHostPrefixCache δ υ Element -> Prop)
      (note handle update) :=
  Preserves.modify fun _ waited => waited.note sameReader sameStream

theorem writeRequest_preserves {fact : QSAHostPrefixCache δ υ Element -> Prop} (apart : Apart fact)
    (req : Nat) (update : Req -> Req) :
    Preserves fact (writeRequest req update : Method (QSAHostPrefixCache δ υ Element) _) :=
  within_preserves apart _

/-! ## Stages -/

theorem drainRestore_ensures (handle : CacheRequestHandle) (reader : Option Nat)
    (record : RestoreRecord) :
    Ensures
      (fun cache => Kept none cache ∧ cache.restoring.get? handle = some record ∧
        cache.matched.get? handle = reader)
      (drainRestore upstream handle record) (fun _ => Waited handle reader)
      (fun _ => Kept none) := by
  rintro cache ⟨kept, found, matched⟩
  unfold drainRestore
  cases stream : record.restoreStream with
  | none => exact ⟨kept, ⟨record, found, stream⟩, matched⟩
  | some stream =>
      have apart : Apart fun cache : QSAHostPrefixCache δ υ Element => Kept none cache ∧
          cache.restoring.get? handle = some record ∧ cache.matched.get? handle = reader :=
        Kept.apart none fun _ matched restoring => restoring.get? handle = some record ∧
          matched.get? handle = reader
      apply (Leaves.bind_iff _ _ _).mpr
      apply (within_preserves apart _ cache ⟨kept, found, matched⟩).mono
      · rintro _ waited ⟨keptAfter, foundAfter, matchedAfter⟩
        apply (Leaves.modify_iff _ _).mpr
        have drained := keptAfter.drained.drainRestore foundAfter (by assumption)
        have owned : Owned none (waited.updateRecord handle fun record =>
            { record with restoreStream := none }) :=
          keptAfter.owned.updateRecord handle fun _ => rfl
        have dated : Dated none (waited.updateRecord handle fun record =>
            { record with restoreStream := none }) := keptAfter.dated.updateRecord handle _
        have same : (waited.updateRecord handle fun record =>
            { record with restoreStream := none }) =
              waited.setRecord handle { record with restoreStream := none } := by
          unfold QSAHostPrefixCache.updateRecord
          simp only [foundAfter]
        rw [same] at drained owned dated ⊢
        refine ⟨⟨owned.log fun _ => rfl, drained, dated.log trivial, keptAfter.accounted⟩,
          ⟨_, Dict.get?_set_self _ _ _, rfl⟩, matchedAfter⟩
      · exact fun _ _ holds => holds.1

theorem readSuffix_waited (req : Nat) (reqIdx : Option Int) (handle : CacheRequestHandle)
    (record : RestoreRecord) (reader : Option Nat) :
    Preserves (Waited handle reader : QSAHostPrefixCache δ υ Element -> Prop)
      (readSuffix req reqIdx handle record) := by
  refine Preserves.get_bind fun state => ?_
  dsimp only
  split
  · exact note_waited (fun _ => rfl) fun _ => rfl
  · exact Preserves.pure _

/-- The record of the handle leaves. -/
theorem Waited.popRecord {handle : CacheRequestHandle} {reader : Option Nat}
    (waited : Waited handle reader cache) : Kept none (cache.popRecord handle) := by
  apply waited.1.popRecord
  intro record found position reads
  apply waited.idle position
  rw [← waited.2.2, ← waited.1.owned.recorded handle record found, reads]

theorem rollbackChunk_ensures (req : Nat) (handle : CacheRequestHandle) (record : RestoreRecord)
    (reader : Option Nat) :
    Ensures (Waited handle reader) (rollbackChunk config upstream req handle record)
      (fun _ => Kept none) (fun _ => Kept none) := by
  have rest : Ensures (Waited handle reader) (do
      writeRequest req (Req.setLengths record.previousAllocated record.previousCommitted)
      modify fun self => self.popRecord handle
      releaseAbortedRequest upstream handle) (fun _ => Kept none) (fun _ => Kept none) := by
    refine Preserves.andThen (writeRequest_preserves (Waited.apart handle reader) _ _)
      (fun _ _ waited => waited.1) fun _ => ?_
    intro state waited
    apply (Leaves.bind_iff _ _ _).mpr
    apply (Leaves.modify_iff _ _).mpr
    exact releaseAborted_kept upstream handle _ waited.popRecord
  unfold rollbackChunk
  cases record.suffix.join with
  | none => exact rest
  | some suffix =>
      have noted : Ensures (Waited handle reader) (do
          note handle fun record => { record with suffix := some none }
          writeRequest req (Req.setLengths record.previousAllocated record.previousCommitted)
          modify fun self => self.popRecord handle
          releaseAbortedRequest upstream handle) (fun _ => Kept none) (fun _ => Kept none) :=
        Preserves.andThen (note_waited (fun _ => rfl) fun _ => rfl)
          (fun _ _ waited => waited.1) fun _ => rest
      dsimp only
      split
      · exact Preserves.andThen (within_preserves (Waited.apart handle reader) _)
          (fun _ _ waited => waited.1) fun _ => noted
      · exact noted

theorem identifyLease_waited (reqIdx : Option Int) (handle : CacheRequestHandle)
    (reader : Option Nat) :
    Preserves (Waited handle reader : QSAHostPrefixCache δ υ Element -> Prop)
      (identifyLease reqIdx handle) := by
  refine Preserves.get_bind fun state => ?_
  refine Preserves.bind (note_waited (fun _ => rfl) fun _ => rfl) fun _ => ?_
  exact note_waited (fun _ => rfl) fun _ => rfl

theorem drainLease_waited (req : Nat) (handle : CacheRequestHandle) (record : RestoreRecord)
    (reader : Option Nat) :
    Preserves (Waited handle reader : QSAHostPrefixCache δ υ Element -> Prop)
      (drainLease machine config req handle record) := by
  have apart := @Waited.apart δ υ Element handle reader
  unfold drainLease
  refine Preserves.ite (fun _ => Preserves.pure _) fun _ => ?_
  refine Preserves.get_bind fun state => ?_
  have after : forall drained : Bool,
      Preserves (Waited handle reader : QSAHostPrefixCache δ υ Element -> Prop)
        (if drained = true then
          note handle fun record => { record with drained := true }
        else do
          let lease <- releaseRow machine config record.reqIdx.join (state.request req).rid
          note handle fun record => { record with lease := some lease, drained := true }) := by
    intro drained
    refine Preserves.ite (fun _ => note_waited (fun _ => rfl) fun _ => rfl) fun _ => ?_
    refine Preserves.bind ?_ fun lease => note_waited (fun _ => rfl) fun _ => rfl
    unfold releaseRow
    split
    · exact Preserves.pure _
    · exact within_preserves apart _
  cases record.lease.join with
  | none => exact after false
  | some lease =>
      refine Preserves.bind ?_ after
      unfold QSAHostPrefixCache.leaseDrained
      split
      · exact Preserves.bind (Preserves.getItem _ _) fun _ => Preserves.pure _
      · exact Preserves.pure _

theorem freeAllocations_waited (handle : CacheRequestHandle) (record : RestoreRecord)
    (reader : Option Nat) :
    Preserves (Waited handle reader) (freeAllocations upstream handle record) := by
  unfold freeAllocations
  refine Preserves.ite (fun _ => Preserves.pure _) fun _ => ?_
  refine Preserves.bind (within_preserves (Waited.apart handle reader) _) fun _ => ?_
  exact note_waited (fun _ => rfl) fun _ => rfl

theorem releaseOwnership_preserves {fact : QSAHostPrefixCache δ υ Element -> Prop}
    (apart : Apart fact) (req : Nat) : Preserves fact (releaseOwnership upstream req) := by
  have last : Preserves fact (do
      within (upstream.markKvReleased req)
      writeRequest req (Req.setLengths 0 0)
      writeRequest req fun request => { request with prefixLen := 0 }) := by
    refine Preserves.bind (within_preserves apart _) fun _ => ?_
    exact Preserves.bind (writeRequest_preserves apart _ _) fun _ => writeRequest_preserves apart _ _
  have row : Preserves fact (do
      let self <- get
      if (self.request req).kv.reqPoolIdx ≠ none then
        within (upstream.freeRow req)
      else
        pure ⟨⟩
      within (upstream.markKvReleased req)
      writeRequest req (Req.setLengths 0 0)
      writeRequest req fun request => { request with prefixLen := 0 }) := by
    refine Preserves.get_bind fun state => ?_
    split
    · exact Preserves.bind (within_preserves apart _) fun _ => last
    · exact last
  unfold releaseOwnership
  refine Preserves.get_bind fun state => ?_
  split
  · exact Preserves.bind (within_preserves apart _) fun _ => row
  · exact row

/-! ## The end of a transaction -/

theorem forgetRestore_ensures (handle : CacheRequestHandle) (reader : Option Nat) :
    Ensures (Waited handle reader : QSAHostPrefixCache δ υ Element -> Prop)
      (forgetRestore handle reader) (fun _ => Kept none) (fun _ => Kept none) := by
  intro cache waited
  rcases waited.restoring.forget waited.idle with ⟨after, ran, kept⟩
  apply (Leaves.bind_iff _ _ _).mpr
  rw [ran]
  exact kept

theorem finishRollback_ensures (handle : CacheRequestHandle) (record : RestoreRecord) :
    Ensures (Waited handle record.reader : QSAHostPrefixCache δ υ Element -> Prop)
      (finishRollback machine handle record) (fun _ => Kept none) (fun _ => Kept none) := by
  have apart := @Waited.apart δ υ Element handle record.reader
  intro cache waited
  apply (Leaves.bind_iff _ _ _).mpr
  apply (Leaves.tryCatch_iff _ _ _).mpr
  refine Leaves.mono (show Leaves (fun _ => Waited handle record.reader)
    (fun _ => Waited handle record.reader) _ from ?_) ?_ ?_
  · cases record.lease.join with
    | none => exact waited
    | some lease => exact within_preserves apart _ cache waited
  · exact fun _ after waitedAfter => forgetRestore_ensures handle record.reader after waitedAfter
  · intro cause after waitedAfter
    apply (Leaves.bind_iff _ _ _).mpr
    apply (Leaves.get_iff _).mpr
    split
    · apply (Leaves.bind_iff _ _ _).mpr
      exact (forgetRestore_ensures handle record.reader after waitedAfter).mono
        (fun _ _ kept => kept) fun _ _ kept => kept
    · exact waitedAfter.1

/-- The record that is read has the reader of the handle. -/
theorem readRecord_leaves {handle : CacheRequestHandle} {reader : Option Nat}
    (waited : Waited handle reader cache) :
    Leaves (fun record after => after = cache ∧ record.reader = reader) (fun _ _ => False)
      ((readRecord handle).run cache) := by
  rcases waited with ⟨kept, ⟨record, found, _⟩, matched⟩
  unfold readRecord
  apply (Leaves.bind_iff _ _ _).mpr
  apply (Leaves.get_iff _).mpr
  apply (Leaves.getItem_iff _ _ _).mpr
  refine ⟨fun missing => ?_, fun other present => ⟨rfl, ?_⟩⟩
  · exact absurd (found.symm.trans missing) (Option.some_ne_none _)
  · rw [kept.owned.recorded handle other present, matched]

theorem rollbackFresh_ensures (req : Nat) (reqIdx : Option Int) (handle : CacheRequestHandle)
    (reader : Option Nat) :
    Ensures (Waited handle reader) (rollbackFresh machine config upstream req reqIdx handle)
      (fun _ => Kept none) (fun _ => Kept none) := by
  have escapes : forall (cause : PyError) (state : QSAHostPrefixCache δ υ Element),
      Waited handle reader state -> Kept none state := fun _ _ waited => waited.1
  refine Preserves.andThen (identifyLease_waited reqIdx handle reader) escapes fun _ => ?_
  intro first waited
  apply (Leaves.bind_iff _ _ _).mpr
  apply (readRecord_leaves waited).mono
  · rintro record _ ⟨same, _⟩
    rw [same]
    have rest : Ensures (Waited handle reader) (do
        drainLease machine config req handle record
        let record <- readRecord handle
        freeAllocations upstream handle record
        releaseOwnership upstream req
        finishRollback machine handle record) (fun _ => Kept none) (fun _ => Kept none) := by
      refine Preserves.andThen (drainLease_waited machine config req handle record reader) escapes
        fun _ => ?_
      intro second waitedSecond
      apply (Leaves.bind_iff _ _ _).mpr
      apply (readRecord_leaves waitedSecond).mono
      · rintro record _ ⟨same, reads⟩
        rw [same]
        have last : Ensures (Waited handle reader) (do
            freeAllocations upstream handle record
            releaseOwnership upstream req
            finishRollback machine handle record) (fun _ => Kept none) (fun _ => Kept none) := by
          refine Preserves.andThen (freeAllocations_waited upstream handle record reader) escapes
            fun _ => ?_
          refine Preserves.andThen (releaseOwnership_preserves upstream (Waited.apart handle reader)
            req) escapes fun _ => ?_
          rw [← reads]
          exact finishRollback_ensures machine handle record
        exact last second waitedSecond
      · exact fun _ _ => False.elim
    exact rest first waited
  · exact fun _ _ => False.elim

theorem rollbackRequest_kept (req : Nat) :
    Preserves (Kept none) (rollbackRequest machine config upstream req) := by
  intro cache kept
  apply (Leaves.bind_iff _ _ _).mpr
  apply (Leaves.get_iff _).mpr
  dsimp only
  cases found : cache.restoring.get? (cache.handle req) with
  | none => exact releaseAborted_kept upstream _ cache kept
  | some record =>
      apply (Leaves.bind_iff _ _ _).mpr
      apply (drainRestore_ensures upstream (cache.handle req) _ record cache ⟨kept, found, rfl⟩).mono
      · intro _ drained waited
        have rest : Ensures
            (Waited (cache.handle req) (cache.matched.get? (cache.handle req))) (do
              readSuffix req (cache.request req).kv.reqPoolIdx (cache.handle req) record
              let record <- readRecord (cache.handle req)
              if record.fresh = true then
                rollbackFresh machine config upstream req (cache.request req).kv.reqPoolIdx
                  (cache.handle req)
              else
                rollbackChunk config upstream req (cache.handle req) record)
            (fun _ => Kept none) (fun _ => Kept none) := by
          refine Preserves.andThen (readSuffix_waited req _ _ record _)
            (fun _ _ waited => waited.1) fun _ => ?_
          intro second waitedSecond
          apply (Leaves.bind_iff _ _ _).mpr
          apply (readRecord_leaves waitedSecond).mono
          · rintro record _ ⟨same, _⟩
            rw [same]
            split
            · exact rollbackFresh_ensures machine config upstream req _ _ _ second waitedSecond
            · exact rollbackChunk_ensures config upstream req _ record _ second waitedSecond
          · exact fun _ _ => False.elim
        exact rest drained waited
      · exact fun _ _ => id

theorem rollbackPrefixForExtend_kept (reqs : List Nat) :
    Preserves (Kept none) (rollbackPrefixForExtend machine config upstream reqs) :=
  Preserves.forEach reqs fun req _ => rollbackRequest_kept machine config upstream req

/-! ## Releases and flushes -/

theorem claimKvRow_kept (req : Nat) : Preserves (Kept none) (claimKvRow upstream req) := by
  refine Preserves.get_bind fun cache => ?_
  refine Preserves.bind (Preserves.raiseIf _ _) fun _ => ?_
  exact within_preserves (Kept.apart_only none) _

theorem onRelease_kept (req : Nat) (checkpointed : Bool) :
    Preserves (Kept none) (onRelease upstream req checkpointed) := by
  refine Preserves.get_bind fun cache => ?_
  refine Preserves.bind (releaseAborted_kept upstream _) fun _ => ?_
  exact within_preserves (Kept.apart_only none) _

/-- A flush in the middle of its closes: what is still matched is listed. -/
structure Flushing (epoch : Nat) (handles : List CacheRequestHandle)
    (cache : QSAHostPrefixCache δ υ Element) : Prop where
  kept : Kept none cache
  idle : forall handle, cache.restoring.get? handle = none
  listed : forall handle, cache.matched.get? handle ≠ none -> handle ∈ handles
  epoch : cache.host.cache.epoch = epoch

theorem closeMatches_ensures (epoch : Nat) (handles : List CacheRequestHandle) :
    Ensures (Flushing epoch handles) (forM handles (releaseAbortedRequest upstream))
      (fun _ => Flushing epoch [])
      (fun _ after => Kept none after ∧ after.host.cache.epoch = epoch) := by
  induction handles with
  | nil => exact fun _ flushing => flushing
  | cons handle handles previous =>
      rw [List.forM_cons]
      apply Ensures.bind _ fun _ => previous
      intro cache flushing
      apply (releaseAborted_leaves upstream flushing.kept handle).mono
      · rintro _ after ⟨kept, aborted⟩
        refine ⟨kept, ?_, ?_, aborted.epoch.trans flushing.epoch⟩
        · rw [aborted.restoring]
          exact flushing.idle
        · intro other matched
          rw [aborted.matched] at matched
          by_cases same : other = handle
          · rw [if_pos ⟨same, flushing.idle handle⟩] at matched
            exact absurd rfl matched
          · rw [if_neg fun both => same both.1] at matched
            exact (List.mem_cons.mp (flushing.listed other matched)).resolve_left same
      · rintro _ after ⟨kept, aborted⟩
        exact ⟨kept, aborted.epoch.trans flushing.epoch⟩

/-- A dictionary of no entries. -/
theorem size_eq_zero {κ α : Type} [DecidableEq κ] {dict : Dict κ α} (empty : dict.size = 0)
    (key : κ) : dict.get? key = none := by
  apply Dict.get?_eq_none_iff.mpr
  rw [Dict.keys, List.length_eq_zero_iff.mp empty]
  exact List.not_mem_nil

/-- A flush begins a new epoch, or raises in the old one. -/
theorem dropHostPrefixes_leaves (kept : Kept none cache) :
    Leaves
      (fun _ after => Kept none after ∧
        after.host.cache.epoch = cache.host.cache.epoch + 1)
      (fun _ after => Kept none after ∧ after.host.cache.epoch = cache.host.cache.epoch)
      ((dropHostPrefixes upstream).run cache) := by
  apply (Leaves.bind_iff _ _ _).mpr
  apply (Leaves.get_iff _).mpr
  apply (Leaves.bind_iff _ _ _).mpr
  apply (Leaves.raiseIf_iff _ _ _).mpr
  refine ⟨fun _ => ⟨kept, rfl⟩, fun unrecorded => ?_⟩
  have flushing : Flushing cache.host.cache.epoch cache.matched.keys cache :=
    { kept := kept
      idle := size_eq_zero (not_not.mp unrecorded)
      listed := fun handle matched => by
        rcases Option.ne_none_iff_exists'.mp matched with ⟨reader, found⟩
        exact Dict.mem_keys_iff.mpr ⟨reader, found⟩
      epoch := rfl }
  apply (Leaves.bind_iff _ _ _).mpr
  apply (closeMatches_ensures upstream cache.host.cache.epoch cache.matched.keys cache flushing).mono
  · intro _ after closed
    have unmatched : forall handle, after.matched.get? handle = none := by
      intro handle
      apply Classical.byContradiction
      exact fun matched => List.not_mem_nil (closed.listed handle matched)
    exact ⟨closed.kept.flush unmatched, congrArg Nat.succ closed.epoch⟩
  · exact fun _ _ => id

theorem dropHostPrefixes_kept : Preserves (Kept none) (dropHostPrefixes upstream) := by
  intro cache kept
  exact (dropHostPrefixes_leaves upstream kept).mono (fun _ _ => And.left) fun _ _ => And.left

/-- A flush is refused while any allocation is not settled. -/
theorem dropHostPrefixes_refused (recorded : cache.restoring.size ≠ 0) :
    (dropHostPrefixes upstream).run cache =
      .error (.runtimeError "QSA prefix flush cannot race a restore") cache := by
  unfold dropHostPrefixes raiseIf
  rw [EStateM.run_bind, EStateM.run_get]
  simp only [if_pos recorded]
  rfl

/-! ## Every call -/

theorem perform_kept (operation : Operation δ υ Element) :
    Preserves (Kept none) (perform machine config upstream operation) := by
  cases operation with
  | matchPrefix params =>
      exact Preserves.bind (matchPrefix_kept config upstream params) fun _ => Preserves.pure _
  | preparePrefixForExtend reqs => exact preparePrefixForExtend_kept upstream reqs
  | prefixDeviceIndices req =>
      exact Preserves.bind (prefixDeviceIndices_kept upstream req) fun _ => Preserves.pure _
  | maybeHandToSession req => exact maybeHandToSession_kept machine config upstream req
  | rollbackPrefixForExtend reqs => exact rollbackPrefixForExtend_kept machine config upstream reqs
  | beginCapture req =>
      exact Preserves.bind (beginCapture_kept config upstream req) fun _ => Preserves.pure _
  | copyCapture frame => exact copyCapture_kept machine config upstream frame
  | convergeCapture frame => exact convergeCapture_kept upstream frame
  | publishCapture frame => exact publishCapture_kept machine frame
  | checkpoint req limit => exact checkpoint_kept machine config upstream req limit
  | claimKvRow req =>
      exact Preserves.bind (claimKvRow_kept upstream req) fun _ => Preserves.pure _
  | onRelease req checkpointed => exact onRelease_kept upstream req checkpointed
  | releaseAbortedRequest handle => exact releaseAborted_kept upstream handle
  | reset =>
      exact Preserves.bind (dropHostPrefixes_kept upstream) fun _ =>
        within_preserves (Kept.apart_only none) _
  | releaseHostResources =>
      exact Preserves.bind (dropHostPrefixes_kept upstream) fun _ =>
        within_preserves (Kept.apart_only none) _
  | invalidateModel => exact dropHostPrefixes_kept upstream
  | outside change => exact within_preserves (Kept.apart_only none) (modify change)

/-- The cache after a run of calls, some of which may have raised. -/
def afterCalls (limits : CacheLimits) (world : World δ υ Element)
    (operations : List (Operation δ υ Element)) : QSAHostPrefixCache δ υ Element :=
  callAll (perform machine config upstream) (.initial limits world) operations

theorem afterCalls_kept (limits : CacheLimits) {world : World δ υ Element}
    (unused : world.runtime.requests.values = []) (operations : List (Operation δ υ Element)) :
    Kept none (afterCalls machine config upstream limits world operations) :=
  callAll_induction (Kept none)
    (fun _ operation kept => (perform_kept machine config upstream operation).finalState kept)
    operations _ (.initial limits unused)

end Rollback

end PrefixCache
end QSAHiSparse

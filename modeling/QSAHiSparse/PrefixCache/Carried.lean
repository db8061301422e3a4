import QSAHiSparse.HostPrefix.Lasting
import QSAHiSparse.PrefixCache.Rollback

namespace QSAHiSparse
namespace PrefixCache

open Foundation
open Ledger (QSAHiSparseLease)
open HostPrefix
open QSAHiSparse.Runtime (Machine)

/-!
# Facts that the calls carry along

Matches, allocations, rollbacks, releases and flushes change the cache in few
ways.  They run programs of the world, pin and unpin entries and close readers,
and keep their own books.  A fact that survives each of these survives every
such call, from any state and however the call ends.
-/

section Facts

variable {δ υ Element : Type} (machine : Machine δ) (config : PrefixConfig)
  (upstream : Upstream δ υ Element)

/-- The programs of the world that these calls run. -/
inductive Outward : forall {α : Type}, Method (World δ υ Element) α -> Prop where
  | votes (signature : Signature) : Outward (upstream.votes signature)
  | forceMiss : Outward upstream.forceMiss
  | matchPrefix (params : MatchPrefixParams) : Outward (upstream.matchPrefix params)
  | prefixDeviceIndices (req : Nat) : Outward (upstream.prefixDeviceIndices req)
  | releaseAbortedRequest (handle : CacheRequestHandle) :
      Outward (upstream.releaseAbortedRequest handle)
  | claimKvRow (req : Nat) : Outward (upstream.claimKvRow req)
  | onRelease (req : Nat) (checkpointed : Bool) : Outward (upstream.onRelease req checkpointed)
  | reset : Outward upstream.reset
  | releaseHostResources : Outward upstream.releaseHostResources
  | alloc (count : Int) : Outward (upstream.alloc count)
  | free (indices : List Int) : Outward (upstream.free indices)
  | releaseStateSlot (req : Nat) : Outward (upstream.releaseStateSlot req)
  | freeRow (req : Nat) : Outward (upstream.freeRow req)
  | markKvReleased (req : Nat) : Outward (upstream.markKvReleased req)
  | synchronizeStream (stream : Nat) : Outward (upstream.synchronizeStream stream)
  | release (reqIdx : Int) (rid : String) :
      Outward (runtimePart.zoom (Runtime.release machine config.runtime reqIdx rid))
  | afterRelease (lease : QSAHiSparseLease) :
      Outward (runtimePart.zoom (Runtime.afterRelease machine lease))
  | writeRequest (req : Nat) (update : Req -> Req) :
      Outward (modify fun world =>
        { world with
          requests := Function.update world.requests req (update (world.requests req)) })

/-- The event is not the begin of a restore. -/
def PrefixEvent.BeginsNoRestore (event : PrefixEvent Element) : Prop :=
  forall reader stream snapshot, event ≠ .restoring reader stream snapshot

/-- A fact that the programs of the world, the changes of the host cache that
close readers only, the books of the cache and its other events do not touch. -/
structure Carried (fact : QSAHostPrefixCache δ υ Element -> Prop) : Prop where
  outward : forall {α : Type} {program : Method (World δ υ Element) α},
    Outward machine config upstream program -> Preserves fact (within program)
  host : forall cache host, Lasts none none cache.host host -> fact cache ->
    fact { cache with host }
  books : forall cache matched restoring, fact cache -> fact { cache with matched, restoring }
  logged : forall cache event, event.BeginsNoRestore -> fact cache -> fact (cache.log event)

variable {machine config upstream} {fact : QSAHostPrefixCache δ υ Element -> Prop}

namespace Carried

/-! ## Books -/

theorem setRecord (carried : Carried machine config upstream fact)
    {cache : QSAHostPrefixCache δ υ Element} (holds : fact cache) (handle : CacheRequestHandle)
    (record : RestoreRecord) : fact (cache.setRecord handle record) :=
  carried.books cache cache.matched _ holds

theorem updateRecord (carried : Carried machine config upstream fact)
    {cache : QSAHostPrefixCache δ υ Element} (holds : fact cache) (handle : CacheRequestHandle)
    (update : RestoreRecord -> RestoreRecord) : fact (cache.updateRecord handle update) := by
  unfold QSAHostPrefixCache.updateRecord
  cases cache.restoring.get? handle with
  | none => exact holds
  | some record => exact carried.setRecord holds handle (update record)

theorem popRecord (carried : Carried machine config upstream fact)
    {cache : QSAHostPrefixCache δ υ Element} (holds : fact cache) (handle : CacheRequestHandle) :
    fact (cache.popRecord handle) :=
  carried.books cache cache.matched _ holds

theorem popMatch (carried : Carried machine config upstream fact)
    {cache : QSAHostPrefixCache δ υ Element} (holds : fact cache) (handle : CacheRequestHandle) :
    fact (cache.popMatch handle) :=
  carried.books cache _ cache.restoring holds

theorem note (carried : Carried machine config upstream fact) (handle : CacheRequestHandle)
    (update : RestoreRecord -> RestoreRecord) : Preserves fact (note handle update) :=
  Preserves.modify fun _ holds => carried.updateRecord holds handle update

/-! ## Readers and signatures -/

theorem zoom {α : Type} (carried : Carried machine config upstream fact)
    {program : Method (PrefixObjects PrefixNamespace Element) α}
    (lasts : Keeps (Lasts none none) program) : Preserves fact (hostObjects.zoom program) := by
  intro cache holds
  apply (hostObjects.leaves_zoom _ _).mpr
  apply (lasts.leaves cache.host).mono
  · exact fun _ host between => carried.host cache host between holds
  · exact fun _ host between => carried.host cache host between holds

theorem closeReader (carried : Carried machine config upstream fact) (reader : Nat) :
    Preserves fact (PrefixCache.closeReader reader) := by
  refine Preserves.bind (Preserves.modify fun cache holds => ?_) fun _ => ?_
  · exact carried.logged cache (.closed reader) nofun holds
  · exact carried.zoom (closeReader_lasts reader)

theorem closeAny (carried : Carried machine config upstream fact) (reader : Option Nat) :
    Preserves fact (PrefixCache.closeAny reader) := by
  cases reader with
  | none => exact Preserves.pure _
  | some reader => exact carried.closeReader reader

theorem readSnapshot (reader : Nat) :
    Preserves fact (PrefixCache.readSnapshot reader) := by
  refine Preserves.get_bind fun cache => ?_
  cases cache.host.snapshotAt reader with
  | none => exact Preserves.throw _
  | some snapshot => exact Preserves.pure _

theorem readerSignature (reader : Option Nat) :
    Preserves fact (PrefixCache.readerSignature upstream reader) := by
  cases reader with
  | none => exact Preserves.pure _
  | some reader => exact Preserves.bind (readSnapshot reader) fun _ => Preserves.pure _

theorem imageIdentity (request : Req) :
    Preserves fact (PrefixCache.imageIdentity request : Method (QSAHostPrefixCache δ υ Element) _) := by
  unfold PrefixCache.imageIdentity
  cases request.identity with
  | text => exact Preserves.pure _
  | image identity => exact Preserves.pure _
  | bypass => exact Preserves.throw _

theorem converge (carried : Carried machine config upstream fact) (signature : Signature) :
    Preserves fact (PrefixCache.converge upstream signature) := by
  refine Preserves.bind (carried.outward (.votes signature)) fun votes => ?_
  cases votes with
  | none => exact Preserves.pure _
  | some votes => exact Preserves.raiseIf _ _

theorem releaseAbortedRequest (carried : Carried machine config upstream fact)
    (handle : CacheRequestHandle) :
    Preserves fact (PrefixCache.releaseAbortedRequest upstream handle) := by
  have last := carried.outward (.releaseAbortedRequest handle)
  unfold PrefixCache.releaseAbortedRequest
  refine Preserves.get_bind fun cache => ?_
  split
  · exact last
  · refine Preserves.bind (Preserves.modify fun _ holds => carried.popMatch holds _) fun _ => ?_
    cases cache.matched.get? handle with
    | none => exact last
    | some reader => exact Preserves.bind (carried.closeReader reader) fun _ => last

/-! ## Matches -/

theorem matchNothing (carried : Carried machine config upstream fact) (params : MatchPrefixParams)
    (handle : CacheRequestHandle) (namespaceKey : Option PrefixNamespace) :
    Preserves fact (PrefixCache.matchNothing upstream params handle namespaceKey) :=
  Preserves.bind (carried.converge _) fun _ => carried.outward (.matchPrefix params)

theorem keepMatch (carried : Carried machine config upstream fact) (params : MatchPrefixParams)
    (handle : CacheRequestHandle) (reader : Nat) :
    Preserves fact (PrefixCache.keepMatch upstream params handle reader) := by
  refine Preserves.bind (readSnapshot reader) fun snapshot => ?_
  refine Preserves.bind (Preserves.modify fun cache holds => ?_) fun _ => ?_
  · have matched := carried.books cache (cache.matched.set handle reader) cache.restoring holds
    exact carried.logged (cache.setMatch handle reader) (.matched handle reader snapshot) nofun
      matched
  · refine Preserves.bind (carried.outward (.matchPrefix params)) fun _ => ?_
    exact Preserves.bind (readSnapshot reader) fun _ => Preserves.pure _

theorem lookupMatch (carried : Carried machine config upstream fact) (params : MatchPrefixParams)
    (req : Nat) (handle : CacheRequestHandle) (namespaceKey : PrefixNamespace) :
    Preserves fact (PrefixCache.lookupMatch upstream params req handle namespaceKey) := by
  have acquires : forall identity, Keeps (Lasts none none)
      (acquire namespaceKey (tokenBytes params.key) (some params.key.length) true identity :
        Method (PrefixObjects PrefixNamespace Element) _) := by
    intro identity
    apply Keeps.of_leaves
    intro host
    exact (acquire_lasts namespaceKey _ _ true identity host).mono (fun _ _ => And.left)
      fun _ _ => id
  refine Preserves.get_bind fun cache => ?_
  refine Preserves.bind (imageIdentity _) fun identity => ?_
  refine Preserves.bind (carried.zoom (acquires identity)) fun reader => ?_
  refine Preserves.bind (Preserves.tryCatch ?_ fun cause => ?_) fun _ => ?_
  · exact Preserves.bind (readerSignature reader) fun _ => carried.converge _
  · exact Preserves.bind (carried.closeAny reader) fun _ => Preserves.throw _
  · cases reader with
    | none => exact carried.outward (.matchPrefix params)
    | some reader => exact carried.keepMatch params handle reader

theorem matchRequest (carried : Carried machine config upstream fact) (params : MatchPrefixParams)
    (req : Nat) : Preserves fact (PrefixCache.matchRequest config upstream params req) := by
  refine Preserves.get_bind fun cache => ?_
  dsimp only
  split
  · exact Preserves.bind (carried.converge _) fun _ => Preserves.throw _
  · refine Preserves.bind (carried.releaseAbortedRequest _) fun _ => ?_
    split
    · exact carried.matchNothing params _ none
    · refine Preserves.get_bind fun state => ?_
      split
      · exact carried.matchNothing params _ _
      · refine Preserves.bind (carried.outward .forceMiss) fun forced => ?_
        split
        · exact carried.matchNothing params _ _
        · exact carried.lookupMatch params req _ _

theorem matchPrefix (carried : Carried machine config upstream fact) (params : MatchPrefixParams) :
    Preserves fact (PrefixCache.matchPrefix config upstream params) := by
  unfold PrefixCache.matchPrefix
  cases params.req with
  | none => exact carried.outward (.matchPrefix params)
  | some req => exact carried.matchRequest params req

/-! ## Allocations -/

theorem checkPrepared (req : Nat) (handle : CacheRequestHandle) (reader : Option Nat) :
    Preserves fact (PrefixCache.checkPrepared req handle reader) := by
  refine Preserves.get_bind fun cache => ?_
  cases reader with
  | none => exact Preserves.raiseIf _ _
  | some reader =>
      refine Preserves.bind (readSnapshot reader) fun snapshot => ?_
      refine Preserves.bind (Preserves.raiseIf _ _) fun _ => ?_
      exact Preserves.bind (Preserves.getItem _ _) fun _ => Preserves.raiseIf _ _

theorem prepareRequest (carried : Carried machine config upstream fact) (req : Nat) :
    Preserves fact (PrefixCache.prepareRequest upstream req) := by
  refine Preserves.get_bind fun cache => ?_
  refine Preserves.bind (Preserves.raiseIf _ _) fun _ => ?_
  refine Preserves.bind (Preserves.modify fun _ holds => carried.setRecord holds _ _) fun _ => ?_
  refine Preserves.bind (readerSignature _) fun signature => ?_
  exact Preserves.bind (carried.converge _) fun _ => checkPrepared req _ _

theorem preparePrefixForExtend (carried : Carried machine config upstream fact) (reqs : List Nat) :
    Preserves fact (PrefixCache.preparePrefixForExtend upstream reqs) :=
  Preserves.forEach reqs fun req _ => carried.prepareRequest req

theorem prefixDeviceIndices (carried : Carried machine config upstream fact) (req : Nat) :
    Preserves fact (PrefixCache.prefixDeviceIndices upstream req) := by
  refine Preserves.get_bind fun cache => ?_
  dsimp only
  split
  · exact carried.outward (.prefixDeviceIndices req)
  · split
    · exact carried.outward (.prefixDeviceIndices req)
    · exact Preserves.pure _
    · refine Preserves.bind (carried.outward (.alloc _)) fun indices => ?_
      cases indices with
      | none => exact Preserves.throw _
      | some indices => exact Preserves.bind (carried.note _ _) fun _ => Preserves.pure _

/-! ## Rollbacks -/

theorem writeRequest (carried : Carried machine config upstream fact) (req : Nat)
    (update : Req -> Req) :
    Preserves fact (PrefixCache.writeRequest req update : Method (QSAHostPrefixCache δ υ Element) _) :=
  carried.outward (.writeRequest req update)

theorem drainRestore (carried : Carried machine config upstream fact) (handle : CacheRequestHandle)
    (record : RestoreRecord) : Preserves fact (PrefixCache.drainRestore upstream handle record) := by
  unfold PrefixCache.drainRestore
  cases record.restoreStream with
  | none => exact Preserves.pure _
  | some stream =>
      refine Preserves.bind (carried.outward (.synchronizeStream stream)) fun _ => ?_
      refine Preserves.modify fun cache holds => ?_
      exact carried.logged _ (.drained stream) nofun (carried.updateRecord holds _ _)

theorem readSuffix (carried : Carried machine config upstream fact) (req : Nat)
    (reqIdx : Option Int) (handle : CacheRequestHandle) (record : RestoreRecord) :
    Preserves fact (PrefixCache.readSuffix req reqIdx handle record) := by
  refine Preserves.get_bind fun cache => ?_
  dsimp only
  split
  · exact carried.note _ _
  · exact Preserves.pure _

theorem rollbackChunk (carried : Carried machine config upstream fact) (req : Nat)
    (handle : CacheRequestHandle) (record : RestoreRecord) :
    Preserves fact (PrefixCache.rollbackChunk config upstream req handle record) := by
  have rest : Preserves fact (do
      PrefixCache.writeRequest req
        (Req.setLengths record.previousAllocated record.previousCommitted)
      modify fun self => self.popRecord handle
      PrefixCache.releaseAbortedRequest upstream handle) := by
    refine Preserves.bind (carried.writeRequest req _) fun _ => ?_
    refine Preserves.bind (Preserves.modify fun _ holds => carried.popRecord holds _) fun _ => ?_
    exact carried.releaseAbortedRequest handle
  unfold PrefixCache.rollbackChunk
  cases record.suffix.join with
  | none => exact rest
  | some suffix =>
      have noted : Preserves fact (do
          PrefixCache.note handle fun record => { record with suffix := some none }
          PrefixCache.writeRequest req
            (Req.setLengths record.previousAllocated record.previousCommitted)
          modify fun self => self.popRecord handle
          PrefixCache.releaseAbortedRequest upstream handle) :=
        Preserves.bind (carried.note handle _) fun _ => rest
      dsimp only
      split
      · exact Preserves.bind (carried.outward (.free _)) fun _ => noted
      · exact noted

theorem drainLease (carried : Carried machine config upstream fact) (req : Nat)
    (handle : CacheRequestHandle) (record : RestoreRecord) :
    Preserves fact (PrefixCache.drainLease machine config req handle record) := by
  have released : forall reqIdx rid, Preserves fact (releaseRow machine config reqIdx rid) := by
    intro reqIdx rid
    cases reqIdx with
    | none => exact Preserves.pure _
    | some reqIdx => exact carried.outward (.release reqIdx rid)
  unfold PrefixCache.drainLease
  refine Preserves.ite (fun _ => Preserves.pure _) fun _ => ?_
  refine Preserves.get_bind fun cache => ?_
  have after : forall drained : Bool, Preserves fact
      (if drained = true then
        PrefixCache.note handle fun record => { record with drained := true }
      else do
        let lease <- releaseRow machine config record.reqIdx.join (cache.request req).rid
        PrefixCache.note handle fun record =>
          { record with lease := some lease, drained := true }) := by
    intro drained
    refine Preserves.ite (fun _ => carried.note _ _) fun _ => ?_
    exact Preserves.bind (released _ _) fun _ => carried.note _ _
  cases record.lease.join with
  | none => exact after false
  | some lease =>
      refine Preserves.bind ?_ after
      unfold QSAHostPrefixCache.leaseDrained
      split
      · exact Preserves.bind (Preserves.getItem _ _) fun _ => Preserves.pure _
      · exact Preserves.pure _

theorem releaseOwnership (carried : Carried machine config upstream fact) (req : Nat) :
    Preserves fact (PrefixCache.releaseOwnership upstream req) := by
  have last : Preserves fact (do
      within (upstream.markKvReleased req)
      PrefixCache.writeRequest req (Req.setLengths 0 0)
      PrefixCache.writeRequest req fun request => { request with prefixLen := 0 }) := by
    refine Preserves.bind (carried.outward (.markKvReleased req)) fun _ => ?_
    exact Preserves.bind (carried.writeRequest req _) fun _ => carried.writeRequest req _
  have row : Preserves fact (do
      let self <- get
      if (self.request req).kv.reqPoolIdx ≠ none then
        within (upstream.freeRow req)
      else
        pure ⟨⟩
      within (upstream.markKvReleased req)
      PrefixCache.writeRequest req (Req.setLengths 0 0)
      PrefixCache.writeRequest req fun request => { request with prefixLen := 0 }) := by
    refine Preserves.get_bind fun cache => ?_
    split
    · exact Preserves.bind (carried.outward (.freeRow req)) fun _ => last
    · exact last
  unfold PrefixCache.releaseOwnership
  refine Preserves.get_bind fun cache => ?_
  split
  · exact Preserves.bind (carried.outward (.releaseStateSlot req)) fun _ => row
  · exact row

theorem forgetRestore (carried : Carried machine config upstream fact)
    (handle : CacheRequestHandle) (reader : Option Nat) :
    Preserves fact (PrefixCache.forgetRestore handle reader) := by
  refine Preserves.bind (carried.closeAny reader) fun _ => ?_
  exact Preserves.modify fun _ holds => carried.popRecord (carried.popMatch holds _) _

theorem finishRollback (carried : Carried machine config upstream fact)
    (handle : CacheRequestHandle) (record : RestoreRecord) :
    Preserves fact (PrefixCache.finishRollback machine handle record) := by
  unfold PrefixCache.finishRollback
  refine Preserves.bind (Preserves.tryCatch ?_ fun cause => ?_) fun _ => carried.forgetRestore _ _
  · cases record.lease.join with
    | none => exact Preserves.pure _
    | some lease => exact carried.outward (.afterRelease lease)
  · refine Preserves.get_bind fun cache => ?_
    split
    · exact Preserves.bind (carried.forgetRestore _ _) fun _ => Preserves.throw _
    · exact Preserves.throw _

theorem rollbackFresh (carried : Carried machine config upstream fact) (req : Nat)
    (reqIdx : Option Int) (handle : CacheRequestHandle) :
    Preserves fact (PrefixCache.rollbackFresh machine config upstream req reqIdx handle) := by
  have reads : Preserves fact (readRecord handle) :=
    Preserves.get_bind fun cache => Preserves.getItem _ _
  have identifies : Preserves fact (identifyLease reqIdx handle) :=
    Preserves.get_bind fun cache => Preserves.bind (carried.note _ _) fun _ => carried.note _ _
  refine Preserves.bind identifies fun _ => ?_
  refine Preserves.bind reads fun record => ?_
  refine Preserves.bind (carried.drainLease req handle record) fun _ => ?_
  refine Preserves.bind reads fun record => ?_
  refine Preserves.bind ?_ fun _ => ?_
  · unfold freeAllocations
    refine Preserves.ite (fun _ => Preserves.pure _) fun _ => ?_
    exact Preserves.bind (carried.outward (.free _)) fun _ => carried.note _ _
  · exact Preserves.bind (carried.releaseOwnership req) fun _ => carried.finishRollback _ _

theorem rollbackRequest (carried : Carried machine config upstream fact) (req : Nat) :
    Preserves fact (PrefixCache.rollbackRequest machine config upstream req) := by
  refine Preserves.get_bind fun cache => ?_
  dsimp only
  split
  · exact carried.releaseAbortedRequest _
  · refine Preserves.bind (carried.drainRestore _ _) fun _ => ?_
    refine Preserves.bind (carried.readSuffix req _ _ _) fun _ => ?_
    refine Preserves.bind (Preserves.get_bind fun state => Preserves.getItem _ _) fun record => ?_
    split
    · exact carried.rollbackFresh req _ _
    · exact carried.rollbackChunk req _ _

theorem rollbackPrefixForExtend (carried : Carried machine config upstream fact) (reqs : List Nat) :
    Preserves fact (PrefixCache.rollbackPrefixForExtend machine config upstream reqs) :=
  Preserves.forEach reqs fun req _ => carried.rollbackRequest req

/-! ## Releases and flushes -/

theorem claimKvRow (carried : Carried machine config upstream fact) (req : Nat) :
    Preserves fact (PrefixCache.claimKvRow upstream req) := by
  refine Preserves.get_bind fun cache => ?_
  exact Preserves.bind (Preserves.raiseIf _ _) fun _ => carried.outward (.claimKvRow req)

theorem onRelease (carried : Carried machine config upstream fact) (req : Nat)
    (checkpointed : Bool) : Preserves fact (PrefixCache.onRelease upstream req checkpointed) := by
  refine Preserves.get_bind fun cache => ?_
  refine Preserves.bind (carried.releaseAbortedRequest _) fun _ => ?_
  exact carried.outward (.onRelease req checkpointed)

theorem dropHostPrefixes (carried : Carried machine config upstream fact) :
    Preserves fact (PrefixCache.dropHostPrefixes upstream) := by
  refine Preserves.get_bind fun cache => ?_
  refine Preserves.bind (Preserves.raiseIf _ _) fun _ => ?_
  refine Preserves.bind ?_ fun _ => carried.zoom reset_lasts
  exact Preserves.forEach _ fun handle _ => carried.releaseAbortedRequest handle

end Carried

/-- The calls that neither restore nor capture, and that no environment makes. -/
def Operation.plain : Operation δ υ Element -> Bool
  | .maybeHandToSession _ | .beginCapture _ | .copyCapture _ | .convergeCapture _
  | .publishCapture _ | .checkpoint _ _ | .outside _ => false
  | _ => true

/-- Every plain call carries the fact along. -/
theorem Carried.perform (carried : Carried machine config upstream fact)
    {operation : Operation δ υ Element} (plain : operation.plain = true) :
    Preserves fact (perform machine config upstream operation) := by
  cases operation with
  | matchPrefix params => exact Preserves.bind (carried.matchPrefix params) fun _ => Preserves.pure _
  | preparePrefixForExtend reqs => exact carried.preparePrefixForExtend reqs
  | prefixDeviceIndices req =>
      exact Preserves.bind (carried.prefixDeviceIndices req) fun _ => Preserves.pure _
  | rollbackPrefixForExtend reqs => exact carried.rollbackPrefixForExtend reqs
  | claimKvRow req => exact Preserves.bind (carried.claimKvRow req) fun _ => Preserves.pure _
  | onRelease req checkpointed => exact carried.onRelease req checkpointed
  | releaseAbortedRequest handle => exact carried.releaseAbortedRequest handle
  | reset => exact Preserves.bind carried.dropHostPrefixes fun _ => carried.outward .reset
  | releaseHostResources =>
      exact Preserves.bind carried.dropHostPrefixes fun _ => carried.outward .releaseHostResources
  | invalidateModel => exact carried.dropHostPrefixes
  | _ => cases plain

end Facts

end PrefixCache
end QSAHiSparse

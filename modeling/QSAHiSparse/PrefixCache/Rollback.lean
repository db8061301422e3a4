import QSAHiSparse.PrefixCache.Capture

namespace QSAHiSparse
namespace PrefixCache

open Foundation
open Ledger (QSAHiSparseLease)
open HostPrefix
open QSAHiSparse.Runtime (Machine)

/-!
# Rollbacks, releases and flushes

A failed allocation is undone stage by stage.  Each stage is noted in the record
of the request, so that a rollback that raises can be called again.
-/

section Rollback

variable {δ υ Element : Type} (machine : Machine δ) (config : PrefixConfig)
  (upstream : Upstream δ υ Element)

/-- `record[...] = ...` -/
def note (handle : CacheRequestHandle) (update : RestoreRecord -> RestoreRecord) :
    Method (QSAHostPrefixCache δ υ Element) PUnit :=
  modify fun self => self.updateRecord handle update

/-- `req.kv.… = …` and `req.prefix_len = …`. -/
def writeRequest (req : Nat) (update : Req -> Req) :
    Method (QSAHostPrefixCache δ υ Element) PUnit :=
  within (modify fun world =>
    { world with requests := Function.update world.requests req (update (world.requests req)) })

def Req.setLengths (allocated committed : Int) (request : Req) : Req :=
  { request with
    kv := { request.kv with kvAllocatedLen := allocated, kvCommittedLen := committed } }

/-- The restore's stream is waited for. -/
def drainRestore (handle : CacheRequestHandle) (record : RestoreRecord) :
    Method (QSAHostPrefixCache δ υ Element) PUnit :=
  match record.restoreStream with
  | none => pure ⟨⟩
  | some stream => do
      within (upstream.synchronizeStream stream)
      modify fun self =>
        (self.updateRecord handle fun record => { record with restoreStream := none }).log
          (.drained stream)

/-- The row's positions from `start` to `stop`. -/
def Pools.rowSlice {Element : Type} (pools : Pools Element) (reqIdx start stop : Int) : List Int :=
  (List.range (stop - start).toNat).map fun (offset : Nat) =>
    pools.reqToToken reqIdx (start + offset)

/-- What the failed call added to the row is read once. -/
def readSuffix (req : Nat) (reqIdx : Option Int) (handle : CacheRequestHandle)
    (record : RestoreRecord) : Method (QSAHostPrefixCache δ υ Element) PUnit := do
  let self <- get
  let stop := (self.request req).kv.kvAllocatedLen
  let start := (record.prefixIndices.map fun indices => (indices.length : Int)).getD
    record.previousAllocated
  if record.suffix = none then
    note handle fun record =>
      { record with
        suffix := some (reqIdx.bind fun reqIdx =>
          if stop > record.previousAllocated then
            some (self.world.pools.rowSlice reqIdx start stop)
          else
            none) }
  else
    pure ⟨⟩

/-- The rollback of a request that owned an earlier chunk.  The rest of the page
that chunk has begun stays. -/
def rollbackChunk (req : Nat) (handle : CacheRequestHandle) (record : RestoreRecord) :
    Method (QSAHostPrefixCache δ υ Element) PUnit := do
  match record.suffix.join with
  | none => pure ⟨⟩
  | some suffix => do
      let skip := ((-record.previousAllocated) % config.pageSize).toNat
      if suffix.length > skip then
        within (upstream.free (suffix.drop skip))
      else
        pure ⟨⟩
      note handle fun record => { record with suffix := some none }
  writeRequest req (Req.setLengths record.previousAllocated record.previousCommitted)
  modify fun self => self.popRecord handle
  releaseAbortedRequest upstream handle

/-- `record.setdefault("req_idx", ...)` and the lease of that row, looked up
once. -/
def identifyLease (reqIdx : Option Int) (handle : CacheRequestHandle) :
    Method (QSAHostPrefixCache δ υ Element) PUnit := do
  let self <- get
  note handle fun record => { record with reqIdx := some (record.reqIdx.getD reqIdx) }
  note handle fun record =>
    { record with
      lease := some (record.lease.getD
        (record.reqIdx.join.bind self.world.runtime.slots.active.get?)) }

/-- Whether the lease is active and already drained. -/
def QSAHostPrefixCache.leaseDrained (self : QSAHostPrefixCache δ υ Element)
    (lease : QSAHiSparseLease) : Method (QSAHostPrefixCache δ υ Element) Bool := do
  if self.world.runtime.slots.active.get? lease.reqPoolIdx = some lease then do
    let phase <- getItem self.world.runtime.slots.phases lease.reqPoolIdx
    return decide (phase = .drained ∨ phase = .logicalFlushed)
  else
    return false

/-- `self.runtime.release(record["req_idx"], req.rid)`; no row is in no table. -/
def releaseRow (reqIdx : Option Int) (rid : String) :
    Method (QSAHostPrefixCache δ υ Element) (Option QSAHiSparseLease) :=
  match reqIdx with
  | none => return none
  | some reqIdx => within (runtimePart.zoom (Runtime.release machine config.runtime reqIdx rid))

/-- The lease is drained, once. -/
def drainLease (req : Nat) (handle : CacheRequestHandle) (record : RestoreRecord) :
    Method (QSAHostPrefixCache δ υ Element) PUnit := do
  if record.drained = true then
    pure ⟨⟩
  else do
    let self <- get
    let drained <- match record.lease.join with
      | none => pure false
      | some lease => self.leaseDrained lease
    if drained = true then
      note handle fun record => { record with drained := true }
    else do
      let lease <- releaseRow machine config record.reqIdx.join (self.request req).rid
      note handle fun record => { record with lease := some lease, drained := true }

/-- The pages of the prefix and of the suffix are given back, once. -/
def freeAllocations (handle : CacheRequestHandle) (record : RestoreRecord) :
    Method (QSAHostPrefixCache δ υ Element) PUnit := do
  let allocations := record.prefixIndices.toList ++ record.suffix.join.toList
  if allocations = [] then
    pure ⟨⟩
  else do
    within (upstream.free allocations.flatten)
    note handle fun record => { record with prefixIndices := none, suffix := some none }

/-- The state slot and the row are given back, and the lengths cleared. -/
def releaseOwnership (req : Nat) : Method (QSAHostPrefixCache δ υ Element) PUnit := do
  let self <- get
  if (self.request req).kv.mambaPoolIdx ≠ none then
    within (upstream.releaseStateSlot req)
  else
    pure ⟨⟩
  let self <- get
  if (self.request req).kv.reqPoolIdx ≠ none then
    within (upstream.freeRow req)
  else
    pure ⟨⟩
  within (upstream.markKvReleased req)
  writeRequest req (Req.setLengths 0 0)
  writeRequest req fun request => { request with prefixLen := 0 }

/-- The transaction is over: the reader is closed and both entries leave. -/
def forgetRestore (handle : CacheRequestHandle) (reader : Option Nat) :
    Method (QSAHostPrefixCache δ υ Element) PUnit := do
  closeAny reader
  modify fun self => (self.popMatch handle).popRecord handle

/-- Whether the lease is no longer this transaction's to release. -/
def QSAHostPrefixCache.leaseGone (self : QSAHostPrefixCache δ υ Element) :
    Option QSAHiSparseLease -> Prop
  | none => True
  | some lease =>
      self.world.runtime.slots.active.get? lease.reqPoolIdx ≠ some lease ∨
        lease ∈ self.world.runtime.pendingReleases

instance (self : QSAHostPrefixCache δ υ Element) (lease : Option QSAHiSparseLease) :
    Decidable (self.leaseGone lease) := by
  cases lease with
  | none => exact instDecidableTrue
  | some lease => exact inferInstanceAs (Decidable (_ ∨ _))

/-- `after_release`, after which the transaction ends unless it raised with the
lease still held. -/
def finishRollback (handle : CacheRequestHandle) (record : RestoreRecord) :
    Method (QSAHostPrefixCache δ υ Element) PUnit := do
  let lease := record.lease.join
  tryCatch
    (match lease with
    | none => pure ⟨⟩
    | some lease => within (runtimePart.zoom (Runtime.afterRelease machine lease)))
    fun cause => do
      let self <- get
      if self.leaseGone lease then do
        forgetRestore handle record.reader
        throw cause
      else
        throw cause
  forgetRestore handle record.reader

/-- The record of a handle in the middle of its rollback. -/
def readRecord (handle : CacheRequestHandle) :
    Method (QSAHostPrefixCache δ υ Element) RestoreRecord := do
  let self <- get
  getItem self.restoring handle

/-- The rollback of a request that began with this allocation. -/
def rollbackFresh (req : Nat) (reqIdx : Option Int) (handle : CacheRequestHandle) :
    Method (QSAHostPrefixCache δ υ Element) PUnit := do
  identifyLease reqIdx handle
  let record <- readRecord handle
  drainLease machine config req handle record
  let record <- readRecord handle
  freeAllocations upstream handle record
  releaseOwnership upstream req
  finishRollback machine handle record

/-- The turn of one request. -/
def rollbackRequest (req : Nat) : Method (QSAHostPrefixCache δ υ Element) PUnit := do
  let self <- get
  let handle := self.handle req
  match self.restoring.get? handle with
  | none => releaseAbortedRequest upstream handle
  | some record => do
      let reqIdx := (self.request req).kv.reqPoolIdx
      drainRestore upstream handle record
      readSuffix req reqIdx handle record
      let record <- readRecord handle
      if record.fresh = true then
        rollbackFresh machine config upstream req reqIdx handle
      else
        rollbackChunk config upstream req handle record

def rollbackPrefixForExtend (reqs : List Nat) :
    Method (QSAHostPrefixCache δ υ Element) PUnit :=
  forM reqs (rollbackRequest machine config upstream)

/-! ## Releases and flushes -/

def claimKvRow (req : Nat) : Method (QSAHostPrefixCache δ υ Element) Bool := do
  let self <- get
  raiseIf (self.restoring.contains (self.handle req) = true)
    (.runtimeError "QSA prefix restore must drain through rollback before release")
  within (upstream.claimKvRow req)

def onRelease (req : Nat) (checkpointed : Bool) :
    Method (QSAHostPrefixCache δ υ Element) PUnit := do
  let self <- get
  releaseAbortedRequest upstream (self.handle req)
  within (upstream.onRelease req checkpointed)

def dropHostPrefixes : Method (QSAHostPrefixCache δ υ Element) PUnit := do
  let self <- get
  raiseIf (self.restoring.size ≠ 0) (.runtimeError "QSA prefix flush cannot race a restore")
  forM self.matched.keys (releaseAbortedRequest upstream)
  hostObjects.zoom HostPrefix.reset

/-- `reset`, after the constructor. -/
def reset : Method (QSAHostPrefixCache δ υ Element) PUnit := do
  dropHostPrefixes upstream
  within upstream.reset

def releaseHostResources : Method (QSAHostPrefixCache δ υ Element) PUnit := do
  dropHostPrefixes upstream
  within upstream.releaseHostResources

def invalidateModel : Method (QSAHostPrefixCache δ υ Element) PUnit :=
  dropHostPrefixes upstream

/-! ## The calls -/

/-- The calls on the cache, the steps of a capture, and whatever else happens
outside. -/
inductive Operation (δ υ Element : Type) where
  | matchPrefix (params : MatchPrefixParams)
  | preparePrefixForExtend (reqs : List Nat)
  | prefixDeviceIndices (req : Nat)
  | maybeHandToSession (req : Nat)
  | rollbackPrefixForExtend (reqs : List Nat)
  | beginCapture (req : Nat)
  | copyCapture (frame : Nat)
  | convergeCapture (frame : Nat)
  | publishCapture (frame : Nat)
  | checkpoint (req : Nat) (limit : Int)
  | claimKvRow (req : Nat)
  | onRelease (req : Nat) (checkpointed : Bool)
  | releaseAbortedRequest (handle : CacheRequestHandle)
  | reset
  | releaseHostResources
  | invalidateModel
  | outside (change : World δ υ Element -> World δ υ Element)

def perform : Operation δ υ Element -> Method (QSAHostPrefixCache δ υ Element) PUnit
  | .matchPrefix params => do
      let _ <- matchPrefix config upstream params
      pure ⟨⟩
  | .preparePrefixForExtend reqs => preparePrefixForExtend upstream reqs
  | .prefixDeviceIndices req => do
      let _ <- prefixDeviceIndices upstream req
      pure ⟨⟩
  | .maybeHandToSession req => maybeHandToSession machine config upstream req
  | .rollbackPrefixForExtend reqs => rollbackPrefixForExtend machine config upstream reqs
  | .beginCapture req => do
      let _ <- beginCapture config upstream req
      pure ⟨⟩
  | .copyCapture frame => copyCapture machine config upstream frame
  | .convergeCapture frame => convergeCapture upstream frame
  | .publishCapture frame => publishCapture machine frame
  | .checkpoint req limit => checkpoint machine config upstream req limit
  | .claimKvRow req => do
      let _ <- claimKvRow upstream req
      pure ⟨⟩
  | .onRelease req checkpointed => onRelease upstream req checkpointed
  | .releaseAbortedRequest handle => releaseAbortedRequest upstream handle
  | .reset => reset upstream
  | .releaseHostResources => releaseHostResources upstream
  | .invalidateModel => invalidateModel upstream
  | .outside change => within (modify change)

end Rollback

end PrefixCache
end QSAHiSparse

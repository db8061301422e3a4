import QSAHiSparse.Runtime.State

namespace QSAHiSparse
namespace Runtime

open Foundation
open Ledger

/-!
# Batches and eager forwards

`begin_batch` admits the rows of a forward, `after_store` closes and writes back
blocks, and `selected` resolves a selection.
-/

section Batches

variable {δ : Type} (machine : Machine δ) (config : Config)

/-- `_request`: the lease of the cache that the row index names. -/
def request (reqIdx : Int) (rid : String) : Method (QSAHiSparseRuntime δ) QSAHiSparseLease := do
  let self <- get
  let lease <- getItem self.requests reqIdx
  ledger.zoom (require lease [])
  raiseIf (lease.rid ≠ rid ∨ lease.generation ≠ self.reqGeneration reqIdx)
    (.runtimeError "QSA P2 request identity/generation changed")
  return lease

/-- `_RequestCache(self, lease)`. -/
def constructCache (lease : QSAHiSparseLease) : Method (QSAHiSparseRuntime δ) PUnit := do
  let _ <- ledger.zoom (ringSlice lease)
  device.zoom (machine.submit .constructCache .compute (.clearSlot lease))
  modify fun self => self.withCache lease fun _ => RequestCache.fresh config

/-- `_acquire_request`. -/
def acquireRequest (reqIdx : Int) (rid : String) : Method (QSAHiSparseRuntime δ) PUnit := do
  let self <- get
  let lease <- ledger.zoom (acquire reqIdx (self.reqGeneration reqIdx) rid)
  constructCache machine config lease
  modify fun self => { self with requests := self.requests.set reqIdx lease }
  device.zoom (machine.outside .eventLog)

/-! ## Admission of a batch -/

inductive ForwardMode where
  | idle
  | extend
  | decode
  | other
deriving DecidableEq, Repr

/-- What `begin_batch` reads of a forward batch. -/
structure ForwardBatch where
  mode : ForwardMode
  batchSize : Nat
  reqPoolIndices : Option (List Int)
  seqLens : Option (List Int)
  rids : List String
  extendSeqLens : List Int

/-- A row of a batch: row index, request identity, length. -/
structure Row where
  reqIdx : Int
  rid : String
  seq : Int
deriving DecidableEq, Repr

/-- `zip(req_indices, batch.rids, seq_lens)`. -/
def rowsOf (reqIndices : List Int) (rids : List String) (seqLens : List Int) : List Row :=
  (reqIndices.zip (rids.zip seqLens)).map fun entry => ⟨entry.1, entry.2.1, entry.2.2⟩

/-- A row without a cache acquires one, unless it decodes. -/
def admitRequest (decode : Bool) (row : Row) : Method (QSAHiSparseRuntime δ) PUnit := do
  let self <- get
  if self.requests.contains row.reqIdx = true then
    pure ⟨⟩
  else do
    raiseIf (decode = true) (.runtimeError "QSA P2 decode without an admitted lease")
    acquireRequest machine config row.reqIdx row.rid

/-- The ownership check of a graph row. -/
def checkGraphRow (graph : Bool) (lease : QSAHiSparseLease) :
    Method (QSAHiSparseRuntime δ) PUnit :=
  if graph = true then do
    let self <- get
    raiseIf ((self.caches lease).states.length ≠ config.layers ∨
        exists state, state ∈ (self.caches lease).states ∧ state.generation ≠ lease.generation)
      (.runtimeError "QSA graph native/layer ownership changed")
    let same <- device.zoom (machine.ask .leaseSnapshot)
    raiseIf (same = false) (.runtimeError "QSA graph native/layer ownership changed")
  else
    pure ⟨⟩

/-- The turn of one row in the loop of `begin_batch`. -/
def admitRow (decode graph : Bool) (row : Row) :
    Method (QSAHiSparseRuntime δ) QSAHiSparseLease := do
  raiseIf (¬ (1 ≤ row.seq ∧ row.seq ≤ config.capacity))
    (.valueError "QSA P2 request exceeds context capacity")
  admitRequest machine config decode row
  let lease <- request row.reqIdx row.rid
  ledger.zoom (require lease [if decode then .decode else .prefill])
  checkGraphRow machine config graph lease
  return lease

/-- The update of one cache: its length, and in decode its step count and its
compressed length. -/
def RequestCache.advance (decode : Bool) (seq : Int) (cache : RequestCache) : RequestCache :=
  if decode = true then
    { cache with
      seqLen := seq
      decodeSteps := cache.decodeSteps + 1
      compressedLen := if cache.host then seq / 4 else cache.compressedLen }
  else
    { cache with seqLen := seq }

/-- The write locations and the routing buffers of a decode batch. -/
def routeDecode (states : List QSAHiSparseLease) (seqLens : List Int) :
    Method (QSAHiSparseRuntime δ) PUnit := do
  let self <- get
  let locations <- states.mapM fun lease =>
    ledger.zoom (ringWriteLocation lease (self.caches lease).seqLen)
  device.zoom (machine.outside .routing)
  modify fun self =>
    { self with
      rawWriteLocs := locations
      rowSlots := states.map QSAHiSparseLease.slot
      batchLens := seqLens.map (· / 4)
      real := states.length }

/-- The write locations of a prefill chunk. -/
def routeExtend (lease : QSAHiSparseLease) (extend : Int) :
    Method (QSAHiSparseRuntime δ) PUnit := do
  let self <- get
  let seqLen := (self.caches lease).seqLen
  let segment <- ledger.zoom (stagingSlice lease (seqLen - extend) seqLen)
  modify fun self =>
    { self with
      rawWriteLocs := (List.range (segment.stop - segment.start)).map (segment.start + ·) }

/-- The routing of a batch in offload mode. -/
def route (decode : Bool) (states : List QSAHiSparseLease) (seqLens extendSeqLens : List Int) :
    Method (QSAHiSparseRuntime δ) PUnit :=
  if config.offload = false then
    pure ⟨⟩
  else if decode = true then
    routeDecode machine states seqLens
  else
    match states, extendSeqLens with
    | lease :: _, extend :: _ => routeExtend lease extend
    | _, _ => throw (.indexError "list index out of range")

/-- The event of a batch; a decode event lists the ring locations. -/
def logBatch (decode : Bool) (states : List QSAHiSparseLease) :
    Method (QSAHiSparseRuntime δ) PUnit := do
  let self <- get
  forM (if decode = true then states else []) fun lease => do
    let _ <- ledger.zoom (ringWriteLocation lease (self.caches lease).seqLen)
    pure ⟨⟩
  device.zoom (machine.outside .eventLog)

/-- The part of `begin_batch` after every row has passed. -/
def startBatch (decode graph : Bool) (states : List QSAHiSparseLease)
    (seqLens extendSeqLens : List Int) : Method (QSAHiSparseRuntime δ) PUnit := do
  modify fun self =>
    { self with
      graphBatch := if graph then some (states.zip seqLens) else self.graphBatch
      forwardId := self.forwardId + 1
      batchRequests := states }
  forM (states.zip seqLens) fun row =>
    modify fun self => self.withCache row.1 (RequestCache.advance decode row.2)
  modify fun self => { self with offloaded := decode && config.offload }
  route machine config decode states seqLens extendSeqLens
  logBatch machine decode states

/-- The strict comparison of the rows on the device. -/
def checkDeviceRows : Method (QSAHiSparseRuntime δ) PUnit :=
  if config.strict = true then do
    let same <- device.zoom (machine.ask .deviceRows)
    raiseIf (same = false) (.runtimeError "QSA P2 CPU/GPU row identities or lengths differ")
  else
    pure ⟨⟩

/-- The rows of a batch that is not idle. -/
def beginRows (decode graph : Bool) (batch : ForwardBatch) (reqIndices seqLens : List Int) :
    Method (QSAHiSparseRuntime δ) PUnit := do
  raiseIf (reqIndices.length ≠ batch.batchSize ∨ seqLens.length ≠ batch.batchSize ∨
      ¬ reqIndices.Nodup)
    (.runtimeError "QSA P2 batch metadata aliases or pads requests")
  checkDeviceRows machine config
  let states <- (rowsOf reqIndices batch.rids seqLens).mapM (admitRow machine config decode graph)
  raiseIf (¬ (states.map QSAHiSparseLease.slot).Nodup ∨ ¬ batch.rids.Nodup ∨ "" ∈ batch.rids)
    (.runtimeError "QSA P2 batch aliases physical slots or request identities")
  startBatch machine config decode graph states seqLens batch.extendSeqLens

/-- The checks and the rows of an extend or a decode batch. -/
def beginForward (decode graph : Bool) (batch : ForwardBatch) :
    Method (QSAHiSparseRuntime δ) PUnit := do
  let self <- get
  match batch.reqPoolIndices, batch.seqLens with
  | some reqIndices, some seqLens => do
      raiseIf (¬ (1 ≤ batch.batchSize ∧ batch.batchSize ≤ self.slots.geometry.maxRequests) ∨
          (decode = false ∧ batch.batchSize ≠ 1) ∨ batch.rids.length ≠ batch.batchSize)
        (.runtimeError "QSA P2 requires real bounded rows and CPU metadata")
      beginRows machine config decode graph batch reqIndices seqLens
  | _, _ => throw (.runtimeError "QSA P2 requires real bounded rows and CPU metadata")

def beginBatch (batch : ForwardBatch) (graph : Bool) : Method (QSAHiSparseRuntime δ) PUnit :=
  match batch.mode with
  | .idle => modify fun self => { self with batchRequests := [] }
  | .other => throw (.runtimeError "QSA P2 supports plain extend/decode only")
  | .extend => beginForward machine config false graph batch
  | .decode => beginForward machine config true graph batch

/-! ## Eager forwards -/

/-- The cache write of a decode forward at `write_locations`. -/
def storeKv (li : Nat) : Method (QSAHiSparseRuntime δ) PUnit := do
  let self <- get
  raiseIf (config.offload = true ∧ self.rawWriteLocs.length ≠ self.batchRequests.length)
    (.runtimeError "QSA P2 raw writer does not match current batch")
  forM self.batchRequests fun lease =>
    device.zoom (machine.submit .storeRow .compute
      (.storeRow lease li ((self.caches lease).seqLen - 1)))

/-- `current_stream.wait_event(event)`; an event that was never recorded is not
waited for. -/
def waitFor (site : Site) (stream : Stream) (event : Option Event) :
    Method (QSAHiSparseRuntime δ) PUnit := do
  let self <- get
  match event.bind self.markOf with
  | none => pure ⟨⟩
  | some mark => device.zoom (machine.waitEvent site stream mark)

/-- The strict mode's timing event. -/
def recordBegin : Method (QSAHiSparseRuntime δ) PUnit :=
  if config.strict = true then do
    let _ <- device.zoom (machine.record .copyBegin .copy)
    pure ⟨⟩
  else
    pure ⟨⟩

/-- The copy of the newest hot row and the record of its completion. -/
def writeBackBlock (lease : QSAHiSparseLease) (li : Nat) (block : Int) :
    Method (QSAHiSparseRuntime δ) PUnit := do
  device.zoom (machine.submit .writeback .copy (.writeBack lease li block))
  let done <- device.zoom (machine.record .writebackDone .copy)
  modify fun self => self.withCache lease (RequestCache.setDone li (.own done))

/-- A close in `after_store` of one request. -/
def closeLayer (lease : QSAHiSparseLease) (li : Nat) (block : Int) (state : LayerState) :
    Method (QSAHiSparseRuntime δ) PUnit := do
  raiseIf (state.generation ≠ lease.generation) (.runtimeError "stale QSA V3 writeback state")
  waitFor machine .closeWait .compute state.done
  device.zoom (machine.submit .closeBlock .compute (.closeBlock lease li block))
  let producer <- device.zoom (machine.record .closeProducer .compute)
  device.zoom (machine.waitEvent .writebackWait .copy producer)
  recordBegin machine config
  writeBackBlock machine lease li block

/-- `after_store` of one request. -/
def afterStoreRow (li : Nat) (lease : QSAHiSparseLease) :
    Method (QSAHiSparseRuntime δ) PUnit := do
  ledger.zoom (require lease [.decode])
  let self <- get
  let cache := self.caches lease
  if cache.offloaded = false ∨ cache.seqLen % 4 ≠ 0 then
    pure ⟨⟩
  else
    match cache.states[li]? with
    | none => throw (.indexError "list index out of range")
    | some state => closeLayer machine config lease li (cache.seqLen / 4 - 1) state

/-- The eager `after_store`. -/
def afterStore (li : Nat) : Method (QSAHiSparseRuntime δ) PUnit := do
  let self <- get
  forM (if self.offloaded = true then self.batchRequests else []) (afterStoreRow machine config li)

/-- The checks of one row in `selected`. -/
def checkSelected (li : Nat) (lease : QSAHiSparseLease) :
    Method (QSAHiSparseRuntime δ) PUnit := do
  let _ <- request lease.reqPoolIdx lease.rid
  ledger.zoom (require lease [.decode])
  let self <- get
  match (self.caches lease).states[li]? with
  | none => throw (.indexError "list index out of range")
  | some state =>
      raiseIf (state.generation ≠ lease.generation)
        (.runtimeError "stale QSA batched selected state")

/-- The wait of one row in `selected`. -/
def waitSelected (li : Nat) (lease : QSAHiSparseLease) :
    Method (QSAHiSparseRuntime δ) PUnit := do
  let self <- get
  match (self.caches lease).states[li]? with
  | none => throw (.indexError "list index out of range")
  | some state => waitFor machine .selectWait .compute state.done

/-- The eager `selected` of a selection with `rows` rows. -/
def selected (li rows : Nat) : Method (QSAHiSparseRuntime δ) PUnit := do
  let self <- get
  raiseIf (self.offloaded = false ∨
      ¬ (1 ≤ self.batchRequests.length ∧
        self.batchRequests.length ≤ self.slots.geometry.maxRequests) ∨
      rows ≠ self.batchRequests.length)
    (.runtimeError "QSA P2 selection rows do not match current decode batch")
  forM self.batchRequests (checkSelected li)
  forM self.batchRequests (waitSelected machine li)
  forM self.batchRequests fun lease =>
    device.zoom (machine.submit .resolve .compute
      (.resolve lease li (self.caches lease).seqLen))

/-- The coordinator admits a staged lease. -/
def admitLease (lease : QSAHiSparseLease) : Method (QSAHiSparseRuntime δ) PUnit :=
  ledger.zoom (admitDecode lease)

end Batches

end Runtime
end QSAHiSparse

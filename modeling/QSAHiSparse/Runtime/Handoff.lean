import QSAHiSparse.Decode.Handoff
import QSAHiSparse.Runtime.Batches

namespace QSAHiSparse
namespace Runtime

open Foundation
open Ledger
open Decode (chunkOffsets)

/-!
# Handoff

`handoff` moves a prefilled request to its decode lease: every layer's complete
blocks go to the host in chunks, each waited for, and the open tail goes to the
ring.
-/

section Handoff

variable {δ : Type} (machine : Machine δ) (config : Config)

/-- The strict comparison of a chunk. -/
def checkChunk : Method (QSAHiSparseRuntime δ) PUnit :=
  if config.strict = true then do
    let same <- device.zoom (machine.ask .chunkBytes)
    raiseIf (same = false) (.assertionError "QSA P2 handoff K/V bytes differ")
  else
    pure ⟨⟩

/-- The copy of a packed chunk and the record of its completion. -/
def submitChunk (lease : QSAHiSparseLease) (li start stop : Nat) :
    Method (QSAHiSparseRuntime δ) Mark := do
  device.zoom (machine.submit .chunkCopy .copy (.copyChunk lease li start stop))
  let done <- device.zoom (machine.record .chunkDone .copy)
  modify fun self => self.withCache lease fun cache => { cache with handoffEvent := some done }
  return done

/-- A turn of the chunk loop; `stop` bounds the complete blocks. -/
def handoffChunk (lease : QSAHiSparseLease) (li stop offset : Nat) :
    Method (QSAHiSparseRuntime δ) PUnit := do
  let last := min (offset + 4096) stop
  let _ <- ledger.zoom (stagingSlice lease offset last)
  device.zoom (machine.submit .packChunk .compute (.packChunk lease li offset last))
  let producer <- device.zoom (machine.record .chunkProducer .compute)
  device.zoom (machine.waitEvent .chunkWait .copy producer)
  let done <- submitChunk machine lease li offset last
  device.zoom (machine.synchronize .chunkSynchronize done)
  checkChunk machine config

/-- The open tail of the prompt goes to the ring. -/
def handoffTail (lease : QSAHiSparseLease) (li : Nat) (promptLen : Int) :
    Method (QSAHiSparseRuntime δ) PUnit :=
  if promptLen % 4 ≠ 0 then do
    let _ <- ledger.zoom (stagingSlice lease (promptLen - promptLen % 4) promptLen)
    device.zoom (machine.submit .stageTail .compute (.stageTail lease li promptLen))
  else
    pure ⟨⟩

/-- `make_state`, the short prefix and the newest row. -/
def makeState (lease : QSAHiSparseLease) (li : Nat) (blocks : Int) :
    Method (QSAHiSparseRuntime δ) PUnit := do
  ledger.zoom (require lease [.copying])
  let _ <- request lease.reqPoolIdx lease.rid
  let self <- get
  raiseIf (config.layers ≤ (self.caches lease).states.length)
    (.indexError "list index out of range")
  device.zoom (machine.submit .stageHot .compute (.stageHot lease li blocks))
  modify fun self => self.withCache lease fun cache =>
    { cache with states := cache.states ++ [⟨none, lease.generation⟩] }

/-- The body of the layer loop. -/
def handoffLayer (lease : QSAHiSparseLease) (promptLen : Int) (li : Nat) :
    Method (QSAHiSparseRuntime δ) PUnit := do
  let stop := promptLen.toNat / 4 * 4
  forM (chunkOffsets stop) (handoffChunk machine config lease li stop)
  handoffTail machine lease li promptLen
  makeState machine config lease li (promptLen / 4)
  device.zoom (machine.outside .eventLog)

/-- The copies of every layer, in offload mode. -/
def handoffLayers (lease : QSAHiSparseLease) (promptLen : Int) :
    Method (QSAHiSparseRuntime δ) PUnit :=
  if config.offload = true then do
    forM (List.range config.layers) (handoffLayer machine config lease promptLen)
    modify fun self => self.withCache lease fun cache => { cache with offloaded := true }
  else
    pure ⟨⟩

/-- The snapshot of the lease for the graph. -/
def snapshotLease : Method (QSAHiSparseRuntime δ) PUnit :=
  if config.graphEnabled = true then
    device.zoom (machine.outside .leaseSnapshot)
  else
    pure ⟨⟩

/-- The last event of a handoff, and the end of its staging. -/
def finishStaging (lease : QSAHiSparseLease) : Method (QSAHiSparseRuntime δ) Mark := do
  let done <- device.zoom (machine.record .handoffDone .compute)
  device.zoom (machine.synchronize .handoffSynchronize done)
  modify fun self => self.withCache lease fun cache => { cache with handoffEvent := some done }
  finishHandoff ledger lease (some (device.zoom (machine.ask .handoffQuery)))
  return done

/-- `_handoff`. -/
def handoffBody (reqIdx : Int) (rid : String) :
    Method (QSAHiSparseRuntime δ) (QSAHiSparseLease × Mark) := do
  let lease <- request reqIdx rid
  let self <- get
  let promptLen := (self.caches lease).seqLen
  device.zoom (machine.outside .availableSize)
  ledger.zoom (beginHandoff lease)
  device.zoom (machine.outside .eventLog)
  handoffLayers machine config lease promptLen
  let done <- finishStaging machine lease
  snapshotLease machine config
  let same <- device.zoom (machine.ask .indexOwnership)
  raiseIf (same = false) (.assertionError "QSA P2 handoff changed logical index ownership")
  device.zoom (machine.outside .eventLog)
  return (lease, done)

/-- The handler of `handoff`: whatever was queued is waited for, and the lease
has failed either way. -/
def handoffFailed (lease : QSAHiSparseLease) : Method (QSAHiSparseRuntime δ) PUnit :=
  tryFinally (device.zoom (machine.drain .handoffDrain .copy)) do
    modify fun self => { self with slots := self.slots.setPhase lease .failed }
    device.zoom (machine.outside .eventLog)

def handoff (reqIdx : Int) (rid : String) :
    Method (QSAHiSparseRuntime δ) (QSAHiSparseLease × Mark) := do
  let lease <- request reqIdx rid
  exceptException (handoffBody machine config reqIdx rid) fun cause => do
    handoffFailed machine lease
    throw cause

end Handoff

end Runtime
end QSAHiSparse

import QSAHiSparse.Runtime.Handoff
import QSAHiSparse.Runtime.Replay

namespace QSAHiSparse
namespace Runtime

open Foundation
open Ledger

/-!
# Release

`release` drains the device work of a lease, `after_release` gives its slot
back once the allocator has flushed, and `after_logical_flush` commits the
releases that were waiting for a flush.
-/

section Release

variable {δ : Type} (machine : Machine δ) (config : Config)

/-- The wait for one completion event; an event that was never recorded is
complete. -/
def synchronizeEvent (self : QSAHiSparseRuntime δ) (event : Event) :
    Method (QSAHiSparseRuntime δ) PUnit :=
  match self.markOf event with
  | none => pure ⟨⟩
  | some mark => device.zoom (machine.synchronize .copySynchronize mark)

/-- The completion events of a cache: its layers', then its handoff's. -/
def RequestCache.events (cache : RequestCache) : List Event :=
  cache.states.filterMap LayerState.done ++ (cache.handoffEvent.map Event.own).toList

/-- A lease whose replay failed is drained with its streams. -/
def drainFailedLease (lease : QSAHiSparseLease) : Method (QSAHiSparseRuntime δ) PUnit := do
  let self <- get
  if lease ∈ self.graphFailedLeases then do
    drainGraphStreams machine
    modify fun self =>
      { self with graphFailedLeases := self.graphFailedLeases.filter (· ≠ lease) }
  else
    pure ⟨⟩

/-- The terminal event and the wait for it and for the copies. -/
def drainLease (lease : QSAHiSparseLease) : Method (QSAHiSparseRuntime δ) PUnit := do
  raiseIf (config.producerStream = false)
    (.runtimeError "QSA P2 release has no registered producer stream")
  let terminal <- device.zoom (machine.record .terminal .compute)
  let self <- get
  drain ledger lease (some (device.zoom (machine.synchronize .terminalSynchronize terminal)))
    ((self.caches lease).events.map fun event => some (synchronizeEvent machine self event))

/-- `release` of a row with a cache. -/
def releaseHeld (reqIdx : Int) (rid : String) :
    Method (QSAHiSparseRuntime δ) (Option QSAHiSparseLease) := do
  let lease <- request reqIdx rid
  drainFailedLease machine lease
  device.zoom (machine.outside .eventLog)
  drainLease machine config lease
  device.zoom (machine.outside .eventLog)
  return some lease

def release (reqIdx : Int) (rid : String) :
    Method (QSAHiSparseRuntime δ) (Option QSAHiSparseLease) := do
  let self <- get
  if self.requests.contains reqIdx = false then do
    raiseIf (self.slots.active.contains reqIdx = true)
      (.runtimeError "QSA P2 cannot release a partially initialized lease")
    return none
  else
    releaseHeld machine config reqIdx rid

/-- A release inside a free group waits for the flush. -/
def deferRelease (lease : QSAHiSparseLease) : Method (QSAHiSparseRuntime δ) PUnit := do
  ledger.zoom (require lease [.drained])
  let self <- get
  raiseIf (lease ∈ self.pendingReleases) (.runtimeError "duplicate QSA P2 deferred release")
  modify fun self => { self with pendingReleases := self.pendingReleases ++ [lease] }
  device.zoom (machine.outside .eventLog)

/-- A drained lease is flushed; a flushed one already was.  The flush check may
itself be interrupted, and then has written nothing. -/
def flushDrained (lease : QSAHiSparseLease) : Method (QSAHiSparseRuntime δ) PUnit := do
  let self <- get
  let phase <- getItem self.slots.phases lease.reqPoolIdx
  if phase = .drained then do
    device.zoom (machine.outside .flushCheck)
    ledger.zoom (logicalFlushed lease self.freeGroupOpen)
  else
    pure ⟨⟩

/-- The cache lets go of its views and the lease is committed, unless the commit
is interrupted before it has written anything. -/
def commitLease (lease : QSAHiSparseLease) : Method (QSAHiSparseRuntime δ) PUnit := do
  let self <- get
  let state <- getItem self.requests lease.reqPoolIdx
  modify fun self => self.withCache state fun cache => { cache with states := [], host := false }
  modify fun self => { self with batchRequests := self.batchRequests.filter (· ≠ lease) }
  device.zoom (machine.outside .commit)
  ledger.zoom (commitRelease lease)
  modify fun self =>
    { self with
      requests := self.requests.erase lease.reqPoolIdx
      commits := self.commits ++ [(lease, self.device)] }
  device.zoom (machine.outside .eventLog)

/-- `after_release` of a lease. -/
def afterRelease (lease : QSAHiSparseLease) : Method (QSAHiSparseRuntime δ) PUnit := do
  ledger.zoom (require lease [.drained, .logicalFlushed])
  let self <- get
  if self.freeGroupOpen = true then
    deferRelease machine lease
  else do
    flushDrained machine lease
    commitLease machine lease

/-- A pending release leaves the list once its row is no longer active. -/
def popReleased (lease : QSAHiSparseLease) : Method (QSAHiSparseRuntime δ) PUnit :=
  modify fun self =>
    if self.slots.active.contains lease.reqPoolIdx = true then self
    else { self with pendingReleases := self.pendingReleases.tail }

/-- The loop of `after_logical_flush`, whose every turn that returns pops the
head of the list. -/
def flushPending : Nat -> Method (QSAHiSparseRuntime δ) PUnit
  | 0 => pure ⟨⟩
  | turns + 1 => do
      let self <- get
      match self.pendingReleases with
      | [] => pure ⟨⟩
      | lease :: _ => do
          tryFinally (afterRelease machine lease) (popReleased lease)
          flushPending turns

def afterLogicalFlush : Method (QSAHiSparseRuntime δ) PUnit := do
  let self <- get
  flushPending machine self.pendingReleases.length

/-! ## The calls on a runtime -/

/-- What the scheduler, the forwards and the allocator call. -/
inductive Call where
  /-- A row of the request pool is given to another request. -/
  | regenerate (reqIdx generation : Int)
  | beginBatch (batch : ForwardBatch)
  | storeKv (li : Nat)
  | afterStore (li : Nat)
  | selected (li rows : Nat)
  | handoff (reqIdx : Int) (rid : String)
  | admitDecode (lease : QSAHiSparseLease)
  | graphForward (batch : ForwardBatch) (count : Nat)
  | release (reqIdx : Int) (rid : String)
  | afterRelease (lease : Option QSAHiSparseLease)
  | freeGroupBegin
  | freeGroupEnd
  | logicalFlush

def perform : Call -> Method (QSAHiSparseRuntime δ) PUnit
  | .regenerate reqIdx generation => modify fun self =>
      { self with reqGeneration := Function.update self.reqGeneration reqIdx generation }
  | .beginBatch batch => beginBatch machine config batch false
  | .storeKv li => storeKv machine config li
  | .afterStore li => afterStore machine config li
  | .selected li rows => selected machine li rows
  | .handoff reqIdx rid => do
      let _ <- handoff machine config reqIdx rid
      pure ⟨⟩
  | .admitDecode lease => admitLease lease
  | .graphForward batch count => graphForward machine config batch count
  | .release reqIdx rid => do
      let _ <- release machine config reqIdx rid
      pure ⟨⟩
  | .afterRelease none => pure ⟨⟩
  | .afterRelease (some lease) => afterRelease machine lease
  | .freeGroupBegin => modify fun self => { self with freeGroupOpen := true }
  | .freeGroupEnd => do
      modify fun self => { self with freeGroupOpen := false }
      afterLogicalFlush machine
  | .logicalFlush => afterLogicalFlush machine

end Release

end Runtime
end QSAHiSparse

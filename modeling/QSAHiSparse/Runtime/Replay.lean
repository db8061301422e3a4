import QSAHiSparse.Runtime.Batches

namespace QSAHiSparse
namespace Runtime

open Foundation
open Ledger

/-!
# Graph replays

`prepare_graph_replay` admits the rows and makes the forwards wait for the last
copies, the captured kernels run, and `finish_graph_replay` copies every block
that was closed behind one shared event.  A failure at any of the three marks
the leases of the batch and drains both streams.
-/

section Replay

variable {δ : Type} (machine : Machine δ) (config : Config)

def prepareGraphReplay (batch : ForwardBatch) (count : Nat) :
    Method (QSAHiSparseRuntime δ) PUnit := do
  let self <- get
  raiseIf (config.graphEnabled = false ∨ count ≠ batch.batchSize ∨
      count ∉ config.graphBatchSizes ∨ batch.mode ≠ .decode ∨ self.graphBatch ≠ none)
    (.runtimeError "QSA graph replay requires exact unpadded decode rows")
  beginBatch machine config batch true
  let self <- get
  waitFor machine .graphWait .compute (if self.graphCopyPending then some .graphCopyDone else none)
  device.zoom (machine.outside .graphLengths)
  modify fun self => { self with graphSeqLens := (batch.seqLens.getD []).take count }

/-- The kernels of one row in one layer: the cache write, the close of a
complete block, the selection. -/
def replayRow (li : Nat) (row : QSAHiSparseLease × Int) : Method (QSAHiSparseRuntime δ) PUnit := do
  device.zoom (machine.submit .storeRow .compute (.storeRow row.1 li (row.2 - 1)))
  forM (if row.2 % 4 = 0 then [row.2 / 4 - 1] else []) fun block =>
    device.zoom (machine.submit .closeBlock .compute (.closeBlock row.1 li block))
  device.zoom (machine.submit .resolve .compute (.resolve row.1 li row.2))

/-- The captured kernels on the prepared rows, layer by layer. -/
def replayGraph : Method (QSAHiSparseRuntime δ) PUnit := do
  let self <- get
  forM (List.range config.layers) fun li =>
    forM (self.graphBatch.getD []) (replayRow machine li)

/-! ## Containment of a failure -/

/-- `try: program except BaseException as error: keep error`. -/
def attempt {σ : Type} (program : Method σ PUnit) : Method σ (Option PyError) :=
  tryCatch (program >>= fun _ => pure none) fun error => pure (some error)

/-- Both streams are synchronized; the first error is raised after both. -/
def drainGraphStreams : Method (QSAHiSparseRuntime δ) PUnit := do
  let first <- attempt (device.zoom (machine.drain .drainProducer .compute))
  let second <- attempt (device.zoom (machine.drain .drainCopy .copy))
  match first <|> second with
  | some error => throw error
  | none => pure ⟨⟩

/-- `self.slots.phases[lease.req_pool_idx] = "failed"` for each lease. -/
def failLeases (leases : List QSAHiSparseLease) (slots : QSAHiSparseSlots) : QSAHiSparseSlots :=
  leases.foldl (fun slots lease => slots.setPhase lease .failed) slots

/-- The drain of a failed replay; its leases are freed when it succeeds, and
its error is kept back when it has a cause to be noted on. -/
def drainFailed (cause : Option PyError) (leases : List QSAHiSparseLease) :
    Method (QSAHiSparseRuntime δ) PUnit := do
  let error <- attempt (drainGraphStreams machine)
  match error, cause with
  | none, _ => modify fun self =>
      { self with graphFailedLeases := self.graphFailedLeases.filter (· ∉ leases) }
  | some error, none => throw error
  | some _, some _ => pure ⟨⟩

def failGraphReplay (cause : Option PyError) : Method (QSAHiSparseRuntime δ) PUnit := do
  let self <- get
  match self.graphBatch with
  | none => pure ⟨⟩
  | some saved => do
      let leases := (saved.map Prod.fst).filter fun lease =>
        self.slots.active.get? lease.reqPoolIdx = some lease
      modify fun self =>
        { self with
          graphFailedLeases := self.graphFailedLeases ∪ leases
          slots := failLeases leases self.slots }
      tryFinally (drainFailed machine cause leases) do
        modify fun self => { self with graphBatch := none }

/-! ## The end of a replay -/

/-- The check of one saved row. -/
def checkSaved (row : QSAHiSparseLease × Int) : Method (QSAHiSparseRuntime δ) PUnit := do
  let held <- request row.1.reqPoolIdx row.1.rid
  ledger.zoom (require row.1 [.decode])
  let self <- get
  raiseIf (held ≠ row.1 ∨ (self.caches held).seqLen ≠ row.2)
    (.runtimeError "QSA graph writeback generation/sequence changed")

/-- The rows that complete a block, with their block. -/
def closingRows (saved : List (QSAHiSparseLease × Int)) : List (QSAHiSparseLease × Int) :=
  (saved.filter fun row => row.2 % 4 = 0).map fun row => (row.1, row.2 / 4 - 1)

/-- The host copies of one closing row. -/
def copyClosing (row : QSAHiSparseLease × Int) : Method (QSAHiSparseRuntime δ) PUnit := do
  let self <- get
  forM (List.range (self.caches row.1).states.length) fun li =>
    device.zoom (machine.submit .graphCopy .copy (.writeBack row.1 li row.2))

/-- Every layer state of a closing row waits for the shared event. -/
def RequestCache.sharedDone (cache : RequestCache) : RequestCache :=
  { cache with states := cache.states.map fun state => { state with done := some .graphCopyDone } }

/-- A strict wait or comparison. -/
def strictly (program : Method (QSAHiSparseRuntime δ) PUnit) :
    Method (QSAHiSparseRuntime δ) PUnit :=
  if config.strict = true then program else pure ⟨⟩

/-- A strict comparison of bytes. -/
def checkBytes (site : Site) (message : String) : Method (QSAHiSparseRuntime δ) PUnit := do
  let same <- device.zoom (machine.ask site)
  raiseIf (same = false) (.assertionError message)

/-- The copies of all closing rows behind the shared event. -/
def copyClosings (producer : Mark) (closing : List (QSAHiSparseLease × Int)) :
    Method (QSAHiSparseRuntime δ) PUnit :=
  if closing = [] then
    pure ⟨⟩
  else do
    modify fun self => { self with graphCopyEpoch := self.graphCopyEpoch + 1 }
    device.zoom (machine.waitEvent .graphCopyWait .copy producer)
    forM closing (copyClosing machine)
    let done <- device.zoom (machine.record .graphCopyDone .copy)
    modify fun self => { self with graphCopyDone := some done, graphCopyPending := true }
    forM closing fun row =>
      modify fun self => self.withCache row.1 RequestCache.sharedDone
    device.zoom (machine.outside .eventLog)

/-- The strict wait for the copies and the comparison of what they copied. -/
def checkCopies (closing : List (QSAHiSparseLease × Int)) :
    Method (QSAHiSparseRuntime δ) PUnit := do
  let self <- get
  match closing, self.graphCopyDone with
  | _ :: _, some done => do
      device.zoom (machine.synchronize .graphCopySynchronize done)
      checkBytes machine .graphCloseBytes "QSA graph closed C4 differs from raw K/V ring: host=True"
      device.zoom (machine.outside .eventLog)
  | _, _ => pure ⟨⟩

/-- The strict checks after the copies. -/
def checkCopied (closing : List (QSAHiSparseLease × Int)) :
    Method (QSAHiSparseRuntime δ) PUnit := do
  checkCopies machine closing
  device.zoom (machine.outside .graphSelectedBytes)

/-- The guarded part of `finish_graph_replay`. -/
def finishSaved (saved : List (QSAHiSparseLease × Int)) :
    Method (QSAHiSparseRuntime δ) PUnit := do
  let known <- device.zoom (machine.ask .nativeKey)
  raiseIf (known = false) (.runtimeError "QSA graph native replay key differs from prepared rows")
  forM saved checkSaved
  let producer <- device.zoom (machine.record .graphProducer .compute)
  let closing := closingRows saved
  strictly config do
    device.zoom (machine.synchronize .graphProducerSynchronize producer)
    checkBytes machine .graphCloseBytes "QSA graph closed C4 differs from raw K/V ring: host=False"
  copyClosings machine producer closing
  strictly config (checkCopied machine closing)
  device.zoom (machine.outside .eventLog)

def finishGraphReplay (count : Nat) : Method (QSAHiSparseRuntime δ) PUnit := do
  let self <- get
  match self.graphBatch with
  | none => throw (.runtimeError "QSA graph replay has no matching prepared batch")
  | some saved => do
      raiseIf (saved.length ≠ count)
        (.runtimeError "QSA graph replay has no matching prepared batch")
      tryFinally
        (tryCatch (finishSaved machine config saved) fun error => do
          failGraphReplay machine (some error)
          throw error)
        (modify fun self => { self with graphBatch := none })

/-- A replay inside `graph_replay_scope`. -/
def graphForward (batch : ForwardBatch) (count : Nat) : Method (QSAHiSparseRuntime δ) PUnit :=
  tryCatch
    (do
      prepareGraphReplay machine config batch count
      replayGraph machine config
      finishGraphReplay machine config count)
    fun error => do
      failGraphReplay machine (some error)
      throw error

end Replay

end Runtime
end QSAHiSparse

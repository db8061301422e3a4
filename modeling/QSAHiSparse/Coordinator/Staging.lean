import Mathlib.Data.List.MinMax
import QSAHiSparse.Foundation.Exchange
import QSAHiSparse.Runtime.Release

namespace QSAHiSparse
namespace Coordinator

open Foundation
open Ledger
open QSAHiSparse.Runtime

/-!
# The staging queue of a rank

A request whose prefill was handed off waits in the coordinator's queue until
all ranks find it ready.  Every scheduling round asks all of them, also those
whose queue is empty, since a peer may have an item.
-/

/-- What is read of a request. -/
structure Req where
  /-- `kv.req_pool_idx`. -/
  reqPoolIdx : Int
  rid : String
  /-- `beam_group is not None`. -/
  beamGroup : Bool
deriving DecidableEq, Repr

/-- An entry of the queue. -/
structure Act where
  req : Req
  lease : QSAHiSparseLease
  event : Mark
deriving DecidableEq, Repr

structure QSAHiSparseCoordinator (δ : Type) where
  adapter : QSAHiSparseRuntime δ
  ackStagingQueue : List Act
  initialBatchTarget : Nat
  waitInitialPair : Bool
  /-- `req.hisparse_staging`. -/
  hisparseStaging : Req -> Bool
  /-- What `event.query()` answers at present. -/
  completed : Mark -> Bool
  /-- Every entry that was ever queued, for the statements only. -/
  staged : List Act
  /-- Every entry that was admitted, for the statements only. -/
  admitted : List Act

/-- What a rank tells the others. -/
structure Vote where
  signatures : List (Int × Int × String × Nat)
  count : Nat
  target : Nat
deriving DecidableEq, Repr

/-- The four fields of a lease. -/
def signature (lease : QSAHiSparseLease) : Int × Int × String × Nat :=
  (lease.reqPoolIdx, lease.generation, lease.rid, lease.slot)

section Coordinator

variable {δ : Type}

/-- The runtime of a coordinator. -/
def adapter : Field (QSAHiSparseCoordinator δ) (QSAHiSparseRuntime δ) where
  get self := self.adapter
  set adapter self := { self with adapter }
  get_set _ _ := rfl
  set_get _ := rfl
  set_set _ _ _ := rfl

/-- The values of `SGLANG_QSA_P2_VALIDATE_INITIAL_PAIR`. -/
def initialBatch (value : String) : Except PyError Nat :=
  if value ∉ ["0", "1", "2", "4", "8"] then
    .error (.valueError "QSA P2 initial-batch validation must be 0, 1, 2, 4 or 8")
  else
    .ok (if value = "1" ∨ value = "2" then 2 else if value = "4" then 4
      else if value = "8" then 8 else 0)

/-- The constructor. -/
def QSAHiSparseCoordinator.create (adapter : QSAHiSparseRuntime δ) (value : String) :
    Except PyError (QSAHiSparseCoordinator δ) :=
  match initialBatch value with
  | .error cause => .error cause
  | .ok target =>
      if adapter.slots.geometry.maxRequests < target then
        .error (.valueError "QSA P2 initial-batch target exceeds lease capacity")
      else
        .ok
          { adapter
            ackStagingQueue := []
            initialBatchTarget := target
            waitInitialPair := decide (target ≠ 0)
            hisparseStaging := fun _ => false
            completed := fun _ => false
            staged := []
            admitted := [] }

variable (machine : Machine δ) (config : Config)

/-- `req.hisparse_staging = True` and the append. -/
def park (item : Act) : Method (QSAHiSparseCoordinator δ) PUnit :=
  modify fun self =>
    { self with
      hisparseStaging := Function.update self.hisparseStaging item.req true
      ackStagingQueue := self.ackStagingQueue ++ [item]
      staged := self.staged ++ [item] }

def admitRequestIntoStaging (req : Req) : Method (QSAHiSparseCoordinator δ) PUnit := do
  raiseIf (req.beamGroup = true)
    (.valueError "QSA P2 does not support beam/prefix ownership sharing")
  raiseIf (config.producerStream = false)
    (.runtimeError "QSA handoff has no prefill producer stream")
  let producer <- adapter.zoom (device.zoom (machine.record .stagingProducer .compute))
  adapter.zoom (device.zoom (machine.waitEvent .stagingWait .compute producer))
  let handed <- adapter.zoom (handoff machine config req.reqPoolIdx req.rid)
  park ⟨req, handed.1, handed.2⟩
  adapter.zoom (device.zoom (machine.outside .eventLog))

/-- The loop that counts the completed entries in front. -/
def countReady : List Act -> Nat -> Method (QSAHiSparseCoordinator δ) Nat
  | [], count => pure count
  | item :: rest, count => do
      adapter.zoom (ledger.zoom (require item.lease [.hostReady]))
      let _ <- adapter.zoom (request item.lease.reqPoolIdx item.lease.rid)
      let self <- get
      if self.completed item.event = false then pure count else countReady rest (count + 1)

/-- The body of the admission loop. -/
def admitReady (item : Act) : Method (QSAHiSparseCoordinator δ) PUnit := do
  adapter.zoom (admitLease item.lease)
  modify fun self =>
    { self with
      hisparseStaging := Function.update self.hisparseStaging item.req false
      admitted := self.admitted ++ [item] }
  adapter.zoom (device.zoom (machine.outside .eventLog))

/-- The first entries leave the queue and are admitted in order. -/
def admitPrefix (count : Nat) : Method (QSAHiSparseCoordinator δ) (List Req) := do
  let self <- get
  let ready := self.ackStagingQueue.take count
  modify fun self => { self with ackStagingQueue := self.ackStagingQueue.drop count }
  forM ready (admitReady machine)
  return ready.map fun item => item.req

/-- What a rank does once it has the votes of all. -/
def converge (signatures : List (Int × Int × String × Nat)) (votes : List Vote) :
    Method (QSAHiSparseCoordinator δ) (List Req) := do
  let self <- get
  raiseIf (exists vote, vote ∈ votes ∧
      (vote.signatures ≠ signatures ∨ vote.target ≠ self.initialBatchTarget))
    (.runtimeError "QSA TP ranks disagree on staging lease identities")
  match (votes.map fun vote => vote.count).min? with
  | none => throw (.valueError "min() iterable argument is empty")
  | some count =>
      if self.waitInitialPair = true then
        if count < self.initialBatchTarget then
          return []
        else do
          adapter.zoom (device.zoom (machine.outside .eventLog))
          modify fun self => { self with waitInitialPair := false, initialBatchTarget := 0 }
          admitPrefix machine count
      else
        admitPrefix machine count

def collectReadyReqs : Collective Vote (QSAHiSparseCoordinator δ) (List Req) := do
  let self <- Collective.lift get
  let total <- Collective.allReduce self.ackStagingQueue.length
  if total = 0 then
    return []
  else do
    let signatures := self.ackStagingQueue.map fun item => signature item.lease
    let count <- Collective.lift (countReady self.ackStagingQueue 0)
    let votes <- Collective.allGather ⟨signatures, count, self.initialBatchTarget⟩
    Collective.lift (converge machine signatures votes)

/-! ## The ranks of a group -/

/-- What happens to a group of ranks. -/
inductive GroupStep where
  /-- A call on the runtime of one rank. -/
  | call (rank : Nat) (call : Call)
  /-- Events of one rank complete. -/
  | progress (rank : Nat) (completed : Mark -> Bool)
  | stage (rank : Nat) (req : Req)
  /-- A scheduling round: every rank collects. -/
  | round

/-- How the ranks leave `collect_ready_reqs`, unless they are stuck. -/
def collectAll (group : List (QSAHiSparseCoordinator δ)) :
    Option (List (EStateM.Result PyError (QSAHiSparseCoordinator δ) (List Req))) :=
  Exchange.meetAll (group.map (collectReadyReqs machine).run)

def stepGroup (group : List (QSAHiSparseCoordinator δ)) :
    GroupStep -> List (QSAHiSparseCoordinator δ)
  | .call rank call => group.modify rank fun self =>
      finalState ((adapter.zoom (perform machine config call)).run self)
  | .progress rank completed => group.modify rank fun self => { self with completed }
  | .stage rank req => group.modify rank fun self =>
      finalState ((admitRequestIntoStaging machine config req).run self)
  | .round =>
      match collectAll machine group with
      | some results => results.map finalState
      | none => group

def runGroup (group : List (QSAHiSparseCoordinator δ)) (steps : List GroupStep) :
    List (QSAHiSparseCoordinator δ) :=
  steps.foldl (stepGroup machine config) group

end Coordinator

end Coordinator
end QSAHiSparse

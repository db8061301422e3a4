import QSAHiSparse.Foundation.Dict
import QSAHiSparse.Ledger.Outcomes
import QSAHiSparse.Runtime.Machine

namespace QSAHiSparse
namespace Runtime

open Foundation
open Ledger

/-!
# The runtime's own state

The request caches are objects that `requests` and `batch_requests` both refer
to.  A cache is made for one lease and no lease is granted twice, so its lease
names it, and the references are leases.
-/

/-- What the constructor fixes. -/
structure Config where
  layers : Nat
  capacity : Int
  /-- `mode == "p2-offload"`. -/
  offload : Bool
  strict : Bool
  graphEnabled : Bool
  graphBatchSizes : List Nat
  /-- Whether a producer stream was registered. -/
  producerStream : Bool

/-- A completion event: recorded once, or the shared event of the graph
copies. -/
inductive Event where
  | own (mark : Mark)
  | graphCopyDone
deriving DecidableEq, Repr

/-- What is read of a layer state. -/
structure LayerState where
  done : Option Event
  generation : Int
deriving DecidableEq, Repr

/-- What is read of a `_RequestCache`, whose lease is its name. -/
structure RequestCache where
  seqLen : Int
  decodeSteps : Nat
  compressedLen : Int
  offloaded : Bool
  /-- `host is not None`. -/
  host : Bool
  states : List LayerState
  handoffEvent : Option Mark
deriving DecidableEq, Repr

/-- A cache after its constructor. -/
def RequestCache.fresh (config : Config) : RequestCache where
  seqLen := 0
  decodeSteps := 0
  compressedLen := 0
  offloaded := false
  host := config.offload
  states := []
  handoffEvent := none

structure QSAHiSparseRuntime (δ : Type) where
  slots : QSAHiSparseSlots
  requests : Dict Int QSAHiSparseLease
  caches : QSAHiSparseLease -> RequestCache
  batchRequests : List QSAHiSparseLease
  offloaded : Bool
  forwardId : Nat
  rawWriteLocs : List Nat
  rowSlots : List Nat
  batchLens : List Int
  real : Nat
  graphSeqLens : List Int
  graphBatch : Option (List (QSAHiSparseLease × Int))
  graphFailedLeases : List QSAHiSparseLease
  /-- The last record of the shared event. -/
  graphCopyDone : Option Mark
  graphCopyPending : Bool
  graphCopyEpoch : Nat
  pendingReleases : List QSAHiSparseLease
  /-- `allocator.free_group is not None`. -/
  freeGroupOpen : Bool
  /-- `req_pool.req_generation`. -/
  reqGeneration : Int -> Int
  /-- The machine as it was at each committed release, for the statements only. -/
  commits : List (QSAHiSparseLease × δ)
  device : δ

/-- The runtime after its constructor. -/
def QSAHiSparseRuntime.initial {δ : Type} (config : Config) (geometry : Geometry) (device : δ) :
    QSAHiSparseRuntime δ where
  slots := .initial geometry
  requests := .empty
  caches := fun _ => RequestCache.fresh config
  batchRequests := []
  offloaded := false
  forwardId := 0
  rawWriteLocs := []
  rowSlots := []
  batchLens := []
  real := 0
  graphSeqLens := []
  graphBatch := none
  graphFailedLeases := []
  graphCopyDone := none
  graphCopyPending := false
  graphCopyEpoch := 0
  pendingReleases := []
  freeGroupOpen := false
  reqGeneration := fun _ => 0
  commits := []
  device := device

section Parts

variable {δ : Type}

/-- The slot ledger of a runtime. -/
def ledger : Field (QSAHiSparseRuntime δ) QSAHiSparseSlots where
  get self := self.slots
  set slots self := { self with slots }
  get_set _ _ := rfl
  set_get _ := rfl
  set_set _ _ _ := rfl

/-- The machine of a runtime. -/
def device : Field (QSAHiSparseRuntime δ) δ where
  get self := self.device
  set device self := { self with device }
  get_set _ _ := rfl
  set_get _ := rfl
  set_set _ _ _ := rfl

/-- Change the cache of a lease. -/
def QSAHiSparseRuntime.withCache (self : QSAHiSparseRuntime δ) (lease : QSAHiSparseLease)
    (update : RequestCache -> RequestCache) : QSAHiSparseRuntime δ :=
  { self with caches := Function.update self.caches lease (update (self.caches lease)) }

/-- `states[li]["done"] = event`. -/
def RequestCache.setDone (li : Nat) (event : Event) (cache : RequestCache) : RequestCache :=
  { cache with
    states := cache.states.modify li fun state => { state with done := some event } }

/-- The stream position that an event stands for; an event that was never
recorded stands for none. -/
def QSAHiSparseRuntime.markOf (self : QSAHiSparseRuntime δ) : Event -> Option Mark
  | .own mark => some mark
  | .graphCopyDone => self.graphCopyDone

end Parts

end Runtime
end QSAHiSparse

import Mathlib.Data.List.Sort
import QSAHiSparse.Foundation.Python

namespace QSAHiSparse
namespace Ledger

open Foundation

/-!
# The physical lease ledger

One prefill lane and a few decode slots are leased to requests.  The ledger
records who holds what; it moves no bytes.  Every method checks the whole lease
against the active map before it writes, and a method that raises midway keeps
the writes it has made.

A device event appears only through the program that asks it, so the same
methods serve both a bare ledger and a runtime whose state contains one.
-/

/-- The frozen lease value handed to a request. -/
structure QSAHiSparseLease where
  reqPoolIdx : Int
  generation : Int
  rid : String
  slot : Nat
deriving DecidableEq, Repr

/-- The phase strings. -/
inductive Phase where
  | prefill
  | copying
  | hostReady
  | decode
  | failed
  | releasing
  | drained
  | logicalFlushed
deriving DecidableEq, Repr

/-- The constructor's capacity checks, kept with the capacities. -/
structure Geometry where
  stagingTokens : Nat
  pageSize : Nat
  maxRequests : Nat
  page_least : 4 ≤ pageSize
  page_complete : pageSize % 4 = 0
  staging_positive : 0 < stagingTokens
  staging_paged : stagingTokens % pageSize = 0
  lease_least : 1 ≤ maxRequests
  lease_most : maxRequests ≤ 8

/-- `raw_pool_size`: staging, and a padding row with four members per lease. -/
def Geometry.rawPoolSize (geometry : Geometry) : Nat :=
  geometry.stagingTokens + 5 * geometry.maxRequests

/-- One lease with one page of staging. -/
def Geometry.onePage : Geometry where
  stagingTokens := 64
  pageSize := 64
  maxRequests := 1
  page_least := by decide
  page_complete := by decide
  staging_positive := by decide
  staging_paged := by decide
  lease_least := by decide
  lease_most := by decide

structure QSAHiSparseSlots where
  geometry : Geometry
  active : Dict Int QSAHiSparseLease
  phases : Dict Int Phase
  lastGeneration : Dict Int Int
  freeSlots : List Nat
  prefillOwner : Option QSAHiSparseLease

/-- The state after the constructor. -/
def QSAHiSparseSlots.initial (geometry : Geometry) : QSAHiSparseSlots where
  geometry := geometry
  active := .empty
  phases := .empty
  lastGeneration := .empty
  freeSlots := List.range geometry.maxRequests
  prefillOwner := none

/-- `QSAHiSparseSlots(staging_tokens, page_size, max_requests)`. -/
def QSAHiSparseSlots.create (stagingTokens pageSize maxRequests : Int) :
    Except PyError QSAHiSparseSlots :=
  if rejected : pageSize < 4 ∨ pageSize % 4 ≠ 0 ∨ stagingTokens ≤ 0 ∨
      stagingTokens % pageSize ≠ 0 ∨ ¬ (1 ≤ maxRequests ∧ maxRequests ≤ 8) then
    .error (.valueError "QSA P2 needs page-aligned C4 staging and at most eight leases")
  else
    .ok (.initial
      { stagingTokens := stagingTokens.toNat
        pageSize := pageSize.toNat
        maxRequests := maxRequests.toNat
        page_least := by omega
        page_complete := by omega
        staging_positive := by omega
        staging_paged := by
          push Not at rejected
          have divides : (pageSize.toNat : Int) ∣ stagingTokens.toNat := by
            rw [Int.toNat_of_nonneg (by omega), Int.toNat_of_nonneg (by omega)]
            exact Int.dvd_of_emod_eq_zero rejected.2.2.2.1
          exact Nat.mod_eq_zero_of_dvd (Int.natCast_dvd_natCast.mp divides)
        lease_least := by omega
        lease_most := by omega })

/-- The lowest free slot leaves the free list and the lane gets its owner. -/
def QSAHiSparseSlots.grant (ledger : QSAHiSparseSlots) (lease : QSAHiSparseLease)
    (rest : List Nat) : QSAHiSparseSlots :=
  { ledger with
    active := ledger.active.set lease.reqPoolIdx lease
    phases := ledger.phases.set lease.reqPoolIdx .prefill
    lastGeneration := ledger.lastGeneration.set lease.reqPoolIdx lease.generation
    freeSlots := rest
    prefillOwner := some lease }

/-- `self.phases[lease.req_pool_idx] = phase`. -/
def QSAHiSparseSlots.setPhase (ledger : QSAHiSparseSlots) (lease : QSAHiSparseLease)
    (phase : Phase) : QSAHiSparseSlots :=
  { ledger with phases := ledger.phases.set lease.reqPoolIdx phase }

/-- `self.prefill_owner = None`. -/
def QSAHiSparseSlots.clearLane (ledger : QSAHiSparseSlots) : QSAHiSparseSlots :=
  { ledger with prefillOwner := none }

/-- Clear the prefill owner when it is this lease. -/
def QSAHiSparseSlots.leaveLane (ledger : QSAHiSparseSlots) (lease : QSAHiSparseLease) :
    QSAHiSparseSlots :=
  if ledger.prefillOwner = some lease then ledger.clearLane else ledger

/-- The two deletions of `commit_release` and the sorted free list. -/
def QSAHiSparseSlots.giveBack (ledger : QSAHiSparseSlots) (lease : QSAHiSparseLease) :
    QSAHiSparseSlots :=
  { ledger with
    active := ledger.active.erase lease.reqPoolIdx
    phases := ledger.phases.erase lease.reqPoolIdx
    freeSlots := (ledger.freeSlots ++ [lease.slot]).insertionSort (· ≤ ·) }

def acquire (reqPoolIdx generation : Int) (rid : String) :
    Method QSAHiSparseSlots QSAHiSparseLease := do
  raiseIf (reqPoolIdx ≤ 0 ∨ generation ≤ 0 ∨ rid = "")
    (.valueError "QSA lease requires a real request slot, generation and ID")
  let self ← get
  raiseIf (self.active.contains reqPoolIdx = true)
    (.runtimeError "request slot already owns a QSA lease")
  raiseIf (generation ≤ (self.lastGeneration.get? reqPoolIdx).getD 0)
    (.runtimeError "stale QSA request generation")
  raiseIf (self.prefillOwner ≠ none)
    (.runtimeError "only one QSA prefill may own physical staging")
  match self.freeSlots with
  | [] => throw (.runtimeError "QSA host/hot lease capacity exhausted")
  | slot :: rest =>
      let lease := { reqPoolIdx, generation, rid, slot }
      set (self.grant lease rest)
      return lease

/-- The full-lease check; without phases only the lease is checked. -/
def require (lease : QSAHiSparseLease) (phases : List Phase) : Method QSAHiSparseSlots PUnit := do
  let self ← get
  raiseIf (self.active.get? lease.reqPoolIdx ≠ some lease)
    (.runtimeError "stale QSA lease callback")
  if phases = [] then
    return ⟨⟩
  else
    let phase ← getItem self.phases lease.reqPoolIdx
    raiseIf (phase ∉ phases)
      (.runtimeError "QSA lease phase does not permit this operation")

/-- `slice(start, stop)` of raw pool rows. -/
structure RowSlice where
  start : Nat
  stop : Nat
deriving DecidableEq, Repr

def stagingSlice (lease : QSAHiSparseLease) (start stop : Int) :
    Method QSAHiSparseSlots RowSlice := do
  require lease [.prefill, .copying]
  let self ← get
  raiseIf (self.prefillOwner ≠ some lease)
    (.runtimeError "raw staging belongs to another request")
  raiseIf (¬ (0 ≤ start ∧ start ≤ stop ∧ stop ≤ self.geometry.stagingTokens))
    (.valueError "raw staging position exceeds one-context backing")
  return ⟨self.geometry.pageSize + start.toNat, self.geometry.pageSize + stop.toNat⟩

/-- The first raw row of a slot's ring: its padding row. -/
def Geometry.ringStart (geometry : Geometry) (slot : Nat) : Nat :=
  geometry.pageSize + geometry.stagingTokens + 5 * slot

def ringSlice (lease : QSAHiSparseLease) : Method QSAHiSparseSlots RowSlice := do
  require lease [.prefill, .copying, .hostReady, .decode]
  let self ← get
  let start := self.geometry.ringStart lease.slot
  return ⟨start, start + 5⟩

def ringWriteLocation (lease : QSAHiSparseLease) (seqLen : Int) : Method QSAHiSparseSlots Nat := do
  require lease [.decode]
  let self ← get
  raiseIf (¬ (1 ≤ seqLen ∧ seqLen ≤ self.geometry.stagingTokens))
    (.valueError "QSA decode length exceeds request capacity")
  let ring ← ringSlice lease
  return ring.start + 1 + (seqLen - 1).toNat % 4

def beginHandoff (lease : QSAHiSparseLease) : Method QSAHiSparseSlots PUnit := do
  require lease [.prefill]
  let self ← get
  raiseIf (self.prefillOwner ≠ some lease) (.runtimeError "handoff lost its staging owner")
  modify (fun self => self.setPhase lease .copying)

def admitDecode (lease : QSAHiSparseLease) : Method QSAHiSparseSlots PUnit := do
  require lease [.hostReady]
  modify (fun self => self.setPhase lease .decode)

/-- `freeGroupOpen` says that `allocator.free_group is not None`. -/
def logicalFlushed (lease : QSAHiSparseLease) (freeGroupOpen : Bool) :
    Method QSAHiSparseSlots PUnit := do
  require lease [.drained]
  raiseIf (freeGroupOpen = true) (.runtimeError "QSA logical free group has not flushed")
  modify (fun self => self.setPhase lease .logicalFlushed)

def commitRelease (lease : QSAHiSparseLease) : Method QSAHiSparseSlots PUnit := do
  require lease [.logicalFlushed]
  modify (fun self => self.giveBack lease)

/-- The runtime marks a lease it finds active as failed. -/
def markFailed (lease : QSAHiSparseLease) : Method QSAHiSparseSlots PUnit :=
  modify (fun self =>
    if self.active.get? lease.reqPoolIdx = some lease then self.setPhase lease .failed else self)

/-! ## The methods that ask device events -/

section Events

variable {σ : Type} (slots : Field σ QSAHiSparseSlots)

/-- `completion_event is not None and completion_event.query()`, the event
standing for its `query`. -/
def isComplete (completionEvent : Option (Method σ Bool)) : Method σ Bool :=
  match completionEvent with
  | none => pure false
  | some query => query

def finishHandoff (lease : QSAHiSparseLease) (completionEvent : Option (Method σ Bool)) :
    Method σ PUnit := do
  slots.zoom (require lease [.copying])
  let completed ← isComplete completionEvent
  raiseIf (completed = false)
    (.runtimeError "cannot reuse staging before all layer copies complete")
  slots.zoom do
    let self ← get
    raiseIf (self.prefillOwner ≠ some lease) (.runtimeError "handoff lost its staging owner")
    modify (fun self => (self.setPhase lease .hostReady).clearLane)

/-- `event.synchronize()` for an event that is there. -/
def synchronizeCopy : Option (Method σ PUnit) -> Method σ PUnit
  | none => pure ⟨⟩
  | some synchronize => synchronize

/-- The waits of `drain`: the terminal event, then the copies in order. -/
def synchronizeAll (terminalEvent : Method σ PUnit) (copyEvents : List (Option (Method σ PUnit))) :
    Method σ PUnit := do
  terminalEvent
  forM copyEvents synchronizeCopy

/-- Each event is its `synchronize`.  An exception that is not an `Exception`
leaves the lease releasing; the source's handler does not see it. -/
def drain (lease : QSAHiSparseLease) (terminalEvent : Option (Method σ PUnit))
    (copyEvents : List (Option (Method σ PUnit))) : Method σ PUnit := do
  slots.zoom (require lease [.prefill, .copying, .hostReady, .decode, .failed])
  match terminalEvent with
  | none => throw (.valueError "release requires explicit terminal and copy events")
  | some terminal =>
      raiseIf (copyEvents.any Option.isNone = true)
        (.valueError "release requires explicit terminal and copy events")
      slots.zoom (modify fun self => self.setPhase lease .releasing)
      exceptException (synchronizeAll terminal copyEvents) (fun cause => do
        slots.zoom (modify fun self => self.setPhase lease .failed)
        throw cause)
      slots.zoom (modify fun self => (self.leaveLane lease).setPhase lease .drained)

end Events

end Ledger
end QSAHiSparse

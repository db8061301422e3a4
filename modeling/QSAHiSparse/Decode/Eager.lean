import QSAHiSparse.Decode.Layout

namespace QSAHiSparse
namespace Decode

open Foundation
open Ledger

/-!
# The eager decode path

`after_store` closes a C4 block through the views of one request, and
`finish_selected` builds its compact rows and its row of the compact table.
The strict mode's byte checks only raise and store nothing; they are left out.
-/

section Close

variable (geometry : Geometry) (li slot : Nat)

/-- The two copies into `hot`, which is `state["hot"][2048]`. -/
def copyRing (buffers : DecodeBuffers) : Except PyError DecodeBuffers := do
  let newest <- (hotView slot).row 2048
  let ring <- (ringView geometry slot).row 1
  let hot := blit (buffers.hot li) newest (buffers.kBuffer li) ring 1024
  let hot := blit hot (newest + 1024) (buffers.vBuffer li) ring 1024
  pure { buffers with hot := Function.update buffers.hot li hot }

/-- `state["tokens"][0, index] = block`. -/
def setToken (index block : Int) (buffers : DecodeBuffers) : Except PyError DecodeBuffers := do
  let cell <- (tokensView slot).row index
  pure { buffers with
    tokens := Function.update buffers.tokens li
      (Function.update (buffers.tokens li) cell block) }

/-- A block that fits gets its own hot row and token. -/
def keepResident (block : Int) (buffers : DecodeBuffers) : Except PyError DecodeBuffers :=
  if block < 2048 then do
    let newest <- (hotView slot).row 2048
    let row <- (hotView slot).row block
    let hot := blit (buffers.hot li) row (buffers.hot li) newest 2048
    setToken li slot block block { buffers with hot := Function.update buffers.hot li hot }
  else
    pure buffers

/-- The device part of a close. -/
def closeBlock (block : Int) (buffers : DecodeBuffers) : Except PyError DecodeBuffers := do
  let buffers <- copyRing geometry li slot buffers
  let buffers <- keepResident li slot block buffers
  setToken li slot 2048 block buffers

/-- `host[li, block].copy_(hot)`. -/
def writeBack (block : Int) (buffers : DecodeBuffers) : Except PyError DecodeBuffers := do
  let newest <- (hotView slot).row 2048
  let record <- (hostView geometry slot li).row block
  pure { buffers with hostSlabs := blit buffers.hostSlabs record (buffers.hot li) newest 2048 }

/-- The block closes on the device and is written back. -/
def closeAndWriteBack (block : Int) (buffers : DecodeBuffers) :
    Except PyError DecodeBuffers := do
  let buffers <- closeBlock geometry li slot block buffers
  writeBack geometry li slot block buffers

end Close

def RequestCache.afterStore (geometry : Geometry) (li : Nat) (self : RequestCache)
    (buffers : DecodeBuffers) : Except PyError DecodeBuffers :=
  if self.offloaded = false ∨ self.seqLen % 4 ≠ 0 then
    .ok buffers
  else
    match self.states[li]? with
    | none => .error (.indexError "list index out of range")
    | some generation =>
        if generation ≠ self.generation then
          .error (.runtimeError "stale QSA V3 writeback state")
        else
          closeAndWriteBack geometry li self.slot (self.seqLen / 4 - 1) buffers

/-! ## The compact workspace -/

section Finish

variable (geometry : Geometry) (slot : Nat)

/-- `min(self.seq_len // 4, 512) * 4`. -/
def selectedCount (seqLen : Int) : Int := min (seqLen / 4) 512 * 4

/-- `selected + tail`. -/
def validCount (seqLen : Int) : Nat := (selectedCount seqLen + seqLen % 4).toNat

/-- `compact[:, 1 : 1 + selected].copy_(unpacked[:, :selected])`, with the
two planes of `unpacked` at the given addresses. -/
def copyMembers (selected : Int) (unpacked : Memory UInt8) (kStart vStart : Int)
    (compact : Memory UInt8) : Except PyError (Memory UInt8) := do
  let k <- (compactView geometry 0 slot).row 1
  let v <- (compactView geometry 1 slot).row 1
  pure (blit (blit compact k unpacked kStart (selected * 256)) v unpacked vStart (selected * 256))

/-- The tail copies of the two planes from the ring. -/
def copyTail (selected tail : Int) (kBuffer vBuffer : Memory UInt8) (compact : Memory UInt8) :
    Except PyError (Memory UInt8) :=
  if tail ≠ 0 then do
    let k <- (compactView geometry 0 slot).row (1 + selected)
    let v <- (compactView geometry 1 slot).row (1 + selected)
    let ring <- (ringView geometry slot).row 1
    pure (blit (blit compact k kBuffer ring (tail * 256)) v vBuffer ring (tail * 256))
  else
    pure compact

/-- The assignments of `compact_table[0, valid] = arange(...)`, with `valid`
the first entries of a selection row. -/
def tableCells (raw : Memory Int) (rawStart : Int) (count : Nat) :
    Except PyError (List (Store Int)) :=
  (List.range count).mapM fun (member : Nat) => do
    let cell <- (tableView geometry slot).row (raw (rawStart + member))
    pure ⟨cell, slot * 2052 + 1 + member⟩

end Finish

/-- `finish_selected` with row `row` of the selection and of the unpacked
members. -/
def RequestCache.finishSelected (geometry : Geometry) (li : Nat) (raw : Memory Int)
    (unpacked : Memory UInt8) (row : Nat) (self : RequestCache) (buffers : DecodeBuffers) :
    Except PyError DecodeBuffers := do
  let selected := selectedCount self.seqLen
  let tail := self.seqLen % 4
  let compact <- copyMembers geometry self.slot selected unpacked
    ((row * 2 + 0) * 2048 * 256) ((row * 2 + 1) * 2048 * 256) buffers.compact
  let compact <- copyTail geometry self.slot selected tail
    (buffers.kBuffer li) (buffers.vBuffer li) compact
  let cells <- tableCells geometry self.slot raw (row * 2051) (validCount self.seqLen)
  pure { buffers with compact, compactTable := storeAll buffers.compactTable cells }

/-! ## A batch -/

/-- A ledger method that only reads, as seen by byte movement. -/
def Adapter.ask {α : Type} (adapter : Adapter) (method : Method QSAHiSparseSlots α) :
    Except PyError α :=
  outcome (method.run adapter.slots)

/-- The eager `after_store` of the runtime. -/
def Adapter.afterStore (adapter : Adapter) (li : Nat) (buffers : DecodeBuffers) :
    Except PyError DecodeBuffers :=
  if adapter.offloaded = true then
    adapter.batchRequests.foldlM
      (fun buffers state => do
        adapter.ask (require state.lease [.decode])
        state.afterStore adapter.geometry li buffers) buffers
  else
    .ok buffers

/-- The last loop of the eager `selected`: every row of the batch in turn. -/
def Adapter.finishRows (adapter : Adapter) (li : Nat) (raw : Memory Int) (unpacked : Memory UInt8)
    (buffers : DecodeBuffers) : Except PyError DecodeBuffers :=
  adapter.batchRequests.zipIdx.foldlM
    (fun buffers entry =>
      entry.1.finishSelected adapter.geometry li raw unpacked entry.2 buffers) buffers

end Decode
end QSAHiSparse

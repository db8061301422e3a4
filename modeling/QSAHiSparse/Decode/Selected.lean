import QSAHiSparse.Decode.Agreement

namespace QSAHiSparse
namespace Decode

open Foundation
open Ledger

/-!
# The eager selection

`selected` asks the resolver for a hot row of every requested block, gathers
those rows, reorders their K and V rows into planes and lets every request
finish its compact rows.  The resolver is a kernel of another package; it is a
parameter, and the only thing relied on is that it returns the requested
records as long as the residency tables it is given tell the truth.
-/

/-- The tensors the resolver reads. -/
structure ResolverCall where
  blocks : Memory Int
  tokens : Memory Int
  hostLocs : Int -> Int -> Int
  hostRows : Memory UInt8
  hot : Memory UInt8
  rowSlots : Memory Int
  batchLens : Memory Int
  lru : Memory Int
  real : Int

/-- The tensors it writes: residency, hot rows, recency and a hot row for each
requested block. -/
structure ResolverReturn where
  tokens : Memory Int
  hot : Memory UInt8
  lru : Memory Int
  out : Memory Int

/-- `load_cache_to_device_buffer_mla`. -/
abbrev Resolver := ResolverCall -> ResolverReturn

/-- The requested entries of a row are distinct complete blocks, and no other
row uses its slot. -/
structure ResolverCall.Proper (call : ResolverCall) (row : Int) : Prop where
  real : 0 ≤ row ∧ row < call.real
  complete : forall index, 0 ≤ index -> index < min (call.batchLens row) 512 ->
    0 ≤ call.blocks (row * 512 + index) ∧
      call.blocks (row * 512 + index) < call.batchLens row
  distinct : forall first second, 0 ≤ first -> first < min (call.batchLens row) 512 ->
    0 ≤ second -> second < min (call.batchLens row) 512 ->
    call.blocks (row * 512 + first) = call.blocks (row * 512 + second) -> first = second
  alone : forall other, 0 ≤ other -> other < call.real ->
    call.rowSlots other = call.rowSlots row -> other = row

/-- The residency table of a row tells the truth: a hot row that names a block of the
request holds its host record, row 2048 names the newest block, and as long as there are
at most 2048 blocks each is in the hot row of its number. -/
structure ResolverCall.Truthful (call : ResolverCall) (row : Int) : Prop where
  named : forall hotRow, 0 ≤ hotRow -> hotRow < 2112 ->
    0 ≤ call.tokens (call.rowSlots row * 2112 + hotRow) ->
    call.tokens (call.rowSlots row * 2112 + hotRow) < call.batchLens row ->
    forall byte, 0 ≤ byte -> byte < 2048 ->
      call.hot ((call.rowSlots row * 2112 + hotRow) * 2048 + byte) =
        call.hostRows (call.hostLocs (call.rowSlots row)
          (call.tokens (call.rowSlots row * 2112 + hotRow)) * 2048 + byte)
  newest : 0 < call.batchLens row ->
    call.tokens (call.rowSlots row * 2112 + 2048) = call.batchLens row - 1
  short : call.batchLens row ≤ 2048 -> forall block, 0 ≤ block -> block < call.batchLens row ->
    call.tokens (call.rowSlots row * 2112 + block) = block

/-- For each requested block of a proper row the resolver returns a hot row of the row's
slot.  Where the row's table is truthful, that hot row holds the block's host record. -/
structure Resolver.ReturnsRecords (resolver : Resolver) : Prop where
  inside : forall (call : ResolverCall) (row : Int), call.Proper row ->
    forall index, 0 ≤ index -> index < min (call.batchLens row) 512 ->
      exists hotRow : Int, 0 ≤ hotRow ∧ hotRow < 2112 ∧
        (resolver call).out (row * 512 + index) = call.rowSlots row * 2112 + hotRow
  records : forall (call : ResolverCall) (row : Int), call.Proper row -> call.Truthful row ->
    forall index, 0 ≤ index -> index < min (call.batchLens row) 512 ->
      forall byte, 0 ≤ byte -> byte < 2048 ->
        (resolver call).hot ((resolver call).out (row * 512 + index) * 2048 + byte) =
          call.hostRows
            (call.hostLocs (call.rowSlots row) (call.blocks (row * 512 + index)) * 2048 + byte)

/-- What the resolver below loads into a hot row of a slot. -/
def loadedBlock (call : ResolverCall) (slot hotRow : Int) : Option Int := do
  let row <- (List.range call.real.toNat).find? fun (row : Nat) => call.rowSlots row = slot
  if hotRow < min (call.batchLens row) 512 then some (call.blocks (row * 512 + hotRow)) else none

/-- A resolver that treats every request as a miss and loads entry `index` of a
row into hot row `index` of the row's slot. -/
def loadingResolver : Resolver := fun call =>
  { tokens := fun address =>
      (loadedBlock call (address / 2112) (address % 2112)).getD (call.tokens address)
    hot := fun address =>
      let slot := address / 2048 / 2112
      (loadedBlock call slot (address / 2048 % 2112)).elim (call.hot address) fun block =>
        call.hostRows (call.hostLocs slot block * 2048 + address % 2048)
    lru := call.lru
    out := fun address => call.rowSlots (address / 512) * 2112 + address % 512 }

theorem loadedBlock_requested {call : ResolverCall} {row : Int} (proper : call.Proper row)
    {index : Int} (last : index < min (call.batchLens row) 512) :
    loadedBlock call (call.rowSlots row) index = some (call.blocks (row * 512 + index)) := by
  unfold loadedBlock
  cases found : (List.range call.real.toNat).find?
      fun (other : Nat) => call.rowSlots other = call.rowSlots row with
  | none =>
      have real := proper.real
      have absent := List.find?_eq_none.mp found row.toNat (List.mem_range.mpr (by omega))
      rw [Int.toNat_of_nonneg real.1] at absent
      exact absurd (decide_eq_true rfl) absent
  | some other =>
      have inRange := List.mem_range.mp (List.mem_of_find?_eq_some found)
      have sameSlot := List.find?_some found
      have here := proper.alone other (by omega) (by omega) (of_decide_eq_true sameSlot)
      rw [Option.bind_eq_bind, Option.bind_some, here, if_pos last]

theorem loadingResolver_out (call : ResolverCall) (row : Int) {index : Int} (first : 0 ≤ index)
    (last : index < 512) :
    (loadingResolver call).out (row * 512 + index) = call.rowSlots row * 2112 + index := by
  have named : (row * 512 + index) / 512 = row := by omega
  have within : (row * 512 + index) % 512 = index := by omega
  simp only [loadingResolver]
  rw [named, within]

/-- The loading resolver returns the requested records, whatever the tables say. -/
theorem loadingResolver_returns : loadingResolver.ReturnsRecords where
  inside := by
    intro call row _ index first last
    exact ⟨index, first, by omega, loadingResolver_out call row first (by omega)⟩
  records := by
    intro call row proper _ index first last byte lower upper
    have hotPlace : ((call.rowSlots row * 2112 + index) * 2048 + byte) / 2048 =
        call.rowSlots row * 2112 + index := by omega
    have slot : (call.rowSlots row * 2112 + index) / 2112 = call.rowSlots row := by omega
    have hotRow : (call.rowSlots row * 2112 + index) % 2112 = index := by omega
    have offset : ((call.rowSlots row * 2112 + index) * 2048 + byte) % 2048 = byte := by omega
    rw [loadingResolver_out call row first (by omega)]
    simp only [loadingResolver]
    rw [hotPlace, slot, hotRow, offset, loadedBlock_requested proper last]
    rfl

/-- `unpack_index`: where a row of the planes lies among the gathered rows. -/
def unpackIndex (place : Int) : Int :=
  place % 2048 / 4 * 8 + place % 4 + (if place < 2048 then 0 else 4)

/-- `index_select` of 2048-byte hot rows. -/
def gatherRows (hot : Memory UInt8) (indices : Memory Int) : Memory UInt8 := fun address =>
  hot (indices (address / 2048) * 2048 + address % 2048)

/-- `index_select` of 256-byte rows, batch row by batch row. -/
def unpackRows (gathered : Memory UInt8) : Memory UInt8 := fun address =>
  let place := address / 256
  gathered ((unpackIndex (place % 4096) + place / 4096 * 4096) * 256 + address % 256)

section Selected

variable (adapter : Adapter) (li : Nat)

/-- The ownership and generation checks of one row. -/
def Adapter.checkRow (state : RequestCache) : Except PyError PUnit := do
  adapter.ask (require state.lease [])
  adapter.ask (require state.lease [.decode])
  match state.states[li]? with
  | none => .error (.indexError "list index out of range")
  | some generation =>
      if generation ≠ state.generation then
        .error (.runtimeError "stale QSA batched selected state")
      else
        .ok ⟨⟩

/-- `shared["host_locs"]`. -/
def Adapter.hostLocs (slot block : Int) : Int :=
  block + (slot * 12 + li) * (adapter.geometry.stagingTokens / 4 : Nat)

/-- The call of the resolver: every fourth entry of a selection row names a
block. -/
def Adapter.resolverCall (raw : Memory Int) (buffers : DecodeBuffers) : ResolverCall where
  blocks := fun address => raw (address / 512 * 2051 + address % 512 * 4) / 4
  tokens := buffers.tokens li
  hostLocs := adapter.hostLocs li
  hostRows := buffers.hostSlabs
  hot := buffers.hot li
  rowSlots := fun row => (adapter.batchRequests[row.toNat]?).elim 0 fun state => state.slot
  batchLens := fun row => (adapter.batchRequests[row.toNat]?).elim 0 fun state => state.seqLen / 4
  lru := buffers.lru li
  real := adapter.batchRequests.length

/-- The resolver's rows, with the entries past a request's blocks masked. -/
def gatherIndices (call : ResolverCall) (resolved : ResolverReturn) : Memory Int := fun address =>
  if address % 512 ≥ call.batchLens (address / 512) then 0 else resolved.out address

section Resolved

variable (resolver : Resolver) (raw : Memory Int) (buffers : DecodeBuffers)

/-- The hot rows to gather. -/
def Adapter.gathered : Memory Int :=
  let call := adapter.resolverCall li raw buffers
  gatherIndices call (resolver call)

/-- The buffers after the resolver has run. -/
def Adapter.resolved : DecodeBuffers :=
  let resolved := resolver (adapter.resolverCall li raw buffers)
  { buffers with
    hot := Function.update buffers.hot li resolved.hot
    tokens := Function.update buffers.tokens li resolved.tokens
    lru := Function.update buffers.lru li resolved.lru }

/-- The unpacked members of the batch. -/
def Adapter.unpacked : Memory UInt8 :=
  unpackRows (gatherRows ((adapter.resolved li resolver raw buffers).hot li)
    (adapter.gathered li resolver raw buffers))

/-- The eager `selected`. -/
def Adapter.selected : Except PyError DecodeBuffers :=
  if adapter.offloaded = false ∨ adapter.batchRequests = [] ∨
      adapter.geometry.maxRequests < adapter.batchRequests.length then
    .error (.runtimeError "QSA P2 selection rows do not match current decode batch")
  else do
    adapter.batchRequests.forM (adapter.checkRow li)
    if forall address : Nat, address < adapter.batchRequests.length * 512 ->
        0 ≤ adapter.gathered li resolver raw buffers address ∧
        adapter.gathered li resolver raw buffers address < adapter.geometry.maxRequests * 2112 then
      adapter.finishRows li raw (adapter.unpacked li resolver raw buffers)
        (adapter.resolved li resolver raw buffers)
    else
      .error (.indexError "index out of range in self")

end Resolved

end Selected

end Decode
end QSAHiSparse

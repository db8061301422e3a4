import Mathlib.Tactic.Ring
import QSAHiSparse.Foundation.Memory
import QSAHiSparse.Foundation.Python
import QSAHiSparse.Ledger.Outcomes

namespace QSAHiSparse
namespace Decode

open Foundation
open Ledger

/-!
# Decode buffers and the views of a request

One raw token is a K row and a V row of 256 bytes.  A C4 block is a record of
2048 bytes: four K rows, then four V rows.  A lease slot owns five ring rows of
which the first is padding, 2112 hot rows of which row 2048 is the newest
block, 2052 compact rows of which the first is padding, one row of the compact
table, and one host slab for each layer.
-/

/-- The fixed tensors.  A layer has its own raw pool, hot rows and residency
tokens; the compact workspace and the host slabs are shared. -/
structure DecodeBuffers where
  kBuffer : Nat -> Memory UInt8
  vBuffer : Nat -> Memory UInt8
  hot : Nat -> Memory UInt8
  tokens : Nat -> Memory Int
  lru : Nat -> Memory Int
  compact : Memory UInt8
  compactTable : Memory Int
  hostSlabs : Memory UInt8

/-- A tensor view with its leading dimension: where it starts, how many
indices it has and how many elements one index spans. -/
structure View where
  base : Int
  size : Int
  width : Int
deriving DecidableEq, Repr

/-- The first address of `view[index]`, negative indices counting from the
end. -/
def View.row (view : View) (index : Int) : Except PyError Int :=
  if -view.size ≤ index ∧ index < view.size then
    .ok (view.base + (if index < 0 then index + view.size else index) * view.width)
  else
    .error (.indexError "index is out of bounds for dimension 0")

theorem View.row_nonneg {view : View} {index : Int} (lower : 0 ≤ index)
    (upper : index < view.size) : view.row index = .ok (view.base + index * view.width) := by
  unfold View.row
  rw [if_pos ⟨by omega, upper⟩, if_neg (by omega)]

/-- A nonnegative index that is accepted is in range. -/
theorem View.row_ok {view : View} {index address : Int} (lower : 0 ≤ index)
    (accepted : view.row index = .ok address) :
    index < view.size ∧ address = view.base + index * view.width := by
  unfold View.row at accepted
  split at accepted
  · next bounds =>
      rw [if_neg (by omega)] at accepted
      cases accepted
      exact ⟨bounds.2, rfl⟩
  · cases accepted

/-- The addresses of a view. -/
def View.Covers (view : View) (address : Int) : Prop :=
  view.base ≤ address ∧ address < view.base + view.size * view.width

section Views

variable (geometry : Geometry)

/-- `page_size + staging_tokens`, where the rings start. -/
def ringBase : Int := geometry.pageSize + geometry.stagingTokens

/-- `k_buffer[slots.ring_slice(lease)]`. -/
def ringView (slot : Nat) : View := ⟨geometry.ringStart slot * 256, 5, 256⟩

/-- `hot.view(max_requests, 2112, 2048)[slot]`. -/
def hotView (slot : Nat) : View := ⟨slot * 2112 * 2048, 2112, 2048⟩

/-- `tokens[slot : slot + 1][0]`. -/
def tokensView (slot : Nat) : View := ⟨slot * 2112, 2112, 1⟩

/-- `compact[plane, slot * 2052 : slot * 2052 + 2052]`. -/
def compactView (plane slot : Nat) : View :=
  ⟨(plane * (geometry.maxRequests * 2052) + slot * 2052 : Nat) * 256, 2052, 256⟩

/-- `compact_table[slot : slot + 1][0]`; a context is as long as staging. -/
def tableView (slot : Nat) : View := ⟨slot * geometry.stagingTokens, geometry.stagingTokens, 1⟩

/-- `host_slabs[slot][li]`. -/
def hostView (slot li : Nat) : View :=
  ⟨((slot * 12 + li) * (geometry.stagingTokens / 4) : Nat) * 2048,
    (geometry.stagingTokens / 4 : Nat), 2048⟩

theorem ringView_row (slot : Nat) {index : Int} (lower : 0 ≤ index) (upper : index < 5) :
    (ringView geometry slot).row index =
      .ok ((ringBase geometry + slot * 5 + index) * 256) := by
  rw [View.row_nonneg lower upper]
  simp only [ringView, ringBase, Geometry.ringStart, Except.ok.injEq]
  omega

theorem hotView_row (slot : Nat) {index : Int} (lower : 0 ≤ index) (upper : index < 2112) :
    (hotView slot).row index = .ok ((slot * 2112 + index) * 2048) := by
  rw [View.row_nonneg lower upper]
  simp only [hotView, Except.ok.injEq]
  omega

theorem tokensView_row (slot : Nat) {index : Int} (lower : 0 ≤ index) (upper : index < 2112) :
    (tokensView slot).row index = .ok (slot * 2112 + index) := by
  rw [View.row_nonneg lower upper]
  simp only [tokensView, Except.ok.injEq]
  omega

theorem compactView_row (plane slot : Nat) {index : Int} (lower : 0 ≤ index)
    (upper : index < 2052) :
    (compactView geometry plane slot).row index =
      .ok ((plane * (geometry.maxRequests * 2052) + slot * 2052 + index) * 256) := by
  rw [View.row_nonneg lower upper]
  simp only [compactView, Except.ok.injEq]
  push_cast
  ring

end Views

/-- What byte movement reads of a request's cache: its lease, its length, and
the generation each layer state was made with. -/
structure RequestCache where
  lease : QSAHiSparseLease
  seqLen : Int
  offloaded : Bool
  states : List Int
deriving DecidableEq, Repr

def RequestCache.slot (request : RequestCache) : Nat := request.lease.slot

def RequestCache.generation (request : RequestCache) : Int := request.lease.generation

/-- What byte movement reads of the runtime. -/
structure Adapter where
  slots : QSAHiSparseSlots
  offloaded : Bool
  batchRequests : List RequestCache

def Adapter.geometry (adapter : Adapter) : Geometry := adapter.slots.geometry

end Decode
end QSAHiSparse

import QSAHiSparse.Decode.Layout

namespace QSAHiSparse
namespace Decode

open Foundation

/-!
# The decode graph kernels

A program of a launch is the list of stores it makes to each buffer.  Both
kernels load only from buffers that their launch does not write, so the loaded
values do not depend on the order in which programs run.  A real row's length
is positive and every address of a store is a nonnegative `int32`, so `//` and
`%` are the mathematical ones.
-/

/-- The routing buffers of a forward. -/
structure Routing where
  slots : Memory Int
  lengths : Memory Int
  real : Int

/-- The stores of `close_c4` to the hot rows and the residency tokens. -/
structure CloseStores where
  hot : List (Store UInt8)
  tokens : List (Store Int)

/-- The stores of `finish_compact`. -/
structure CompactStores where
  compact : List (Store UInt8)
  table : List (Store Int)

/-- The body of `close_c4` on a closing row. -/
def closeC4Stores (k v : Memory UInt8) (ringStart slot seq : Int) : CloseStores :=
  let ring := fun i => (ringStart + slot * 5 + 1) * 256 + i
  let newest := (slot * 2112 + 2048) * 2048
  let block := seq / 4 - 1
  let dst := (slot * 2112 + block) * 2048
  { hot :=
      vectorStore 1024 (fun _ => True) (fun i => newest + i) (fun i => k (ring i)) ++
      vectorStore 1024 (fun _ => True) (fun i => newest + 1024 + i) (fun i => v (ring i)) ++
      (if block < 2048 then
        vectorStore 1024 (fun _ => True) (fun i => dst + i) (fun i => k (ring i)) ++
        vectorStore 1024 (fun _ => True) (fun i => dst + 1024 + i) (fun i => v (ring i))
      else [])
    tokens :=
      ⟨slot * 2112 + 2048, block⟩ ::
      (if block < 2048 then [⟨slot * 2112 + block, block⟩] else []) }

/-- The program at `program_id(0) = row`. -/
def closeC4 (k v : Memory UInt8) (routing : Routing) (ringStart row : Int) : CloseStores :=
  if row < routing.real then
    if routing.lengths row % 4 = 0 then
      closeC4Stores k v ringStart (routing.slots row) (routing.lengths row)
    else
      ⟨[], []⟩
  else
    ⟨[], []⟩

/-- The buffers `finish_compact` loads from. -/
structure CompactSources where
  unpacked : Memory UInt8
  k : Memory UInt8
  v : Memory UInt8
  raw : Memory Int

/-- The ring a plane's pending members come from. -/
def CompactSources.ringMemory (sources : CompactSources) (plane : Int) : Memory UInt8 :=
  if plane = 0 then sources.k else sources.v

/-- The stores of one plane of a program. -/
def compactPlane (sources : CompactSources) (ringStart planeStride slot seq row chunk : Int)
    (plane : Int) : List (Store UInt8) :=
  let tail := seq % 4
  let selectedCount := min (seq / 4 * 4) 2048
  let byte := fun i => chunk * 1024 + i
  let member := fun i => byte i / 256
  let dim := fun i => byte i % 256
  let ring := fun i => (ringStart + slot * 5 + 1 + member i - selectedCount) * 256 + dim i
  let selected := fun i => member i < selectedCount
  let pending := fun i => member i ≥ selectedCount ∧ member i < selectedCount + tail
  let u := fun i => maskedLoad sources.unpacked ((row * 2 + plane) * 2048 * 256 + byte i)
    (selected i) 0
  let t := fun i => maskedLoad (sources.ringMemory plane) (ring i) (pending i) 0
  vectorStore 1024 (fun i => selected i ∨ pending i)
    (fun i => (plane * planeStride + slot * 2052 + 1 + member i) * 256 + dim i)
    (fun i => if selected i then u i else t i)

/-- The stores of a program to the compact table. -/
def compactCells (raw : Memory Int) (capacity slot seq row chunk : Int) : List (Store Int) :=
  let tail := seq % 4
  let selectedCount := min (seq / 4 * 4) 2048
  let memberId := fun i => chunk * 4 + i
  let valid := fun i => memberId i < selectedCount + tail
  let logical := fun i => maskedLoad raw (row * 2051 + memberId i) (valid i) 0
  vectorStore 4 valid (fun i => slot * capacity + logical i) (fun i => slot * 2052 + 1 + memberId i)

/-- The program at `program_id(0) = row` and `program_id(1) = chunk`. -/
def finishCompact (sources : CompactSources) (routing : Routing)
    (capacity ringStart planeStride row chunk : Int) : CompactStores :=
  if row < routing.real then
    let slot := routing.slots row
    let seq := routing.lengths row
    { compact :=
        compactPlane sources ringStart planeStride slot seq row chunk 0 ++
        compactPlane sources ringStart planeStride slot seq row chunk 1
      table := compactCells sources.raw capacity slot seq row chunk }
  else
    ⟨[], []⟩

/-! ## Launches -/

/-- `close_c4[(count,)]`. -/
def closeC4Grid (k v : Memory UInt8) (routing : Routing) (ringStart : Int) (count : Nat) :
    CloseStores where
  hot := (List.range count).flatMap fun (row : Nat) => (closeC4 k v routing ringStart row).hot
  tokens := (List.range count).flatMap fun (row : Nat) => (closeC4 k v routing ringStart row).tokens

/-- The 513 programs of one row. -/
def finishCompactRow (sources : CompactSources) (routing : Routing)
    (capacity ringStart planeStride row : Int) : CompactStores where
  compact := (List.range 513).flatMap fun (chunk : Nat) =>
    (finishCompact sources routing capacity ringStart planeStride row chunk).compact
  table := (List.range 513).flatMap fun (chunk : Nat) =>
    (finishCompact sources routing capacity ringStart planeStride row chunk).table

/-- `finish_compact[(count, 513)]`. -/
def finishCompactGrid (sources : CompactSources) (routing : Routing)
    (capacity ringStart planeStride : Int) (count : Nat) : CompactStores where
  compact := (List.range count).flatMap fun (row : Nat) =>
    (finishCompactRow sources routing capacity ringStart planeStride row).compact
  table := (List.range count).flatMap fun (row : Nat) =>
    (finishCompactRow sources routing capacity ringStart planeStride row).table

end Decode
end QSAHiSparse

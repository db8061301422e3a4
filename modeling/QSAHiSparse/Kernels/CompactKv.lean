import QSAHiSparse.Foundation.Memory
import QSAHiSparse.Foundation.Python
import QSAHiSparse.Foundation.Segments
import QSAHiSparse.Weights.PleTable
import Mathlib.Algebra.GroupWithZero.Defs

namespace QSAHiSparse
namespace Kernels

open Foundation
open Weights (TorchDtype)

/-!
# Gathering the selected rows

The gather copies the K/V rows that a selection names out of the pool into
scratch buffers.  A program takes sixteen columns of one request and one head.
Rows lie back to back, or every request owns the same number of rows and the
ones past its selection are filled with zeros.
-/

/-- `_FP8_DTYPES`. -/
def fp8Dtypes : List TorchDtype :=
  [.float8E4m3fn, .other "float8_e4m3fnuz", .other "float8_e5m2"]

def isFp8KvDtype (dtype : TorchDtype) : Bool :=
  fp8Dtypes.contains dtype

/-- The arguments of the launcher. `heads` and `dim` are read from the shape of
`k`, the strides from the tables. -/
structure CompactArgs (Element Float32 : Type) where
  k : Memory Element
  v : Memory Element
  kDtype : TorchDtype
  vDtype : TorchDtype
  heads : Nat
  dim : Nat
  reqToToken : Memory Int
  reqStride : Nat
  reqIndices : Memory Int
  indices : Memory Int
  idxStride : Nat
  seqLens : Memory Int
  cuK : Memory Int
  outKDtype : TorchDtype
  outVDtype : TorchDtype
  batch : Nat
  topk : Nat
  kScale : Option Float32
  vScale : Option Float32
  zeroFillCols : Int

/-- The conversions between the dtypes of the pool, of the arithmetic and of the
scratch.  They keep zero. -/
structure Conversions (Element Float32 Output : Type) [Zero Element] [Zero Float32] [Zero Output]
    where
  toFloat32 : Element -> Float32
  narrow : Float32 -> Output
  convert : Element -> Output
  toFloat32_zero : toFloat32 0 = 0
  narrow_zero : narrow 0 = 0
  convert_zero : convert 0 = 0

variable {Element Float32 Output : Type} [Zero Element] [MulZeroClass Float32] [Zero Output]

/-- What a scratch element is given for a pool element. -/
def Conversions.stored (conversions : Conversions Element Float32 Output) (dequantizeFp8 : Bool)
    (scale : Float32) (value : Element) : Output :=
  if dequantizeFp8 then conversions.narrow (conversions.toFloat32 value * scale)
  else conversions.convert value

@[simp]
theorem Conversions.stored_zero (conversions : Conversions Element Float32 Output)
    (dequantizeFp8 : Bool) (scale : Float32) : conversions.stored dequantizeFp8 scale 0 = 0 := by
  unfold Conversions.stored
  rw [conversions.toFloat32_zero, zero_mul, conversions.narrow_zero, conversions.convert_zero,
    ite_self]

/-- `_unit_scale`. -/
def unitScale [One Float32] (scale : Option Float32) : Float32 :=
  scale.getD 1

omit [MulZeroClass Float32] in
@[simp] theorem unitScale_some [One Float32] (scale : Float32) : unitScale (some scale) = scale := rfl

omit [MulZeroClass Float32] in
@[simp] theorem unitScale_none [One Float32] : unitScale (none : Option Float32) = 1 := rfl

/-! ## The kernel -/

section Kernel

variable (args : CompactArgs Element Float32)

/-- The positions that a request selects; columns past the selection are empty. -/
def CompactArgs.positions (batch : Nat) (col : Int) : Int :=
  maskedLoad args.indices (batch * args.idxStride + col) (col < args.topk) (-1)

def CompactArgs.validCount (batch : Nat) : Int :=
  args.cuK (batch + 1) - args.cuK batch

/-- A column whose row is read. -/
def CompactArgs.valid (batch : Nat) (col : Int) : Prop :=
  col < args.validCount batch ∧ 0 ≤ args.positions batch col ∧
    args.positions batch col < args.seqLens batch

instance (batch : Nat) (col : Int) : Decidable (args.valid batch col) :=
  inferInstanceAs (Decidable (_ ∧ _ ∧ _))

def CompactArgs.slots (batch : Nat) (col : Int) : Int :=
  maskedLoad args.reqToToken
    (args.reqIndices batch * args.reqStride +
      if args.valid batch col then args.positions batch col else 0)
    (args.valid batch col) 0

/-- The address of an element, in a pool or in a scratch buffer. -/
def CompactArgs.address (row : Int) (head : Nat) (element : Int) : Int :=
  row * args.heads * args.dim + head * args.dim + element

def CompactArgs.loadMask (batch : Nat) (col element : Int) : Prop :=
  args.valid batch col ∧ element < args.dim

instance (batch : Nat) (col element : Int) : Decidable (args.loadMask batch col element) :=
  inferInstanceAs (Decidable (_ ∧ _))

/-- With `ZERO_FILL` the store covers the whole region of the request. -/
def CompactArgs.storeMask (padCols : Int) (zeroFill : Bool) (batch : Nat) (col element : Int) :
    Prop :=
  if zeroFill then col < padCols ∧ element < args.dim else args.loadMask batch col element

instance (padCols : Int) (zeroFill : Bool) (batch : Nat) (col element : Int) :
    Decidable (args.storeMask padCols zeroFill batch col element) :=
  inferInstanceAs (Decidable (if zeroFill then _ else _))

/-- What a program stores to one of its two outputs. -/
def CompactArgs.stores (conversions : Conversions Element Float32 Output) (padCols : Int)
    (blockTopk blockD : Nat) (dequantizeFp8 zeroFill : Bool) (pool : Memory Element)
    (scale : Float32) (batch head block : Nat) : List (Store Output) :=
  tileStore blockTopk blockD
    (fun lane element =>
      args.storeMask padCols zeroFill batch (block * blockTopk + lane) element)
    (fun lane element =>
      args.address (args.cuK batch + (block * blockTopk + lane)) head element)
    fun lane element =>
      conversions.stored dequantizeFp8 scale
        (maskedLoad pool (args.address (args.slots batch (block * blockTopk + lane)) head element)
          (args.loadMask batch (block * blockTopk + lane) element) 0)

/-- `_compact_kv`, for one program: the stores to `out_k` and to `out_v`. -/
def compactKv (conversions : Conversions Element Float32 Output) (kScale vScale : Float32)
    (padCols : Int) (blockTopk blockD : Nat) (dequantizeFp8 zeroFill : Bool)
    (batch head block : Nat) : List (Store Output) × List (Store Output) :=
  (args.stores conversions padCols blockTopk blockD dequantizeFp8 zeroFill args.k kScale batch head
      block,
    args.stores conversions padCols blockTopk blockD dequantizeFp8 zeroFill args.v vScale batch
      head block)

end Kernel

/-! ## The launcher -/

/-- A grid, and what each of its programs stores to the two outputs. -/
structure CompactLaunch (Output : Type) where
  grid : List (Nat × Nat × Nat)
  program : Nat × Nat × Nat -> List (Store Output) × List (Store Output)

def CompactLaunch.storesK (launch : CompactLaunch Output) : List (Store Output) :=
  launch.grid.flatMap fun place => (launch.program place).1

def CompactLaunch.storesV (launch : CompactLaunch Output) : List (Store Output) :=
  launch.grid.flatMap fun place => (launch.program place).2

/-- The programs of a grid of three dimensions. -/
def gridOf (batch heads blocks : Nat) : List (Nat × Nat × Nat) :=
  (List.range batch).flatMap fun place => (List.range heads).flatMap fun head =>
    (List.range blocks).map fun block => (place, head, block)

theorem mem_gridOf {batch heads blocks place head block : Nat} :
    (place, head, block) ∈ gridOf batch heads blocks <->
      place < batch ∧ head < heads ∧ block < blocks := by
  unfold gridOf
  simp only [List.mem_flatMap, List.mem_map, List.mem_range, Prod.mk.injEq]
  constructor
  · rintro ⟨_, in_batch, _, in_heads, _, in_blocks, rfl, rfl, rfl⟩
    exact ⟨in_batch, in_heads, in_blocks⟩
  · rintro ⟨in_batch, in_heads, in_blocks⟩
    exact ⟨place, in_batch, head, in_heads, block, in_blocks, rfl, rfl, rfl⟩

/-- `dequantize_fp8`. -/
def CompactArgs.dequantizeFp8 (args : CompactArgs Element Float32) : Bool :=
  isFp8KvDtype args.kDtype && !isFp8KvDtype args.outKDtype

/-- `num_cols`, the columns that the grid covers. -/
def CompactArgs.numCols (args : CompactArgs Element Float32) : Int :=
  if 0 < args.zeroFillCols then args.zeroFillCols else args.topk

def qwenSparseKvExtractionCompactTriton [One Float32]
    (conversions : Conversions Element Float32 Output) (args : CompactArgs Element Float32) :
    Except PyError (CompactLaunch Output) :=
  if args.kDtype ≠ args.vDtype ∨ args.outKDtype ≠ args.outVDtype then
    .error (.valueError "QSA compact K/V input and output dtype pairs must match")
  else
    let blockTopk := 16
    .ok {
      grid := gridOf args.batch args.heads ((args.numCols + blockTopk - 1) / blockTopk).toNat
      program := fun (batch, head, block) =>
        compactKv args conversions (unitScale args.kScale) (unitScale args.vScale) args.numCols 16
          (nextPowerOf2 args.dim) args.dequantizeFp8 (0 < args.zeroFillCols) batch head block }

end Kernels
end QSAHiSparse

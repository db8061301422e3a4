import Mathlib.Algebra.Field.Defs
import Mathlib.Algebra.BigOperators.Group.Finset.Basic
import Mathlib.Data.Finset.Lattice.Fold
import Mathlib.Order.WithBot
import QSAHiSparse.Kernels.CompactKv

namespace QSAHiSparse
namespace Kernels

open Foundation
open Weights (TorchDtype)

/-!
# Sparse attention over K/V rows

The two prefill kernels take the keys of a selection block by block and keep a
running maximum, normalizer and accumulator.  Over an FP8 cache they multiply the
scores by the K scale and the weighted values by the V scale.  The arithmetic is
exact, so a conversion between dtypes keeps every value.
-/

/-- A contiguous tensor of rank three. -/
structure Tensor (K : Type) where
  dtype : TorchDtype
  isCuda : Bool
  rows : Nat
  heads : Nat
  dim : Nat
  data : Memory K

def Tensor.address {K : Type} (tensor : Tensor K) (row : Int) (head element : Nat) : Int :=
  row * (tensor.heads * tensor.dim : Nat) + head * tensor.dim + element

/-- `tensor.reshape(-1, heads, dim)`. -/
def Tensor.reshape {K : Type} (tensor : Tensor K) (heads dim : Nat) : Tensor K :=
  { tensor with rows := tensor.rows * tensor.heads * tensor.dim / (heads * dim), heads, dim }

/-- `tensor[:rows]`. -/
def Tensor.take {K : Type} (tensor : Tensor K) (rows : Nat) : Tensor K :=
  { tensor with rows := min rows tensor.rows }

/-- `output.reshape(rows, -1)`. -/
def Tensor.flatten {K : Type} (tensor : Tensor K) : Tensor K :=
  { tensor with heads := 1, dim := tensor.heads * tensor.dim }

/-- The rows that an index list names, one after the other. -/
def Tensor.selectRows {K : Type} (tensor : Tensor K) (slots : List Int) : Tensor K :=
  let width : Int := (tensor.heads * tensor.dim : Nat)
  { tensor with
    rows := slots.length
    data := fun address =>
      tensor.data ((slots[(address / width).toNat]?).getD 0 * width + address % width) }

/-- Selected tokens of every query row, for all groups or for each of them. -/
structure Indices where
  rows : Nat
  groups : Option Nat
  topk : Nat
  data : Memory Int

def Indices.address (indices : Indices) (query : Int) (group current : Nat) : Int :=
  match indices.groups with
  | none => query * indices.topk + current
  | some groups => query * (groups * indices.topk : Nat) + group * indices.topk + current

def float16 : TorchDtype := .other "float16"

section Validate

variable {K : Type}

/-- `_validate_sparse_gqa_dtypes`: whether K and V are FP8. -/
def validateSparseGqaDtypes (q k v : Tensor K) : Except PyError Bool :=
  if k.dtype ≠ v.dtype then
    .error (.valueError
      ("QSA K/V dtypes must match, got " ++ k.dtype.text ++ " and " ++ v.dtype.text))
  else if ¬ (q.dtype = .bfloat16 ∨ q.dtype = float16) then
    .error (.valueError ("QSA expects BF16/FP16 queries, got " ++ q.dtype.text))
  else if isFp8KvDtype k.dtype = false ∧ k.dtype ≠ q.dtype then
    .error (.valueError ("QSA K/V must match query dtype " ++ q.dtype.text ++
      " or use FP8, got " ++ k.dtype.text))
  else
    .ok (isFp8KvDtype k.dtype)

end Validate

variable {K : Type} [Field K]

/-! ## The loop over the selection -/

/-- What a program of either kernel reads.  `exp2` is two to the difference of its
arguments. -/
structure GqaArgs (K : Type) where
  exp2 : WithBot K -> WithBot K -> K
  q : Tensor K
  k : Tensor K
  v : Tensor K
  indices : Indices
  scale : K
  blockM : Nat
  blockN : Nat

def GqaArgs.groupSize (args : GqaArgs K) : Nat := args.q.heads / args.k.heads

/-- The query row of a program, its group of heads, where its keys start, and how
many of them it may see. -/
structure GqaRow where
  query : Int
  group : Nat
  kStart : Int
  visible : Int

/-- The running maximum, normalizer and accumulator of every lane. -/
structure SoftmaxState (K : Type) where
  maxValue : Nat -> WithBot K
  normalizer : Nat -> K
  accumulator : Nat -> Nat -> K

section Program

variable (args : GqaArgs K) (row : GqaRow)

/-- `q_values`, times the scale and the logarithm of e to the base two. -/
def GqaArgs.qValues (lane element : Nat) : K :=
  maskedLoad args.q.data (args.q.address row.query (row.group * args.groupSize + lane) element)
    (lane < args.groupSize) 0 * args.scale * (14426950408 / 10000000000)

def GqaArgs.token (current : Nat) : Int :=
  maskedLoad args.indices.data (args.indices.address row.query row.group current)
    (current < args.indices.topk) (-1)

/-- `keys`, and `values` of the other tensor. -/
def GqaArgs.load (tensor : Tensor K) (current element : Nat) : K :=
  maskedLoad tensor.data (tensor.address (row.kStart + args.token row current) row.group element)
    (0 ≤ args.token row current) 0

variable (kvIsFp8 : Bool) (kScale vScale : K)

def GqaArgs.score (current lane : Nat) : WithBot K :=
  if 0 ≤ args.token row current then
    let score := ∑ element ∈ Finset.range args.q.dim,
      args.qValues row lane element * args.load row args.k current element
    ((if kvIsFp8 then score * kScale else score : K) : WithBot K)
  else
    ⊥

variable [LinearOrder K]

/-- One turn of the loop, over the columns from `start` on. -/
def GqaArgs.step (state : SoftmaxState K) (start : Nat) : SoftmaxState K :=
  let score := fun lane column => args.score row kvIsFp8 kScale (start + column) lane
  let nextMax := fun lane =>
    max (state.maxValue lane) ((Finset.range args.blockN).sup fun column => score lane column)
  let alpha := fun lane => args.exp2 (state.maxValue lane) (nextMax lane)
  let probability := fun lane column => args.exp2 (score lane column) (nextMax lane)
  let weighted := fun lane element => ∑ column ∈ Finset.range args.blockN,
    probability lane column * args.load row args.v (start + column) element
  { maxValue := nextMax
    normalizer := fun lane => state.normalizer lane * alpha lane +
      ∑ column ∈ Finset.range args.blockN, probability lane column
    accumulator := fun lane element =>
      if kvIsFp8 then
        state.accumulator lane element * alpha lane + weighted lane element * vScale
      else
        weighted lane element + state.accumulator lane element * alpha lane }

/-- `row_limit`. -/
def GqaArgs.rowLimit : Int :=
  let rowTopk := min (args.indices.topk : Int) row.visible
  min (args.indices.topk : Int) ((rowTopk + args.blockN - 1) / args.blockN * args.blockN)

/-- `range(0, row_limit, BLOCK_N)`. -/
def GqaArgs.starts : List Nat :=
  (List.range (((args.rowLimit row).toNat + args.blockN - 1) / args.blockN)).map fun turn =>
    turn * args.blockN

/-- What a program stores to the output, a tensor like `q`. -/
def GqaArgs.stores : List (Store K) :=
  let final := (args.starts row).foldl (args.step row kvIsFp8 kScale vScale)
    ⟨fun _ => ⊥, fun _ => 0, fun _ _ => 0⟩
  tileStore args.blockM args.q.dim (fun lane _ => lane < args.groupSize)
    (fun lane element => args.q.address row.query (row.group * args.groupSize + lane.toNat)
      element.toNat)
    fun lane element => final.accumulator lane.toNat element.toNat / final.normalizer lane.toNat

end Program

/-! ## The kernels -/

section Kernels

variable [LinearOrder K] (args : GqaArgs K) (kvIsFp8 : Bool) (kScale vScale : K)

/-- `_sparse_gqa_prefill`, for one program. -/
def sparseGqaPrefill (cuSeqlens : Memory Int) (queryRelative batchGroup : Nat) : List (Store K) :=
  let group := batchGroup % args.k.heads
  let batch := batchGroup / args.k.heads
  let seqStart := cuSeqlens batch
  let seqEnd := cuSeqlens (batch + 1)
  let query := seqStart + queryRelative
  if seqEnd ≤ query then []
  else args.stores ⟨query, group, seqStart, queryRelative + 1⟩ kvIsFp8 kScale vScale

/-- `_sparse_gqa_chunk_prefill`, for one program. -/
def sparseGqaChunkPrefill (cuQ cuK kvLens : Memory Int) (queryRelative batchGroup : Nat) :
    List (Store K) :=
  let group := batchGroup % args.k.heads
  let batch := batchGroup / args.k.heads
  let qStart := cuQ batch
  let qEnd := cuQ (batch + 1)
  let query := qStart + queryRelative
  if qEnd ≤ query then []
  else
    args.stores ⟨query, group, cuK batch, queryRelative + kvLens batch - (qEnd - qStart) + 1⟩
      kvIsFp8 kScale vScale

end Kernels

/-! ## The launchers -/

/-- A launch over an output like the queries: its grid and its programs. -/
structure GqaLaunch (K : Type) where
  grid : Nat × Nat
  program : Nat -> Nat -> List (Store K)

/-- What the launchers take of the device: `exp2`, and the block size of
`_get_best_config`. -/
structure GqaDevice (K : Type) where
  exp2 : WithBot K -> WithBot K -> K
  bestBlockN : Nat -> Nat

section Launchers

variable [LinearOrder K] (device : GqaDevice K)

def GqaDevice.args (q k v : Tensor K) (indices : Indices) (scale : K) : GqaArgs K where
  exp2 := device.exp2
  q := q
  k := k
  v := v
  indices := indices
  scale := scale
  blockM := max 16 (nextPowerOf2 (q.heads / k.heads))
  blockN := device.bestBlockN q.rows

/-- An offsets tensor: one more entry than there are sequences. -/
structure Offsets where
  sequences : Nat
  data : Memory Int

def sparseGqaFwdInterfaceTriton (q k v : Tensor K) (maxSeqlenK : Nat) (indices : Indices)
    (cuSeqlens : Offsets) (scale : K) (kScale vScale : Option K) :
    Except PyError (GqaLaunch K) := do
  let kvIsFp8 <- validateSparseGqaDtypes q k v
  let args := device.args q k v indices scale
  pure {
    grid := (maxSeqlenK, cuSeqlens.sequences * k.heads)
    program := sparseGqaPrefill args kvIsFp8 (unitScale kScale) (unitScale vScale) cuSeqlens.data }

/-- `(cu_q[1:] - cu_q[:-1]).max()`. -/
def Offsets.longest (cuQ : Offsets) : Nat :=
  (((List.range cuQ.sequences).map fun place =>
    cuQ.data (place + 1) - cuQ.data place).foldl max 0).toNat

def sparseGqaFwdInterfaceTritonCk (q k v : Tensor K) (indices : Indices) (cuQ : Offsets)
    (cuK kvLens : Memory Int) (scale : K) (maxQ : Option Nat) (kScale vScale : Option K) :
    Except PyError (GqaLaunch K) := do
  let kvIsFp8 <- validateSparseGqaDtypes q k v
  let args := device.args q k v indices scale
  pure {
    grid := (maxQ.getD cuQ.longest, cuQ.sequences * k.heads)
    program := sparseGqaChunkPrefill args kvIsFp8 (unitScale kScale) (unitScale vScale) cuQ.data cuK
      kvLens }

/-- The chunk kernel with one query row for each request. -/
def sparseGqaPackedDecodeTriton (q k v : Tensor K) (indices : Indices) (cuQ : Offsets)
    (cuK kvLens : Memory Int) (scale : K) (kScale vScale : Option K) :
    Except PyError (GqaLaunch K) := do
  let kvIsFp8 <- validateSparseGqaDtypes q k v
  let args := device.args q k v indices scale
  pure {
    grid := (1, cuQ.sequences * k.heads)
    program := sparseGqaChunkPrefill args kvIsFp8 (unitScale kScale) (unitScale vScale) cuQ.data cuK
      kvLens }

end Launchers

/-! ## The torch reference -/

/-- What the reference uses of torch: `softmax`, and `dim ** -0.5`. -/
structure TorchMath (K : Type) where
  softmax : List K -> List K
  inverseSqrt : Nat -> K

/-- The slots of a query row, one list of columns. -/
structure TokenSlots where
  rows : Nat
  columns : Nat
  data : Memory Int

/-- The slots of a row that are not masked. -/
def TokenSlots.valid (slots : TokenSlots) (row : Nat) : List Int :=
  ((List.range slots.columns).map fun column : Nat =>
    slots.data (row * slots.columns + column)).filter fun slot => 0 ≤ slot

variable [DecidableEq K]

/-- An element of `qsa_sparse_attention_reference`. -/
def qsaSparseAttentionReference (math : TorchMath K) (q kCache vCache : Tensor K)
    (tokenSlots : TokenSlots) (softmaxScale kScale vScale : Option K) (row head element : Nat) : K :=
  let scale := match softmaxScale with
    | none => math.inverseSqrt q.dim
    | some given => if given = 0 then math.inverseSqrt q.dim else given
  let kScale := unitScale kScale
  let vScale := unitScale vScale
  let repeats := q.heads / kCache.heads
  let slots := tokenSlots.valid row
  let score := fun slot => (∑ place ∈ Finset.range q.dim,
    q.data (q.address row head place) *
      (kCache.data (kCache.address slot (head / repeats) place) * kScale)) * scale
  let probabilities := math.softmax (slots.map score)
  ((probabilities.zip slots).map fun entry =>
    entry.1 * (vCache.data (vCache.address entry.2 (head / repeats) element) * vScale)).sum

def qsaSparseAttention (math : TorchMath K) (q kCache vCache : Tensor K)
    (tokenSlots : TokenSlots) (softmaxScale kScale vScale : Option K) :
    Except PyError (Tensor K) :=
  if tokenSlots.rows ≠ q.rows then
    .error (.valueError ("token slots must be [query_tokens, selected_tokens], got torch.Size([" ++
      toString tokenSlots.rows ++ ", " ++ toString tokenSlots.columns ++ "])"))
  else if q.dim ≠ kCache.dim ∨ q.dim ≠ vCache.dim then
    .error (.valueError "Q/K/V head dimensions must match")
  else if q.heads % kCache.heads ≠ 0 then
    .error (.valueError "query heads must be divisible by KV heads")
  else
    .ok { q with
      data := fun address =>
        let place := address.toNat
        qsaSparseAttentionReference math q kCache vCache tokenSlots softmaxScale kScale vScale
          (place / (q.heads * q.dim)) (place / q.dim % q.heads) (place % q.dim) }

end Kernels
end QSAHiSparse

import QSAHiSparse.Backend.Fp8Store

namespace QSAHiSparse
namespace Backend

open Foundation
open Kernels
open Weights (TorchDtype)

/-!
# The forward passes of the backend

An extend or a decode stores the new rows and then reads K and V on one of several
paths: the live rows, the chunked prefill, the torch reference, or a gather out of
the pool or out of the offloaded selection.  The kernels and tables of SGLang are
parameters.
-/

/-- What is read of a batch, with what its mode answers. -/
structure ForwardBatch where
  isDecode : Bool
  isTargetVerify : Bool
  speculativePaged : Bool
  cpActive : Bool
  outCacheLoc : List Int
  reqPoolIndices : List Int
  extendSeqLens : List Int
  seqLens : List Int

/-- What is read of the metadata of a batch. -/
structure Metadata where
  sequenceLengths : Memory Int
  rowReqPoolIndices : Option (Memory Int)
  isCudaGraph : Bool
  fa2ValidCounts : Option (Memory Int)
  fa2CuSeqlensK : Option (Memory Int)
  fa2CuSeqlensQ : Option (Memory Int)

/-- A table of tokens, and the stride of its rows. -/
structure TokenTable where
  stride : Nat
  data : Memory Int

/-- What `selected` returns. -/
structure SelectedRows (K : Type) where
  k : Tensor K
  v : Tensor K
  reqTable : TokenTable
  rowReqIndices : Memory Int

/-- `qsa_hisparse`, as one forward pass finds it. -/
structure Hisparse (K : Type) where
  writeLocations : List Int -> Except PyError (List Int)
  prefillSlots : Int -> Int -> Except PyError (List Int)
  afterStore : Layer K -> Bool -> Except PyError PUnit
  offloaded : Bool
  graphEnabled : Bool
  selected : Layer K -> Indices -> Bool -> Except PyError (SelectedRows K)

/-- The arguments of `_try_fused_kv_attention`. -/
structure FusedCall (K : Type) where
  q : Tensor K
  k : Option (Tensor K)
  v : Option (Tensor K)
  layer : Layer K
  batch : ForwardBatch
  indices : Indices

/-- The packed rows that an attention over a gather takes. -/
structure Packed (K : Type) where
  k : Tensor K
  v : Tensor K
  cuQ : Memory Int
  cuK : Memory Int
  validCounts : Memory Int
  columns : Nat

/-- A backend, and what it uses of SGLang, FlashInfer and the device. -/
structure QwenSparseAttnBackend (K : Type) where
  qsaHisparse : Option (Hisparse K)
  supportsFusedKvPool : Bool
  inScope : Bool
  isHip : Bool
  device : GqaDevice K
  math : TorchMath K
  reqToToken : TokenTable
  compressRatio : Nat
  trtllmPage : Nat
  setKvBuffer : SetKvBuffer K
  fusedKvAttention : FusedCall K -> KvPool K -> Option (Tensor K × KvPool K)
  resolveMetadata : ForwardBatch -> Metadata
  logicalToPhysical : Indices -> Metadata -> TokenSlots
  expandBlockIndices : Indices -> Metadata -> Indices
  usesBlockIndices : Indices -> Bool
  fa2CuSeqlens : Memory Int -> Indices -> Memory Int × Memory Int
  validCounts : Memory Int -> Indices -> Nat -> Memory Int
  packPrefillKv : Tensor K -> Tensor K -> TokenTable -> List Int -> Memory Int -> Int -> Int ->
    Tensor K × Tensor K
  canRunFa2Graph : Tensor K -> Nat -> Nat -> Layer K -> ForwardBatch -> Metadata -> Nat -> Bool
  execute : Tensor K -> GqaLaunch K -> Tensor K
  gathered : CompactLaunch K -> Memory K × Memory K
  flashAttn : Tensor K -> Packed K -> K -> Tensor K
  fa2Graph : Tensor K -> Packed K -> Tensor K
  trtllmDecode : Option (Tensor K -> Packed K -> Nat -> K -> K -> Tensor K)
  padExtendOutput : Tensor K -> Nat -> Tensor K

variable {K : Type} [Field K] [LinearOrder K]

/-- `_fused_kv_eligible`, the value of `_fused_kv_pool_eligible`: the fused path may own
the pool only while no offload is attached. -/
def QwenSparseAttnBackend.fusedKvEligible (self : QwenSparseAttnBackend K) : Bool :=
  self.qsaHisparse.isNone && self.supportsFusedKvPool

/-- `_no_fused_kv_with_fp8_descales`, around the pinned attempt. -/
def QwenSparseAttnBackend.tryFusedKvAttention (self : QwenSparseAttnBackend K) (call : FusedCall K)
    (pool : KvPool K) : Option (Tensor K × KvPool K) :=
  if self.fusedKvEligible ∧ call.q.isCuda ∧ call.k.isSome ∧ call.v.isSome ∧ self.inScope then
    if (call.batch.isDecode ∨ call.batch.isTargetVerify) ∧
        kvDescales call.layer (pool.key call.layer.layerId).dtype ≠ (1, 1) then
      none
    else
      self.fusedKvAttention call pool
  else
    self.fusedKvAttention call pool

section Paged

variable (self : QwenSparseAttnBackend K)

/-- `_store_kv` of the backend. -/
def QwenSparseAttnBackend.storeKv (layer : Layer K) (loc : List Int) (k v : Tensor K) :
    Method (KvPool K) (Tensor K × Tensor K) :=
  Backend.storeKv self.setKvBuffer (self.qsaHisparse.map Hisparse.writeLocations) layer loc k v

/-- The arguments of a gather. -/
def gatherArgs (rows : SelectedRows K) (indices : Indices) (seqLens cuK : Memory Int)
    (dtype : TorchDtype) (topk : Nat) (scales : K × K) (zeroFillCols : Int) : CompactArgs K K where
  k := rows.k.data
  v := rows.v.data
  kDtype := rows.k.dtype
  vDtype := rows.v.dtype
  heads := rows.k.heads
  dim := rows.k.dim
  reqToToken := rows.reqTable.data
  reqStride := rows.reqTable.stride
  reqIndices := rows.rowReqIndices
  indices := indices.data
  idxStride := indices.topk
  seqLens := seqLens
  cuK := cuK
  outKDtype := dtype
  outVDtype := dtype
  batch := indices.rows
  topk := topk
  kScale := some scales.1
  vScale := some scales.2
  zeroFillCols := zeroFillCols

/-- A scratch tensor of a gather. -/
def scratch (rows : SelectedRows K) (dtype : TorchDtype) (capacity : Nat) (data : Memory K) :
    Tensor K :=
  { rows.k with dtype, rows := capacity, data }

/-- `_forward_trtllm_sparse`, on the gather branch. -/
def QwenSparseAttnBackend.forwardTrtllmSparse (q : Tensor K) (rows : SelectedRows K)
    (layer : Layer K) (metadata : Metadata) (indices : Indices)
    (decode : Tensor K -> Packed K -> Nat -> K -> K -> Tensor K) : Except PyError (Tensor K) :=
  let ratio := if self.usesBlockIndices indices then self.compressRatio else 1
  let topk := indices.topk * ratio + ratio - 1
  let stride := (topk + self.trtllmPage - 1) / self.trtllmPage * self.trtllmPage
  if metadata.isCudaGraph = true ∧ metadata.fa2ValidCounts.isNone then
    .error (.runtimeError "QSA CUDA graph metadata is incomplete")
  else do
    let cuStrided : Memory Int := fun place => place * stride
    let launch <- qwenSparseKvExtractionCompactTriton exactConversions
      (gatherArgs rows indices metadata.sequenceLengths cuStrided q.dtype topk
        (kvDescales layer rows.k.dtype) stride)
    let packed := self.gathered launch
    let output := decode q
      { k := scratch rows q.dtype (indices.rows * stride) packed.1
        v := scratch rows q.dtype (indices.rows * stride) packed.2
        cuQ := fun place => place
        cuK := cuStrided
        validCounts := self.validCounts metadata.sequenceLengths indices topk
        columns := stride } stride layer.scaling 1
    pure output.flatten

/-- The attention over the packed rows, of `_forward_paged_attention`. No scale is
given to it. -/
def QwenSparseAttnBackend.fa2Attention (q : Tensor K) (packed : Packed K) (kHeads kDim : Nat)
    (layer : Layer K) (batch : ForwardBatch) (metadata : Metadata) (indices : Indices) :
    Except PyError (Tensor K) :=
  if self.isHip then do
    let relative : Indices :=
      { rows := indices.rows
        groups := none
        topk := indices.topk
        data := fun address =>
          let column := address % indices.topk
          if packed.validCounts (address / indices.topk) ≤ column then -1 else column }
    let launch <- sparseGqaPackedDecodeTriton self.device q packed.k packed.v relative
      ⟨indices.rows, packed.cuQ⟩ packed.cuK packed.validCounts layer.scaling none none
    pure (self.execute q launch).flatten
  else if self.canRunFa2Graph q kHeads kDim layer batch metadata indices.topk then
    pure (self.fa2Graph q packed).flatten
  else
    pure (self.flashAttn q packed layer.scaling).flatten

/-- The gather and the attention over it, of `_forward_paged_attention`. -/
def QwenSparseAttnBackend.forwardGathered (q : Tensor K) (rows : SelectedRows K) (layer : Layer K)
    (batch : ForwardBatch) (metadata : Metadata) (indices : Indices) :
    Except PyError (Tensor K) :=
  if metadata.isCudaGraph = true ∧ (metadata.fa2ValidCounts.isNone ∨
      metadata.fa2CuSeqlensK.isNone ∨ metadata.fa2CuSeqlensQ.isNone) then
    .error (.runtimeError "QSA CUDA graph FA2 metadata is incomplete")
  else do
    let cuQ : Memory Int := if metadata.isCudaGraph then metadata.fa2CuSeqlensQ.getD id else id
    let counts := self.fa2CuSeqlens metadata.sequenceLengths indices
    let dtype := if isFp8KvDtype rows.k.dtype then q.dtype else rows.k.dtype
    let launch <- qwenSparseKvExtractionCompactTriton exactConversions
      (gatherArgs rows indices metadata.sequenceLengths counts.2 dtype indices.topk
        (kvDescales layer rows.k.dtype) 0)
    let packed := self.gathered launch
    self.fa2Attention q
      { k := scratch rows dtype (indices.rows * indices.topk) packed.1
        v := scratch rows dtype (indices.rows * indices.topk) packed.2
        cuQ := cuQ
        cuK := counts.2
        validCounts := counts.1
        columns := indices.topk } rows.k.heads rows.k.dim layer batch metadata indices

/-- The gather out of the pool or out of the offloaded selection. -/
def QwenSparseAttnBackend.forwardRows (rows : SelectedRows K) (q : Tensor K) (layer : Layer K)
    (batch : ForwardBatch) (metadata : Metadata) (indices : Indices) :
    Except PyError (Tensor K) :=
  match self.qsaHisparse with
  | none =>
      match self.trtllmDecode with
      | some decode => self.forwardTrtllmSparse q rows layer metadata indices decode
      | none => self.forwardGathered q rows layer batch metadata indices
  | some runtime =>
      if runtime.offloaded then do
        let rows <- runtime.selected layer indices (metadata.isCudaGraph && runtime.graphEnabled)
        self.forwardGathered q rows layer batch metadata indices
      else
        self.forwardGathered q rows layer batch metadata indices

/-- The torch reference over the pool, with the descales of its K buffer. -/
def QwenSparseAttnBackend.forwardReference (pool : KvPool K) (q : Tensor K) (layer : Layer K)
    (slots : TokenSlots) : Except PyError (Tensor K) :=
  let kBuffer := pool.key layer.layerId
  let kwargs := kvDescaleKwargs layer kBuffer
  qsaSparseAttention self.math q kBuffer (pool.value layer.layerId) slots (some layer.scaling)
    (kwargs.map Prod.fst) (kwargs.map Prod.snd)

/-- `_forward_paged_attention`. -/
def QwenSparseAttnBackend.forwardPagedAttention (pool : KvPool K) (q : Tensor K) (layer : Layer K)
    (batch : ForwardBatch) (topkIndices : Indices) : Except PyError (Tensor K) :=
  let metadata := self.resolveMetadata batch
  let indices := self.expandBlockIndices topkIndices metadata
  if q.isCuda = false then do
    let output <- self.forwardReference pool q layer (self.logicalToPhysical indices metadata)
    pure output.flatten
  else
    self.forwardRows
      { k := pool.key layer.layerId
        v := pool.value layer.layerId
        reqTable := self.reqToToken
        rowReqIndices := metadata.rowReqPoolIndices.getD (flatEntries batch.reqPoolIndices 0) }
      q layer batch metadata indices

end Paged

/-! ## Extend and decode -/

/-- What a pass ends with: the pinned context-parallel method takes over, the pinned
fused attempt answered, or the new rows were stored and attended to.  The last comes
with what is left of the live K and V. -/
inductive Forwarded (K : Type) where
  | contextParallel
  | fused (output : Tensor K)
  | attended (output k v : Tensor K)

section Passes

variable (self : QwenSparseAttnBackend K)

/-- The chunked prefill: K and V of every token so far, packed out of the pool. -/
def QwenSparseAttnBackend.packedPrefix (kBuffer vBuffer : Tensor K) (batch : ForwardBatch)
    (cuK : Memory Int) : Except PyError (Tensor K × Tensor K) :=
  match self.qsaHisparse with
  | some runtime => do
      let rawSlots <- (batch.reqPoolIndices.zip batch.seqLens).mapM fun entry =>
        runtime.prefillSlots entry.1 entry.2
      pure (kBuffer.selectRows rawSlots.flatten, vBuffer.selectRows rawSlots.flatten)
  | none =>
      pure (self.packPrefillKv kBuffer vBuffer self.reqToToken batch.reqPoolIndices cuK
        batch.seqLens.sum ((batch.seqLens.max?).getD 1))

/-- The chunked prefill with the descales of the pool. -/
def QwenSparseAttnBackend.extendChunk (pool : KvPool K) (q : Tensor K) (layer : Layer K)
    (batch : ForwardBatch) (topkIndices : Indices) (cuQ : Offsets) :
    Except PyError (Tensor K) := do
  let kBuffer := pool.key layer.layerId
  let cuK : Memory Int := fun place => (batch.seqLens.take place.toNat).sum
  let packed <- self.packedPrefix kBuffer (pool.value layer.layerId) batch cuK
  let kwargs := kvDescaleKwargs layer kBuffer
  let launch <- sparseGqaFwdInterfaceTritonCk self.device q packed.1 packed.2 topkIndices cuQ cuK
    (flatEntries batch.seqLens 0) layer.scaling none (kwargs.map Prod.fst) (kwargs.map Prod.snd)
  pure (self.execute q launch)

/-- The attention of `forward_extend` over the rows that have a selection. -/
def QwenSparseAttnBackend.extendRows (pool : KvPool K) (q k v : Tensor K) (layer : Layer K)
    (batch : ForwardBatch) (topkIndices : Indices) : Except PyError (Tensor K) :=
  if batch.speculativePaged then
    self.forwardPagedAttention pool q layer batch topkIndices
  else if q.isCuda = false then
    self.forwardReference pool q layer
      (self.logicalToPhysical topkIndices (self.resolveMetadata batch))
  else
    let prefixLens := List.zipWith (fun total extended => total - extended) batch.seqLens
      batch.extendSeqLens
    let cuQ : Offsets :=
      { sequences := batch.extendSeqLens.length
        data := fun place => (batch.extendSeqLens.take place.toNat).sum }
    if prefixLens.all fun length => length = 0 then do
      -- The rows of a first chunk are live; no scale was applied to them.
      let launch <- sparseGqaFwdInterfaceTriton self.device q (k.take topkIndices.rows)
        (v.take topkIndices.rows) ((batch.seqLens.max?).getD 1).toNat topkIndices cuQ layer.scaling
        none none
      pure (self.execute q launch)
    else
      self.extendChunk pool q layer batch topkIndices cuQ

/-- `forward_extend` from the store on. -/
def QwenSparseAttnBackend.extendAttention (pool : KvPool K) (q k v : Tensor K) (layer : Layer K)
    (batch : ForwardBatch) (topkIndices : Indices) : Except PyError (Tensor K) :=
  let q := q.reshape layer.tpQHeadNum layer.headDim
  if q.rows < topkIndices.rows then
    .error (.valueError ("QSA top-k rows exceed query rows: topk=" ++ toString topkIndices.rows ++
      ", query=" ++ toString q.rows))
  else do
    let output <- self.extendRows pool (q.take topkIndices.rows) k v layer batch topkIndices
    pure (self.padExtendOutput output q.rows)

/-- The pinned attempt, and `_store_kv` when it does not answer. -/
def QwenSparseAttnBackend.fuseOrStore (q k v : Tensor K) (layer : Layer K) (batch : ForwardBatch)
    (topkIndices : Indices) : Method (KvPool K) (Tensor K ⊕ Tensor K × Tensor K) := do
  let pool <- get
  match self.tryFusedKvAttention ⟨q, some k, some v, layer, batch, topkIndices⟩ pool with
  | some (output, pool) => do
      set pool
      pure (.inl output)
  | none => do
      let live <- self.storeKv layer batch.outCacheLoc k v
      pure (.inr live)

/-- The first half of a pass, under `save_kv_cache`. -/
def QwenSparseAttnBackend.saved (q k v : Tensor K) (layer : Layer K) (batch : ForwardBatch)
    (saveKvCache : Bool) (topkIndices : Indices) :
    Method (KvPool K) (Tensor K ⊕ Tensor K × Tensor K) :=
  if saveKvCache then self.fuseOrStore q k v layer batch topkIndices else pure (.inr (k, v))

def QwenSparseAttnBackend.forwardExtend (q k v : Tensor K) (layer : Layer K) (batch : ForwardBatch)
    (saveKvCache : Bool) (topkIndices : Option Indices) : Method (KvPool K) (Forwarded K) :=
  match topkIndices with
  | none => throw (.valueError "QSA sparse attention requires topk_indices")
  | some indices =>
      if batch.cpActive then
        pure .contextParallel
      else do
        let stored <- self.saved q k v layer batch saveKvCache indices
        match stored with
        | .inl output => pure (.fused output)
        | .inr (k, v) => do
            let pool <- get
            let output <- fromExcept (self.extendAttention pool q k v layer batch indices)
            pure (.attended output k v)

/-- `after_store` of the runtime, once the rows are in the pool. -/
def QwenSparseAttnBackend.afterStore (layer : Layer K) (batch : ForwardBatch) :
    Except PyError PUnit :=
  match self.qsaHisparse with
  | none => pure ⟨⟩
  | some runtime =>
      runtime.afterStore layer (runtime.graphEnabled && (self.resolveMetadata batch).isCudaGraph)

def QwenSparseAttnBackend.forwardDecode (q k v : Tensor K) (layer : Layer K) (batch : ForwardBatch)
    (saveKvCache : Bool) (topkIndices : Option Indices) : Method (KvPool K) (Forwarded K) :=
  match topkIndices with
  | none => throw (.valueError "QSA sparse attention requires topk_indices")
  | some indices => do
      let stored <- self.saved q k v layer batch saveKvCache indices
      match stored with
      | .inl output => pure (.fused output)
      | .inr (k, v) => do
          fromExcept (if saveKvCache then self.afterStore layer batch else pure ⟨⟩)
          let pool <- get
          let output <- fromExcept (self.forwardPagedAttention pool
            (q.reshape layer.tpQHeadNum layer.headDim) layer batch indices)
          pure (.attended output k v)

end Passes

end Backend
end QSAHiSparse

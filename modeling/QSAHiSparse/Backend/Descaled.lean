import QSAHiSparse.Backend.Forward

namespace QSAHiSparse
namespace Backend

open Foundation
open Kernels
open Weights (TorchDtype)

/-!
# An FP8 cache reads as its originals

The originals of an FP8 cache are its rows times the scales of their layers, held
by a cache of the queries' dtype.  Over the originals no path applies a scale, and
every path over the FP8 cache answers what it answers over them.
-/

variable {K : Type} [Field K] [LinearOrder K]

/-- A pool whose buffers are FP8, as its dtype says. -/
structure KvPool.Quantized (pool : KvPool K) (kvDtype : TorchDtype) : Prop where
  fp8 : isFp8KvDtype kvDtype = true
  dtype : pool.dtype = some kvDtype
  key : forall layerId, (pool.key layerId).dtype = kvDtype
  value : forall layerId, (pool.value layerId).dtype = kvDtype

/-- The layers of a model, under their ids. -/
structure Layers (K : Type) where
  layer : Nat -> Layer K
  named : forall layerId, (layer layerId).layerId = layerId

/-- The originals of a pool. -/
def KvPool.originals (pool : KvPool K) (layers : Layers K) (dtype : TorchDtype) : KvPool K where
  dtype := some dtype
  key layerId :=
    (pool.key layerId).restored dtype (positiveScale (layers.layer layerId).kScaleFloat)
  value layerId :=
    (pool.value layerId).restored dtype (positiveScale (layers.layer layerId).vScaleFloat)

/-- The originals of a selection. -/
def SelectedRows.originals (rows : SelectedRows K) (layer : Layer K) (dtype : TorchDtype) :
    SelectedRows K :=
  { rows with
    k := rows.k.restored dtype (positiveScale layer.kScaleFloat)
    v := rows.v.restored dtype (positiveScale layer.vScaleFloat) }

/-- The runtime over the originals of what it selects. -/
def Hisparse.overOriginals (runtime : Hisparse K) (dtype : TorchDtype) : Hisparse K :=
  { runtime with
    selected := fun layer indices graph =>
      (runtime.selected layer indices graph).map fun rows => rows.originals layer dtype }

/-- The backend over originals. -/
def QwenSparseAttnBackend.overOriginals (self : QwenSparseAttnBackend K) (dtype : TorchDtype) :
    QwenSparseAttnBackend K :=
  { self with qsaHisparse := self.qsaHisparse.map fun runtime => runtime.overOriginals dtype }

/-! ## Scales -/

section Scales

theorem kvDescales_fp8 {kvDtype : TorchDtype} (fp8 : isFp8KvDtype kvDtype = true)
    (layer : Layer K) :
    kvDescales layer kvDtype =
      (positiveScale layer.kScaleFloat, positiveScale layer.vScaleFloat) := by
  unfold kvDescales
  rw [if_pos fp8]

theorem kvDescales_plain {dtype : TorchDtype} (plain : isFp8KvDtype dtype = false)
    (layer : Layer K) : kvDescales layer dtype = (1, 1) := by
  unfold kvDescales
  rw [plain, if_neg Bool.false_ne_true]

theorem kvDescaleKwargs_fp8 {buffer : Tensor K} (fp8 : isFp8KvDtype buffer.dtype = true)
    (layer : Layer K) :
    kvDescaleKwargs layer buffer =
      some (positiveScale layer.kScaleFloat, positiveScale layer.vScaleFloat) := by
  unfold kvDescaleKwargs
  rw [if_pos fp8, kvDescales_fp8 fp8]

theorem kvDescaleKwargs_plain {buffer : Tensor K} (plain : isFp8KvDtype buffer.dtype = false)
    (layer : Layer K) : kvDescaleKwargs layer buffer = none := by
  unfold kvDescaleKwargs
  rw [plain, if_neg Bool.false_ne_true]

theorem positiveScale_ne_zero [IsStrictOrderedRing K] (scale : Option K) :
    positiveScale scale ≠ 0 := by
  unfold positiveScale
  by_cases positive : 0 < scale.getD 1
  · rw [if_pos positive]
    exact positive.ne'
  · rw [if_neg positive]
    exact one_ne_zero

theorem positiveScale_of_pos {scale : K} (positive : 0 < scale) :
    positiveScale (some scale) = scale := by
  unfold positiveScale
  exact if_pos positive

end Scales

/-! ## The paths -/

/-- The dtypes that the queries of the model have. -/
def WideDtype (dtype : TorchDtype) : Prop :=
  dtype = .bfloat16 ∨ dtype = float16

theorem WideDtype.plain {dtype : TorchDtype} (wide : WideDtype dtype) :
    isFp8KvDtype dtype = false := by
  rcases wide with bfloat | float
  · rw [bfloat]
    decide
  · rw [float]
    decide

/-- What a backend relies on.  `kvDtype` is the dtype of its pool. -/
structure Relies (order : ScatterOrder) (kvDtype : TorchDtype) (backend : QwenSparseAttnBackend K) :
    Prop where
  divides : DividesByScale order backend.setKvBuffer
  packs : exists rows : TokenTable -> List Int -> Memory Int -> Int -> Int -> List Int,
    forall k v table requests cuK total longest,
      backend.packPrefillKv k v table requests cuK total longest =
        (k.selectRows (rows table requests cuK total longest),
          v.selectRows (rows table requests cuK total longest))
  views : forall runtime, backend.qsaHisparse = some runtime -> forall layer indices graph rows,
    runtime.selected layer indices graph = .ok rows ->
      rows.k.dtype = kvDtype ∧ rows.v.dtype = kvDtype

section Paths

variable {self : QwenSparseAttnBackend K} {kvDtype dtype : TorchDtype} {order : ScatterOrder}

/-- A gather out of FP8 rows is the gather of their originals. -/
theorem gather_originals {rows : SelectedRows K} (fp8 : isFp8KvDtype rows.k.dtype = true)
    (same : rows.k.dtype = rows.v.dtype) (wide : WideDtype dtype) (layer : Layer K)
    (indices : Indices) (seqLens cuK : Memory Int) (topk : Nat) (zeroFillCols : Int) :
    qwenSparseKvExtractionCompactTriton exactConversions
        (gatherArgs rows indices seqLens cuK dtype topk (kvDescales layer rows.k.dtype)
          zeroFillCols) =
      qwenSparseKvExtractionCompactTriton exactConversions
        (gatherArgs (rows.originals layer dtype) indices seqLens cuK dtype topk
          (kvDescales layer dtype) zeroFillCols) := by
  rw [kvDescales_fp8 fp8, kvDescales_plain wide.plain]
  exact qwenSparseKvExtractionCompactTriton_restored fp8 same wide.plain wide.plain _ _ ⟨rfl, rfl⟩

@[simp] theorem fa2Attention_overOriginals (dtype : TorchDtype) :
    (self.overOriginals dtype).fa2Attention = self.fa2Attention := rfl

@[simp] theorem scratch_originals (rows : SelectedRows K) (layer : Layer K) (dtype : TorchDtype) :
    scratch (rows.originals layer dtype) = scratch rows := rfl

theorem forwardGathered_originals {q : Tensor K} {rows : SelectedRows K}
    (fp8 : isFp8KvDtype rows.k.dtype = true) (same : rows.k.dtype = rows.v.dtype)
    (wide : WideDtype q.dtype) (layer : Layer K) (batch : ForwardBatch) (metadata : Metadata)
    (indices : Indices) :
    self.forwardGathered q rows layer batch metadata indices =
      (self.overOriginals dtype).forwardGathered q (rows.originals layer q.dtype) layer batch
        metadata indices := by
  have kept : (rows.originals layer q.dtype).k.dtype = q.dtype := rfl
  have shape : (rows.originals layer q.dtype).k.heads = rows.k.heads ∧
      (rows.originals layer q.dtype).k.dim = rows.k.dim := ⟨rfl, rfl⟩
  have counts : (self.overOriginals dtype).fa2CuSeqlens = self.fa2CuSeqlens := rfl
  have scratches : (self.overOriginals dtype).gathered = self.gathered := rfl
  have launches := gather_originals fp8 same wide layer indices metadata.sequenceLengths
    (self.fa2CuSeqlens metadata.sequenceLengths indices).2 indices.topk 0
  unfold QwenSparseAttnBackend.forwardGathered
  rw [if_pos fp8, kept, wide.plain, if_neg Bool.false_ne_true, shape.1, shape.2, counts, scratches,
    fa2Attention_overOriginals, scratch_originals]
  dsimp only
  rw [launches]

theorem forwardTrtllmSparse_originals {q : Tensor K} {rows : SelectedRows K}
    (fp8 : isFp8KvDtype rows.k.dtype = true) (same : rows.k.dtype = rows.v.dtype)
    (wide : WideDtype q.dtype) (layer : Layer K) (metadata : Metadata) (indices : Indices)
    (decode : Tensor K -> Packed K -> Nat -> K -> K -> Tensor K) :
    self.forwardTrtllmSparse q rows layer metadata indices decode =
      (self.overOriginals dtype).forwardTrtllmSparse q (rows.originals layer q.dtype) layer metadata
        indices decode := by
  have kept : (rows.originals layer q.dtype).k.dtype = q.dtype := rfl
  have launches := fun cuK topk zeroFillCols => gather_originals fp8 same wide layer indices
    metadata.sequenceLengths cuK topk zeroFillCols
  unfold QwenSparseAttnBackend.forwardTrtllmSparse
  rw [kept, scratch_originals]
  dsimp only
  rw [launches]
  rfl

/-- A gather, out of the pool or out of the offloaded selection, is the gather of the
originals. -/
theorem forwardRows_originals (relies : Relies order kvDtype self)
    (fp8 : isFp8KvDtype kvDtype = true) {q : Tensor K} {rows : SelectedRows K}
    (keys : rows.k.dtype = kvDtype) (values : rows.v.dtype = kvDtype) (wide : WideDtype q.dtype)
    (layer : Layer K) (batch : ForwardBatch) (metadata : Metadata) (indices : Indices) :
    self.forwardRows rows q layer batch metadata indices =
      (self.overOriginals q.dtype).forwardRows (rows.originals layer q.dtype) q layer batch metadata
        indices := by
  have gathered (rows : SelectedRows K) (keys : rows.k.dtype = kvDtype)
      (values : rows.v.dtype = kvDtype) :=
    @forwardGathered_originals K _ _ self q.dtype q rows (keys ▸ fp8) (keys.trans values.symm) wide
      layer batch metadata indices
  unfold QwenSparseAttnBackend.forwardRows
  cases attached : self.qsaHisparse with
  | none =>
      have alone : (self.overOriginals q.dtype).qsaHisparse = none := by
        unfold QwenSparseAttnBackend.overOriginals
        rw [attached]
        rfl
      have decodes : (self.overOriginals q.dtype).trtllmDecode = self.trtllmDecode := rfl
      rw [alone, decodes]
      cases self.trtllmDecode with
      | none => exact gathered rows keys values
      | some decode =>
          exact forwardTrtllmSparse_originals (keys ▸ fp8) (keys.trans values.symm) wide layer
            metadata indices decode
  | some runtime =>
      have restored : (self.overOriginals q.dtype).qsaHisparse = some (runtime.overOriginals q.dtype) := by
        unfold QwenSparseAttnBackend.overOriginals
        rw [attached]
        rfl
      have flags : (runtime.overOriginals q.dtype).offloaded = runtime.offloaded ∧
          (runtime.overOriginals q.dtype).graphEnabled = runtime.graphEnabled := ⟨rfl, rfl⟩
      rw [restored]
      dsimp only
      rw [flags.1, flags.2]
      by_cases offloaded : runtime.offloaded = true
      · rw [if_pos offloaded, if_pos offloaded]
        generalize (metadata.isCudaGraph && runtime.graphEnabled) = graph
        have selects : (runtime.overOriginals q.dtype).selected layer indices graph =
            (runtime.selected layer indices graph).map fun rows => rows.originals layer q.dtype :=
          rfl
        rw [selects]
        cases selected : runtime.selected layer indices graph with
        | error cause => rfl
        | ok chosen =>
            have dtypes := relies.views runtime attached layer indices graph chosen selected
            exact gathered chosen dtypes.1 dtypes.2
      · rw [if_neg offloaded, if_neg offloaded]
        exact gathered rows keys values

variable {pool : KvPool K} (layers : Layers K)

theorem forwardReference_originals (quantized : pool.Quantized kvDtype)
    (plain : isFp8KvDtype dtype = false) (q : Tensor K) (layerId : Nat) (slots : TokenSlots) :
    self.forwardReference pool q (layers.layer layerId) slots =
      (self.overOriginals dtype).forwardReference (pool.originals layers dtype) q
        (layers.layer layerId) slots := by
  have fp8 : isFp8KvDtype (pool.key layerId).dtype = true := by
    rw [quantized.key]
    exact quantized.fp8
  have wide : isFp8KvDtype ((pool.originals layers dtype).key layerId).dtype = false := plain
  unfold QwenSparseAttnBackend.forwardReference
  dsimp only
  rw [layers.named, kvDescaleKwargs_fp8 fp8, kvDescaleKwargs_plain wide]
  exact qsaSparseAttention_restored self.math q _ _ dtype slots _ _ _

/-- Paged attention over the FP8 pool is paged attention over its originals. -/
theorem forwardPagedAttention_originals (relies : Relies order kvDtype self)
    (quantized : pool.Quantized kvDtype) {q : Tensor K} (wide : WideDtype q.dtype) (layerId : Nat)
    (batch : ForwardBatch) (topkIndices : Indices) :
    self.forwardPagedAttention pool q (layers.layer layerId) batch topkIndices =
      (self.overOriginals q.dtype).forwardPagedAttention (pool.originals layers q.dtype) q
        (layers.layer layerId) batch topkIndices := by
  unfold QwenSparseAttnBackend.forwardPagedAttention
  dsimp only
  by_cases cuda : q.isCuda = false
  · rw [if_pos cuda, if_pos cuda, forwardReference_originals layers quantized wide.plain]
    rfl
  · rw [if_neg cuda, if_neg cuda,
      forwardRows_originals relies quantized.fp8 (quantized.key _) (quantized.value _) wide]
    unfold SelectedRows.originals KvPool.originals
    rw [layers.named]
    rfl

/-- The packed prefix of the originals is the prefix of the pool, restored. -/
theorem packedPrefix_originals (relies : Relies order kvDtype self) (kBuffer vBuffer : Tensor K)
    (batch : ForwardBatch) (cuK : Memory Int) (dtype : TorchDtype) (kScale vScale : K) :
    (self.overOriginals dtype).packedPrefix (kBuffer.restored dtype kScale)
        (vBuffer.restored dtype vScale) batch cuK =
      (self.packedPrefix kBuffer vBuffer batch cuK).map fun packed =>
        (packed.1.restored dtype kScale, packed.2.restored dtype vScale) := by
  rcases relies.packs with ⟨rows, packs⟩
  unfold QwenSparseAttnBackend.packedPrefix
  cases attached : self.qsaHisparse with
  | none =>
      have alone : (self.overOriginals dtype).qsaHisparse = none := by
        unfold QwenSparseAttnBackend.overOriginals
        rw [attached]
        rfl
      have packer : (self.overOriginals dtype).packPrefillKv = self.packPrefillKv := rfl
      rw [alone]
      dsimp only
      rw [packer, packs, packs]
      rfl
  | some runtime =>
      have restored : (self.overOriginals dtype).qsaHisparse = some (runtime.overOriginals dtype) := by
        unfold QwenSparseAttnBackend.overOriginals
        rw [attached]
        rfl
      have slots : (runtime.overOriginals dtype).prefillSlots = runtime.prefillSlots := rfl
      rw [restored]
      dsimp only
      rw [slots]
      cases (batch.reqPoolIndices.zip batch.seqLens).mapM fun entry =>
        runtime.prefillSlots entry.1 entry.2 with
      | error cause => rfl
      | ok rawSlots => rfl

omit [LinearOrder K] in
/-- The packed rows keep the dtype of the pool. -/
theorem packedPrefix_dtype (relies : Relies order kvDtype self) {kBuffer vBuffer : Tensor K}
    {batch : ForwardBatch} {cuK : Memory Int} {packed : Tensor K × Tensor K}
    (returned : self.packedPrefix kBuffer vBuffer batch cuK = .ok packed) :
    packed.1.dtype = kBuffer.dtype ∧ packed.2.dtype = vBuffer.dtype := by
  rcases relies.packs with ⟨rows, packs⟩
  unfold QwenSparseAttnBackend.packedPrefix at returned
  cases attached : self.qsaHisparse with
  | none =>
      rw [attached] at returned
      dsimp only at returned
      rw [packs] at returned
      cases returned
      exact ⟨rfl, rfl⟩
  | some runtime =>
      rw [attached] at returned
      rcases Except.bind_ok returned with ⟨rawSlots, _, same⟩
      cases same
      exact ⟨rfl, rfl⟩

theorem extendChunk_originals (relies : Relies order kvDtype self)
    (quantized : pool.Quantized kvDtype) {q : Tensor K} (wide : WideDtype q.dtype) (layerId : Nat)
    (batch : ForwardBatch) (topkIndices : Indices) (cuQ : Offsets) :
    self.extendChunk pool q (layers.layer layerId) batch topkIndices cuQ =
      (self.overOriginals q.dtype).extendChunk (pool.originals layers q.dtype) q
        (layers.layer layerId) batch topkIndices cuQ := by
  have fp8 : isFp8KvDtype (pool.key layerId).dtype = true := by
    rw [quantized.key]
    exact quantized.fp8
  have plain : isFp8KvDtype ((pool.originals layers q.dtype).key layerId).dtype = false :=
    wide.plain
  have keys : (pool.originals layers q.dtype).key layerId = (pool.key layerId).restored q.dtype
      (positiveScale (layers.layer layerId).kScaleFloat) := rfl
  have values : (pool.originals layers q.dtype).value layerId =
      (pool.value layerId).restored q.dtype
        (positiveScale (layers.layer layerId).vScaleFloat) := rfl
  have device : (self.overOriginals q.dtype).device = self.device := rfl
  have executes : (self.overOriginals q.dtype).execute = self.execute := rfl
  unfold QwenSparseAttnBackend.extendChunk
  dsimp only
  rw [layers.named, kvDescaleKwargs_fp8 fp8, kvDescaleKwargs_plain plain, keys, values,
    packedPrefix_originals relies, device, executes]
  cases returned : self.packedPrefix (pool.key layerId) (pool.value layerId) batch
      fun place => (batch.seqLens.take place.toNat).sum with
  | error cause =>
      rw [Except.error_bind]
      change _ = (Except.error cause >>= _)
      rw [Except.error_bind]
  | ok packed =>
      have dtypes := packedPrefix_dtype relies returned
      have narrow : isFp8KvDtype packed.1.dtype = true := dtypes.1 ▸ fp8
      have same : packed.1.dtype = packed.2.dtype := by
        rw [dtypes.1, dtypes.2, quantized.key, quantized.value]
      rw [Except.ok_bind]
      change _ = (Except.ok (packed.1.restored q.dtype _, packed.2.restored q.dtype _) >>= _)
      rw [Except.ok_bind, Option.map_some, Option.map_some, Option.map_none, Option.map_none,
        sparseGqaFwdInterfaceTritonCk_restored self.device narrow same]

/-- The attention of `forward_extend` over the FP8 pool is the one over its originals. -/
theorem extendAttention_originals (relies : Relies order kvDtype self)
    (quantized : pool.Quantized kvDtype) {q : Tensor K} (wide : WideDtype q.dtype) (k v : Tensor K)
    (layerId : Nat) (batch : ForwardBatch) (topkIndices : Indices) :
    self.extendAttention pool q k v (layers.layer layerId) batch topkIndices =
      (self.overOriginals q.dtype).extendAttention (pool.originals layers q.dtype) q k v
        (layers.layer layerId) batch topkIndices := by
  have rows (q : Tensor K) (wide : WideDtype q.dtype) :
      self.extendRows pool q k v (layers.layer layerId) batch topkIndices =
        (self.overOriginals q.dtype).extendRows (pool.originals layers q.dtype) q k v
          (layers.layer layerId) batch topkIndices := by
    unfold QwenSparseAttnBackend.extendRows
    dsimp only
    by_cases speculative : batch.speculativePaged = true
    · rw [if_pos speculative, if_pos speculative]
      exact forwardPagedAttention_originals layers relies quantized wide layerId batch topkIndices
    · rw [if_neg speculative, if_neg speculative]
      by_cases cuda : q.isCuda = false
      · rw [if_pos cuda, if_pos cuda, forwardReference_originals layers quantized wide.plain]
        rfl
      · rw [if_neg cuda, if_neg cuda, extendChunk_originals layers relies quantized wide]
        rfl
  let taken := (q.reshape (layers.layer layerId).tpQHeadNum (layers.layer layerId).headDim).take
    topkIndices.rows
  have inner : self.extendRows pool taken k v (layers.layer layerId) batch topkIndices =
      (self.overOriginals q.dtype).extendRows (pool.originals layers q.dtype) taken k v
        (layers.layer layerId) batch topkIndices := rows taken wide
  have pads : (self.overOriginals q.dtype).padExtendOutput = self.padExtendOutput := rfl
  unfold QwenSparseAttnBackend.extendAttention
  dsimp only
  rw [inner, pads]

end Paths

end Backend
end QSAHiSparse

import QSAHiSparse.Backend.Offloaded
import QSAHiSparse.Backend.Stored
import QSAHiSparse.Foundation.Calls

namespace QSAHiSparse
namespace Backend

open Foundation
open Kernels
open Weights (TorchDtype)

/-!
# FP8 K/V is descaled exactly once

Over any run of forward passes the originals of the FP8 pool are the live rows that
were stored.  A pass attends to originals as a reader does that applies no scale, or
the pinned attempt answers, and then the scales are one.
-/

variable {K : Type}

/-- One forward pass of a layer, with the backend as the pass finds it. -/
structure Call (K : Type) where
  backend : QwenSparseAttnBackend K
  decode : Bool
  layerId : Nat
  q : Tensor K
  k : Tensor K
  v : Tensor K
  batch : ForwardBatch
  saveKvCache : Bool
  topkIndices : Option Indices

/-- A call that the pinned context-parallel method does not take over. -/
def Call.Own (call : Call K) : Prop :=
  call.decode = true ∨ call.batch.cpActive = false

instance (call : Call K) : Decidable call.Own :=
  inferInstanceAs (Decidable (_ ∨ _))

/-- The slots that a call stores to, when it stores. -/
def Call.locations (call : Call K) : Option (List Int) :=
  if call.topkIndices.isSome = true ∧ call.Own ∧ call.saveKvCache = true then
    (call.backend.locations call.batch).toOption
  else none

/-- A pool of originals after a call: the live rows are stored as they are. -/
def Call.store (order : ScatterOrder) (call : Call K) (originals : KvPool K) : KvPool K :=
  match call.locations with
  | none => originals
  | some loc => originals.written order call.layerId loc call.k.data call.v.data

section Calls

variable [Field K] [LinearOrder K] (layers : Layers K) (call : Call K)

def Call.run : Method (KvPool K) (Forwarded K) :=
  if call.decode then
    call.backend.forwardDecode call.q call.k call.v (layers.layer call.layerId) call.batch
      call.saveKvCache call.topkIndices
  else
    call.backend.forwardExtend call.q call.k call.v (layers.layer call.layerId) call.batch
      call.saveKvCache call.topkIndices

/-- The attention of a call over a pool of originals, and over the originals of an
offloaded selection. -/
def Call.attention (originals : KvPool K) (indices : Indices) : Except PyError (Tensor K) :=
  let backend := call.backend.overOriginals call.q.dtype
  let layer := layers.layer call.layerId
  if call.decode then
    backend.forwardPagedAttention originals (call.q.reshape layer.tpQHeadNum layer.headDim) layer
      call.batch indices
  else
    backend.extendAttention originals call.q call.k call.v layer call.batch indices

/-- How a call may end, with the originals after it. -/
def Call.Sees (kvDtype : TorchDtype) (originals : KvPool K) : Forwarded K -> Prop
  | .contextParallel => ¬ call.Own
  | .fused _ => (call.batch.isDecode = true ∨ call.batch.isTargetVerify = true) ∧
      kvDescales (layers.layer call.layerId) kvDtype = (1, 1)
  | .attended output k v => k = call.k ∧ v = call.v ∧
      exists indices, call.topkIndices = some indices ∧
        call.attention layers originals indices = .ok output

/-- How a call may fail, with the originals after it. -/
def Call.Fails (originals : KvPool K) (cause : PyError) : Prop :=
  call.topkIndices = none ∨ call.backend.locations call.batch = .error cause ∨
    call.backend.afterStore (layers.layer call.layerId) call.batch = .error cause ∨
    exists indices, call.topkIndices = some indices ∧
      call.attention layers originals indices = .error cause

/-- What a call relies on. The queries have the dtype that the model computes in. -/
structure Call.Served (order : ScatterOrder) (kvDtype dtype : TorchDtype) : Prop where
  relies : Relies order kvDtype call.backend
  fused : FusedContract order call.backend
  query : call.q.dtype = dtype

end Calls

section Step

variable [Field K] [LinearOrder K] (layers : Layers K) {order : ScatterOrder}
  {kvDtype dtype : TorchDtype} {pool : KvPool K} {call : Call K}

/-- The rest of a call, over the FP8 pool, is the rest over the originals. -/
theorem Call.attention_originals (served : call.Served order kvDtype dtype)
    (wide : WideDtype dtype) (quantized : pool.Quantized kvDtype) (indices : Indices) :
    (if call.decode then
      call.backend.forwardPagedAttention pool
        (call.q.reshape (layers.layer call.layerId).tpQHeadNum (layers.layer call.layerId).headDim)
        (layers.layer call.layerId) call.batch indices
    else
      call.backend.extendAttention pool call.q call.k call.v (layers.layer call.layerId) call.batch
        indices) =
      call.attention layers (pool.originals layers dtype) indices := by
  have queries : WideDtype call.q.dtype := by
    rw [served.query]
    exact wide
  unfold Call.attention
  rw [<- served.query]
  by_cases decodes : call.decode = true
  · rw [if_pos decodes, if_pos decodes]
    exact forwardPagedAttention_originals (q := call.q.reshape _ _) layers served.relies quantized
      queries call.layerId call.batch indices
  · rw [if_neg decodes, if_neg decodes]
    exact extendAttention_originals layers served.relies quantized queries call.k call.v
      call.layerId call.batch indices

variable [IsStrictOrderedRing K]

/-- The first half of a call: the live rows are stored, or the call keeps the cache. -/
theorem Call.saved_leaves (served : call.Served order kvDtype dtype)
    (quantized : pool.Quantized kvDtype) {indices : Indices}
    (selected : call.topkIndices = some indices) (own : call.Own) :
    Leaves
      (fun stored after => after.Quantized kvDtype ∧
        after.originals layers dtype = call.store order (pool.originals layers dtype) ∧
        match stored with
        | .inl _ => (call.batch.isDecode = true ∨ call.batch.isTargetVerify = true) ∧
            kvDescales (layers.layer call.layerId) kvDtype = (1, 1)
        | .inr live => live = (call.k, call.v))
      (fun cause after => after.Quantized kvDtype ∧
        after.originals layers dtype = call.store order (pool.originals layers dtype) ∧
        call.backend.locations call.batch = .error cause)
      ((call.backend.saved call.q call.k call.v (layers.layer call.layerId) call.batch
        call.saveKvCache indices).run pool) := by
  have chosen : call.topkIndices.isSome = true := by
    rw [selected]
    rfl
  unfold Call.store Call.locations QwenSparseAttnBackend.saved
  by_cases saves : call.saveKvCache = true
  · rw [if_pos saves, if_pos ⟨chosen, own, saves⟩]
    refine Leaves.mono (fuseOrStore_leaves dtype layers served.relies served.fused quantized call.q
      call.k call.v call.layerId call.batch indices) ?_ ?_
    · rintro stored after ⟨kept, ⟨loc, located, originals⟩, sees⟩
      rw [located]
      exact ⟨kept, originals, sees⟩
    · rintro cause after ⟨same, located⟩
      rw [located, same]
      exact ⟨quantized, rfl, rfl⟩
  · rw [if_neg saves, if_neg fun both => saves both.2.2]
    exact ⟨quantized, rfl, rfl⟩

omit [IsStrictOrderedRing K] in
/-- The attention of a call, once the live rows are stored. -/
theorem Call.attended_leaves {indices : Indices} (selected : call.topkIndices = some indices)
    {after : KvPool K} (kept : after.Quantized kvDtype)
    (originals : after.originals layers dtype =
      call.store order (pool.originals layers dtype)) :
    Leaves
      (fun forwarded after => after.Quantized kvDtype ∧
        after.originals layers dtype = call.store order (pool.originals layers dtype) ∧
        call.Sees layers kvDtype (after.originals layers dtype) forwarded)
      (fun cause after => after.Quantized kvDtype ∧
        after.originals layers dtype = call.store order (pool.originals layers dtype) ∧
        call.Fails layers (after.originals layers dtype) cause)
      ((do
        let output <- fromExcept (call.attention layers (after.originals layers dtype) indices)
        pure (.attended output call.k call.v) : Method (KvPool K) (Forwarded K)).run after) := by
  apply (Leaves.bind_iff _ _ _).mpr
  apply (Leaves.fromExcept_iff _ _).mpr
  cases answered : call.attention layers (after.originals layers dtype) indices with
  | error cause =>
      exact ⟨kept, originals, Or.inr (Or.inr (Or.inr ⟨indices, selected, answered⟩))⟩
  | ok output => exact ⟨kept, originals, rfl, rfl, indices, selected, answered⟩

/-- One call. -/
theorem Call.run_leaves (served : call.Served order kvDtype dtype) (wide : WideDtype dtype)
    (quantized : pool.Quantized kvDtype) :
    Leaves
      (fun forwarded after => after.Quantized kvDtype ∧
        after.originals layers dtype = call.store order (pool.originals layers dtype) ∧
        call.Sees layers kvDtype (after.originals layers dtype) forwarded)
      (fun cause after => after.Quantized kvDtype ∧
        after.originals layers dtype = call.store order (pool.originals layers dtype) ∧
        call.Fails layers (after.originals layers dtype) cause)
      ((call.run layers).run pool) := by
  have untouched (idle : ¬ (call.topkIndices.isSome = true ∧ call.Own)) :
      call.store order (pool.originals layers dtype) = pool.originals layers dtype := by
    unfold Call.store Call.locations
    rw [if_neg fun all => idle ⟨all.1, all.2.1⟩]
  cases selected : call.topkIndices with
  | none =>
      have idle : ¬ (call.topkIndices.isSome = true ∧ call.Own) := by
        rw [selected]
        exact fun both => nomatch both.1
      unfold Call.run QwenSparseAttnBackend.forwardDecode QwenSparseAttnBackend.forwardExtend
      rw [selected, ite_self, untouched idle]
      exact ⟨quantized, rfl, Or.inl selected⟩
  | some indices =>
      have attends {after : KvPool K} (kept : after.Quantized kvDtype) :=
        attention_originals layers served wide kept indices
      unfold Call.run
      by_cases decodes : call.decode = true
      · rw [if_pos decodes]
        simp only [if_pos decodes] at attends
        unfold QwenSparseAttnBackend.forwardDecode
        rw [selected]
        apply (Leaves.bind_iff _ _ _).mpr
        refine Leaves.mono (saved_leaves layers served quantized selected (Or.inl decodes)) ?_ ?_
        · rintro (output | live) after ⟨kept, originals, sees⟩
          · exact ⟨kept, originals, sees⟩
          · rw [show live = (call.k, call.v) from sees]
            apply (Leaves.bind_iff _ _ _).mpr
            apply (Leaves.fromExcept_iff _ _).mpr
            cases copied : (if call.saveKvCache = true then
                call.backend.afterStore (layers.layer call.layerId) call.batch
              else pure ⟨⟩) with
            | error cause =>
                have raised : call.backend.afterStore (layers.layer call.layerId) call.batch =
                    .error cause := by
                  by_cases saves : call.saveKvCache = true
                  · rwa [if_pos saves] at copied
                  · rw [if_neg saves] at copied
                    cases copied
                exact ⟨kept, originals, Or.inr (Or.inr (Or.inl raised))⟩
            | ok _ =>
                apply (Leaves.bind_iff _ _ _).mpr
                apply (Leaves.get_iff _).mpr
                rw [attends kept]
                exact attended_leaves layers selected kept originals
        · rintro cause after ⟨kept, originals, located⟩
          exact ⟨kept, originals, Or.inr (Or.inl located)⟩
      · rw [if_neg decodes]
        simp only [if_neg decodes] at attends
        unfold QwenSparseAttnBackend.forwardExtend
        rw [selected]
        by_cases parallel : call.batch.cpActive = true
        · have idle : ¬ (call.topkIndices.isSome = true ∧ call.Own) := by
            rintro ⟨_, decoding | plain⟩
            · exact decodes decoding
            · rw [parallel] at plain
              cases plain
          dsimp only
          rw [if_pos parallel, untouched idle]
          exact ⟨quantized, rfl, fun own => idle ⟨selected ▸ rfl, own⟩⟩
        · have own : call.Own := Or.inr (Bool.not_eq_true _ ▸ parallel)
          dsimp only
          rw [if_neg parallel]
          apply (Leaves.bind_iff _ _ _).mpr
          refine Leaves.mono (saved_leaves layers served quantized selected own) ?_ ?_
          · rintro (output | live) after ⟨kept, originals, sees⟩
            · exact ⟨kept, originals, sees⟩
            · rw [show live = (call.k, call.v) from sees]
              apply (Leaves.bind_iff _ _ _).mpr
              apply (Leaves.get_iff _).mpr
              rw [attends kept]
              exact attended_leaves layers selected kept originals
          · rintro cause after ⟨kept, originals, located⟩
            exact ⟨kept, originals, Or.inr (Or.inl located)⟩

end Step

/-! ## Runs -/

section Runs

variable [Field K] [LinearOrder K] [IsStrictOrderedRing K] (layers : Layers K)
  {order : ScatterOrder} {kvDtype dtype : TorchDtype}

/-- The pool after the calls, whether or not they raised. -/
def runCalls (pool : KvPool K) (calls : List (Call K)) : KvPool K :=
  callAll (fun call => call.run layers) pool calls

/-- A pool of originals after the calls. -/
def storeCalls (order : ScatterOrder) (originals : KvPool K) (calls : List (Call K)) : KvPool K :=
  calls.foldl (fun originals call => call.store order originals) originals

/-- The originals of the pool after a run are the live rows that the run stored. -/
theorem runCalls_originals (wide : WideDtype dtype) (calls : List (Call K)) :
    forall {pool : KvPool K}, pool.Quantized kvDtype ->
      (forall call, call ∈ calls -> call.Served order kvDtype dtype) ->
      (runCalls layers pool calls).Quantized kvDtype ∧
        (runCalls layers pool calls).originals layers dtype =
          storeCalls order (pool.originals layers dtype) calls := by
  induction calls with
  | nil => exact fun quantized _ => ⟨quantized, rfl⟩
  | cons call rest inductionHypothesis =>
      intro pool quantized served
      have stepped : (finalState ((call.run layers).run pool)).Quantized kvDtype ∧
          (finalState ((call.run layers).run pool)).originals layers dtype =
            call.store order (pool.originals layers dtype) := by
        have leaves := Call.run_leaves layers (served call List.mem_cons_self) wide quantized
        cases ended : (call.run layers).run pool with
        | ok forwarded after =>
            rw [ended] at leaves
            exact ⟨leaves.1, leaves.2.1⟩
        | error cause after =>
            rw [ended] at leaves
            exact ⟨leaves.1, leaves.2.1⟩
      have later := inductionHypothesis stepped.1 fun other listed =>
        served other (List.mem_cons_of_mem call listed)
      rw [stepped.2] at later
      exact later

/-- After any run of passes that store through `_store_kv` or the pinned attempt, the
originals of the pool are the live rows.  The next pass attends to them, and to its
own live rows, as a reader does that applies no scale; or the pinned attempt answers,
in decode or target-verify and with scales of one.  The offloaded view has the
originals of every selected token. -/
theorem fp8_descaled_once (wide : WideDtype dtype) {pool : KvPool K}
    (quantized : pool.Quantized kvDtype) {calls : List (Call K)}
    (served : forall call, call ∈ calls -> call.Served order kvDtype dtype ∧ call.Own)
    {call : Call K} (next : call.Served order kvDtype dtype) (layerIds : Nat -> Nat) :
    let before := storeCalls order (pool.originals layers dtype) calls
    let originals := call.store order before
    (runCalls layers pool calls).originals layers dtype = before ∧
    Leaves
      (fun forwarded after => after.originals layers dtype = originals ∧
        call.Sees layers kvDtype originals forwarded)
      (fun cause after => after.originals layers dtype = originals ∧
        call.Fails layers originals cause)
      ((call.run layers).run (runCalls layers pool calls)) ∧
    (forall loc, call.locations = some loc ->
      HoldsRows (originals.key call.layerId) loc call.k.data ∧
      HoldsRows (originals.value call.layerId) loc call.v.data) ∧
    (forall layer : Layer K, kvDescaleKwargs layer (originals.key call.layerId) = none ∧
      kvDescales layer dtype = (1, 1)) ∧
    OffloadReadsLive (fun li => layers.layer (layerIds li)) kvDtype dtype := by
  intro before originals
  have ran := runCalls_originals layers wide calls quantized fun call listed =>
    (served call listed).1
  have stepped := Call.run_leaves layers next wide ran.1
  rw [ran.2] at stepped
  refine ⟨ran.2, ?_, ?_, ?_, offload_reads_live _ kvDtype dtype⟩
  · refine Leaves.mono stepped ?_ ?_
    · rintro forwarded after ⟨_, same, sees⟩
      rw [same] at sees
      exact ⟨same, sees⟩
    · rintro cause after ⟨_, same, fails⟩
      rw [same] at fails
      exact ⟨same, fails⟩
  · intro loc located
    have stored : originals = before.written order call.layerId loc call.k.data call.v.data := by
      change (match call.locations with | none => _ | some loc => _) = _
      rw [located]
    rw [stored, KvPool.written_key, KvPool.written_value]
    exact ⟨scatterRows_holds order _ loc _, scatterRows_holds order _ loc _⟩
  · intro layer
    have held : dtype = (before.key call.layerId).dtype :=
      congrArg (fun pool => (pool.key call.layerId).dtype) ran.2
    have kept : (originals.key call.layerId).dtype = (before.key call.layerId).dtype := by
      change (KvPool.key (match call.locations with | none => _ | some loc => _) _).dtype = _
      cases call.locations with
      | none => rfl
      | some loc =>
          dsimp only
          rw [KvPool.written_key]
          rfl
    have plain : isFp8KvDtype (originals.key call.layerId).dtype = false := by
      rw [kept, <- held]
      exact wide.plain
    exact ⟨kvDescaleKwargs_plain plain layer, kvDescales_plain wide.plain layer⟩

end Runs

/-! ## A small backend -/

/-- The first of the rows that were stored to a slot stays. -/
def firstWriter : ScatterOrder where
  writer loc slot := loc.findIdx? fun other => other = slot
  sound := by
    intro loc slot row found
    rcases List.findIdx?_eq_some_iff_getElem.mp found with ⟨inside, same, _⟩
    rw [List.getElem?_eq_getElem inside, of_decide_eq_true same]
  complete := by
    intro loc slot stored
    rw [List.findIdx?_isSome]
    exact List.any_eq_true.mpr ⟨slot, stored, decide_eq_true rfl⟩

/-- A pool that divides by its scales what it is given, in place. -/
def dividingPool : SetKvBuffer ℚ := fun pool layer loc k v kScale vScale =>
  let quotients : Memory ℚ × Memory ℚ :=
    (fun address => k.data address / unitScale kScale, fun address => v.data address / unitScale vScale)
  (pool.written firstWriter layer.layerId loc quotients.1 quotients.2,
    { k with data := quotients.1 }, { v with data := quotients.2 })

theorem dividingPool_divides : DividesByScale firstWriter dividingPool where
  writes := fun _ _ _ _ _ _ _ => rfl
  keeps := by
    intro pool layer loc k v
    simp only [dividingPool, unitScale_none, div_one]

/-- A backend on the CPU without an offload. -/
def smallBackend : QwenSparseAttnBackend ℚ where
  qsaHisparse := none
  supportsFusedKvPool := false
  inScope := true
  isHip := false
  device := ⟨fun _ _ => 1, fun _ => 1⟩
  math := ⟨fun scores => scores.map fun _ => 1, fun _ => 1⟩
  reqToToken := ⟨8, fun place => place⟩
  compressRatio := 4
  trtllmPage := 1
  setKvBuffer := dividingPool
  fusedKvAttention := fun _ _ => none
  resolveMetadata := fun _ => ⟨fun _ => 1, none, false, none, none, none⟩
  logicalToPhysical := fun indices _ => ⟨indices.rows, indices.topk, indices.data⟩
  expandBlockIndices := fun indices _ => indices
  usesBlockIndices := fun _ => false
  fa2CuSeqlens := fun counts _ => (counts, counts)
  validCounts := fun counts _ _ => counts
  packPrefillKv := fun k v _ _ _ _ _ => (k.selectRows [], v.selectRows [])
  canRunFa2Graph := fun _ _ _ _ _ _ _ => false
  execute := fun q _ => q
  gathered := fun _ => (fun _ => 0, fun _ => 0)
  flashAttn := fun q _ _ => q
  fa2Graph := fun q _ => q
  trtllmDecode := none
  padExtendOutput := fun output _ => output

/-- Layers with scales of two and four. -/
def smallLayers : Layers ℚ where
  layer layerId := ⟨layerId, some 2, some 4, 1, 1, 1⟩
  named := fun _ => rfl

def smallRow (dtype : TorchDtype) (element : ℚ) : Tensor ℚ :=
  ⟨dtype, false, 1, 1, 1, fun _ => element⟩

def smallPool : KvPool ℚ :=
  ⟨some .float8E4m3fn, fun _ => smallRow .float8E4m3fn 0, fun _ => smallRow .float8E4m3fn 0⟩

/-- A decode of one token at slot three, which attends to that token. -/
def smallCall : Call ℚ where
  backend := smallBackend
  decode := true
  layerId := 0
  q := smallRow .bfloat16 1
  k := smallRow .bfloat16 6
  v := smallRow .bfloat16 20
  batch := ⟨true, false, false, false, [3], [0], [1], [1]⟩
  saveKvCache := true
  topkIndices := some ⟨1, none, 1, fun _ => 3⟩

theorem smallCall_served : smallCall.Served firstWriter .float8E4m3fn .bfloat16 where
  relies :=
    { divides := dividingPool_divides
      packs := ⟨fun _ _ _ _ _ => [], fun _ _ _ _ _ _ _ => rfl⟩
      views := fun _ absent => nomatch absent }
  fused :=
    { eligible := fun _ _ _ answered => nomatch answered
      stores := fun _ _ _ _ _ _ _ _ answered => nomatch answered
      inScope := rfl }
  query := rfl

/-- A byte stands for its number. -/
def byteValue (byte : UInt8) : ℚ := byte.toNat

/-- After two decodes the pool holds three and five for rows of six and twenty.  A byte of
61 that was offloaded is viewed as 122 in a row of keys and as 244 in a row of values. -/
theorem fp8_descaled_once_small :
    (let after := finalState ((smallCall.run smallLayers).run (runCalls smallLayers smallPool
      [smallCall]))
    (after.key 0).data 3 = 3 ∧ (after.value 0).data 3 = 5) ∧
    exists decoding final after result,
      Decode.smallPrefill.offload ⟨Decode.firstLease, 5, false, []⟩
          [Decode.constantRows 60, Decode.constantRows 61, Decode.constantRows 62]
          Decode.smallBuffers = .ok (decoding, final, after) ∧
      Decode.Adapter.selected { decoding with offloaded := true, batchRequests := [final] } 0
          Decode.loadingResolver (fun address => address % 2051) after = .ok result ∧
      let view := (selectedView byteValue .float8E4m3fn Decode.smallGeometry (fun _ => 1)
        result).originals (smallLayers.layer 0) .bfloat16
      view.keyAt 1 6 0 = 122 ∧ view.valueAt 1 6 0 = 244 := by
  have quantized : smallPool.Quantized .float8E4m3fn :=
    ⟨by decide, rfl, fun _ => rfl, fun _ => rfl⟩
  have twoScale : positiveScale (some (2 : ℚ)) = 2 := positiveScale_of_pos (by norm_num)
  have fourScale : positiveScale (some (4 : ℚ)) = 4 := positiveScale_of_pos (by norm_num)
  rcases fp8_descaled_once smallLayers (Or.inl rfl) quantized
    (fun call listed => List.mem_singleton.mp listed ▸ ⟨smallCall_served, Or.inl rfl⟩)
    smallCall_served id with ⟨_, leaves, _, _, offloaded⟩
  constructor
  · intro after
    have originals : after.originals smallLayers .bfloat16 = smallCall.store firstWriter
        (storeCalls firstWriter (smallPool.originals smallLayers .bfloat16) [smallCall]) := by
      cases ended : (smallCall.run smallLayers).run
          (runCalls smallLayers smallPool [smallCall]) with
      | ok forwarded last =>
          rw [ended] at leaves
          change KvPool.originals (finalState _) _ _ = _
          rw [ended]
          exact leaves.1
      | error cause last =>
          rw [ended] at leaves
          change KvPool.originals (finalState _) _ _ = _
          rw [ended]
          exact leaves.1
    have key : (after.key 0).data 3 * positiveScale (some 2) = 6 :=
      congrArg (fun pool => (pool.key 0).data 3) originals
    have value : (after.value 0).data 3 * positiveScale (some 4) = 20 :=
      congrArg (fun pool => (pool.value 0).data 3) originals
    rw [twoScale] at key
    rw [fourScale] at value
    have three : (6 : ℚ) = 3 * 2 := by norm_num
    have five : (20 : ℚ) = 5 * 4 := by norm_num
    exact ⟨mul_right_cancel₀ two_ne_zero (key.trans three),
      mul_right_cancel₀ four_ne_zero (value.trans five)⟩
  · have permits : Decode.smallPrefill.slots.Permits Decode.firstLease [.prefill] :=
      ⟨by decide, .prefill, by decide, by decide⟩
    have live := @LiveRows.ofBytes_bytes ℚ _ _ _ byteValue (fun li => smallLayers.layer li)
      Decode.smallGeometry 5 Decode.smallBuffers
      [Decode.constantRows 60, Decode.constantRows 61, Decode.constantRows 62]
    rcases @Decode.offload_selectable Decode.smallPrefill ⟨Decode.firstLease, 5, false, []⟩
        [Decode.constantRows 60, Decode.constantRows 61, Decode.constantRows 62]
        Decode.smallBuffers permits rfl rfl (by decide) (by decide) with
      ⟨decoding, final, after, ran, sameGeometry, decodes, sameLease, length, _⟩
    have eight : Decode.EightTokens decoding final :=
      ⟨sameGeometry, decodes, length, congrArg Ledger.QSAHiSparseLease.slot sameLease⟩
    rcases offloaded byteValue _ Decode.smallPrefill ⟨Decode.firstLease, 5, false, []⟩ _ _ permits
      rfl rfl (by decide) (by decide) live with ⟨_, _, _, again, views⟩
    cases ran.symm.trans again
    rcases views 0 (by decide) Decode.loadingResolver eight.batch _ 0
      Decode.loadingResolver_returns rfl (List.mem_singleton_self _) eight.selecting with
      ⟨result, selected, reads⟩
    have read := reads (fun _ => 1) 6 0 (by decide) (by rw [eight.length]; decide) (by decide)
      (by decide)
    refine ⟨decoding, final, after, result, ran, selected, read.1.trans ?_, read.2.trans ?_⟩
    · change ((61 : Nat) : ℚ) * positiveScale (some 2) = 122
      rw [twoScale]
      norm_num
    · change ((61 : Nat) : ℚ) * positiveScale (some 4) = 244
      rw [fourScale]
      norm_num

end Backend
end QSAHiSparse

import QSAHiSparse.Backend.Descaled

namespace QSAHiSparse
namespace Backend

open Foundation
open Kernels
open Weights (TorchDtype)

/-!
# What a store leaves

A store leaves the originals of the pool with the live rows, and the live rows as
they are.  So does the pinned attempt, where the guard lets it answer.
-/

/-! ## The store -/

section Written

variable {K : Type} {order : ScatterOrder} {kvDtype : TorchDtype} {pool : KvPool K}

/-- Every slot that was stored to holds a row that was stored for it. -/
def HoldsRows (buffer : Tensor K) (loc : List Int) (source : Memory K) : Prop :=
  forall slot, slot ∈ loc -> exists row : Nat, loc[row]? = some slot ∧
    forall column : Int, 0 ≤ column -> column < (buffer.heads * buffer.dim : Nat) ->
      buffer.data (slot * (buffer.heads * buffer.dim : Nat) + column) =
        source (row * (buffer.heads * buffer.dim : Nat) + column)

theorem scatterRows_holds (order : ScatterOrder) (buffer : Tensor K) (loc : List Int)
    (source : Memory K) : HoldsRows (scatterRows order buffer loc source) loc source := by
  intro slot stored
  rcases Option.isSome_iff_exists.mp (order.complete loc slot stored) with ⟨row, writer⟩
  refine ⟨row, order.sound loc slot row writer, ?_⟩
  intro column lower upper
  change column < (buffer.heads * buffer.dim : Nat) at upper
  have place : (slot * (buffer.heads * buffer.dim : Nat) + column) /
      (buffer.heads * buffer.dim : Nat) = slot := by
    rw [Int.mul_comm, Int.mul_add_ediv_left _ _ (by omega), Int.ediv_eq_zero_of_lt lower upper,
      add_zero]
  have within : (slot * (buffer.heads * buffer.dim : Nat) + column) %
      (buffer.heads * buffer.dim : Nat) = column := by
    rw [Int.mul_comm, Int.mul_add_emod_self_left, Int.emod_eq_of_lt lower upper]
  unfold scatterRows
  dsimp only
  rw [place, within, writer]

section Rows

variable (order : ScatterOrder) (pool : KvPool K) (layerId : Nat) (loc : List Int) (k v : Memory K)

theorem KvPool.written_key : (pool.written order layerId loc k v).key layerId =
    scatterRows order (pool.key layerId) loc k :=
  Function.update_self ..

theorem KvPool.written_value : (pool.written order layerId loc k v).value layerId =
    scatterRows order (pool.value layerId) loc v :=
  Function.update_self ..

theorem KvPool.written_other {other : Nat} (distinct : other ≠ layerId) :
    (pool.written order layerId loc k v).key other = pool.key other ∧
      (pool.written order layerId loc k v).value other = pool.value other :=
  ⟨Function.update_of_ne distinct .., Function.update_of_ne distinct ..⟩

end Rows

/-- A store keeps the dtypes. -/
theorem KvPool.Quantized.written (quantized : pool.Quantized kvDtype) (layerId : Nat)
    (loc : List Int) (k v : Memory K) :
    (pool.written order layerId loc k v).Quantized kvDtype where
  fp8 := quantized.fp8
  dtype := quantized.dtype
  key := by
    intro other
    by_cases same : other = layerId
    · rw [same, KvPool.written_key]
      exact quantized.key layerId
    · rw [(pool.written_other order layerId loc k v same).1]
      exact quantized.key other
  value := by
    intro other
    by_cases same : other = layerId
    · rw [same, KvPool.written_value]
      exact quantized.value layerId
    · rw [(pool.written_other order layerId loc k v same).2]
      exact quantized.value other

theorem scatterRows_restored [Field K] (buffer : Tensor K) (loc : List Int) (source : Memory K)
    (dtype : TorchDtype) {scale : K} (nonzero : scale ≠ 0) :
    (scatterRows order buffer loc fun address => source address / scale).restored dtype scale =
      scatterRows order (buffer.restored dtype scale) loc source := by
  unfold scatterRows Tensor.restored
  congr 1
  funext address
  dsimp only
  cases order.writer loc (address / (buffer.heads * buffer.dim : Nat)) with
  | none => rfl
  | some row => exact div_mul_cancel₀ _ nonzero

end Written

section Live

variable {K : Type} [Field K] [LinearOrder K] {order : ScatterOrder} {kvDtype : TorchDtype}
  {pool : KvPool K} (layers : Layers K)

/-- A store leaves the live rows alone, and the pool with their quotients. -/
theorem storeKv_leaves {setKvBuffer : SetKvBuffer K} (divides : DividesByScale order setKvBuffer)
    (quantized : pool.Quantized kvDtype) (layerId : Nat)
    (writeLocations : Option (List Int -> Except PyError (List Int))) (loc : List Int)
    (k v : Tensor K) :
    Leaves
      (fun live after => live = (k, v) ∧ exists locations,
        (writeLocations.elim (.ok loc) fun locations => locations loc) = .ok locations ∧
          after = pool.written order layerId locations
            (fun address => k.data address / positiveScale (layers.layer layerId).kScaleFloat)
            fun address => v.data address / positiveScale (layers.layer layerId).vScaleFloat)
      (fun cause after => after = pool ∧
        (writeLocations.elim (.ok loc) fun locations => locations loc) = .error cause)
      ((storeKv setKvBuffer writeLocations (layers.layer layerId) loc k v).run pool) := by
  have writes (kScale vScale : Option K) (loc : List Int) :=
    divides.writes pool (layers.layer layerId) loc k v kScale vScale
  unfold storeKv
  apply (Leaves.bind_iff _ _ _).mpr
  apply (Leaves.fromExcept_iff _ _).mpr
  cases located : writeLocations.elim (Except.ok loc) fun locations => locations loc with
  | error cause => exact ⟨rfl, rfl⟩
  | ok locations =>
      apply (Leaves.bind_iff _ _ _).mpr
      apply (Leaves.get_iff _).mpr
      rw [quantized.dtype, Option.getD_some]
      dsimp only
      rw [kvDescales_fp8 quantized.fp8]
      dsimp only
      rw [quantized.fp8, if_neg nofun]
      by_cases unit : positiveScale (layers.layer layerId).kScaleFloat = 1 ∧
          positiveScale (layers.layer layerId).vScaleFloat = 1
      · rw [if_pos unit, unit.1, unit.2]
        have stored := writes none none locations
        rw [layers.named] at stored
        exact ⟨divides.keeps .., locations, rfl, stored⟩
      · rw [if_neg unit]
        have stored := writes (some (positiveScale (layers.layer layerId).kScaleFloat))
          (some (positiveScale (layers.layer layerId).vScaleFloat)) locations
        rw [layers.named] at stored
        exact ⟨rfl, locations, rfl, stored⟩

end Live

section Store

variable {K : Type} [Field K] [LinearOrder K] [IsStrictOrderedRing K] {order : ScatterOrder}
  {kvDtype dtype : TorchDtype} {pool : KvPool K}

variable (layers : Layers K)

/-- Rows that are written divided by the scales of their layer are originals. -/
theorem originals_written (layerId : Nat) (loc : List Int) (k v : Memory K) :
    (pool.written order layerId loc
      (fun address => k address / positiveScale (layers.layer layerId).kScaleFloat)
      fun address => v address / positiveScale (layers.layer layerId).vScaleFloat).originals layers
        dtype =
      (pool.originals layers dtype).written order layerId loc k v := by
  have kNonzero := positiveScale_ne_zero (layers.layer layerId).kScaleFloat
  have vNonzero := positiveScale_ne_zero (layers.layer layerId).vScaleFloat
  refine KvPool.ext rfl ?_ ?_
  · funext other
    by_cases same : other = layerId
    · rw [same, KvPool.written_key]
      change (KvPool.key _ _).restored _ _ = _
      rw [KvPool.written_key]
      exact scatterRows_restored _ loc k dtype kNonzero
    · rw [(KvPool.written_other _ _ _ _ _ _ same).1]
      change (KvPool.key _ _).restored _ _ = _
      rw [(KvPool.written_other _ _ _ _ _ _ same).1]
      rfl
  · funext other
    by_cases same : other = layerId
    · rw [same, KvPool.written_value]
      change (KvPool.value _ _).restored _ _ = _
      rw [KvPool.written_value]
      exact scatterRows_restored _ loc v dtype vNonzero
    · rw [(KvPool.written_other _ _ _ _ _ _ same).2]
      change (KvPool.value _ _).restored _ _ = _
      rw [(KvPool.written_other _ _ _ _ _ _ same).2]
      rfl

end Store

/-! ## The fused attempt -/

/-- What the pinned attempt does.  It answers for an eligible pool on CUDA, in decode
or target-verify, and stores the new rows as they are. -/
structure FusedContract {K : Type} (order : ScatterOrder) (backend : QwenSparseAttnBackend K) :
    Prop where
  eligible : forall call pool answer, backend.fusedKvAttention call pool = some answer ->
    backend.fusedKvEligible = true ∧ call.q.isCuda = true ∧ call.k.isSome = true ∧
      call.v.isSome = true ∧ (call.batch.isDecode = true ∨ call.batch.isTargetVerify = true)
  stores : forall q k v layer batch indices pool answer,
    backend.fusedKvAttention ⟨q, some k, some v, layer, batch, indices⟩ pool = some answer ->
      answer.2 = pool.written order layer.layerId batch.outCacheLoc k.data v.data
  inScope : backend.inScope = true

theorem alone_of_eligible {K : Type} {backend : QwenSparseAttnBackend K}
    (eligible : backend.fusedKvEligible = true) : backend.qsaHisparse = none :=
  Option.isNone_iff_eq_none.mp (Bool.and_eq_true_iff.mp eligible).1

section Fused

variable {K : Type} [Field K] [LinearOrder K] {order : ScatterOrder}
  {kvDtype dtype : TorchDtype} {pool : KvPool K} {backend : QwenSparseAttnBackend K}

/-- An FP8 pool is fused in decode and target-verify, and with scales of one. -/
theorem tryFusedKvAttention_unit (fused : FusedContract order backend)
    (quantized : pool.Quantized kvDtype) {call : FusedCall K} {answer : Tensor K × KvPool K}
    (answered : backend.tryFusedKvAttention call pool = some answer) :
    backend.fusedKvAttention call pool = some answer ∧
      (call.batch.isDecode = true ∨ call.batch.isTargetVerify = true) ∧
      kvDescales call.layer kvDtype = (1, 1) := by
  have pinned : backend.fusedKvAttention call pool = some answer ∧
      (backend.fusedKvEligible = true ∧ call.q.isCuda = true ∧ call.k.isSome = true ∧
        call.v.isSome = true ∧ backend.inScope = true ->
        (call.batch.isDecode = true ∨ call.batch.isTargetVerify = true) ->
          kvDescales call.layer kvDtype = (1, 1)) := by
    unfold QwenSparseAttnBackend.tryFusedKvAttention at answered
    rw [quantized.key] at answered
    by_cases guarded : backend.fusedKvEligible = true ∧ call.q.isCuda = true ∧
        call.k.isSome = true ∧ call.v.isSome = true ∧ backend.inScope = true
    · rw [if_pos guarded] at answered
      by_cases scaled : (call.batch.isDecode = true ∨ call.batch.isTargetVerify = true) ∧
          kvDescales call.layer kvDtype ≠ (1, 1)
      · rw [if_pos scaled] at answered
        cases answered
      · rw [if_neg scaled] at answered
        exact ⟨answered, fun _ mode => by_contra fun other => scaled ⟨mode, other⟩⟩
    · rw [if_neg guarded] at answered
      exact ⟨answered, fun checked => absurd checked guarded⟩
  rcases fused.eligible call pool answer pinned.1 with ⟨eligible, cuda, keys, values, mode⟩
  exact ⟨pinned.1, mode, pinned.2 ⟨eligible, cuda, keys, values, fused.inScope⟩ mode⟩

/-- The slots that a store of a batch goes to. -/
def QwenSparseAttnBackend.locations (backend : QwenSparseAttnBackend K) (batch : ForwardBatch) :
    Except PyError (List Int) :=
  (backend.qsaHisparse.map Hisparse.writeLocations).elim (.ok batch.outCacheLoc) fun locations =>
    locations batch.outCacheLoc

variable [IsStrictOrderedRing K] (layers : Layers K) (dtype)

/-- The pinned attempt or the store leaves the originals of the pool with the live
rows.  The live rows stay as they are. -/
theorem fuseOrStore_leaves (relies : Relies order kvDtype backend)
    (fused : FusedContract order backend) (quantized : pool.Quantized kvDtype) (q k v : Tensor K)
    (layerId : Nat) (batch : ForwardBatch) (indices : Indices) :
    Leaves
      (fun stored after => after.Quantized kvDtype ∧
        (exists loc, backend.locations batch = .ok loc ∧
          after.originals layers dtype =
            (pool.originals layers dtype).written order layerId loc k.data v.data) ∧
        match stored with
        | .inl _ => (batch.isDecode = true ∨ batch.isTargetVerify = true) ∧
            kvDescales (layers.layer layerId) kvDtype = (1, 1)
        | .inr live => live = (k, v))
      (fun cause after => after = pool ∧ backend.locations batch = .error cause)
      ((backend.fuseOrStore q k v (layers.layer layerId) batch indices).run pool) := by
  unfold QwenSparseAttnBackend.fuseOrStore
  apply (Leaves.bind_iff _ _ _).mpr
  apply (Leaves.get_iff _).mpr
  cases attempted : backend.tryFusedKvAttention
      ⟨q, some k, some v, layers.layer layerId, batch, indices⟩ pool with
  | some answer =>
      rcases tryFusedKvAttention_unit fused quantized attempted with ⟨answered, mode, unit⟩
      have eligible := (fused.eligible _ _ _ answered).1
      have stored := fused.stores _ _ _ _ _ _ _ _ answered
      rw [layers.named] at stored
      have scales : positiveScale (layers.layer layerId).kScaleFloat = 1 ∧
          positiveScale (layers.layer layerId).vScaleFloat = 1 := by
        rw [kvDescales_fp8 quantized.fp8] at unit
        exact Prod.mk.inj unit
      have located : backend.locations batch = .ok batch.outCacheLoc := by
        unfold QwenSparseAttnBackend.locations
        rw [alone_of_eligible eligible]
        rfl
      have restored := @originals_written K _ _ _ order dtype pool layers layerId
        batch.outCacheLoc k.data v.data
      rw [scales.1, scales.2] at restored
      simp only [div_one] at restored
      change KvPool.Quantized answer.2 kvDtype ∧ _
      rw [stored]
      exact ⟨quantized.written .., ⟨_, located, restored⟩, mode, unit⟩
  | none =>
      apply (Leaves.bind_iff _ _ _).mpr
      refine Leaves.mono (storeKv_leaves layers relies.divides quantized layerId _ _ k v) ?_ ?_
      · rintro live after ⟨same, loc, located, stored⟩
        rw [stored]
        exact ⟨quantized.written .., ⟨loc, located, originals_written ..⟩, same⟩
      · rintro cause after ⟨same, located⟩
        exact ⟨same, located⟩

end Fused

end Backend
end QSAHiSparse

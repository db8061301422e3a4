import Mathlib.Algebra.BigOperators.Ring.Finset
import QSAHiSparse.Foundation.Fallible
import QSAHiSparse.Kernels.SparseGqa

namespace QSAHiSparse
namespace Kernels

open Foundation
open Weights (TorchDtype)

/-!
# A reader with scales reads restored rows

Each reader of an FP8 cache, given the scales of the layer, does what the same
reader does without scales over the cache whose elements were multiplied by the
scales beforehand.
-/

variable {K : Type} [Field K]

/-- The tensor of another dtype whose elements are the stored ones times a scale. -/
def Tensor.restored (tensor : Tensor K) (dtype : TorchDtype) (scale : K) : Tensor K :=
  { tensor with dtype, data := fun address => tensor.data address * scale }

@[simp] theorem Tensor.restored_heads (tensor : Tensor K) (dtype : TorchDtype) (scale : K) :
    (tensor.restored dtype scale).heads = tensor.heads := rfl

theorem maskedLoad_mul (memory : Memory K) (address : Int) (mask : Prop) [Decidable mask]
    (scale : K) :
    maskedLoad (fun place => memory place * scale) address mask 0 =
      maskedLoad memory address mask 0 * scale := by
  unfold maskedLoad
  by_cases chosen : mask
  · rw [if_pos chosen, if_pos chosen]
  · rw [if_neg chosen, if_neg chosen, zero_mul]

/-! ## The kernels -/

section Kernels

/-- The arguments with K and V restored. -/
def GqaArgs.restored (args : GqaArgs K) (dtype : TorchDtype) (kScale vScale : K) : GqaArgs K :=
  { args with k := args.k.restored dtype kScale, v := args.v.restored dtype vScale }

variable (args : GqaArgs K) (row : GqaRow) (dtype : TorchDtype) (kScale vScale : K)

theorem GqaArgs.load_restored (tensor : Tensor K) (scale : K) (current element : Nat) :
    (args.restored dtype kScale vScale).load row (tensor.restored dtype scale) current element =
      args.load row tensor current element * scale :=
  maskedLoad_mul tensor.data _ _ scale

/-- Scaling a score scales the keys of its dot product. -/
theorem GqaArgs.score_restored (current lane : Nat) :
    args.score row true kScale current lane =
      (args.restored dtype kScale vScale).score row false 1 current lane := by
  have dots : (∑ element ∈ Finset.range args.q.dim,
      args.qValues row lane element * args.load row args.k current element) * kScale =
      ∑ element ∈ Finset.range args.q.dim, args.qValues row lane element *
        (args.restored dtype kScale vScale).load row (args.k.restored dtype kScale) current
          element := by
    rw [Finset.sum_mul]
    refine Finset.sum_congr rfl fun element _ => ?_
    rw [args.load_restored row dtype kScale vScale args.k kScale, mul_assoc]
  have token : (args.restored dtype kScale vScale).token row current = args.token row current := rfl
  unfold GqaArgs.score
  rw [token]
  by_cases valid : 0 ≤ args.token row current
  · rw [if_pos valid, if_pos valid]
    exact congrArg _ dots
  · rw [if_neg valid, if_neg valid]

variable [LinearOrder K]

/-- A turn over an FP8 cache is a turn over the restored one. -/
theorem GqaArgs.step_restored :
    args.step row true kScale vScale =
      (args.restored dtype kScale vScale).step row false 1 1 := by
  funext state start
  have weighted (probability : Nat -> K) (element : Nat) :
      (∑ column ∈ Finset.range args.blockN,
        probability column * args.load row args.v (start + column) element) * vScale =
      ∑ column ∈ Finset.range args.blockN, probability column *
        (args.restored dtype kScale vScale).load row (args.v.restored dtype vScale)
          (start + column) element := by
    rw [Finset.sum_mul]
    refine Finset.sum_congr rfl fun column _ => ?_
    rw [args.load_restored row dtype kScale vScale args.v vScale, mul_assoc]
  unfold GqaArgs.step
  simp only [if_true, Bool.false_eq_true, if_false,
    args.score_restored row dtype kScale vScale, weighted]
  congr 1
  funext lane element
  exact add_comm _ _

/-- A program over an FP8 cache stores what it stores over the restored one. -/
theorem GqaArgs.stores_restored :
    args.stores row true kScale vScale =
      (args.restored dtype kScale vScale).stores row false 1 1 := by
  unfold GqaArgs.stores
  rw [args.step_restored row dtype kScale vScale]
  rfl

theorem sparseGqaChunkPrefill_restored (cuQ cuK kvLens : Memory Int) :
    sparseGqaChunkPrefill args true kScale vScale cuQ cuK kvLens =
      sparseGqaChunkPrefill (args.restored dtype kScale vScale) false 1 1 cuQ cuK kvLens := by
  funext queryRelative batchGroup
  unfold sparseGqaChunkPrefill
  simp only [args.stores_restored _ dtype kScale vScale]
  rfl

end Kernels

/-! ## The launchers -/

section Launchers

/-- The checks of the dtypes take restored K and V for K and V of the queries' own
dtype. -/
theorem validateSparseGqaDtypes_restored {q k v : Tensor K} (fp8 : isFp8KvDtype k.dtype = true)
    (same : k.dtype = v.dtype) (kScale vScale : K) :
    (validateSparseGqaDtypes q k v = .ok true ∧
      validateSparseGqaDtypes q (k.restored q.dtype kScale) (v.restored q.dtype vScale) =
        .ok false) ∨
      exists cause, validateSparseGqaDtypes q k v = .error cause ∧
        validateSparseGqaDtypes q (k.restored q.dtype kScale) (v.restored q.dtype vScale) =
          .error cause := by
  unfold validateSparseGqaDtypes
  have alike : (k.restored q.dtype kScale).dtype = (v.restored q.dtype vScale).dtype := rfl
  rw [if_neg (not_not.mpr same), if_neg (not_not.mpr alike)]
  by_cases wide : q.dtype = .bfloat16 ∨ q.dtype = float16
  · have narrow : isFp8KvDtype q.dtype = false := by
      rcases wide with bfloat | float
      · rw [bfloat]
        decide
      · rw [float]
        decide
    have agrees : (k.restored q.dtype kScale).dtype = q.dtype := rfl
    rw [if_neg (not_not.mpr wide), if_neg (not_not.mpr wide), agrees, fp8, narrow,
      if_neg fun bad => (nomatch bad.1), if_neg fun bad => bad.2 rfl]
    exact Or.inl ⟨rfl, rfl⟩
  · rw [if_pos wide, if_pos wide]
    exact Or.inr ⟨_, rfl, rfl⟩

theorem GqaDevice.args_restored (device : GqaDevice K) (q k v : Tensor K) (indices : Indices) (scale : K)
    (dtype : TorchDtype) (kScale vScale : K) :
    device.args q (k.restored dtype kScale) (v.restored dtype vScale) indices scale =
      (device.args q k v indices scale).restored dtype kScale vScale := by
  unfold GqaDevice.args GqaArgs.restored
  rw [Tensor.restored_heads]

variable [LinearOrder K] (device : GqaDevice K)

/-- The chunked prefill with scales is the one without over restored K and V. -/
theorem sparseGqaFwdInterfaceTritonCk_restored {q k v : Tensor K}
    (fp8 : isFp8KvDtype k.dtype = true) (same : k.dtype = v.dtype) (indices : Indices)
    (cuQ : Offsets) (cuK kvLens : Memory Int) (scale : K) (maxQ : Option Nat) (kScale vScale : K) :
    sparseGqaFwdInterfaceTritonCk device q k v indices cuQ cuK kvLens scale maxQ (some kScale)
        (some vScale) =
      sparseGqaFwdInterfaceTritonCk device q (k.restored q.dtype kScale)
        (v.restored q.dtype vScale) indices cuQ cuK kvLens scale maxQ none none := by
  unfold sparseGqaFwdInterfaceTritonCk
  rcases validateSparseGqaDtypes_restored fp8 same kScale vScale with
    ⟨accepted, plain⟩ | ⟨cause, refused, alike⟩
  · rw [accepted, plain, Except.ok_bind, Except.ok_bind, device.args_restored, unitScale_some,
      unitScale_some, unitScale_none, Tensor.restored_heads]
    dsimp only
    rw [sparseGqaChunkPrefill_restored]
  · rw [refused, alike, Except.error_bind, Except.error_bind]

end Launchers

/-! ## The torch reference -/

/-- The reference with scales is the reference without over restored K and V. -/
theorem qsaSparseAttention_restored [DecidableEq K] (math : TorchMath K) (q k v : Tensor K)
    (dtype : TorchDtype) (slots : TokenSlots) (softmaxScale : Option K) (kScale vScale : K) :
    qsaSparseAttention math q k v slots softmaxScale (some kScale) (some vScale) =
      qsaSparseAttention math q (k.restored dtype kScale) (v.restored dtype vScale) slots
        softmaxScale none none := by
  have elements : qsaSparseAttentionReference math q k v slots softmaxScale (some kScale)
      (some vScale) = qsaSparseAttentionReference math q (k.restored dtype kScale)
        (v.restored dtype vScale) slots softmaxScale none none := by
    funext row head element
    unfold qsaSparseAttentionReference unitScale
    simp only [Option.getD_some, Option.getD_none, mul_one]
    rfl
  unfold qsaSparseAttention
  rw [elements]
  rfl

/-! ## The gather -/

/-- Conversions that keep every value. -/
def exactConversions : Conversions K K K where
  toFloat32 := id
  narrow := id
  convert := id
  toFloat32_zero := rfl
  narrow_zero := rfl
  convert_zero := rfl

/-- The arguments of a gather out of restored buffers of another dtype. -/
def CompactArgs.restored (args : CompactArgs K K) (dtype : TorchDtype) (kScale vScale : K) :
    CompactArgs K K :=
  { args with
    k := fun address => args.k address * kScale
    v := fun address => args.v address * vScale
    kDtype := dtype
    vDtype := dtype }

theorem CompactArgs.stores_restored (args : CompactArgs K K) (dtype : TorchDtype)
    (kScale vScale : K) (padCols : Int) (blockTopk blockD : Nat) (zeroFill : Bool)
    (pool : Memory K) (scale other : K) (batch head block : Nat) :
    args.stores exactConversions padCols blockTopk blockD true zeroFill pool scale batch head
        block =
      (args.restored dtype kScale vScale).stores exactConversions padCols blockTopk blockD false
        zeroFill (fun address => pool address * scale) other batch head block := by
  unfold CompactArgs.stores
  refine congrArg (tileStore blockTopk blockD _ _) ?_
  funext lane element
  unfold Conversions.stored
  rw [if_pos rfl, if_neg Bool.false_ne_true]
  exact (maskedLoad_mul pool _ _ scale).symm

/-- A gather that dequantizes gathers restored buffers as they are. -/
theorem qwenSparseKvExtractionCompactTriton_restored {args : CompactArgs K K}
    (fp8 : isFp8KvDtype args.kDtype = true) (same : args.kDtype = args.vDtype)
    (wide : isFp8KvDtype args.outKDtype = false) {dtype : TorchDtype}
    (plain : isFp8KvDtype dtype = false) (kScale vScale : K)
    (scales : args.kScale = some kScale ∧ args.vScale = some vScale) :
    qwenSparseKvExtractionCompactTriton exactConversions args =
      qwenSparseKvExtractionCompactTriton exactConversions
        { args.restored dtype kScale vScale with kScale := some 1, vScale := some 1 } := by
  have dequantize : args.dequantizeFp8 = true := by
    unfold CompactArgs.dequantizeFp8
    rw [fp8, wide]
    rfl
  let kept : CompactArgs K K :=
    { args.restored dtype kScale vScale with kScale := some 1, vScale := some 1 }
  have copies : kept.dequantizeFp8 = false := by
    change (isFp8KvDtype dtype && !isFp8KvDtype args.outKDtype) = false
    rw [plain]
    rfl
  have pairs : ¬ (args.kDtype ≠ args.vDtype ∨ args.outKDtype ≠ args.outVDtype) <->
      ¬ (kept.kDtype ≠ kept.vDtype ∨ kept.outKDtype ≠ kept.outVDtype) := by
    change ¬ (args.kDtype ≠ args.vDtype ∨ args.outKDtype ≠ args.outVDtype) <->
      ¬ (dtype ≠ dtype ∨ args.outKDtype ≠ args.outVDtype)
    rw [same]
    simp only [ne_eq, not_true_eq_false, false_or]
  change _ = qwenSparseKvExtractionCompactTriton exactConversions kept
  unfold qwenSparseKvExtractionCompactTriton
  by_cases differ : args.kDtype ≠ args.vDtype ∨ args.outKDtype ≠ args.outVDtype
  · rw [if_pos differ, if_pos (by_contra fun kept => pairs.mpr kept differ)]
  · rw [if_neg differ, if_neg (pairs.mp differ), dequantize, copies, scales.1, scales.2]
    refine congrArg (fun program => Except.ok (CompactLaunch.mk _ program)) ?_
    funext place
    exact Prod.ext
      (args.stores_restored dtype kScale vScale _ 16 _ _ args.k kScale 1 _ _ _)
      (args.stores_restored dtype kScale vScale _ 16 _ _ args.v vScale 1 _ _ _)

end Kernels
end QSAHiSparse

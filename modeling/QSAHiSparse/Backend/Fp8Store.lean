import Mathlib.Algebra.Order.Field.Basic
import QSAHiSparse.Foundation.Effects
import QSAHiSparse.Kernels.Descale

namespace QSAHiSparse
namespace Backend

open Foundation
open Kernels
open Weights (TorchDtype)

/-!
# Storing K/V in an FP8 cache

A cache of FP8 elements holds the rows of a layer divided by the scales of the
layer.  The pool divides what it is given in place, so a store with scales gives it
clones: the live rows are read after the store.
-/

/-- What is read of an attention layer. -/
structure Layer (K : Type) where
  layerId : Nat
  kScaleFloat : Option K
  vScaleFloat : Option K
  scaling : K
  tpQHeadNum : Nat
  headDim : Nat

/-- `token_to_kv_pool`. -/
@[ext] structure KvPool (K : Type) where
  dtype : Option TorchDtype
  key : Nat -> Tensor K
  value : Nat -> Tensor K

/-- `token_to_kv_pool.set_kv_buffer`, with what it leaves in the K and V that it was
given. -/
abbrev SetKvBuffer (K : Type) :=
  KvPool K -> Layer K -> List Int -> Tensor K -> Tensor K -> Option K -> Option K ->
    KvPool K × Tensor K × Tensor K

section Descales

variable {K : Type} [Field K] [LinearOrder K]

/-- The scale of a layer, unless it is absent or not positive. -/
def positiveScale (scale : Option K) : K :=
  let scale := scale.getD 1
  if 0 < scale then scale else 1

def kvDescales (layer : Layer K) (kvDtype : TorchDtype) : K × K :=
  if isFp8KvDtype kvDtype then (positiveScale layer.kScaleFloat, positiveScale layer.vScaleFloat)
  else (1, 1)

/-- `_kv_descale_kwargs`; without an FP8 buffer there are none. -/
def kvDescaleKwargs (layer : Layer K) (buffer : Tensor K) : Option (K × K) :=
  if isFp8KvDtype buffer.dtype then some (kvDescales layer buffer.dtype) else none

/-- `_store_kv` returns what is left in the live K and V. -/
def storeKv (setKvBuffer : SetKvBuffer K)
    (writeLocations : Option (List Int -> Except PyError (List Int))) (layer : Layer K)
    (loc : List Int) (k v : Tensor K) : Method (KvPool K) (Tensor K × Tensor K) := do
  let loc <- fromExcept (writeLocations.elim (.ok loc) fun locations => locations loc)
  let pool <- get
  let cacheDtype := pool.dtype.getD k.dtype
  let (kScale, vScale) := kvDescales layer cacheDtype
  if isFp8KvDtype cacheDtype = false then
    let stored := setKvBuffer pool layer loc k v none none
    set stored.1
    pure stored.2
  else if kScale = 1 ∧ vScale = 1 then
    let stored := setKvBuffer pool layer loc k v none none
    set stored.1
    pure stored.2
  else
    -- The pool divides clones of K and V.
    set (setKvBuffer pool layer loc k v (some kScale) (some vScale)).1
    pure (k, v)

end Descales

/-! ## What the pool does -/

/-- The row that a scatter leaves at a slot.  Rows with one slot may land in any
order. -/
structure ScatterOrder where
  writer : List Int -> Int -> Option Nat
  sound : forall loc slot row, writer loc slot = some row -> loc[row]? = some slot
  complete : forall loc slot, slot ∈ loc -> (writer loc slot).isSome = true

section Scatter

variable {K : Type}

/-- A buffer after `buffer[loc] = source`. -/
def scatterRows (order : ScatterOrder) (buffer : Tensor K) (loc : List Int)
    (source : Memory K) : Tensor K :=
  let width : Int := (buffer.heads * buffer.dim : Nat)
  { buffer with
    data := fun address =>
      match order.writer loc (address / width) with
      | none => buffer.data address
      | some row => source (row * width + address % width) }

/-- A pool after the rows of one layer were written. -/
def KvPool.written (order : ScatterOrder) (pool : KvPool K) (layerId : Nat) (loc : List Int)
    (k v : Memory K) : KvPool K :=
  { pool with
    key := Function.update pool.key layerId
      (scatterRows order (pool.key layerId) loc k)
    value := Function.update pool.value layerId
      (scatterRows order (pool.value layerId) loc v) }

variable [Field K]

/-- The pool writes rows divided by the scales that it is given.  Without scales it
leaves its arguments as they are. -/
structure DividesByScale (order : ScatterOrder) (setKvBuffer : SetKvBuffer K) : Prop where
  writes : forall pool layer loc k v kScale vScale,
    (setKvBuffer pool layer loc k v kScale vScale).1 =
      pool.written order layer.layerId loc (fun address => k.data address / unitScale kScale)
        fun address => v.data address / unitScale vScale
  keeps : forall pool layer loc k v, (setKvBuffer pool layer loc k v none none).2 = (k, v)

end Scatter

end Backend
end QSAHiSparse

import QSAHiSparse.Foundation.BinarySearch
import QSAHiSparse.Foundation.StableSort
import QSAHiSparse.Kernels.Tensors

namespace QSAHiSparse
namespace Kernels

open Foundation

/-!
# Stable MoE alignment

Pairs are placed by a stable sort, two binary searches and running sums.
-/

/-- `torch.full` of `int32` elements. -/
def fullInt32 (size : Nat) (value : Int) : Except TensorError (List Int) :=
  if toInt32 value = value then .ok (List.replicate size value) else .error .overflow

/-- `torch.searchsorted` of one value. -/
def searchsorted (sortedSequence : List Int) (value : Int) (right : Bool) : Int :=
  partitionPoint (fun item => if right then item ≤ value else item < value) sortedSequence

/-- `torch.cumsum` along the only dimension. -/
def cumsum (values : List Int) : List Int :=
  (List.range values.length).map fun last => (values.take (last + 1)).sum

/-- One element of `target.scatter_(0, index, source)`. -/
def scatterOne (target : List Int) (update : Int × Int) : Except TensorError (List Int) :=
  if 0 ≤ update.1 ∧ update.1 < target.length then .ok (target.set update.1.toNat update.2)
  else .error .indexRange

/-- `target.scatter_(0, index, source)`, one element after the other. -/
def scatter (target index source : List Int) : Except TensorError (List Int) :=
  (index.zip source).foldlM scatterOne target

/-- The returned tensors; the last has one element. -/
structure Alignment where
  sortedIds : List Int
  expertIds : List Int
  total : Int
deriving DecidableEq, Repr

/-- The room for all pairs and their padding. -/
def capacityOf (numPairs blockSize numExperts : Nat) : Nat :=
  if numPairs < numExperts + 1 then numPairs * blockSize
  else numPairs + (numExperts + 1) * (blockSize - 1)

def moeAlignBlockSizeStable (topkIds : List (List Int)) (blockSize numExperts : Nat) :
    Except TensorError Alignment := do
  let flat := topkIds.flatten
  let numPairs := flat.length
  let capacity := capacityOf numPairs blockSize numExperts
  let sorted := argsort (fun (first second : Int) => decide (first ≤ second)) (flat.map (· + 1))
  let buckets := sorted.map Prod.fst
  let order := sorted.map fun pair => (pair.2 : Int)
  let barePrefix := (List.range (numExperts + 2)).map fun (place : Nat) =>
    searchsorted buckets place false
  let counts := List.zipWith (· - ·) barePrefix.tail barePrefix.dropLast
  if blockSize = 0 then throw .zeroDivision
  let paddedCounts := counts.map fun count =>
    (count + blockSize - 1) / (blockSize : Int) * blockSize
  let paddedEnds := cumsum paddedCounts
  let paddingOffsets := List.zipWith (· - ·) (List.zipWith (· - ·) paddedEnds paddedCounts)
    barePrefix.dropLast
  let offsets <- buckets.mapM (item paddingOffsets)
  let positions := List.zipWith (fun (rank : Nat) (offset : Int) => (rank : Int) + offset)
    (List.range numPairs) offsets
  let blank <- fullInt32 capacity numPairs
  let sortedIds <- scatter blank positions (order.map toInt32)
  let blockStarts := (List.range ((capacity + blockSize - 1) / blockSize)).map
    fun (block : Nat) => (block * blockSize : Int)
  let total <- item paddedEnds (-1)
  let expertIds := blockStarts.map fun start =>
    toInt32 (if start < total then searchsorted paddedEnds start true - 1 else -1)
  return { sortedIds, expertIds, total := toInt32 total }

end Kernels
end QSAHiSparse

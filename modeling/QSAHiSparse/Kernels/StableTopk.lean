import QSAHiSparse.Foundation.StableSort
import QSAHiSparse.Kernels.Tensors
import Mathlib.Order.BoundedOrder.Basic

namespace QSAHiSparse
namespace Kernels

open Foundation

/-!
# Deterministic top-k

Scores are ordered and have a least one, negative infinity; none is a NaN, and
the two zeros are one score.  `starts` and `lengths` are `int32` tensors.
-/

def qsaDeterministicTopkTileBytes : Nat :=
  16 * 1024 * 1024

def qsaDeterministicTopkBytesPerScore : Nat :=
  64

def qsaDeterministicTopkTileRows (rows width : Nat) : Nat :=
  if width = 0 then max rows 1
  else max 1 (min rows (qsaDeterministicTopkTileBytes /
    (width * qsaDeterministicTopkBytesPerScore)))

/-- `torch.iinfo(torch.int64).max`, which no column index reaches. -/
def sentinel : Int :=
  2 ^ 63 - 1

/-- A row of scores with the interval to choose from. -/
structure Row (Score : Type) where
  logits : List Score
  start : Int32
  length : Int32

/-- The arguments: as many starts and lengths as rows, all rows `width` wide. -/
structure Batch (Score : Type) where
  width : Nat
  rows : List (Row Score)
  shape : forall row, row ∈ rows -> row.logits.length = width

section

variable {Score : Type} [LinearOrder Score] [OrderBot Score]

/-- The scores of the interval first, the others masked. -/
def maskedScores (width : Nat) (row : Row Score) : Except TensorError (List Score) := do
  let absolute := (List.range width).map fun (column : Nat) =>
    min (row.start.toInt + column) (width - 1)
  let scores <- absolute.mapM (gatherOne row.logits)
  return List.zipWith (fun (column : Nat) score =>
    if (column : Int) ≥ row.length.toInt then ⊥ else score) (List.range width) scores

/-- One row of a tile, from the gather to the narrowed indices. -/
def selectRow (width selectedWidth : Nat) (row : Row Score) : Except TensorError (List Int) := do
  let scores <- maskedScores width row
  let ranked := (argsort (fun first second => decide (second ≤ first)) scores).map fun pair =>
    (pair.2 : Int)
  let selected := (ranked.take selectedWidth).map fun index =>
    if index < row.length.toInt then index else sentinel
  let ordered := selected.mergeSort fun first second => decide (first ≤ second)
  return ordered.map fun index => toInt32 (if index = sentinel then -1 else index)

/-- `items[begin:stop]`. -/
def slice {α : Type} (items : List α) (start stop : Nat) : List α :=
  (items.take stop).drop start

/-- One tile: its rows are chosen and assigned to the output's first columns. -/
def selectTile (batch : Batch Score) (selectedWidth tileRows : Nat) (output : List (List Int))
    (tile : Nat) : Except TensorError (List (List Int)) := do
  let start := tile * tileRows
  let stop := min (start + tileRows) batch.rows.length
  let chosen <- (slice batch.rows start stop).mapM (selectRow batch.width selectedWidth)
  return output.take start ++
    List.zipWith (fun old new => new ++ old.drop selectedWidth) (slice output start stop) chosen ++
    output.drop stop

/-- The selection in tiles of the given rows. -/
def qsaStableTopkTiled (tileRows : Nat) (batch : Batch Score) (topk : Nat) :
    Except TensorError (List (List Int)) :=
  let output := List.replicate batch.rows.length (List.replicate topk (-1))
  if batch.rows.length = 0 ∨ batch.width = 0 then .ok output
  else (List.range ((batch.rows.length + tileRows - 1) / tileRows)).foldlM
    (selectTile batch (min topk batch.width) tileRows) output

def qsaStableTopk (batch : Batch Score) (topk : Nat) : Except TensorError (List (List Int)) :=
  qsaStableTopkTiled (qsaDeterministicTopkTileRows batch.rows.length batch.width) batch topk

end

end Kernels
end QSAHiSparse

import QSAHiSparse.Foundation.Interleaving
import Mathlib.Algebra.Group.Nat.Defs
import Mathlib.Logic.Function.Basic

namespace QSAHiSparse
namespace Kernels

open Foundation

/-!
# Radix-select top-k

One block of threads selects the largest scores of a row.  Between two barriers
the threads run their loops side by side, and their atomic updates take effect in
any order; a phase is the trace of these updates.  What a thread stores at a
position that an atomic update gave it is stored with that update.

Scores are the bits of 32-bit floats.  The conversion to half precision is a
parameter.
-/

/-! ## Order keys -/

/-- `convert_to_uint8`; `half` is `__float2half_rn`. -/
def convertToUint8 (half : BitVec 32 -> BitVec 16) (score : BitVec 32) : Nat :=
  let bits := half score
  let key := if bits &&& 0x8000 ≠ 0 then ~~~bits else bits ||| 0x8000
  (key >>> 8).toNat

/-- `convert_to_uint32`. -/
def convertToUint32 (score : BitVec 32) : BitVec 32 :=
  if score &&& 0x80000000 ≠ 0 then ~~~score else score ||| 0x80000000

/-- `(key >> offset) & 0xFF`, of a radix pass. -/
def radixDigit (round : Nat) (score : BitVec 32) : Nat :=
  ((convertToUint32 score >>> (24 - round * 8)) &&& 0xFF).toNat

/-! ## Shared memory -/

def kThreadsPerBlock : Nat := 1024

def radix : Nat := 256

def kSmemBytes : Nat := 8 * 1024 * 4

/-- `SMEM_INPUT_SIZE`, of the side that is read and the side that is filled. -/
def smemInputSize : Nat := kSmemBytes / (2 * 4)

/-- The shared variables of a block, its output row, and the registers in which
the iteration for an index keeps its position. -/
structure Block where
  histogramBuf : Nat -> Nat -> Nat
  counter : Nat
  thresholdBinId : Nat
  prefixBins : Nat -> Nat
  numInput : Nat -> Nat
  inputIdx : Nat -> Nat -> Nat
  lastRemain : Int
  position : Nat -> Nat
  index : Nat -> Nat

/-- `s_histogram`. -/
def Block.histogram (block : Block) (bin : Nat) : Nat := block.histogramBuf 0 bin

/-- `if (tx < RADIX + 1) s_histogram[tx] = 0`. -/
def Block.clearHistogram (block : Block) : Block :=
  { block with
    histogramBuf := Function.update block.histogramBuf 0 fun bin =>
      if bin < radix + 1 then 0 else block.histogramBuf 0 bin }

/-! ## Phases -/

/-- The atomic updates, with the index they are for. -/
inductive Atomic where
  /-- `index[atomicAdd(&s_counter, 1)] = idx`. -/
  | emit (idx : Nat)
  /-- `pos = atomicAdd(&s_num_input[side], 1)`, and the store of the index. -/
  | stage (idx : Nat)
  /-- `atomicAdd(&s_histogram[sub_bin], 1)`. -/
  | tally (idx : Nat)
  /-- `pos = atomicAdd(&s_last_remain, -1)`, and the store of the index. -/
  | tie (idx : Nat)
deriving DecidableEq, Repr

/-- What the updates of a phase are made with: the side that is staged to, the
bin that an index is tallied in, and whether only staged indices are tallied. -/
structure Phase where
  kTopK : Nat
  side : Nat
  bin : Nat -> Nat
  stagedOnly : Bool

/-- An atomic update takes effect. -/
def Phase.perform (phase : Phase) (block : Block) : Atomic -> Block
  | .emit idx =>
      { block with
        counter := block.counter + 1
        index := Function.update block.index block.counter idx }
  | .stage idx =>
      let pos := block.numInput phase.side
      { block with
        numInput := Function.update block.numInput phase.side (pos + 1)
        position := Function.update block.position idx pos
        inputIdx :=
          if pos < smemInputSize then
            Function.update block.inputIdx phase.side
              (Function.update (block.inputIdx phase.side) pos idx)
          else block.inputIdx }
  | .tally idx =>
      if phase.stagedOnly = true ∧ ¬ block.position idx < smemInputSize then block
      else
        { block with
          histogramBuf := Function.update block.histogramBuf 0
            (Function.update (block.histogramBuf 0) (phase.bin idx)
              (block.histogramBuf 0 (phase.bin idx) + 1)) }
  | .tie idx =>
      let pos := block.lastRemain
      { block with
        lastRemain := pos - 1
        index :=
          if 0 < pos then Function.update block.index (phase.kTopK - pos).toNat idx
          else block.index }

/-- `for (int i = tx; i < count; i += BLOCK_SIZE)`. -/
def strided (count tx : Nat) : List Nat :=
  (List.range ((count + kThreadsPerBlock - 1 - tx) / kThreadsPerBlock)).map fun turn =>
    tx + turn * kThreadsPerBlock

/-- The updates of every thread, when turn `i` of the loop makes those of the
body. -/
def threadPrograms (count : Nat) (body : Nat -> List Atomic) : List (List Atomic) :=
  (List.range kThreadsPerBlock).map fun tx => (strided count tx).flatMap body

/-- The order in which the updates of a phase take effect, of any programs. -/
abbrev Order := List (List Atomic) -> List Atomic

/-- A loop of all threads, between two barriers. -/
def Phase.run (phase : Phase) (order : Order) (count : Nat) (body : Nat -> List Atomic)
    (block : Block) : Block :=
  (order (threadPrograms count body)).foldl phase.perform block

/-- The body of a loop: an index above the threshold is selected, one at the
threshold is treated as `onEqual` says. -/
def scanBody (bin : Nat -> Nat) (threshold : Nat) (onEqual : Nat -> List Atomic) (idx : Nat) :
    List Atomic :=
  if bin idx > threshold then [.emit idx]
  else if bin idx = threshold then onEqual idx
  else []

/-! ## Prefix sums -/

/-- A pass of `run_cumsum`, from one buffer to the other. -/
def cumsumPass (buffers : Nat -> Nat -> Nat) (pass : Nat) : Nat -> Nat -> Nat :=
  let j := 2 ^ pass
  let k := pass % 2
  Function.update buffers (1 - k) fun tx =>
    if tx < radix then
      if tx < radix - j then buffers k tx + buffers k (tx + j) else buffers k tx
    else buffers (1 - k) tx

/-- `run_cumsum`. -/
def Block.runCumsum (block : Block) : Block :=
  { block with histogramBuf := (List.range 8).foldl cumsumPass block.histogramBuf }

/-- `s_histogram[tx] > topk && s_histogram[tx + 1] <= topk`. -/
def Block.passes (block : Block) (topk : Int) (tx : Nat) : Bool :=
  decide ((block.histogram tx : Int) > topk ∧ (block.histogram (tx + 1) : Int) ≤ topk)

/-- The threads that pass the test write what `store` says. -/
def Block.select (block : Block) (topk : Int) (store : Block -> Nat -> Block) : Block :=
  ((List.range radix).filter (block.passes topk)).foldl store block

/-! ## The kernel -/

/-- A row of the input. -/
structure ScoreRow where
  input : Nat -> BitVec 32
  rowStart : Nat
  length : Nat

section Kernel

variable (half : BitVec 32 -> BitVec 16) (kTopK : Nat) (row : ScoreRow) (order : Nat -> Order)

/-- The coarse bin of an index. -/
def ScoreRow.coarse (idx : Nat) : Nat := convertToUint8 half (row.input (idx + row.rowStart))

/-- A radix digit of an index. -/
def ScoreRow.digit (round idx : Nat) : Nat := radixDigit round (row.input (idx + row.rowStart))

/-- The coarse histogram of the row. -/
def coarseHistogram (block : Block) : Block :=
  Phase.run ⟨kTopK, 0, row.coarse half, false⟩ (order 0) row.length (fun idx => [.tally idx])
    block.clearHistogram

/-- The coarse threshold bin. -/
def storeCoarse (block : Block) (tx : Nat) : Block :=
  { block with
    thresholdBinId := tx
    numInput := Function.update block.numInput 0 0
    counter := 0 }

/-- The indices above a threshold are all that is wanted. -/
def emitAbove (phaseOrder : Order) (count : Nat) (indexOf : Nat -> Option Nat) (bin : Nat -> Nat)
    (threshold : Nat) (block : Block) : Block :=
  Phase.run ⟨kTopK, 0, bin, false⟩ phaseOrder count
    (fun turn => ((indexOf turn).map (scanBody bin threshold fun _ => [])).getD []) block

/-- The indices above the coarse threshold are selected, those at it staged. -/
def stageCoarse (threshold : Nat) (block : Block) : Block :=
  Phase.run ⟨kTopK, 0, row.digit 0, true⟩ (order 1) row.length
    (scanBody (row.coarse half) threshold fun idx => [.stage idx, .tally idx])
    block.clearHistogram

/-- The histogram of all indices at the coarse threshold. -/
def rescanCoarse (threshold : Nat) (block : Block) : Block :=
  Phase.run ⟨kTopK, 0, row.digit 0, false⟩ (order 2) row.length
    (fun idx => if row.coarse half idx = threshold then [.tally idx] else [])
    block.clearHistogram

/-- The threshold bin of a round. -/
def storeRound (round : Nat) (topk : Int) (block : Block) (tx : Nat) : Block :=
  { block with
    thresholdBinId := tx
    prefixBins := Function.update block.prefixBins round tx
    numInput := Function.update block.numInput (1 - round % 2) 0
    lastRemain := topk - block.histogram (tx + 1) }

/-- Whether the refined digits so far match. -/
def Block.matchesPrefix (block : Block) (round idx : Nat) : Bool :=
  (List.range round).all fun p => decide (row.digit p idx = block.prefixBins p)

/-- The index of a turn of a refining loop; none when the turn is skipped. -/
def candidateAt (overflow : Bool) (coarseThreshold round : Nat) (block : Block) (turn : Nat) :
    Option Nat :=
  if overflow = true then
    if row.coarse half turn ≠ coarseThreshold then none
    else if block.matchesPrefix row round turn = false then none
    else some turn
  else some (block.inputIdx (round % 2) turn)

/-- What a round does with an index at its threshold. -/
def onThreshold (overflow : Bool) (round idx : Nat) : List Atomic :=
  if round = 3 then [.tie idx]
  else if overflow = true then [.tally idx]
  else [.stage idx, .tally idx]

/-- The last loop of a round that is not the last. -/
def refineScan (phaseOrder : Order) (overflow : Bool) (round scanLen threshold : Nat)
    (indexOf : Nat -> Option Nat) (block : Block) : Block :=
  Phase.run ⟨kTopK, 1 - round % 2, row.digit (round + 1), !overflow⟩ phaseOrder scanLen
    (fun turn =>
      ((indexOf turn).map (scanBody (row.digit round) threshold (onThreshold overflow round))).getD
        [])
    block.clearHistogram

/-- The rounds from one on, of which so many are left. -/
def refine (overflow : Bool) (coarseThreshold : Nat) : Nat -> Int -> Block -> Block
  | 0, _, block => block
  | left + 1, topk, block =>
      let round := 3 - left
      let numInput := min (block.numInput (round % 2)) smemInputSize
      let block := block.runCumsum
      let block := block.select topk (storeRound round topk)
      let threshold := block.thresholdBinId
      let topk := topk - block.histogram (threshold + 1)
      let scanLen := if overflow = true then row.length else numInput
      let indexOf := candidateAt half row overflow coarseThreshold round block
      if topk = 0 then
        emitAbove kTopK (order (3 + round)) scanLen indexOf (row.digit round) threshold block
      else
        refine overflow coarseThreshold left topk
          (refineScan kTopK row (order (3 + round)) overflow round scanLen threshold indexOf block)

/-- `radix_select_topk`. -/
def radixSelectTopk (block : Block) : Block :=
  let block := coarseHistogram half kTopK row order block
  let block := block.runCumsum
  let block := block.select kTopK storeCoarse
  let coarseThreshold := block.thresholdBinId
  let topk : Int := kTopK - block.histogram (coarseThreshold + 1)
  if topk = 0 then
    emitAbove kTopK (order 1) row.length some (row.coarse half) coarseThreshold block
  else
    let block := stageCoarse half kTopK row order coarseThreshold block
    let overflow := decide (block.numInput 0 > smemInputSize)
    let block :=
      if overflow = true then rescanCoarse half kTopK row order coarseThreshold block else block
    refine half kTopK row order overflow coarseThreshold 4 topk block

end Kernel

end Kernels
end QSAHiSparse

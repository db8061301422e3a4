import QSAHiSparse.Foundation.GridRun

namespace QSAHiSparse
namespace Kernels

open Foundation

/-!
# The stable mix of hyper-connection streams

A persistent kernel in three stages: partial products over splits of K, their sums in
the order of the splits, and the gated mean of the streams.  The CTAs of the grid share
out the tiles of a stage and meet at a barrier after the first two.
-/

/-- The floating-point operations of the kernel.  `dot` is an element of `tl.dot`: a row
and a column of some lanes, added to an accumulator.  `sum` is `tl.sum` over an axis,
`round` converts to the dtype of the tensors, and `reciprocal` is the launcher's
`1.0 / hc`. -/
structure HcArith (F : Type) where
  dot : List F -> List F -> F -> F
  add : F -> F -> F
  mul : F -> F -> F
  sigmoid : F -> F
  sum : List F -> F
  round : F -> F
  reciprocal : Nat -> F

/-- The tile sizes of a launch. -/
structure HcTiles where
  rows : Nat
  hc : Nat
  blockN : Nat
  blockK : Nat
  blockJ : Nat
  blockR : Nat
  splits : Nat
  blockN_pos : 0 < blockN
  blockK_pos : 0 < blockK
  blockJ_pos : 0 < blockJ
  blockR_pos : 0 < blockR
  splits_pos : 0 < splits

/-- The weights of a launch, and their shape. -/
structure HcWeights (F : Type) where
  wDown : Memory F
  wUp : Memory F
  k : Nat
  lowrank : Nat
  hs : Nat
  invHc : F

/-- What a launch does not take from its rows. -/
structure HcMixer (F : Type) where
  arith : HcArith F
  tiles : HcTiles
  weights : HcWeights F

/-- The arguments of the kernel. -/
structure HcArgs (F : Type) extends HcMixer F where
  x : Memory F
  numRows : Nat
  numCtas : Nat

/-- `tl.cdiv`. -/
def cdiv (number width : Nat) : Nat := (number + width - 1) / width

/-- `range(start, stop, step)`. -/
def stepRange (start stop step : Nat) : List Nat :=
  (List.range (cdiv (stop - start) step)).map fun turn => start + turn * step

/-- The elements of a vector of lanes. -/
def lanes {F : Type} (count : Nat) (element : Nat -> F) : List F :=
  (List.range count).map element

/-- A tile of accumulators, by row and column. -/
abbrev HcTile (F : Type) := Nat -> Nat -> F

namespace HcMixer

variable {F : Type} [Zero F] (mixer : HcMixer F)

def nBlocks : Nat := cdiv mixer.weights.lowrank mixer.tiles.blockN

def kChunks : Nat := cdiv mixer.weights.k mixer.tiles.blockK

def jBlocks : Nat := cdiv mixer.weights.hs mixer.tiles.blockJ

/-- The weights of the first product, `w`. -/
def down (n k : Nat) : F :=
  maskedLoad mixer.weights.wDown (n * mixer.weights.k + k : Nat)
    (n < mixer.weights.lowrank ∧ k < mixer.weights.k) 0

/-- The weights of the second product, for the stream and column `gj`. -/
def up (gj r j : Nat) : F :=
  maskedLoad mixer.weights.wUp (gj * mixer.weights.lowrank + r : Nat)
    (j < mixer.weights.hs ∧ r < mixer.weights.lowrank) 0

/-- `t`: the rounded activation of a sum. -/
def activation (raw : F) : F :=
  let a := mixer.arith.mul raw mixer.weights.invHc
  mixer.arith.round (mixer.arith.mul a (mixer.arith.sigmoid a))

end HcMixer

namespace HcArgs

variable {F : Type} [Zero F] (args : HcArgs F)

/-- The masked stores of a tile. -/
def tileWrites (rows columns : Nat) (mask : Nat -> Nat -> Prop)
    [forall row, DecidablePred (mask row)] (address : Nat -> Nat -> Int)
    (value : HcTile F -> Nat -> Nat -> F) : List (HcTile F -> Store F) :=
  (List.range rows).flatMap fun row => ((List.range columns).filter fun column => mask row column).map
    fun column tile => ⟨address row column, value tile row column⟩

/-! ## Partial products -/

def xt (m k : Nat) : F :=
  maskedLoad args.x (m * args.weights.k + k : Nat) (m < args.numRows ∧ k < args.weights.k) 0

/-- One turn of the loop over the parts of a split. -/
def partialTurn (nb splitId part : Nat) (tile : HcTile F) : HcTile F := fun m column =>
  let kc := splitId + part * args.tiles.splits
  args.arith.dot (lanes args.tiles.blockK fun lane => args.xt m (kc * args.tiles.blockK + lane))
    (lanes args.tiles.blockK fun lane =>
      args.down (nb * args.tiles.blockN + column) (kc * args.tiles.blockK + lane))
    (tile m column)

def partialAddress (splitId m n : Nat) : Int :=
  (splitId * (args.tiles.rows * args.weights.lowrank) + m * args.weights.lowrank + n : Nat)

def partialCode (pid : Nat) : List (Instruction (HcTile F) F) :=
  (stepRange pid (args.nBlocks * args.tiles.splits) args.numCtas).flatMap fun tile =>
    let nb := tile % args.nBlocks
    let splitId := tile / args.nBlocks
    tileCode (fun _ _ => 0)
      ((List.range (cdiv args.kChunks args.tiles.splits)).map fun part =>
        fun _ => args.partialTurn nb splitId part)
      (tileWrites args.tiles.rows args.tiles.blockN
        (fun _ column => nb * args.tiles.blockN + column < args.weights.lowrank)
        (fun m column => args.partialAddress splitId m (nb * args.tiles.blockN + column))
        fun tile => tile)

/-! ## Sums of the splits -/

def reduceTurn (nb reduceSplit : Nat) (partials : Memory F) (tile : HcTile F) : HcTile F :=
  fun m column =>
    let n := nb * args.tiles.blockN + column
    args.arith.add (tile m column)
      (maskedLoad partials (args.partialAddress reduceSplit m n) (n < args.weights.lowrank) 0)

def rawAddress (m n : Nat) : Int := (m * args.weights.lowrank + n : Nat)

def reduceCode (pid : Nat) : List (Instruction (HcTile F) F) :=
  (stepRange pid args.nBlocks args.numCtas).flatMap fun nb =>
    tileCode (fun _ _ => 0)
      ((List.range args.tiles.splits).map fun reduceSplit => args.reduceTurn nb reduceSplit)
      (tileWrites args.tiles.rows args.tiles.blockN
        (fun _ column => nb * args.tiles.blockN + column < args.weights.lowrank)
        (fun m column => args.rawAddress m (nb * args.tiles.blockN + column))
        fun tile => tile)

/-! ## The gated mean -/

/-- One turn of the loop over the low-rank dimension.  A column of the accumulator is a
stream and a column of the block. -/
def mixTurn (jb turn : Nat) (raw : Memory F) (tile : HcTile F) : HcTile F := fun m flat =>
  let g := flat / args.tiles.blockJ
  let j := jb * args.tiles.blockJ + flat % args.tiles.blockJ
  let r0 := turn * args.tiles.blockR
  args.arith.dot
    (lanes args.tiles.blockR fun lane => args.activation
      (maskedLoad raw (args.rawAddress m (r0 + lane)) (r0 + lane < args.weights.lowrank) 0))
    (lanes args.tiles.blockR fun lane => args.up (g * args.weights.hs + j) (r0 + lane) j)
    (tile m flat)

def xg (m g j : Nat) : F :=
  maskedLoad args.x (m * (args.tiles.hc * args.weights.hs) + g * args.weights.hs + j : Nat)
    (m < args.numRows ∧ j < args.weights.hs) 0

/-- `out`, of the accumulators of a tile. -/
def mixed (jb : Nat) (tile : HcTile F) (m column : Nat) : F :=
  args.arith.round (args.arith.mul
    (args.arith.sum (lanes args.tiles.hc fun g =>
      args.arith.mul (args.arith.sigmoid (tile m (g * args.tiles.blockJ + column)))
        (args.xg m g (jb * args.tiles.blockJ + column))))
    args.weights.invHc)

def outAddress (m j : Nat) : Int := (m * args.weights.hs + j : Nat)

def mixCode (pid : Nat) : List (Instruction (HcTile F) F) :=
  (stepRange pid args.jBlocks args.numCtas).flatMap fun jb =>
    tileCode (fun _ _ => 0)
      ((List.range (cdiv args.weights.lowrank args.tiles.blockR)).map fun turn =>
        args.mixTurn jb turn)
      (tileWrites args.tiles.rows args.tiles.blockJ
        (fun m column => m < args.numRows ∧ jb * args.tiles.blockJ + column < args.weights.hs)
        (fun m column => args.outAddress m (jb * args.tiles.blockJ + column))
        (args.mixed jb))

/-- `_hc_mix_stable_persistent_kernel`, as a grid.  Buffer 1 holds the partial products,
buffer 2 their sums and buffer 3 the output.  `_grid_barrier` is given by what an
arrival makes of its counter and by the counters that let a CTA pass. -/
def grid (arrive : Int -> Int) (passes : Int -> Prop) : Grid (HcTile F) F where
  threads := args.numCtas
  lastStage := 2
  code := fun stage pid =>
    match stage with
    | 0 => args.partialCode pid
    | 1 => args.reduceCode pid
    | _ => args.mixCode pid
  register := fun _ _ => 0
  arrive := arrive
  passes := passes

end HcArgs

/-! ## The launcher -/

/-- The tiles of `fused_hc_mix`. -/
def stableTiles (hc : Nat) (stableSplits : Nat) (positive : 0 < stableSplits) : HcTiles where
  rows := 16
  hc := hc
  blockN := 32
  blockK := 256
  blockJ := 32
  blockR := 64
  splits := stableSplits
  blockN_pos := Nat.succ_pos _
  blockK_pos := Nat.succ_pos _
  blockJ_pos := Nat.succ_pos _
  blockR_pos := Nat.succ_pos _
  splits_pos := positive

/-- The arguments that `fused_hc_mix` launches the stable kernel with, for `rows` rows;
without rows it launches none. -/
def fusedHcMix {F : Type} (arith : HcArith F) (multiProcessorCount : Nat) (x : Memory F)
    (rows k : Nat) (wDown wUp : Memory F) (lowrank hc hs stableSplits : Nat)
    (positive : 0 < stableSplits) : Option (HcArgs F) :=
  if rows = 0 then none
  else some {
    arith := arith
    tiles := stableTiles hc stableSplits positive
    weights := ⟨wDown, wUp, k, lowrank, hs, arith.reciprocal hc⟩
    x := x
    numRows := rows
    numCtas := multiProcessorCount }

end Kernels
end QSAHiSparse

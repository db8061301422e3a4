import QSAHiSparse.Foundation.Shares

namespace QSAHiSparse
namespace Kernels

open Foundation

/-!
# Marlin stripes

Each CTA of the Marlin kernel processes one stripe of the `k_tiles` by
`n_tiles * parallel` tiles, column slice after column slice.  Integers do not
overflow.  Division truncates as in C, and a zero divisor is an error here.
-/

/-- Why a run of the schedule has no result. -/
inductive Fault where
  | divisionByZero
  | unfinished
deriving DecidableEq, Repr

def quotient (dividend divisor : Int) : Except Fault Int :=
  if divisor = 0 then .error .divisionByZero else .ok (dividend.tdiv divisor)

def remainder (dividend divisor : Int) : Except Fault Int :=
  if divisor = 0 then .error .divisionByZero else .ok (dividend.tmod divisor)

def divCeil (dividend divisor : Int) : Except Fault Int :=
  quotient (dividend + divisor - 1) divisor

def wholeKStripeIters (kTiles nTiles parallel blocks : Int) : Except Fault Int := do
  let share <- quotient (nTiles * parallel + blocks - 1) blocks
  return kTiles * share

/-- What a launch of the kernel is given.  A quantisation group is `-1` for one
scale per channel, `0` for an activation order, else the group's 16-row blocks.
It is at most one K tile or whole K tiles that divide K. -/
structure Launch where
  kTiles : Nat
  nTiles : Nat
  parallel : Nat
  gridDim : Nat
  threadKBlocks : Nat
  groupBlocks : Int
  kTiles_pos : 0 < kTiles
  nTiles_pos : 0 < nTiles
  gridDim_pos : 0 < gridDim
  threadKBlocks_pos : 0 < threadKBlocks
  group_fits : groupBlocks ≤ threadKBlocks ∨
    ((threadKBlocks : Int) ∣ groupBlocks ∧ groupBlocks ∣ kTiles * threadKBlocks)

/-- The position of a CTA in its stripe. -/
structure Cursor where
  sliceRow : Int
  sliceColPar : Int
  sliceCol : Int
  parId : Int
  sliceIters : Int
  sliceCount : Int
  sliceIdx : Int
deriving DecidableEq, Repr

/-- The output slice under the cursor: its problem and its column. -/
def Cursor.slice (cursor : Cursor) : Int × Int :=
  (cursor.parId, cursor.sliceCol)

/-- The K tiles a CTA multiplies for the slice under the cursor. -/
def Cursor.rows (cursor : Cursor) : List Int :=
  (List.range cursor.sliceIters.toNat).map fun (tile : Nat) => cursor.sliceRow + tile

namespace Launch

variable (launch : Launch)

/-- The iterations per CTA: the deterministic or the plain split, then rounded
up to whole groups when a group is at least one tile. -/
def iters (kDeterministicReduce : Bool) : Except Fault Int := do
  let iters <-
    if kDeterministicReduce then
      wholeKStripeIters launch.kTiles launch.nTiles launch.parallel launch.gridDim
    else divCeil (launch.kTiles * launch.nTiles * launch.parallel) launch.gridDim
  if launch.groupBlocks ≠ 0 ∧ launch.groupBlocks ≠ -1 ∧
      launch.groupBlocks ≥ launch.threadKBlocks then
    let group <- quotient launch.groupBlocks launch.threadKBlocks
    let groups <- divCeil iters group
    return group * groups
  else return iters

/-- The cursor before the first `init_slice`. -/
def start (iters blockIdx : Int) : Except Fault Cursor := do
  let sliceRow <- remainder (iters * blockIdx) launch.kTiles
  let sliceColPar <- quotient (iters * blockIdx) launch.kTiles
  let cursor : Cursor := ⟨sliceRow, sliceColPar, sliceColPar, 0, 0, 0, 0⟩
  if sliceColPar ≥ launch.nTiles then
    let sliceCol <- remainder sliceColPar launch.nTiles
    let parId <- quotient sliceColPar launch.nTiles
    return { cursor with sliceCol, parId }
  else return cursor

/-- How many CTAs share a slice and this one's rank among them, bottom to top:
the first stripe boundary at or after the slice's start lies `colOff` tiles into
it, and `deltaFirst` iterations before this CTA's own start. -/
def ranked (iters colOff deltaFirst : Int) : Except Fault (Int × Int) := do
  let fitting <- divCeil (launch.kTiles - colOff) iters
  let sliceCount := if colOff > 0 then fitting + 1 else fitting
  if deltaFirst < 0 ∨ (colOff = 0 ∧ deltaFirst = 0) then return (sliceCount, sliceCount - 1)
  else
    let before <- quotient deltaFirst iters
    let sliceIdx := sliceCount - 1 - before
    return (sliceCount, if colOff > 0 then sliceIdx - 1 else sliceIdx)

/-- The `slice_count` and `slice_idx` of a slice with work left. -/
def sharing (iters blockIdx sliceColPar : Int) : Except Fault (Int × Int) := do
  let firsts <- divCeil (launch.kTiles * sliceColPar) iters
  let colFirst := iters * firsts
  if colFirst ≤ launch.kTiles * (sliceColPar + 1) then
    launch.ranked iters (colFirst - launch.kTiles * sliceColPar) (iters * blockIdx - colFirst)
  else return (1, 0)

def initSlice (iters blockIdx : Int) (cursor : Cursor) : Except Fault Cursor := do
  let left := iters * (blockIdx + 1) - (launch.kTiles * cursor.sliceColPar + cursor.sliceRow)
  let sliceIters :=
    if left < 0 ∨ cursor.sliceColPar ≥ launch.nTiles * launch.parallel then 0 else left
  if sliceIters = 0 then return { cursor with sliceIters }
  let sliceIters :=
    if cursor.sliceRow + sliceIters > launch.kTiles then launch.kTiles - cursor.sliceRow
    else sliceIters
  let sharing <- launch.sharing iters blockIdx cursor.sliceColPar
  let cursor : Cursor :=
    { cursor with sliceIters, sliceCount := sharing.1, sliceIdx := sharing.2 }
  if cursor.sliceCol = launch.nTiles then
    return { cursor with sliceCol := 0, parId := cursor.parId + 1 }
  else return cursor

/-- The main loop: the slices a CTA goes through from an initialised cursor.
All of a slice's `slice_iters` tiles are multiplied before the next slice. -/
def mainLoop (iters blockIdx : Int) : Nat -> Cursor -> Except Fault (List Cursor)
  | 0, cursor => if cursor.sliceIters = 0 then .ok [] else .error .unfinished
  | fuel + 1, cursor =>
      if cursor.sliceIters = 0 then .ok []
      else do
        let next <- launch.initSlice iters blockIdx
          { cursor with
            sliceRow := 0
            sliceColPar := cursor.sliceColPar + 1
            sliceCol := cursor.sliceCol + 1
            sliceIters := 0 }
        let later <- mainLoop iters blockIdx fuel next
        return cursor :: later

/-- The slices one CTA goes through. -/
def stripe (iters : Int) (fuel : Nat) (blockIdx : Int) : Except Fault (List Cursor) := do
  let cursor <- launch.start iters blockIdx
  let first <- launch.initSlice iters blockIdx cursor
  launch.mainLoop iters blockIdx fuel first

/-- The slices of every CTA of the grid. -/
def grid (iters : Int) (fuel : Nat) : Except Fault (List (List Cursor)) :=
  (List.range launch.gridDim).mapM fun (blockIdx : Nat) => launch.stripe iters fuel blockIdx

end Launch

end Kernels
end QSAHiSparse

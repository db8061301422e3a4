import Mathlib.Algebra.Field.Rat
import Mathlib.Algebra.Order.Ring.Unbundled.Rat
import Mathlib.Tactic.IntervalCases
import QSAHiSparse.Foundation.GridBuffers
import QSAHiSparse.Kernels.HcMix

namespace QSAHiSparse
namespace Kernels

open Foundation

/-!
# The stable mix is a function of the row

Nothing is assumed of the arithmetic, so sums are taken in one order.  The order does
not depend on the number of CTAs, on how they take turns or on the other rows.
-/

theorem lt_cdiv_of_lt {number width place : Nat} (positive : 0 < width) (inside : place < number) :
    place / width < cdiv number width := by
  unfold cdiv
  rw [Nat.div_lt_iff_lt_mul positive]
  have covered := Nat.lt_div_mul_add (a := number + width - 1) positive
  omega

/-- The elements of a range with a step. -/
theorem mem_stepRange {start stop step place : Nat} (positive : 0 < step) :
    place ∈ stepRange start stop step <-> place < stop ∧ exists turn, place = start + turn * step := by
  unfold stepRange
  simp only [List.mem_map, List.mem_range]
  constructor
  · rintro ⟨turn, inside, rfl⟩
    refine ⟨?_, turn, rfl⟩
    have whole := (Nat.div_mul_le_self (stop - start + step - 1) step)
    unfold cdiv at inside
    have next := Nat.mul_le_mul_right step (Nat.succ_le_of_lt inside)
    rw [Nat.succ_mul] at next
    omega
  · rintro ⟨inside, turn, rfl⟩
    refine ⟨turn, ?_, rfl⟩
    have covered := lt_cdiv_of_lt positive (show turn * step < stop - start by omega)
    rwa [Nat.mul_div_cancel _ positive] at covered

/-- The CTAs share out the tiles. -/
theorem exists_stepRange {stop step place : Nat} (positive : 0 < step) :
    (exists pid, pid < step ∧ place ∈ stepRange pid stop step) <-> place < stop := by
  constructor
  · rintro ⟨pid, _, member⟩
    exact ((mem_stepRange positive).mp member).1
  · intro inside
    refine ⟨place % step, Nat.mod_lt place positive, (mem_stepRange positive).mpr ⟨inside, ?_⟩⟩
    exact ⟨place / step, (Nat.mod_add_div' place step).symm⟩

variable {F : Type}

theorem HcArgs.mem_tileWrites {rows columns : Nat} {mask : Nat -> Nat -> Prop}
    [forall row, DecidablePred (mask row)] {address : Nat -> Nat -> Int}
    {value : HcTile F -> Nat -> Nat -> F} {tile : HcTile F} {store : Store F} :
    store ∈ (HcArgs.tileWrites rows columns mask address value).map (fun write => write tile) <->
      exists row column, row < rows ∧ column < columns ∧ mask row column ∧
        store = ⟨address row column, value tile row column⟩ := by
  unfold HcArgs.tileWrites
  simp only [List.mem_map, List.mem_flatMap, List.mem_filter, List.mem_range, decide_eq_true_eq]
  constructor
  · rintro ⟨_, ⟨row, in_rows, column, ⟨in_columns, chosen⟩, rfl⟩, rfl⟩
    exact ⟨row, column, in_rows, in_columns, chosen, rfl⟩
  · rintro ⟨row, column, in_rows, in_columns, chosen, rfl⟩
    exact ⟨_, ⟨row, in_rows, column, ⟨in_columns, chosen⟩, rfl⟩, rfl⟩

/-- A fold that works on every element of a tile by itself. -/
theorem foldl_tile {ι : Type} (turn : ι -> Nat -> Nat -> F -> F) (parts : List ι) (zero : HcTile F)
    (row column : Nat) :
    (parts.foldl (fun tile part => fun row column => turn part row column (tile row column)) zero)
        row column =
      parts.foldl (fun value part => turn part row column value) (zero row column) :=
  (List.foldl_hom (fun tile : HcTile F => tile row column) fun _ _ => rfl).symm

namespace HcArgs

variable [Zero F] {args : HcArgs F} {arrive : Int -> Int} {passes : Int -> Prop}

/-! ## The stores of a stage -/

/-- The stores of a stage are those of its tiles. -/
theorem mem_stores (some : 0 < args.numCtas) {stage total : Nat}
    {reads : Nat -> List (Memory F -> HcTile F -> HcTile F)}
    {writes : Nat -> List (HcTile F -> Store F)}
    (code : forall pid, (args.grid arrive passes).code stage pid =
      (stepRange pid total args.numCtas).flatMap fun tile =>
        tileCode (fun _ _ => 0) (reads tile) (writes tile))
    (buffer : Memory F) {store : Store F} :
    store ∈ (args.grid arrive passes).stores buffer stage <->
      exists tile, tile < total ∧ store ∈ (writes tile).map fun write =>
        write ((reads tile).foldl (fun register read => read buffer register) fun _ _ => 0) := by
  unfold Grid.stores
  simp only [code, storesOf_tiles, List.mem_flatMap, List.mem_range]
  constructor
  · rintro ⟨pid, launched, tile, shared, stored⟩
    exact ⟨tile, (exists_stepRange some).mp ⟨pid, launched, shared⟩, stored⟩
  · rintro ⟨tile, inside, stored⟩
    rcases (exists_stepRange some).mpr inside with ⟨pid, launched, shared⟩
    exact ⟨pid, launched, tile, shared, stored⟩

variable (arrive : Int -> Int) (passes : Int -> Prop)

/-- A partial product. -/
def partialAt (args : HcArgs F) (splitId m n : Nat) : F :=
  (List.range (cdiv args.kChunks args.tiles.splits)).foldl (fun value part =>
    let kc := splitId + part * args.tiles.splits
    args.arith.dot
      (lanes args.tiles.blockK fun lane => args.xt m (kc * args.tiles.blockK + lane))
      (lanes args.tiles.blockK fun lane => args.down n (kc * args.tiles.blockK + lane)) value) 0

/-- The sum of the splits, over the partial products of a buffer. -/
def reducedAt (args : HcArgs F) (partials : Memory F) (m n : Nat) : F :=
  (List.range args.tiles.splits).foldl (fun value reduceSplit =>
    args.arith.add value (partials (args.partialAddress reduceSplit m n))) 0

/-- A gate before its sigmoid, over the sums of a buffer. -/
def accumulatedAt (args : HcArgs F) (raw : Memory F) (m g j : Nat) : F :=
  (List.range (cdiv args.weights.lowrank args.tiles.blockR)).foldl (fun value turn =>
    let r0 := turn * args.tiles.blockR
    args.arith.dot
      (lanes args.tiles.blockR fun lane => args.activation
        (maskedLoad raw (args.rawAddress m (r0 + lane)) (r0 + lane < args.weights.lowrank) 0))
      (lanes args.tiles.blockR fun lane => args.up (g * args.weights.hs + j) (r0 + lane) j)
      value) 0

/-- An element of the output, over the sums of a buffer. -/
def mixedAt (args : HcArgs F) (raw : Memory F) (m j : Nat) : F :=
  args.arith.round (args.arith.mul
    (args.arith.sum (lanes args.tiles.hc fun g =>
      args.arith.mul (args.arith.sigmoid (args.accumulatedAt raw m g j)) (args.xg m g j)))
    args.weights.invHc)

/-- The block of a column, and its place in the block. -/
theorem block_column {width bound place : Nat} (positive : 0 < width) (inside : place < bound) :
    exists block column, block < cdiv bound width ∧ column < width ∧ block * width + column = place :=
  ⟨place / width, place % width, lt_cdiv_of_lt positive inside, Nat.mod_lt place positive,
    Nat.div_add_mod' place width⟩

theorem mem_partialStores (some : 0 < args.numCtas) (buffer : Memory F) {store : Store F} :
    store ∈ (args.grid arrive passes).stores buffer 0 <-> exists splitId m n,
      splitId < args.tiles.splits ∧ m < args.tiles.rows ∧ n < args.weights.lowrank ∧
        store = ⟨args.partialAddress splitId m n, args.partialAt splitId m n⟩ := by
  have folded (nb splitId m column : Nat) :
      (((List.range (cdiv args.kChunks args.tiles.splits)).map fun part =>
          fun _ => args.partialTurn nb splitId part).foldl
        (fun register (read : Memory F -> HcTile F -> HcTile F) => read buffer register)
        fun _ _ => 0) m column =
      args.partialAt splitId m (nb * args.tiles.blockN + column) := by
    rw [List.foldl_map]
    exact foldl_tile _ _ _ m column
  rw [mem_stores some fun pid => rfl]
  simp only [mem_tileWrites, folded]
  constructor
  · rintro ⟨tile, inside, m, column, in_rows, _, in_rank, same⟩
    refine ⟨_, m, _, ?_, in_rows, in_rank, same⟩
    rw [Nat.mul_comm] at inside
    exact Nat.div_lt_of_lt_mul (by rwa [Nat.mul_comm] at inside)
  · rintro ⟨splitId, m, n, in_splits, in_rows, in_rank, same⟩
    rcases block_column args.tiles.blockN_pos in_rank with ⟨nb, column, in_blocks, in_block, rfl⟩
    change nb < args.nBlocks at in_blocks
    have rest := column_of_place splitId in_blocks
    have place := row_of_place splitId in_blocks
    refine ⟨splitId * args.nBlocks + nb, ?_, m, column, in_rows, in_block, ?_, ?_⟩
    · rw [Nat.mul_comm args.nBlocks]
      exact (Nat.div_lt_iff_lt_mul (Nat.zero_lt_of_lt in_blocks)).mp (place.trans_lt in_splits)
    · rw [rest]
      exact in_rank
    · rw [rest, place]
      exact same

theorem mem_reducedStores (some : 0 < args.numCtas) (buffer : Memory F) {store : Store F} :
    store ∈ (args.grid arrive passes).stores buffer 1 <-> exists m n,
      m < args.tiles.rows ∧ n < args.weights.lowrank ∧
        store = ⟨args.rawAddress m n, args.reducedAt buffer m n⟩ := by
  have folded (nb m column : Nat) (in_rank : nb * args.tiles.blockN + column < args.weights.lowrank) :
      (((List.range args.tiles.splits).map fun reduceSplit => args.reduceTurn nb reduceSplit).foldl
        (fun register (read : Memory F -> HcTile F -> HcTile F) => read buffer register)
        fun _ _ => 0) m column =
      args.reducedAt buffer m (nb * args.tiles.blockN + column) := by
    rw [List.foldl_map]
    refine (foldl_tile (fun reduceSplit m column value =>
      let n := nb * args.tiles.blockN + column
      args.arith.add value (maskedLoad buffer (args.partialAddress reduceSplit m n)
        (n < args.weights.lowrank) 0)) _ _ m column).trans ?_
    unfold reducedAt maskedLoad
    simp only [if_pos in_rank]
  rw [mem_stores some fun pid => rfl]
  simp only [mem_tileWrites]
  constructor
  · rintro ⟨nb, _, m, column, in_rows, _, in_rank, same⟩
    exact ⟨m, _, in_rows, in_rank, same.trans (congrArg _ (folded nb m column in_rank))⟩
  · rintro ⟨m, n, in_rows, in_rank, same⟩
    rcases block_column args.tiles.blockN_pos in_rank with ⟨nb, column, in_blocks, in_block, rfl⟩
    exact ⟨nb, in_blocks, m, column, in_rows, in_block, in_rank,
      same.trans (congrArg _ (folded nb m column in_rank).symm)⟩

theorem mem_mixedStores (some : 0 < args.numCtas) (buffer : Memory F) {store : Store F} :
    store ∈ (args.grid arrive passes).stores buffer 2 <-> exists m j,
      m < args.tiles.rows ∧ m < args.numRows ∧ j < args.weights.hs ∧
        store = ⟨args.outAddress m j, args.mixedAt buffer m j⟩ := by
  have folded (jb m column g : Nat) (in_block : column < args.tiles.blockJ) :
      (((List.range (cdiv args.weights.lowrank args.tiles.blockR)).map fun turn =>
          args.mixTurn jb turn).foldl
        (fun register (read : Memory F -> HcTile F -> HcTile F) => read buffer register)
        fun _ _ => 0) m (g * args.tiles.blockJ + column) =
      args.accumulatedAt buffer m g (jb * args.tiles.blockJ + column) := by
    have stream := row_of_place g in_block
    have rest := column_of_place g in_block
    rw [List.foldl_map]
    refine (foldl_tile _ _ _ m _).trans ?_
    unfold accumulatedAt
    dsimp only
    rw [stream, rest]
  have value (jb m column : Nat) (in_block : column < args.tiles.blockJ) :
      args.mixed jb (((List.range (cdiv args.weights.lowrank args.tiles.blockR)).map fun turn =>
          args.mixTurn jb turn).foldl
        (fun register (read : Memory F -> HcTile F -> HcTile F) => read buffer register)
        fun _ _ => 0) m column =
      args.mixedAt buffer m (jb * args.tiles.blockJ + column) := by
    unfold mixed mixedAt
    simp only [folded jb m column _ in_block]
  rw [mem_stores some fun pid => rfl]
  simp only [mem_tileWrites]
  constructor
  · rintro ⟨jb, _, m, column, in_rows, in_block, ⟨real, in_row⟩, same⟩
    exact ⟨m, _, in_rows, real, in_row, same.trans (congrArg _ (value jb m column in_block))⟩
  · rintro ⟨m, j, in_rows, real, in_row, same⟩
    rcases block_column args.tiles.blockJ_pos in_row with ⟨jb, column, in_blocks, in_block, rfl⟩
    exact ⟨jb, in_blocks, m, column, in_rows, in_block, ⟨real, in_row⟩,
      same.trans (congrArg _ (value jb m column in_block).symm)⟩

/-! ## The buffers -/

theorem address_unique {width m n otherM otherN : Nat} (inside : n < width)
    (other_inside : otherN < width)
    (same : ((m * width + n : Nat) : Int) = (otherM * width + otherN : Nat)) :
    m = otherM ∧ n = otherN :=
  row_column_unique inside other_inside (by exact_mod_cast same)

omit [Zero F] in
theorem partialAddress_unique {splitId m n otherSplit otherM otherN : Nat}
    (in_rows : m < args.tiles.rows) (other_rows : otherM < args.tiles.rows)
    (in_rank : n < args.weights.lowrank) (other_rank : otherN < args.weights.lowrank)
    (same : args.partialAddress splitId m n = args.partialAddress otherSplit otherM otherN) :
    splitId = otherSplit ∧ m = otherM ∧ n = otherN := by
  unfold partialAddress at same
  rw [← Nat.mul_assoc, ← Nat.mul_assoc, ← Nat.add_mul, ← Nat.add_mul] at same
  have columns := address_unique in_rank other_rank same
  have rows := row_column_unique in_rows other_rows (by exact_mod_cast columns.1)
  exact ⟨rows.1, rows.2, columns.2⟩

theorem agree (some : 0 < args.numCtas) (buffer : Memory F) (stage : Nat) (within : stage ≤ 2) :
    Agree ((args.grid arrive passes).stores buffer stage) := by
  intro store stored other other_stored same
  have cases : stage = 0 ∨ stage = 1 ∨ stage = 2 := by omega
  rcases cases with rfl | rfl | rfl
  · rcases (mem_partialStores arrive passes some buffer).mp stored with ⟨splitId, m, n, _, rows, rank, rfl⟩
    rcases (mem_partialStores arrive passes some buffer).mp other_stored with
      ⟨otherSplit, otherM, otherN, _, other_rows, other_rank, rfl⟩
    have unique := partialAddress_unique other_rows rows other_rank rank same
    dsimp only
    rw [unique.1, unique.2.1, unique.2.2]
  · rcases (mem_reducedStores arrive passes some buffer).mp stored with ⟨m, n, _, rank, rfl⟩
    rcases (mem_reducedStores arrive passes some buffer).mp other_stored with ⟨otherM, otherN, _, other_rank, rfl⟩
    have unique := address_unique other_rank rank same
    dsimp only
    rw [unique.1, unique.2]
  · rcases (mem_mixedStores arrive passes some buffer).mp stored with ⟨m, j, _, _, in_row, rfl⟩
    rcases (mem_mixedStores arrive passes some buffer).mp other_stored with ⟨otherM, otherJ, _, _, other_row, rfl⟩
    have unique := address_unique other_row in_row same
    dsimp only
    rw [unique.1, unique.2]

variable (buffers : Nat -> Memory F)

theorem staged_products (some : 0 < args.numCtas) {splitId m n : Nat}
    (in_splits : splitId < args.tiles.splits) (in_rows : m < args.tiles.rows)
    (in_rank : n < args.weights.lowrank) :
    (args.grid arrive passes).staged buffers 1 (args.partialAddress splitId m n) =
      args.partialAt splitId m n := by
  have stored := (mem_partialStores arrive passes some
    ((args.grid arrive passes).staged buffers 0)).mpr
    ⟨splitId, m, n, in_splits, in_rows, in_rank, rfl⟩
  exact storeAll_determined _ stored (agree arrive passes some _ 0 (by decide) _ stored)

theorem staged_reduced (some : 0 < args.numCtas) {m n : Nat} (in_rows : m < args.tiles.rows)
    (in_rank : n < args.weights.lowrank) :
    (args.grid arrive passes).staged buffers 2 (args.rawAddress m n) =
      args.reducedAt ((args.grid arrive passes).staged buffers 1) m n := by
  have stored := (mem_reducedStores arrive passes some
    ((args.grid arrive passes).staged buffers 1)).mpr ⟨m, n, in_rows, in_rank, rfl⟩
  exact storeAll_determined _ stored (agree arrive passes some _ 1 (by decide) _ stored)

theorem staged_mixed (some : 0 < args.numCtas) {m j : Nat} (in_rows : m < args.tiles.rows)
    (real : m < args.numRows) (in_row : j < args.weights.hs) :
    (args.grid arrive passes).staged buffers 3 (args.outAddress m j) =
      args.mixedAt ((args.grid arrive passes).staged buffers 2) m j := by
  have stored := (mem_mixedStores arrive passes some
    ((args.grid arrive passes).staged buffers 2)).mpr ⟨m, j, in_rows, real, in_row, rfl⟩
  exact storeAll_determined _ stored (agree arrive passes some _ 2 (by decide) _ stored)

end HcArgs

/-! ## A row -/

namespace HcMixer

variable [Zero F] (mixer : HcMixer F) (row : Nat -> F)

/-- The chunks of K of a split, in their order. -/
def rowPartial (splitId n : Nat) : F :=
  (List.range (cdiv mixer.kChunks mixer.tiles.splits)).foldl (fun value part =>
    let start := (splitId + part * mixer.tiles.splits) * mixer.tiles.blockK
    mixer.arith.dot
      (lanes mixer.tiles.blockK fun lane =>
        if start + lane < mixer.weights.k then row (start + lane) else 0)
      (lanes mixer.tiles.blockK fun lane => mixer.down n (start + lane)) value) 0

/-- The splits, in their order. -/
def rowReduced (n : Nat) : F :=
  (List.range mixer.tiles.splits).foldl (fun value splitId =>
    mixer.arith.add value (mixer.rowPartial row splitId n)) 0

def rowGate (g j : Nat) : F :=
  mixer.arith.sigmoid ((List.range (cdiv mixer.weights.lowrank mixer.tiles.blockR)).foldl
    (fun value turn =>
      let r0 := turn * mixer.tiles.blockR
      mixer.arith.dot
        (lanes mixer.tiles.blockR fun lane => mixer.activation
          (if r0 + lane < mixer.weights.lowrank then mixer.rowReduced row (r0 + lane) else 0))
        (lanes mixer.tiles.blockR fun lane => mixer.up (g * mixer.weights.hs + j) (r0 + lane) j)
        value) 0)

/-- What the mix makes of a row. -/
def rowMixed (j : Nat) : F :=
  mixer.arith.round (mixer.arith.mul
    (mixer.arith.sum (lanes mixer.tiles.hc fun g =>
      mixer.arith.mul (mixer.rowGate row g j) (row (g * mixer.weights.hs + j))))
    mixer.weights.invHc)

end HcMixer

namespace HcArgs

variable [Zero F] {args : HcArgs F}

/-- A row of the input. -/
def row (args : HcArgs F) (m k : Nat) : F := args.x (m * args.weights.k + k : Nat)

theorem partialAt_row {m : Nat} (real : m < args.numRows) (splitId n : Nat) :
    args.partialAt splitId m n = args.rowPartial (args.row m) splitId n := by
  have loaded (k : Nat) : args.xt m k = if k < args.weights.k then args.row m k else 0 := by
    unfold xt maskedLoad row
    by_cases inside : k < args.weights.k
    · rw [if_pos ⟨real, inside⟩, if_pos inside]
    · rw [if_neg fun both => inside both.2, if_neg inside]
  unfold partialAt HcMixer.rowPartial
  simp only [loaded]

theorem foldl_range_congr {β : Type} {count : Nat} {first second : β -> Nat -> β} (start : β)
    (same : forall value place, place < count -> first value place = second value place) :
    (List.range count).foldl first start = (List.range count).foldl second start :=
  List.foldl_ext _ _ _ fun value place member => same value place (List.mem_range.mp member)

/-- The output of the stages is what the mix makes of the rows. -/
theorem staged_row (some : 0 < args.numCtas) (arrive : Int -> Int) (passes : Int -> Prop)
    (buffers : Nat -> Memory F) (width : args.weights.k = args.tiles.hc * args.weights.hs)
    {m j : Nat} (in_rows : m < args.tiles.rows) (real : m < args.numRows)
    (in_row : j < args.weights.hs) :
    (args.grid arrive passes).staged buffers 3 (args.outAddress m j) =
      args.rowMixed (args.row m) j := by
  have reduced (n : Nat) (in_rank : n < args.weights.lowrank) :
      (args.grid arrive passes).staged buffers 2 (args.rawAddress m n) =
        args.rowReduced (args.row m) n := by
    rw [staged_reduced arrive passes buffers some in_rows in_rank]
    refine foldl_range_congr 0 fun value splitId in_splits => ?_
    rw [staged_products arrive passes buffers some in_splits in_rows in_rank, partialAt_row real]
  have activated (r : Nat) :
      maskedLoad ((args.grid arrive passes).staged buffers 2) (args.rawAddress m r)
        (r < args.weights.lowrank) 0 =
      if r < args.weights.lowrank then args.rowReduced (args.row m) r else 0 := by
    unfold maskedLoad
    by_cases in_rank : r < args.weights.lowrank
    · rw [if_pos in_rank, if_pos in_rank, reduced r in_rank]
    · rw [if_neg in_rank, if_neg in_rank]
  have streamed (g : Nat) : args.xg m g j = args.row m (g * args.weights.hs + j) := by
    unfold xg maskedLoad row
    rw [if_pos ⟨real, in_row⟩, width, Nat.add_assoc]
  rw [staged_mixed arrive passes buffers some in_rows real in_row]
  unfold mixedAt HcMixer.rowMixed HcMixer.rowGate accumulatedAt
  simp only [activated, streamed]

/-- A complete run leaves in its output rows what the mix makes of the input rows, and
clear counters. -/
theorem complete_rows {arrive : Int -> Int} {passes : Int -> Prop} {buffers : Nat -> Memory F}
    {counters : Nat -> Int} {labels : List Nat} {state : GridState (HcTile F) F}
    (barrier : (args.grid arrive passes).BarrierHolds) (some : 0 < args.numCtas)
    (fits : args.numRows ≤ args.tiles.rows)
    (width : args.weights.k = args.tiles.hc * args.weights.hs)
    (clear : forall counter, counter ≤ 2 -> counters counter = 0)
    (run : ((args.grid arrive passes).system buffers counters).Run
      ((args.grid arrive passes).start buffers counters) labels state)
    (complete : (args.grid arrive passes).Complete state) :
    (forall m j, m < args.numRows -> j < args.weights.hs ->
      state.buffers 3 (args.outAddress m j) = args.rowMixed (args.row m) j) ∧
    (forall address, (forall m j, m < args.numRows -> j < args.weights.hs ->
      args.outAddress m j ≠ address) -> state.buffers 3 address = buffers 3 address) ∧
    forall counter, counter ≤ 2 -> state.counters counter = 0 := by
  have agree (stage : Nat) (within : stage ≤ 2) := HcArgs.agree arrive passes some
    ((args.grid arrive passes).staged buffers stage) stage within
  have left := Grid.complete_run barrier some clear agree run complete
  have output := left.1 2 le_rfl
  refine ⟨fun m j real in_row => ?_, fun address apart => ?_, left.2⟩
  · rw [output]
    exact staged_row some arrive passes buffers width (real.trans_le fits) real in_row
  · rw [output]
    refine storeAll_untouched _ fun store stored same => ?_
    rcases (mem_mixedStores arrive passes some _).mp stored with ⟨m, j, _, real, in_row, rfl⟩
    exact apart m j real in_row same

/-- The stable mix ends, never waits for good, and when all CTAs have returned its
output rows are what the mix makes of the input rows: for any number of CTAs, any turns
they take and any arithmetic.  The counters are clear for the next launch. -/
theorem hc_mix_stable {arrive : Int -> Int} {passes : Int -> Prop} {buffers : Nat -> Memory F}
    {counters : Nat -> Int} {labels : List Nat} {state : GridState (HcTile F) F}
    (barrier : (args.grid arrive passes).BarrierHolds) (some : 0 < args.numCtas)
    (fits : args.numRows ≤ args.tiles.rows)
    (width : args.weights.k = args.tiles.hc * args.weights.hs)
    (clear : forall counter, counter ≤ 2 -> counters counter = 0)
    (run : ((args.grid arrive passes).system buffers counters).Run
      ((args.grid arrive passes).start buffers counters) labels state) :
    labels.length ≤ (args.grid arrive passes).work
        ((args.grid arrive passes).start buffers counters) ∧
      ((args.grid arrive passes).Complete state ∨
        exists pid after, (args.grid arrive passes).Step state pid after) ∧
      ((args.grid arrive passes).Complete state ->
        (forall m j, m < args.numRows -> j < args.weights.hs ->
          state.buffers 3 (args.outAddress m j) = args.rowMixed (args.row m) j) ∧
        (forall address, (forall m j, m < args.numRows -> j < args.weights.hs ->
          args.outAddress m j ≠ address) -> state.buffers 3 address = buffers 3 address) ∧
        forall counter, counter ≤ 2 -> state.counters counter = 0) := by
  have agree (stage : Nat) (within : stage ≤ 2) := HcArgs.agree arrive passes some
    ((args.grid arrive passes).staged buffers stage) stage within
  have met := (Grid.run_sound barrier clear agree run).1
  refine ⟨?_, ?_, complete_rows barrier some fits width clear run⟩
  · have bound := Grid.run_length barrier clear agree run
    omega
  · by_cases complete : (args.grid arrive passes).Complete state
    · exact Or.inl complete
    · exact Or.inr (met.progress barrier complete)

/-- Every launch can run to its end. -/
theorem exists_complete {arrive : Int -> Int} {passes : Int -> Prop}
    (barrier : (args.grid arrive passes).BarrierHolds) (some : 0 < args.numCtas)
    (buffers : Nat -> Memory F) {counters : Nat -> Int}
    (clear : forall counter, counter ≤ 2 -> counters counter = 0) :
    exists labels state, ((args.grid arrive passes).system buffers counters).Run
      ((args.grid arrive passes).start buffers counters) labels state ∧
        (args.grid arrive passes).Complete state :=
  Grid.exists_complete barrier clear
    (fun stage within => HcArgs.agree arrive passes some ((args.grid arrive passes).staged buffers stage)
      stage within) (.nil _)

end HcArgs

/-! ## A launch of two CTAs -/

/-- Rational arithmetic, with a step for the sigmoid. -/
def stepArith : HcArith Rat where
  dot := fun first second value => value + (List.zipWith (· * ·) first second).sum
  add := (· + ·)
  mul := (· * ·)
  sigmoid := fun value => if value < 0 then 0 else 1
  sum := List.sum
  round := id
  reciprocal := fun hc => 1 / hc

/-- One row of two streams of one element, in two splits. -/
def narrowArgs : HcArgs Rat where
  arith := stepArith
  tiles := ⟨16, 2, 1, 1, 1, 1, 2, Nat.succ_pos 0, Nat.succ_pos 0, Nat.succ_pos 0, Nat.succ_pos 0,
    Nat.succ_pos 1⟩
  weights := ⟨fun _ => 1, fun address => if address = 0 then 1 else -1, 2, 1, 1, 1 / 2⟩
  x := fun address => if address = 0 then 3 else 5
  numRows := 1
  numCtas := 2

/-- Two CTAs that count their arrivals. -/
theorem countingBarrier_holds {args : HcArgs Rat} (two : args.numCtas = 2) :
    (args.grid (fun counter => counter + 1) fun counter => counter = 2).BarrierHolds := by
  intro arrivals within
  change arrivals ≤ args.numCtas at within
  change (fun counter : Int => counter + 1)^[arrivals] 0 = 2 <-> arrivals = args.numCtas
  rw [two] at within ⊢
  interval_cases arrivals <;> decide

/-- The gate of the first stream is open, that of the second is closed. -/
theorem hc_mix_stable_example :
    exists labels state, ((narrowArgs.grid (fun counter => counter + 1) fun counter =>
        counter = 2).system (fun _ _ => 0) fun _ => 0).Run
      ((narrowArgs.grid (fun counter => counter + 1) fun counter => counter = 2).start
        (fun _ _ => 0) fun _ => 0) labels state ∧ state.buffers 3 0 = 3 / 2 := by
  have barrier : (narrowArgs.grid (fun counter => counter + 1) fun counter =>
      counter = 2).BarrierHolds := countingBarrier_holds rfl
  rcases HcArgs.exists_complete barrier (by decide) (fun _ _ => 0) (fun _ _ => rfl) with
    ⟨labels, state, run, complete⟩
  have left := ((HcArgs.hc_mix_stable barrier (by decide) (by decide) (by decide)
    (fun _ _ => rfl) run).2.2 complete).1 0 0 (by decide) (by decide)
  refine ⟨labels, state, run, left.trans ?_⟩
  decide +kernel

end Kernels
end QSAHiSparse

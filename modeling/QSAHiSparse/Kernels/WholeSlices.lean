import QSAHiSparse.Kernels.Stripes
import Mathlib.Algebra.Order.Ring.Int
import Mathlib.Tactic.Ring

namespace QSAHiSparse
namespace Kernels

open Foundation

/-!
# Whole-K stripes

With the deterministic split a CTA gets whole output slices: its iterations are
a share of slices times the K tiles.  Rounding them to groups changes nothing,
every stripe starts at K row zero, and the stripes are consecutive shares of the
slices.
-/

/-! ## Arithmetic on natural operands -/

theorem quotient_natCast {dividend divisor : Nat} (positive : 0 < divisor) :
    quotient dividend divisor = .ok ((dividend / divisor : Nat) : Int) := by
  have nonzero : (divisor : Int) ≠ 0 := by omega
  unfold quotient
  rw [if_neg nonzero, Int.natCast_ediv, Int.tdiv_eq_ediv_of_nonneg (by omega)]

theorem remainder_natCast {dividend divisor : Nat} (positive : 0 < divisor) :
    remainder dividend divisor = .ok ((dividend % divisor : Nat) : Int) := by
  have nonzero : (divisor : Int) ≠ 0 := by omega
  unfold remainder
  rw [if_neg nonzero, Int.natCast_emod, Int.tmod_eq_emod_of_nonneg (by omega)]

theorem divCeil_natCast {dividend divisor : Nat} (positive : 0 < divisor) :
    divCeil dividend divisor = .ok ((dividend ⌈/⌉ divisor : Nat) : Int) := by
  have same : (dividend : Int) + divisor - 1 = ((dividend + divisor - 1 : Nat) : Int) := by omega
  unfold divCeil
  rw [same, quotient_natCast positive, Nat.ceilDiv_eq_add_pred_div]

/-- A multiple that reaches `dividend` with its predecessor short of it. -/
theorem ceilDiv_eq {dividend divisor result : Nat} (positive : 0 < divisor)
    (above : dividend ≤ divisor * result) (below : divisor * result < dividend + divisor) :
    dividend ⌈/⌉ divisor = result := by
  rw [Nat.ceilDiv_eq_add_pred_div]
  apply Nat.div_eq_of_lt_le
  · rw [Nat.mul_comm]
    omega
  · rw [Nat.mul_comm, Nat.mul_succ]
    omega

namespace Launch

variable (launch : Launch)

/-- The output slices of the launch. -/
def slices : Nat :=
  launch.nTiles * launch.parallel

/-- The slices of one CTA. -/
def share : Nat :=
  launch.slices ⌈/⌉ launch.gridDim

theorem slices_le : launch.slices ≤ launch.gridDim * launch.share := by
  have reaches := le_smul_ceilDiv launch.gridDim_pos (b := launch.slices)
  exact reaches

theorem share_pos (work : 0 < launch.slices) : 0 < launch.share := by
  have reaches := launch.slices_le
  rcases Nat.eq_zero_or_pos launch.share with empty | positive
  · rw [empty, Nat.mul_zero] at reaches
    omega
  · exact positive

/-- Whole groups of K tiles fit the K tiles. -/
theorem group_dvd (whole : (launch.threadKBlocks : Int) ≤ launch.groupBlocks) :
    exists group : Nat, 0 < group ∧ group ∣ launch.kTiles ∧
      launch.groupBlocks = ((group * launch.threadKBlocks : Nat) : Int) := by
  have positive := launch.threadKBlocks_pos
  rcases launch.group_fits with small | ⟨multiple, divides⟩
  · refine ⟨1, Nat.one_pos, Nat.one_dvd _, ?_⟩
    omega
  · rcases multiple with ⟨group, same⟩
    have group_pos : 0 < group := by
      by_contra negative
      have product : (launch.threadKBlocks : Int) * group ≤ 0 :=
        Int.mul_nonpos_of_nonneg_of_nonpos (by omega) (by omega)
      omega
    lift group to Nat using group_pos.le
    refine ⟨group, by omega, ?_, ?_⟩
    · rw [same, Int.mul_comm] at divides
      have small := Int.dvd_of_mul_dvd_mul_right (by omega) divides
      exact Int.natCast_dvd_natCast.mp small
    · rw [same, Int.mul_comm]
      push_cast
      rfl

/-- The deterministic iterations: the share's K tiles. -/
theorem iters_deterministic :
    launch.iters true = .ok ((launch.kTiles * launch.share : Nat) : Int) := by
  have split : wholeKStripeIters launch.kTiles launch.nTiles launch.parallel launch.gridDim =
      .ok ((launch.kTiles * launch.share : Nat) : Int) := by
    have ceiling := @divCeil_natCast launch.slices _ launch.gridDim_pos
    unfold divCeil slices at ceiling
    unfold wholeKStripeIters
    push_cast at ceiling
    rw [ceiling]
    push_cast
    rfl
  unfold iters
  rw [if_pos rfl, split]
  change (if _ then _ else _) = _
  split
  · rename_i grouped
    rcases launch.group_dvd grouped.2.2 with ⟨group, group_pos, divides, same⟩
    rcases divides with ⟨groups, tiles⟩
    have count : quotient launch.groupBlocks launch.threadKBlocks = .ok (group : Int) := by
      rw [same, quotient_natCast launch.threadKBlocks_pos,
        Nat.mul_div_cancel _ launch.threadKBlocks_pos]
    have exact_groups : (launch.kTiles * launch.share) ⌈/⌉ group = groups * launch.share := by
      rw [tiles, Nat.mul_assoc]
      apply ceilDiv_eq group_pos le_rfl
      omega
    rw [count]
    change (do let groups <- divCeil _ (group : Int); pure ((group : Int) * groups)) = _
    rw [divCeil_natCast group_pos, exact_groups, tiles, Nat.mul_assoc]
    push_cast
    rfl
  · rfl

/-! ## One slice -/

/-- The cursor stands at row zero of slice `position`, with a column that may
still be one past the last. -/
structure At (position : Nat) (cursor : Cursor) : Prop where
  row : cursor.sliceRow = 0
  colPar : cursor.sliceColPar = position
  parId_nonneg : 0 ≤ cursor.parId
  sliceCol_nonneg : 0 ≤ cursor.sliceCol
  sliceCol_le : cursor.sliceCol ≤ launch.nTiles
  place : cursor.parId * launch.nTiles + cursor.sliceCol = position

/-- The CTA reduces the slice under the cursor over all of K and by itself. -/
structure Whole (cursor : Cursor) : Prop where
  row : cursor.sliceRow = 0
  tiles : cursor.sliceIters = launch.kTiles
  count : cursor.sliceCount = 1
  index : cursor.sliceIdx = 0

/-- A position in a CTA's share, or just past it. -/
structure Within (blockIdx position : Nat) : Prop where
  after : blockIdx * launch.share ≤ position
  before : position ≤ (blockIdx + 1) * launch.share

/-- A CTA starts at row zero of its share's first slice. -/
theorem start_at (blockIdx : Nat) :
    exists cursor, launch.start ((launch.kTiles * launch.share : Nat) : Int) blockIdx = .ok cursor ∧
      launch.At (blockIdx * launch.share) cursor := by
  have reached : ((launch.kTiles * launch.share : Nat) : Int) * blockIdx =
      ((launch.kTiles * (blockIdx * launch.share) : Nat) : Int) := by
    push_cast
    ring
  unfold start
  rw [reached, remainder_natCast launch.kTiles_pos, quotient_natCast launch.kTiles_pos,
    Nat.mul_mod_right, Nat.mul_div_cancel_left _ launch.kTiles_pos]
  dsimp only [bind, Except.bind]
  by_cases past : ((blockIdx * launch.share : Nat) : Int) ≥ launch.nTiles
  · rw [if_pos past, remainder_natCast launch.nTiles_pos, quotient_natCast launch.nTiles_pos]
    refine ⟨_, rfl, rfl, rfl, Int.natCast_nonneg _, Int.natCast_nonneg _, ?_, ?_⟩
    · have small := Nat.mod_lt (blockIdx * launch.share) launch.nTiles_pos
      exact Int.ofNat_le.mpr small.le
    · have parts := Nat.div_add_mod' (blockIdx * launch.share) launch.nTiles
      exact congrArg Nat.cast parts
  · rw [if_neg past]
    refine ⟨_, rfl, rfl, rfl, le_rfl, Int.natCast_nonneg _, ?_, ?_⟩
    · exact (not_le.mp past).le
    · change (0 : Int) * _ + _ = _
      rw [Int.zero_mul, Int.zero_add]

/-- A slice that begins with the CTA's stripe is its alone. -/
theorem ranked_first {iters : Nat} (whole : launch.kTiles ≤ iters) :
    launch.ranked iters 0 0 = .ok (1, 0) := by
  have positive := launch.kTiles_pos
  have fitting : launch.kTiles ⌈/⌉ iters = 1 := by
    apply ceilDiv_eq <;> omega
  unfold ranked
  rw [Int.sub_zero, divCeil_natCast (by omega), fitting]
  rfl

/-- A slice that ends where the next stripe begins is this CTA's alone. -/
theorem ranked_last {iters : Nat} (iters_pos : 0 < iters) :
    launch.ranked iters launch.kTiles (-iters) = .ok (1, 0) := by
  have fitting : divCeil 0 iters = .ok 0 := by
    have none := @divCeil_natCast 0 iters iters_pos
    rw [zero_ceilDiv] at none
    exact none
  have spanned : (launch.kTiles : Int) > 0 := Int.natCast_pos.mpr launch.kTiles_pos
  unfold ranked
  rw [Int.sub_self, fitting]
  dsimp only [bind, Except.bind]
  rw [if_pos spanned, if_pos (Or.inl (by omega))]
  rfl

/-- No other CTA works on a slice of the share. -/
theorem sharing_alone {blockIdx position : Nat} (after : blockIdx * launch.share ≤ position)
    (before : position < (blockIdx + 1) * launch.share) :
    launch.sharing ((launch.kTiles * launch.share : Nat) : Int) blockIdx position =
      .ok (1, 0) := by
  have tiles_pos := launch.kTiles_pos
  have share_pos : 0 < launch.share := by
    apply Nat.pos_of_ne_zero
    intro empty
    rw [empty, Nat.mul_zero] at before
    exact Nat.not_lt_zero _ before
  have iters_pos : 0 < launch.kTiles * launch.share := Nat.mul_pos tiles_pos share_pos
  have begun : (launch.kTiles : Int) * position = ((launch.kTiles * position : Nat) : Int) :=
    (Int.natCast_mul _ _).symm
  unfold sharing
  rcases Nat.eq_or_lt_of_le after with first | later
  · have firsts : (launch.kTiles * position) ⌈/⌉ (launch.kTiles * launch.share) = blockIdx := by
      have aligned : launch.kTiles * position = launch.kTiles * launch.share * blockIdx := by
        rw [← first]
        ring
      apply ceilDiv_eq iters_pos aligned.le
      omega
    have met : ((launch.kTiles * launch.share : Nat) : Int) * blockIdx =
        launch.kTiles * position := by
      rw [← first]
      push_cast
      ring
    rw [begun, divCeil_natCast iters_pos, firsts]
    dsimp only [bind, Except.bind]
    rw [met, if_pos (by rw [Int.mul_add]; omega), Int.sub_self, ← begun, Int.sub_self]
    exact launch.ranked_first (Nat.le_mul_of_pos_right _ share_pos)
  · have firsts :
        (launch.kTiles * position) ⌈/⌉ (launch.kTiles * launch.share) = blockIdx + 1 := by
      have step : (blockIdx + 1) * launch.share = blockIdx * launch.share + launch.share :=
        Nat.succ_mul _ _
      have reach : launch.kTiles * launch.share * (blockIdx + 1) =
          launch.kTiles * ((blockIdx + 1) * launch.share) := by
        ring
      apply ceilDiv_eq iters_pos
      · rw [reach]
        exact Nat.mul_le_mul_left _ before.le
      · rw [reach, ← Nat.mul_add]
        exact Nat.mul_lt_mul_of_pos_left (by omega) tiles_pos
    have next : ((launch.kTiles * launch.share : Nat) : Int) * ((blockIdx + 1 : Nat) : Int) =
        launch.kTiles * (((blockIdx + 1) * launch.share : Nat) : Int) := by
      push_cast
      ring
    rw [begun, divCeil_natCast iters_pos, firsts]
    dsimp only [bind, Except.bind]
    rw [next]
    by_cases last : position + 1 = (blockIdx + 1) * launch.share
    · have off : (launch.kTiles : Int) * (((blockIdx + 1) * launch.share : Nat) : Int) -
          ((launch.kTiles * position : Nat) : Int) = launch.kTiles := by
        rw [← last]
        push_cast
        ring
      have back : ((launch.kTiles * launch.share : Nat) : Int) * blockIdx -
          launch.kTiles * (((blockIdx + 1) * launch.share : Nat) : Int) =
          -((launch.kTiles * launch.share : Nat) : Int) := by
        push_cast
        ring
      have reached : (launch.kTiles : Int) * (((blockIdx + 1) * launch.share : Nat) : Int) ≤
          launch.kTiles * (position + 1) := by
        rw [← last]
        push_cast
        exact le_rfl
      rw [if_pos reached, off, back]
      exact launch.ranked_last iters_pos
    · have beyond : ¬ (launch.kTiles : Int) * (((blockIdx + 1) * launch.share : Nat) : Int) ≤
          launch.kTiles * (position + 1) := by
        apply not_le.mpr
        apply Int.mul_lt_mul_of_pos_left _ (Int.natCast_pos.mpr tiles_pos)
        omega
      rw [if_neg beyond]
      rfl

/-- The iterations a CTA has left before its stripe ends. -/
theorem left_eq {blockIdx position : Nat} {cursor : Cursor} (here : launch.At position cursor) :
    ((launch.kTiles * launch.share : Nat) : Int) * (blockIdx + 1) -
        (launch.kTiles * cursor.sliceColPar + cursor.sliceRow) =
      launch.kTiles * ((((blockIdx + 1) * launch.share : Nat) : Int) - position) := by
  rw [here.row, here.colPar]
  push_cast
  ring

/-- Past its share, or past the last slice, a CTA has no work. -/
theorem initSlice_none {blockIdx position : Nat} {cursor : Cursor}
    (here : launch.At position cursor)
    (past : position = (blockIdx + 1) * launch.share ∨ launch.slices ≤ position) :
    launch.initSlice ((launch.kTiles * launch.share : Nat) : Int) blockIdx cursor =
      .ok { cursor with sliceIters := 0 } := by
  unfold initSlice
  dsimp only
  rw [launch.left_eq here, here.colPar]
  rcases past with ended | beyond
  · rw [← ended, Int.sub_self, Int.mul_zero, ite_self, if_pos rfl]
    rfl
  · have reached : (position : Int) ≥ launch.nTiles * launch.parallel := by
      exact_mod_cast beyond
    rw [if_pos (Or.inr reached), if_pos rfl]
    rfl

/-- Inside its share a CTA has the whole of the next slice. -/
theorem initSlice_whole {blockIdx position : Nat} {cursor : Cursor}
    (here : launch.At position cursor) (after : blockIdx * launch.share ≤ position)
    (before : position < (blockIdx + 1) * launch.share) (work : position < launch.slices) :
    exists ready, launch.initSlice ((launch.kTiles * launch.share : Nat) : Int) blockIdx cursor =
        .ok ready ∧
      launch.At position ready ∧ launch.Whole ready ∧ ready.sliceCol < launch.nTiles := by
  have tiles_pos : (0 : Int) < launch.kTiles := Int.natCast_pos.mpr launch.kTiles_pos
  have remaining : (1 : Int) ≤ (((blockIdx + 1) * launch.share : Nat) : Int) - position := by
    omega
  have enough : (launch.kTiles : Int) ≤
      launch.kTiles * ((((blockIdx + 1) * launch.share : Nat) : Int) - position) :=
    le_mul_of_one_le_right tiles_pos.le remaining
  have inside : ¬ ((launch.kTiles : Int) *
      ((((blockIdx + 1) * launch.share : Nat) : Int) - position) < 0 ∨
      (position : Int) ≥ launch.nTiles * launch.parallel) := by
    have short : (position : Int) < launch.nTiles * launch.parallel := by
      exact_mod_cast work
    omega
  unfold initSlice
  dsimp only
  rw [launch.left_eq here, here.colPar, here.row, if_neg inside, if_neg (by omega),
    launch.sharing_alone after before]
  dsimp only [bind, Except.bind]
  have clipped : (if 0 + (launch.kTiles : Int) *
      ((((blockIdx + 1) * launch.share : Nat) : Int) - position) > launch.kTiles then
        (launch.kTiles : Int) - 0
      else launch.kTiles * ((((blockIdx + 1) * launch.share : Nat) : Int) - position)) =
      launch.kTiles := by
    split <;> omega
  rw [clipped]
  by_cases wraps : cursor.sliceCol = launch.nTiles
  · rw [if_pos wraps]
    refine ⟨_, rfl, ⟨rfl, rfl, ?_, le_rfl, Int.natCast_nonneg _, ?_⟩,
      ⟨rfl, rfl, rfl, rfl⟩, Int.natCast_pos.mpr launch.nTiles_pos⟩
    · exact Int.add_nonneg here.parId_nonneg (by decide)
    · have place := here.place
      rw [wraps] at place
      change (cursor.parId + 1) * launch.nTiles + 0 = _
      rw [Int.add_mul, Int.one_mul, Int.add_zero]
      exact place
  · rw [if_neg wraps]
    exact ⟨_, rfl, ⟨rfl, rfl, here.parId_nonneg, here.sliceCol_nonneg, here.sliceCol_le,
      here.place⟩, ⟨rfl, rfl, rfl, rfl⟩, lt_of_le_of_ne here.sliceCol_le wraps⟩

/-! ## One stripe -/

/-- The output slice at a position, problem by problem. -/
def sliceAt (position : Nat) : Int × Int :=
  (((position / launch.nTiles : Nat) : Int), ((position % launch.nTiles : Nat) : Int))

/-- The visited cursors stand at these positions in order, each slice whole. -/
structure Visits (positions : List Nat) (visited : List Cursor) : Prop where
  places : visited.map Cursor.slice = positions.map launch.sliceAt
  alone : forall cursor, cursor ∈ visited -> launch.Whole cursor

theorem slice_eq {position : Nat} {cursor : Cursor} (here : launch.At position cursor)
    (column : cursor.sliceCol < launch.nTiles) : cursor.slice = launch.sliceAt position := by
  have place := here.place
  have parts := (Int.ediv_emod_unique (a := (position : Int)) (r := cursor.sliceCol)
    (q := cursor.parId) (Int.natCast_pos.mpr launch.nTiles_pos)).mpr
      ⟨by rw [Int.mul_comm]; omega, here.sliceCol_nonneg, column⟩
  unfold Cursor.slice sliceAt
  rw [← parts.1, ← parts.2]
  push_cast
  rfl

/-- From a position of its share, a CTA goes through the rest of the share. -/
theorem mainLoop_visits {blockIdx : Nat} (count : Nat) :
    forall (position : Nat) (cursor : Cursor), launch.At position cursor ->
      blockIdx * launch.share ≤ position ->
      min ((blockIdx + 1) * launch.share) launch.slices - position = count ->
      position ≤ (blockIdx + 1) * launch.share ->
      exists ready visited,
        launch.initSlice ((launch.kTiles * launch.share : Nat) : Int) blockIdx cursor =
            .ok ready ∧
          (forall fuel, count ≤ fuel ->
            launch.mainLoop ((launch.kTiles * launch.share : Nat) : Int) blockIdx fuel ready =
              .ok visited) ∧
          launch.Visits (List.range' position count) visited := by
  induction count with
  | zero =>
      intro position cursor here after spent inside
      refine ⟨_, [], launch.initSlice_none here (by omega), ?_, rfl, fun _ member => ?_⟩
      · intro fuel enough
        cases fuel <;> exact if_pos rfl
      · exact absurd member List.not_mem_nil
  | succ count inductionHypothesis =>
      intro position cursor here after spent inside
      rcases launch.initSlice_whole here after (by omega) (by omega) with
        ⟨ready, initialised, at_ready, whole, column⟩
      have moved : launch.At (position + 1)
          { ready with
            sliceRow := 0
            sliceColPar := ready.sliceColPar + 1
            sliceCol := ready.sliceCol + 1
            sliceIters := 0 } := by
        have place := at_ready.place
        have colPar := at_ready.colPar
        refine ⟨rfl, ?_, at_ready.parId_nonneg, ?_, column, ?_⟩
        · change ready.sliceColPar + 1 = _
          omega
        · exact Int.add_nonneg at_ready.sliceCol_nonneg (by decide)
        · change ready.parId * launch.nTiles + (ready.sliceCol + 1) = _
          omega
      rcases inductionHypothesis (position + 1) _ moved (by omega) (by omega) (by omega) with
        ⟨next, later, initialised_next, runs, visits⟩
      refine ⟨ready, ready :: later, initialised, ?_, ?_, ?_⟩
      · intro fuel enough
        cases fuel with
        | zero => omega
        | succ fuel =>
            have busy : ready.sliceIters ≠ 0 := by
              have positive := launch.kTiles_pos
              have tiles := whole.tiles
              omega
            unfold mainLoop
            rw [if_neg busy, initialised_next]
            dsimp only [bind, Except.bind]
            rw [runs fuel (by omega)]
            rfl
      · rw [List.map_cons, visits.places, launch.slice_eq at_ready column]
        rfl
      · exact List.forall_mem_cons.mpr ⟨whole, visits.alone⟩

/-- A stripe is the CTA's share of the slices. -/
theorem stripe_visits (blockIdx : Nat) :
    exists visited,
      (forall fuel, launch.slices ≤ fuel ->
        launch.stripe ((launch.kTiles * launch.share : Nat) : Int) fuel blockIdx = .ok visited) ∧
      launch.Visits (shareOf launch.share launch.slices blockIdx) visited := by
  rcases launch.start_at blockIdx with ⟨cursor, started, here⟩
  have step : (blockIdx + 1) * launch.share = blockIdx * launch.share + launch.share :=
    Nat.succ_mul _ _
  have count : min ((blockIdx + 1) * launch.share) launch.slices - blockIdx * launch.share =
      min launch.share (launch.slices - blockIdx * launch.share) := by
    omega
  rcases launch.mainLoop_visits _ _ cursor here le_rfl count (by omega) with
    ⟨ready, visited, initialised, runs, visits⟩
  refine ⟨visited, ?_, visits⟩
  intro fuel enough
  unfold stripe
  rw [started]
  dsimp only [bind, Except.bind]
  rw [initialised]
  exact runs fuel (by omega)

/-! ## The grid -/

/-- The stripes of all CTAs, laid end to end, are the slices in order. -/
theorem grid_visits :
    exists visits,
      (forall fuel, launch.slices ≤ fuel ->
        launch.grid ((launch.kTiles * launch.share : Nat) : Int) fuel = .ok visits) ∧
      launch.Visits (List.range launch.slices) visits.flatten := by
  choose visited runs visits using launch.stripe_visits
  refine ⟨(List.range launch.gridDim).map visited, ?_, ?_, ?_⟩
  · intro fuel enough
    have each : (fun (blockIdx : Nat) =>
        launch.stripe ((launch.kTiles * launch.share : Nat) : Int) fuel blockIdx) =
        fun blockIdx => pure (visited blockIdx) := by
      funext blockIdx
      exact runs blockIdx fuel enough
    unfold grid
    rw [each]
    exact List.mapM_pure
  · rw [← flatMap_shareOf_of_le launch.slices_le, List.flatMap_def, List.map_flatten,
      List.map_flatten, List.map_map, List.map_map]
    congr 2
    funext blockIdx
    exact (visits blockIdx).places
  · intro cursor member
    rcases List.mem_flatten.mp member with ⟨stripe, listed, inside⟩
    rcases List.mem_map.mp listed with ⟨blockIdx, _, rfl⟩
    exact (visits blockIdx).alone cursor inside

theorem sliceAt_injective : Function.Injective launch.sliceAt := by
  intro first second same
  have quotients := congrArg Prod.fst same
  have remainders := congrArg Prod.snd same
  have quotients := Int.ofNat_inj.mp quotients
  have remainders := Int.ofNat_inj.mp remainders
  rw [← Nat.div_add_mod first launch.nTiles, ← Nat.div_add_mod second launch.nTiles, quotients,
    remainders]

/-- The positions run through the columns of every problem. -/
theorem mem_sliceAt {parId sliceCol : Int} :
    (parId, sliceCol) ∈ (List.range launch.slices).map launch.sliceAt <->
      (0 ≤ parId ∧ parId < launch.parallel) ∧ 0 ≤ sliceCol ∧ sliceCol < launch.nTiles := by
  rw [List.mem_map]
  constructor
  · intro ⟨position, member, same⟩
    rcases Prod.mk.inj same with ⟨rfl, rfl⟩
    have small := Nat.mod_lt position launch.nTiles_pos
    have problem : position / launch.nTiles < launch.parallel :=
      Nat.div_lt_of_lt_mul (List.mem_range.mp member)
    exact ⟨⟨Int.natCast_nonneg _, Int.ofNat_lt.mpr problem⟩, Int.natCast_nonneg _,
      Int.ofNat_lt.mpr small⟩
  · intro ⟨⟨parId_nonneg, parId_lt⟩, sliceCol_nonneg, sliceCol_lt⟩
    lift parId to Nat using parId_nonneg
    lift sliceCol to Nat using sliceCol_nonneg
    have small : sliceCol < launch.nTiles := by omega
    refine ⟨launch.nTiles * parId + sliceCol, List.mem_range.mpr ?_, ?_⟩
    · have whole := Nat.mul_le_mul_left launch.nTiles (show parId + 1 ≤ launch.parallel by omega)
      rw [Nat.mul_succ] at whole
      unfold slices
      omega
    · unfold sliceAt
      rw [Nat.mul_add_div launch.nTiles_pos, Nat.mul_add_mod, Nat.div_eq_of_lt small,
        Nat.mod_eq_of_lt small, Nat.add_zero]

/-- A slice reduced whole takes every K tile, in order. -/
theorem Whole.rows_eq {cursor : Cursor} (whole : launch.Whole cursor) :
    cursor.rows = (List.range launch.kTiles).map Nat.cast := by
  unfold Cursor.rows
  rw [whole.row, whole.tiles, Int.toNat_natCast]
  apply List.map_congr_left
  intro tile _
  exact Int.zero_add _

/-- What the whole-K schedule is to do. -/
structure Partitions (iters : Int) (visits : List (List Cursor)) : Prop where
  multiple : (launch.kTiles : Int) ∣ iters
  starts : forall blockIdx : Nat, blockIdx < launch.gridDim ->
    exists cursor, launch.start iters blockIdx = .ok cursor ∧ cursor.sliceRow = 0
  alone : forall cursor, cursor ∈ visits.flatten -> launch.Whole cursor
  rows : forall cursor, cursor ∈ visits.flatten ->
    cursor.rows = (List.range launch.kTiles).map Nat.cast
  once : (visits.flatten.map Cursor.slice).Nodup
  slices : forall parId sliceCol,
    (parId, sliceCol) ∈ visits.flatten.map Cursor.slice <->
      (0 ≤ parId ∧ parId < launch.parallel) ∧ 0 ≤ sliceCol ∧ sliceCol < launch.nTiles

/-- The deterministic schedule partitions the output slices among the CTAs. -/
theorem stripes_partition :
    exists iters visits, launch.iters true = .ok iters ∧
      (forall fuel, launch.nTiles * launch.parallel ≤ fuel ->
        launch.grid iters fuel = .ok visits) ∧
      launch.Partitions iters visits := by
  rcases launch.grid_visits with ⟨visits, runs, covered⟩
  refine ⟨_, visits, launch.iters_deterministic, runs, ?_, ?_, covered.alone, ?_, ?_, ?_⟩
  · rw [Int.natCast_mul]
    exact Int.dvd_mul_right _ _
  · intro blockIdx _
    rcases launch.start_at blockIdx with ⟨cursor, started, here⟩
    exact ⟨cursor, started, here.row⟩
  · intro cursor member
    exact (covered.alone cursor member).rows_eq
  · rw [covered.places]
    exact List.nodup_range.map launch.sliceAt_injective
  · intro parId sliceCol
    rw [covered.places]
    exact launch.mem_sliceAt

end Launch

/-- Six slices of four K tiles on four CTAs, with groups of two K tiles. -/
def fourStripes : Launch where
  kTiles := 4
  nTiles := 3
  parallel := 2
  gridDim := 4
  threadKBlocks := 4
  groupBlocks := 8
  kTiles_pos := by decide
  nTiles_pos := by decide
  gridDim_pos := by decide
  threadKBlocks_pos := by decide
  group_fits := Or.inr (by decide)

/-- Four CTAs take two slices each, the last of them none. -/
theorem fourStripes_partition : exists visits,
    fourStripes.iters true = .ok 8 ∧ fourStripes.grid 8 6 = .ok visits ∧
      fourStripes.Partitions 8 visits := by
  rcases fourStripes.stripes_partition with ⟨iters, visits, rounded, runs, partitions⟩
  have eight : iters = 8 := Except.ok.inj (rounded.symm.trans (by decide))
  subst eight
  exact ⟨visits, rounded, runs 6 (by decide), partitions⟩

end Kernels
end QSAHiSparse

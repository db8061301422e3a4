import QSAHiSparse.Foundation.Fallible
import QSAHiSparse.Foundation.Segments
import QSAHiSparse.Kernels.StableAlign

namespace QSAHiSparse
namespace Kernels

open Foundation

/-!
# The bucket oracle

The oracle puts the pairs of every expert into a bucket, in flattened order, the
filtered pairs first, and pads every bucket to whole blocks.  The tensor
computation lays the buckets out the same way.
-/

section Oracle

variable (ids : List Int) (blockSize : Nat)

/-- The pairs of a bucket; bucket `place` is expert `place - 1`. -/
def pairsOf (place : Nat) : List Nat :=
  (List.range ids.length).filter fun pair => ids[pair]? = some ((place : Int) - 1)

def sizeOfBucket (place : Nat) : Nat :=
  (pairsOf ids place).length

/-- The blocks of a bucket. -/
def blocksOf (place : Nat) : Nat :=
  (sizeOfBucket ids place + blockSize - 1) / blockSize

/-- The size of a bucket rounded up to whole blocks. -/
def paddedOf (place : Nat) : Nat :=
  blocksOf ids blockSize place * blockSize

/-- A bucket and its padding. -/
def paddedBucket (place : Nat) : List Int :=
  (pairsOf ids place).map Nat.cast ++
    List.replicate (paddedOf ids blockSize place - sizeOfBucket ids place) (ids.length : Int)

/-- The ids and the experts of the blocks, bucket after bucket. -/
def oracle (numExperts : Nat) : List Int × List Int :=
  ((List.range (numExperts + 1)).flatMap (paddedBucket ids blockSize),
    (List.range (numExperts + 1)).flatMap fun place =>
      List.replicate (blocksOf ids blockSize place) ((place : Int) - 1))

end Oracle

/-- Every id is `-1` or an expert. -/
def ValidIds (ids : List Int) (numExperts : Nat) : Prop :=
  forall expert, expert ∈ ids -> -1 ≤ expert ∧ expert < numExperts

variable {ids : List Int} {blockSize numExperts : Nat}

/-! ## The sorted pairs -/

/-- The bucket of the tagged keys has the pairs of that key. -/
theorem bucket_map_snd (place : Nat) :
    (bucket Prod.fst (ids.map (· + 1)).zipIdx place).map Prod.snd = pairsOf ids place := by
  have positions : List.range ids.length = (ids.map (· + 1)).zipIdx.map Prod.snd := by
    rw [List.zipIdx_map_snd, List.length_map, List.range_eq_range']
  unfold pairsOf bucket
  rw [positions, List.filter_map]
  congr 1
  apply List.filter_congr
  rintro ⟨key, pair⟩ member
  have found := List.mk_mem_zipIdx_iff_getElem?.mp member
  rw [List.getElem?_map] at found
  rcases Option.map_eq_some_iff.mp found with ⟨expert, at_pair, rfl⟩
  rw [Function.comp_apply]
  apply decide_eq_decide.mpr
  rw [at_pair, Option.some_inj]
  constructor <;> (intro same; omega)

theorem sorted_eq (valid : ValidIds ids numExperts) :
    argsort (fun (first second : Int) => decide (first ≤ second)) (ids.map (· + 1)) =
      (List.range (numExperts + 1)).flatMap (bucket Prod.fst (ids.map (· + 1)).zipIdx) := by
  apply argsort_eq_buckets
  intro value member
  rcases List.mem_map.mp member with ⟨expert, listed, rfl⟩
  have bounds := valid expert listed
  push_cast
  omega

theorem buckets_eq (valid : ValidIds ids numExperts) :
    (argsort (fun (first second : Int) => decide (first ≤ second)) (ids.map (· + 1))).map Prod.fst =
      staircase (sizeOfBucket ids) (numExperts + 1) := by
  rw [sorted_eq valid, List.map_flatMap]
  apply List.flatMap_congr
  intro place _
  apply List.eq_replicate_iff.mpr
  constructor
  · unfold sizeOfBucket
    rw [← bucket_map_snd, List.length_map, List.length_map]
  · intro key member
    rcases List.mem_map.mp member with ⟨pair, inside, rfl⟩
    exact ((mem_bucket Prod.fst).mp inside).2

theorem order_eq (valid : ValidIds ids numExperts) :
    (argsort (fun (first second : Int) => decide (first ≤ second)) (ids.map (· + 1))).map
        (fun pair => (pair.2 : Int)) =
      (List.range (numExperts + 1)).flatMap fun place => (pairsOf ids place).map Nat.cast := by
  rw [sorted_eq valid, List.map_flatMap]
  apply List.flatMap_congr
  intro place _
  rw [← bucket_map_snd, List.map_map]
  rfl

/-- Every pair is in one bucket. -/
theorem total_pairs (valid : ValidIds ids numExperts) :
    segmentStart (sizeOfBucket ids) (numExperts + 1) = ids.length := by
  have sorted := congrArg List.length (buckets_eq valid)
  rw [List.length_map, (argsort_perm _ _).length_eq, List.length_zipIdx, List.length_map] at sorted
  rw [sorted]
  exact (length_flatMap_segments (fun _ => List.length_replicate) _).symm

/-! ## Prefixes and paddings -/

theorem searchsorted_eq {sortedSequence : List Int} (ascending : sortedSequence.Pairwise (· ≤ ·))
    (value : Int) (right : Bool) :
    searchsorted sortedSequence value right =
      sortedSequence.countP fun item => if right then item ≤ value else item < value := by
  have partitioned :
      Partitioned (fun item => if right then item ≤ value else item < value) sortedSequence := by
    apply ascending.imp
    intro first second ordered
    cases right with
    | false => exact fun below => decide_eq_true (lt_of_le_of_lt ordered (of_decide_eq_true below))
    | true => exact fun below => decide_eq_true (ordered.trans (of_decide_eq_true below))
  unfold searchsorted
  rw [partitionPoint_eq partitioned]

theorem barePrefix_eq {size : Nat -> Nat} (count : Nat) :
    ((List.range (count + 1)).map fun (place : Nat) =>
        searchsorted (staircase size count) place false) =
      (List.range (count + 1)).map fun place => (segmentStart size place : Int) := by
  apply List.map_congr_left
  intro place member
  have bound := Nat.lt_succ_iff.mp (List.mem_range.mp member)
  rw [searchsorted_eq (staircase_sorted count)]
  exact congrArg Nat.cast (countP_staircase bound)

theorem zipWith_map_range (first second : Nat -> Int) (count : Nat) :
    List.zipWith (· - ·) ((List.range count).map first) ((List.range count).map second) =
      (List.range count).map fun place => first place - second place := by
  rw [List.zipWith_map, List.zipWith_self]

/-- The differences of neighbouring entries. -/
theorem zipWith_tail_dropLast (entry : Nat -> Int) (count : Nat) :
    List.zipWith (· - ·) ((List.range (count + 1)).map entry).tail
        ((List.range (count + 1)).map entry).dropLast =
      (List.range count).map fun place => entry (place + 1) - entry place := by
  have first : ((List.range (count + 1)).map entry).tail =
      (List.range count).map fun place => entry (place + 1) := by
    rw [List.range_succ_eq_map, List.map_cons, List.tail_cons, List.map_map]
    rfl
  have second : ((List.range (count + 1)).map entry).dropLast = (List.range count).map entry := by
    rw [List.range_succ, List.map_append, List.map_singleton, List.dropLast_concat]
  rw [first, second, zipWith_map_range]

theorem cumsum_eq (size : Nat -> Nat) (count : Nat) :
    cumsum ((List.range count).map fun place => (size place : Int)) =
      (List.range count).map fun place => (segmentStart size (place + 1) : Int) := by
  have summed (place : Nat) :
      ((List.range place).map fun place => (size place : Int)).sum = segmentStart size place := by
    induction place with
    | zero => rfl
    | succ place inductionHypothesis =>
        rw [List.range_succ, List.map_append, List.sum_append, inductionHypothesis,
          List.map_singleton, List.sum_singleton, segmentStart_succ, Int.natCast_add]
  unfold cumsum
  rw [List.length_map, List.length_range]
  apply List.map_congr_left
  intro place member
  have bound := List.mem_range.mp member
  rw [← List.map_take, List.take_range, Nat.min_eq_left (show place + 1 ≤ count by omega)]
  exact summed (place + 1)

section Paddings

variable (ids blockSize numExperts)

/-- How far a bucket moves to make room for the paddings before it. -/
def paddingOf (place : Nat) : Int :=
  segmentStart (paddedOf ids blockSize) place - segmentStart (sizeOfBucket ids) place

end Paddings

theorem counts_eq (size : Nat -> Nat) (count : Nat) :
    List.zipWith (· - ·)
        ((List.range (count + 1)).map fun place => (segmentStart size place : Int)).tail
        ((List.range (count + 1)).map fun place => (segmentStart size place : Int)).dropLast =
      (List.range count).map fun place => (size place : Int) := by
  rw [zipWith_tail_dropLast]
  apply List.map_congr_left
  intro place _
  rw [segmentStart_succ]
  omega

theorem paddedCounts_eq (positive : 0 < blockSize) (count : Nat) :
    ((List.range count).map fun place => (sizeOfBucket ids place : Int)).map
        (fun count => (count + blockSize - 1) / (blockSize : Int) * blockSize) =
      (List.range count).map fun place => (paddedOf ids blockSize place : Int) := by
  rw [List.map_map]
  apply List.map_congr_left
  intro place _
  have sum : (sizeOfBucket ids place : Int) + blockSize - 1 =
      ((sizeOfBucket ids place + blockSize - 1 : Nat) : Int) := by
    omega
  unfold paddedOf blocksOf
  rw [Function.comp_apply, sum, Int.natCast_mul, Int.natCast_ediv]

theorem paddingOffsets_eq (count : Nat) :
    List.zipWith (· - ·)
        (List.zipWith (· - ·)
          ((List.range count).map fun place =>
            (segmentStart (paddedOf ids blockSize) (place + 1) : Int))
          ((List.range count).map fun place => (paddedOf ids blockSize place : Int)))
        ((List.range (count + 1)).map fun place =>
          (segmentStart (sizeOfBucket ids) place : Int)).dropLast =
      (List.range count).map (paddingOf ids blockSize) := by
  rw [List.range_succ, List.map_append, List.map_singleton, List.dropLast_concat,
    zipWith_map_range, zipWith_map_range]
  apply List.map_congr_left
  intro place _
  unfold paddingOf
  rw [segmentStart_succ]
  omega

/-! ## Positions -/

theorem offsets_eq {entry : Nat -> Int} {size : Nat -> Nat} (count : Nat) :
    (staircase size count).mapM (item ((List.range count).map entry)) =
      .ok ((List.range count).flatMap fun place => List.replicate (size place) (entry place)) := by
  have each : forall step, step ∈ staircase size count ->
      item ((List.range count).map entry) step = .ok (entry step.toNat) := by
    intro step member
    have bounds := mem_staircase member
    lift step to Nat using bounds.1
    rw [Int.toNat_natCast]
    exact item_map_range (by omega)
  rw [mapM_succeeds _ each]
  unfold staircase
  rw [List.map_flatMap]
  congr 1
  apply List.flatMap_congr
  intro place _
  rw [List.map_replicate, Int.toNat_natCast]

/-- The rank within the sorted pairs, moved by the bucket's padding. -/
theorem positions_eq (count : Nat) :
    List.zipWith (fun (rank : Nat) (offset : Int) => (rank : Int) + offset)
        (List.range (segmentStart (sizeOfBucket ids) count))
        ((List.range count).flatMap fun place =>
          List.replicate (sizeOfBucket ids place) (paddingOf ids blockSize place)) =
      (List.range count).flatMap fun place =>
        (List.range' (segmentStart (paddedOf ids blockSize) place) (sizeOfBucket ids place)).map
          Nat.cast := by
  rw [range_segmentStart, zipWith_flatMap]
  · apply List.flatMap_congr
    intro place _
    have constant : List.replicate (sizeOfBucket ids place) (paddingOf ids blockSize place) =
        (List.range' (segmentStart (sizeOfBucket ids) place) (sizeOfBucket ids place)).map
          fun _ => paddingOf ids blockSize place := by
      rw [List.map_const', List.length_range']
    rw [constant, List.zipWith_map_right, List.zipWith_self, List.range'_eq_map_range,
      List.range'_eq_map_range, List.map_map, List.map_map]
    apply List.map_congr_left
    intro rank _
    unfold paddingOf
    rw [Function.comp_apply, Function.comp_apply]
    push_cast
    omega
  · intro place
    rw [List.length_range', List.length_replicate]

/-! ## The scatter -/

/-- Storing values at consecutive places replaces what was there. -/
theorem scatter_run (values : List Int) :
    forall front middle back : List Int, middle.length = values.length ->
      (((List.range' front.length values.length).map Nat.cast).zip values).foldlM scatterOne
          (front ++ middle ++ back) = .ok (front ++ values ++ back) := by
  induction values with
  | nil =>
      intro front middle back sized
      rw [List.length_eq_zero_iff.mp sized]
      rfl
  | cons value values inductionHypothesis =>
      intro front middle back sized
      cases middle with
      | nil => cases sized
      | cons old middle =>
          have later := inductionHypothesis (front ++ [value]) middle back (Nat.succ.inj sized)
          have inside : (0 : Int) ≤ front.length ∧
              (front.length : Int) < (front ++ old :: middle ++ back).length := by
            rw [List.length_append, List.length_append, List.length_cons]
            omega
          have stored : scatterOne (front ++ old :: middle ++ back) ((front.length : Int), value) =
              .ok (front ++ [value] ++ middle ++ back) := by
            unfold scatterOne
            rw [if_pos inside, Int.toNat_natCast, List.append_assoc, List.set_append_right _ _ le_rfl,
              Nat.sub_self, List.cons_append, List.set_cons_zero]
            simp
          rw [List.length_cons, List.range'_succ, List.map_cons, List.zip_cons_cons, List.foldlM_cons]
          rw [stored, Except.ok_bind]
          rw [List.length_append, List.length_singleton, List.append_assoc front [value] values] at later
          exact later

theorem size_le_padded (positive : 0 < blockSize) (place : Nat) :
    sizeOfBucket ids place ≤ paddedOf ids blockSize place := by
  have whole := Nat.lt_div_mul_add (a := sizeOfBucket ids place + blockSize - 1) positive
  unfold paddedOf blocksOf
  omega

theorem paddedBucket_length (positive : 0 < blockSize) (place : Nat) :
    (paddedBucket ids blockSize place).length = paddedOf ids blockSize place := by
  have fits := @size_le_padded ids _ positive place
  unfold paddedBucket
  rw [List.length_append, List.length_map, List.length_replicate]
  exact Nat.add_sub_of_le fits

/-- Scattering bucket after bucket leaves the padded buckets and the fill. -/
theorem scatter_buckets (positive : 0 < blockSize) {capacity : Nat} (count : Nat)
    (room : segmentStart (paddedOf ids blockSize) count ≤ capacity) :
    ((List.range count).flatMap fun place =>
        ((List.range' (segmentStart (paddedOf ids blockSize) place)
          (sizeOfBucket ids place)).map Nat.cast).zip ((pairsOf ids place).map Nat.cast)).foldlM
      scatterOne (List.replicate capacity (ids.length : Int)) =
    .ok ((List.range count).flatMap (paddedBucket ids blockSize) ++
      List.replicate (capacity - segmentStart (paddedOf ids blockSize) count) (ids.length : Int)) := by
  induction count with
  | zero =>
      rw [segmentStart_zero, Nat.sub_zero]
      rfl
  | succ count inductionHypothesis =>
      rw [segmentStart_succ] at room
      have fits := @size_le_padded ids _ positive count
      have front := length_flatMap_segments (@paddedBucket_length ids _ positive) count
      have values : ((pairsOf ids count).map (Nat.cast : Nat -> Int)).length =
          sizeOfBucket ids count := List.length_map _
      have free : List.replicate (capacity - segmentStart (paddedOf ids blockSize) count)
          (ids.length : Int) =
          List.replicate (sizeOfBucket ids count) (ids.length : Int) ++
            (List.replicate (paddedOf ids blockSize count - sizeOfBucket ids count)
              (ids.length : Int) ++
            List.replicate (capacity - segmentStart (paddedOf ids blockSize) (count + 1))
              (ids.length : Int)) := by
        rw [← List.replicate_add, ← List.replicate_add, segmentStart_succ]
        congr 1
        omega
      rw [List.range_succ, List.flatMap_append, List.foldlM_append, inductionHypothesis (by omega),
        Except.ok_bind, free, List.flatMap_singleton, List.flatMap_append, List.flatMap_singleton,
        ← List.append_assoc, ← front, ← values, scatter_run _ _ _ _ (by
          rw [List.length_replicate, values])]
      unfold paddedBucket
      rw [values, List.append_assoc, List.append_assoc, List.append_assoc]

/-! ## The capacity -/

theorem padded_le_mul (positive : 0 < blockSize) (place : Nat) :
    paddedOf ids blockSize place ≤ sizeOfBucket ids place * blockSize := by
  have blocks : (sizeOfBucket ids place + blockSize - 1) / blockSize ≤ sizeOfBucket ids place := by
    apply Nat.lt_succ_iff.mp
    apply Nat.div_lt_of_lt_mul
    rw [Nat.mul_succ]
    have scaled := Nat.le_mul_of_pos_left (sizeOfBucket ids place) positive
    omega
  exact Nat.mul_le_mul_right _ blocks

theorem padded_le_add (positive : 0 < blockSize) (place : Nat) :
    paddedOf ids blockSize place ≤ sizeOfBucket ids place + (blockSize - 1) := by
  have whole := Nat.div_mul_le_self (sizeOfBucket ids place + blockSize - 1) blockSize
  unfold paddedOf blocksOf
  omega

/-- Both bounds of the capacity are enough. -/
theorem total_le_capacity (valid : ValidIds ids numExperts) (positive : 0 < blockSize) :
    segmentStart (paddedOf ids blockSize) (numExperts + 1) ≤
      capacityOf ids.length blockSize numExperts := by
  have pairs := total_pairs valid
  unfold capacityOf
  split
  · rw [← pairs, ← segmentStart_mul]
    exact Finset.sum_le_sum fun place _ => padded_le_mul positive place
  · have bound : segmentStart (paddedOf ids blockSize) (numExperts + 1) ≤
        (Finset.range (numExperts + 1)).sum fun place =>
          sizeOfBucket ids place + (blockSize - 1) :=
      Finset.sum_le_sum fun place _ => padded_le_add positive place
    rw [Finset.sum_add_distrib, Finset.sum_const_nat fun _ _ => rfl, Finset.card_range] at bound
    have summed : ((Finset.range (numExperts + 1)).sum fun place => sizeOfBucket ids place) =
        ids.length := pairs
    omega

/-- The blocks of the buckets are among those of the capacity. -/
theorem blocks_le_capacity (valid : ValidIds ids numExperts) (positive : 0 < blockSize) :
    segmentStart (blocksOf ids blockSize) (numExperts + 1) ≤
      (capacityOf ids.length blockSize numExperts + blockSize - 1) / blockSize := by
  have room := total_le_capacity valid positive
  have scaled : segmentStart (paddedOf ids blockSize) (numExperts + 1) =
      segmentStart (blocksOf ids blockSize) (numExperts + 1) * blockSize := segmentStart_mul _ _ _
  rw [Nat.le_div_iff_mul_le positive, ← scaled]
  omega

/-! ## Experts of the blocks -/

/-- The ends passed by a block's start. -/
theorem searchsorted_ends (positive : 0 < blockSize) (count block : Nat) :
    searchsorted
        ((List.range count).map fun place =>
          (segmentStart (paddedOf ids blockSize) (place + 1) : Int))
        (block * blockSize) true =
      (List.range count).countP fun place =>
        segmentStart (blocksOf ids blockSize) (place + 1) ≤ block := by
  have ascending : ((List.range count).map fun place =>
      (segmentStart (paddedOf ids blockSize) (place + 1) : Int)).Pairwise (· ≤ ·) := by
    rw [List.pairwise_map]
    apply List.pairwise_lt_range.imp
    intro place later lower
    exact Int.ofNat_le.mpr (segmentStart_mono _ (by omega))
  rw [searchsorted_eq ascending, List.countP_map]
  congr 1
  apply List.countP_congr
  intro place _
  have scaled : segmentStart (paddedOf ids blockSize) (place + 1) =
      segmentStart (blocksOf ids blockSize) (place + 1) * blockSize := segmentStart_mul _ _ _
  rw [Function.comp_apply, if_pos rfl, decide_eq_true_eq, decide_eq_true_eq, scaled,
    ← Int.natCast_mul, Int.ofNat_le]
  exact Nat.mul_le_mul_right_iff positive

/-- The blocks below the total carry their bucket's expert, the others `-1`. -/
theorem expertIds_eq (positive : 0 < blockSize) {count blocks : Nat}
    (room : segmentStart (blocksOf ids blockSize) count ≤ blocks) :
    ((List.range blocks).map fun (block : Nat) =>
        if (block * blockSize : Int) < segmentStart (paddedOf ids blockSize) count then
          searchsorted
            ((List.range count).map fun place =>
              (segmentStart (paddedOf ids blockSize) (place + 1) : Int))
            (block * blockSize) true - 1
        else -1) =
      ((List.range count).flatMap fun place =>
          List.replicate (blocksOf ids blockSize place) ((place : Int) - 1)) ++
        List.replicate (blocks - segmentStart (blocksOf ids blockSize) count) (-1) := by
  have scaled : segmentStart (paddedOf ids blockSize) count =
      segmentStart (blocksOf ids blockSize) count * blockSize := segmentStart_mul _ _ _
  have split : List.range blocks = List.range (segmentStart (blocksOf ids blockSize) count) ++
      (List.range (blocks - segmentStart (blocksOf ids blockSize) count)).map
        (segmentStart (blocksOf ids blockSize) count + ·) := by
    rw [← List.range_add]
    congr 1
    omega
  rw [split, List.map_append]
  congr 1
  · have ends := congrArg (List.map fun (place : Nat) => (place : Int) - 1)
      (@map_countP_ends (blocksOf ids blockSize) count)
    rw [List.map_map, List.map_flatMap] at ends
    simp only [List.map_replicate] at ends
    rw [← ends]
    apply List.map_congr_left
    intro block member
    have below : (block * blockSize : Int) < segmentStart (paddedOf ids blockSize) count := by
      rw [scaled]
      exact_mod_cast Nat.mul_lt_mul_of_pos_right (List.mem_range.mp member) positive
    rw [if_pos below, searchsorted_ends positive, Function.comp_apply]
  · rw [List.map_map]
    apply List.eq_replicate_iff.mpr
    constructor
    · rw [List.length_map, List.length_range]
    · intro expert member
      rcases List.mem_map.mp member with ⟨extra, _, rfl⟩
      have above : ¬ (((segmentStart (blocksOf ids blockSize) count + extra : Nat) : Int) *
          blockSize < segmentStart (paddedOf ids blockSize) count) := by
        have grown := Nat.mul_le_mul_right blockSize
          (Nat.le_add_right (segmentStart (blocksOf ids blockSize) count) extra)
        rw [scaled]
        exact_mod_cast not_lt.mpr grown
      rw [Function.comp_apply, if_neg above]

/-! ## The computation -/

theorem pairsOf_lt {place pair : Nat} (member : pair ∈ pairsOf ids place) : pair < ids.length :=
  List.mem_range.mp (List.mem_filter.mp member).1

/-- The tensors before the experts and the total are narrowed. -/
theorem moeAlignBlockSizeStable_eq {topkIds : List (List Int)}
    (valid : ValidIds topkIds.flatten numExperts) (positive : 0 < blockSize)
    (narrow : topkIds.flatten.length < 2 ^ 31) :
    moeAlignBlockSizeStable topkIds blockSize numExperts = .ok
      { sortedIds := (oracle topkIds.flatten blockSize numExperts).1 ++
          List.replicate (capacityOf topkIds.flatten.length blockSize numExperts -
            segmentStart (paddedOf topkIds.flatten blockSize) (numExperts + 1))
              (topkIds.flatten.length : Int)
        expertIds := ((oracle topkIds.flatten blockSize numExperts).2 ++
          List.replicate ((capacityOf topkIds.flatten.length blockSize numExperts +
              blockSize - 1) / blockSize -
            segmentStart (blocksOf topkIds.flatten blockSize) (numExperts + 1)) (-1)).map toInt32
        total := toInt32 (segmentStart (paddedOf topkIds.flatten blockSize) (numExperts + 1)) } := by
  have room := total_le_capacity valid positive
  unfold moeAlignBlockSizeStable
  dsimp only
  rw [if_neg (by omega), buckets_eq valid, order_eq valid, barePrefix_eq, counts_eq,
    paddedCounts_eq positive, cumsum_eq, paddingOffsets_eq, offsets_eq]
  have filled : fullInt32 (capacityOf topkIds.flatten.length blockSize numExperts)
      (topkIds.flatten.length : Int) = .ok (List.replicate
        (capacityOf topkIds.flatten.length blockSize numExperts) (topkIds.flatten.length : Int)) :=
    if_pos (toInt32_eq (by omega) (by omega))
  have positioned := @positions_eq topkIds.flatten blockSize (numExperts + 1)
  rw [total_pairs valid] at positioned
  have order : ((List.range (numExperts + 1)).flatMap fun place =>
      (pairsOf topkIds.flatten place).map (Nat.cast : Nat -> Int)).map toInt32 =
      (List.range (numExperts + 1)).flatMap fun place =>
        (pairsOf topkIds.flatten place).map Nat.cast := by
    apply (List.map_congr_left fun value member => ?_).trans (List.map_id _)
    rcases List.mem_flatMap.mp member with ⟨place, _, inside⟩
    rcases List.mem_map.mp inside with ⟨pair, listed, rfl⟩
    have small := pairsOf_lt listed
    exact toInt32_eq (by omega) (by omega)
  have scattered := scatter_buckets positive (numExperts + 1) room
  have experts := expertIds_eq positive (blocks_le_capacity valid positive)
  rw [Except.ok_bind, filled, Except.ok_bind, order, positioned]
  unfold scatter
  rw [List.zip_eq_zipWith, zipWith_flatMap]
  · simp only [List.zip_eq_zipWith] at scattered
    rw [scattered, Except.ok_bind, item_last, Except.ok_bind, List.map_map]
    unfold oracle
    dsimp only
    rw [← experts, List.map_map]
    rfl
  · intro place
    rw [List.length_map, List.length_map, List.length_range']
    rfl

end Kernels
end QSAHiSparse

import QSAHiSparse.Kernels.Buckets

namespace QSAHiSparse
namespace Kernels

open Foundation

/-!
# Aligned pairs

The result equals the bucket oracle followed by padding, so every pair has one
place, every bucket starts a block, and every block knows its expert.
-/

variable {ids : List Int} {blockSize numExperts : Nat}

/-- What the alignment of flattened ids is to be.  Bucket `place` holds the pairs
of expert `place - 1`, and its padded size is a multiple of the block size. -/
structure Aligned (ids : List Int) (blockSize numExperts : Nat) (result : Alignment) : Prop where
  total : result.total = segmentStart (paddedOf ids blockSize) (numExperts + 1)
  fits : segmentStart (paddedOf ids blockSize) (numExperts + 1) ≤
    capacityOf ids.length blockSize numExperts
  length : result.sortedIds.length = capacityOf ids.length blockSize numExperts
  placed : result.sortedIds = (oracle ids blockSize numExperts).1 ++
    List.replicate (capacityOf ids.length blockSize numExperts -
      segmentStart (paddedOf ids blockSize) (numExperts + 1)) (ids.length : Int)
  once : forall pair : Nat, pair < ids.length -> result.sortedIds.count (pair : Int) = 1
  rest : forall value, value ∈ result.sortedIds ->
    value = ids.length ∨ exists pair : Nat, pair < ids.length ∧ value = pair
  starts : forall place, blockSize ∣ segmentStart (paddedOf ids blockSize) place
  groups : forall place, place ≤ numExperts ->
    (result.sortedIds.drop (segmentStart (paddedOf ids blockSize) place)).take
        (paddedOf ids blockSize place) = paddedBucket ids blockSize place
  blocks : result.expertIds.length =
    (capacityOf ids.length blockSize numExperts + blockSize - 1) / blockSize
  named : forall place block, place ≤ numExperts ->
    segmentStart (paddedOf ids blockSize) place ≤ block * blockSize ->
    block * blockSize < segmentStart (paddedOf ids blockSize) (place + 1) ->
    result.expertIds[block]? = some ((place : Int) - 1)
  unnamed : forall block, block < result.expertIds.length ->
    segmentStart (paddedOf ids blockSize) (numExperts + 1) ≤ block * blockSize ->
    result.expertIds[block]? = some (-1)

/-- The buckets hold every pair once. -/
theorem count_pairs (valid : ValidIds ids numExperts) {pair : Nat} (bound : pair < ids.length) :
    ((List.range (numExperts + 1)).flatMap fun place =>
      (pairsOf ids place).map (Nat.cast : Nat -> Int)).count (pair : Int) = 1 := by
  have sorted := (argsort_perm (fun (first second : Int) => decide (first ≤ second))
    (ids.map (· + 1))).map fun pair => (pair.2 : Int)
  have positions : ((ids.map (· + 1)).zipIdx.map fun pair => (pair.2 : Int)) =
      (List.range ids.length).map Nat.cast := by
    rw [← List.length_map (· + 1), List.range_eq_range', ← List.zipIdx_map_snd,
      List.map_map]
    rfl
  rw [order_eq valid, positions] at sorted
  rw [sorted.count_eq]
  apply List.count_eq_one_of_mem
  · exact List.nodup_range.map Nat.cast_injective
  · exact List.mem_map_of_mem (List.mem_range.mpr bound)

theorem count_paddedBuckets (valid : ValidIds ids numExperts) {pair : Nat}
    (bound : pair < ids.length) (rest : Nat) :
    ((oracle ids blockSize numExperts).1 ++ List.replicate rest (ids.length : Int)).count
      (pair : Int) = 1 := by
  have parts := List.flatMap_append_perm (List.range (numExperts + 1))
    (fun place => (pairsOf ids place).map (Nat.cast : Nat -> Int))
    (fun place => List.replicate (paddedOf ids blockSize place - sizeOfBucket ids place)
      (ids.length : Int))
  have different : (ids.length : Int) ≠ pair := by omega
  have padding (size : Nat) : (List.replicate size (ids.length : Int)).count (pair : Int) = 0 := by
    rw [List.count_replicate, beq_eq_false_iff_ne.mpr different]
    rfl
  have paddings : ((List.range (numExperts + 1)).flatMap fun place =>
      List.replicate (paddedOf ids blockSize place - sizeOfBucket ids place)
        (ids.length : Int)).count (pair : Int) = 0 := by
    apply List.count_eq_zero.mpr
    intro member
    rcases List.mem_flatMap.mp member with ⟨place, _, inside⟩
    exact different (List.eq_of_mem_replicate inside).symm
  have joined := parts.count_eq (pair : Int)
  rw [List.count_append, count_pairs valid bound, paddings] at joined
  rw [List.count_append, padding, Nat.add_zero]
  exact joined.symm

/-- The expert of a block inside a bucket. -/
theorem getElem?_experts {count place block rest : Nat} (bound : place < count)
    (after : segmentStart (blocksOf ids blockSize) place ≤ block)
    (before : block < segmentStart (blocksOf ids blockSize) (place + 1)) :
    (((List.range count).flatMap fun place =>
        List.replicate (blocksOf ids blockSize place) ((place : Int) - 1)) ++
      List.replicate rest (-1))[block]? = some ((place : Int) - 1) := by
  have inside : block < segmentStart (blocksOf ids blockSize) count :=
    lt_of_lt_of_le before (segmentStart_mono _ bound)
  have length : ((List.range count).flatMap fun place =>
      List.replicate (blocksOf ids blockSize place) ((place : Int) - 1)).length =
      segmentStart (blocksOf ids blockSize) count :=
    length_flatMap_segments (fun _ => List.length_replicate) count
  have ends := congrArg (List.map fun (place : Nat) => (place : Int) - 1)
    (@map_countP_ends (blocksOf ids blockSize) count)
  rw [List.map_map, List.map_flatMap] at ends
  simp only [List.map_replicate] at ends
  rw [List.getElem?_append_left (by rw [length]; exact inside), ← ends, List.getElem?_map,
    List.getElem?_range inside, Option.map_some, Function.comp_apply,
    countP_ends bound after before]

/-- Every element of the padded buckets is a pair or the padding. -/
theorem mem_paddedBuckets {rest : Nat} {value : Int}
    (member : value ∈ (oracle ids blockSize numExperts).1 ++
      List.replicate rest (ids.length : Int)) :
    value = ids.length ∨ exists pair : Nat, pair < ids.length ∧ value = pair := by
  rcases List.mem_append.mp member with placed | free
  · rcases List.mem_flatMap.mp placed with ⟨place, _, inside⟩
    rcases List.mem_append.mp inside with listed | padding
    · rcases List.mem_map.mp listed with ⟨pair, found, rfl⟩
      exact Or.inr ⟨pair, pairsOf_lt found, rfl⟩
    · exact Or.inl (List.eq_of_mem_replicate padding)
  · exact Or.inl (List.eq_of_mem_replicate free)

theorem oracle_aligned (valid : ValidIds ids numExperts) (positive : 0 < blockSize)
    (narrow : segmentStart (paddedOf ids blockSize) (numExperts + 1) < 2 ^ 31)
    (experts : numExperts ≤ 2 ^ 31) :
    Aligned ids blockSize numExperts
      { sortedIds := (oracle ids blockSize numExperts).1 ++
          List.replicate (capacityOf ids.length blockSize numExperts -
            segmentStart (paddedOf ids blockSize) (numExperts + 1)) (ids.length : Int)
        expertIds := ((oracle ids blockSize numExperts).2 ++
          List.replicate ((capacityOf ids.length blockSize numExperts + blockSize - 1) / blockSize -
            segmentStart (blocksOf ids blockSize) (numExperts + 1)) (-1)).map toInt32
        total := toInt32 (segmentStart (paddedOf ids blockSize) (numExperts + 1)) } := by
  have sized := @paddedBucket_length ids _ positive
  have room := total_le_capacity valid positive
  have blocks := blocks_le_capacity valid positive
  have scaled (place : Nat) : segmentStart (paddedOf ids blockSize) place =
      segmentStart (blocksOf ids blockSize) place * blockSize := segmentStart_mul _ _ _
  have total : toInt32 (segmentStart (paddedOf ids blockSize) (numExperts + 1)) =
      segmentStart (paddedOf ids blockSize) (numExperts + 1) := by
    apply toInt32_eq <;> omega
  have oracle_length : (oracle ids blockSize numExperts).1.length =
      segmentStart (paddedOf ids blockSize) (numExperts + 1) := length_flatMap_segments sized _
  have length : (oracle ids blockSize numExperts).2.length =
      segmentStart (blocksOf ids blockSize) (numExperts + 1) :=
    length_flatMap_segments (fun _ => List.length_replicate) _
  constructor
  case total =>
    dsimp only
    exact total
  case fits => exact room
  case length =>
    rw [List.length_append, List.length_replicate, oracle_length]
    exact Nat.add_sub_of_le room
  case placed => rfl
  case once => exact fun pair bound => count_paddedBuckets valid bound _
  case rest => exact fun value member => mem_paddedBuckets member
  case starts =>
    intro place
    rw [scaled]
    exact Nat.dvd_mul_left _ _
  case groups => exact fun place bound => take_drop_flatMap sized (Nat.lt_succ_of_le bound) _
  case blocks =>
    rw [List.length_map, List.length_append, List.length_replicate, length]
    exact Nat.add_sub_of_le blocks
  case named =>
    intro place block bound after before
    rw [scaled] at after before
    change (List.map toInt32 _)[block]? = _
    rw [List.getElem?_map]
    unfold oracle
    dsimp only
    rw [getElem?_experts (Nat.lt_succ_of_le bound) (Nat.le_of_mul_le_mul_right after positive)
      (Nat.lt_of_mul_lt_mul_right before), Option.map_some, toInt32_eq (by omega) (by omega)]
  case unnamed =>
    intro block bound above
    rw [scaled] at above
    have past := Nat.le_of_mul_le_mul_right above positive
    change block < (List.map toInt32 _).length at bound
    change (List.map toInt32 _)[block]? = _
    rw [List.length_map, List.length_append, List.length_replicate, length] at bound
    rw [List.getElem?_map, List.getElem?_append_right (by omega), List.getElem?_replicate,
      if_pos (by omega), Option.map_some]
    exact congrArg some (toInt32_eq (by omega) (by omega))

/-- The alignment equals the oracle when its total and the ids fit `int32`. -/
theorem alignment_equals_oracle (topkIds : List (List Int)) (blockSize numExperts : Nat)
    (valid : ValidIds topkIds.flatten numExperts) (positive : 0 < blockSize)
    (narrow : segmentStart (paddedOf topkIds.flatten blockSize) (numExperts + 1) < 2 ^ 31)
    (experts : numExperts ≤ 2 ^ 31) :
    exists result, moeAlignBlockSizeStable topkIds blockSize numExperts = .ok result ∧
      Aligned topkIds.flatten blockSize numExperts result := by
  have few : topkIds.flatten.length < 2 ^ 31 := by
    rw [← total_pairs valid]
    refine lt_of_le_of_lt ?_ narrow
    exact Finset.sum_le_sum fun place _ => size_le_padded positive place
  exact ⟨_, moeAlignBlockSizeStable_eq valid positive few,
    oracle_aligned valid positive narrow experts⟩

/-- Two tokens of three routes: a filtered one, an idle expert and blocks of four. -/
theorem alignment_equals_oracle_example :
    exists result, moeAlignBlockSizeStable [[2, 0, -1], [2, 2, 0]] 4 3 = .ok result ∧
      Aligned [2, 0, -1, 2, 2, 0] 4 3 result :=
  alignment_equals_oracle [[2, 0, -1], [2, 2, 0]] 4 3
    (by unfold ValidIds; decide) (by decide) (by decide +kernel) (by decide)

/-- One pair in a block of `2^31`: the total is narrowed to a negative number. -/
theorem alignment_total_wraps :
    ¬ forall (topkIds : List (List Int)) (blockSize numExperts : Nat),
      ValidIds topkIds.flatten numExperts -> 0 < blockSize ->
      exists result, moeAlignBlockSizeStable topkIds blockSize numExperts = .ok result ∧
        Aligned topkIds.flatten blockSize numExperts result := by
  intro promised
  have valid : ValidIds [[0]].flatten 1 := by
    unfold ValidIds
    decide
  rcases promised [[0]] (2 ^ 31) 1 valid (by decide) with ⟨result, ran, aligned⟩
  rw [moeAlignBlockSizeStable_eq valid (by decide) (by decide)] at ran
  have total := aligned.total
  rw [← Except.ok.inj ran] at total
  dsimp only at total
  have wrapped : toInt32 (segmentStart (paddedOf [[0]].flatten (2 ^ 31)) (1 + 1)) ≠
      segmentStart (paddedOf [[0]].flatten (2 ^ 31)) (1 + 1) := by
    decide +kernel
  exact wrapped total

end Kernels
end QSAHiSparse

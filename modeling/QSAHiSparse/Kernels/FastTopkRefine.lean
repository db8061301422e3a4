import QSAHiSparse.Kernels.FastTopkRounds

namespace QSAHiSparse
namespace Kernels

open Foundation

/-!
# Refinement of the radix selection

The rank of an index is its coarse bin followed by the radix digits of its key.
A round that leaves something to select passes on to the next what it was given:
the candidates at one rank, in the staging buffer or by a rescan of the row.
-/

section Refining

variable (half : BitVec 32 -> BitVec 16) (kTopK : Nat) (row : ScoreRow) (order : Nat -> Order)
  (overflow : Bool) (coarseThreshold : Nat)

/-- The indices of the row. -/
def ScoreRow.indices : List Nat := List.range row.length

/-- The rank of an index by its coarse bin and so many radix digits. -/
def ScoreRow.rank : Nat -> Nat -> Nat
  | 0 => extend radix (fun _ => 0) (row.coarse half)
  | round + 1 => extend radix (ScoreRow.rank round) (row.digit round)

theorem ScoreRow.digit_lt (round idx : Nat) : row.digit round idx < radix := by
  unfold ScoreRow.digit radixDigit
  rw [BitVec.toNat_and]
  exact Nat.lt_succ_of_le Nat.and_le_right

theorem ScoreRow.coarse_lt (idx : Nat) : row.coarse half idx < radix := by
  unfold ScoreRow.coarse convertToUint8
  dsimp only
  rw [BitVec.toNat_ushiftRight, Nat.shiftRight_eq_div_pow]
  exact Nat.div_lt_of_lt_mul (BitVec.isLt _)

/-- Where a round finds the indices at a rank: in the staging buffer, or anywhere
in the row by their coarse bin and the digits of the rounds before. -/
structure ScoreRow.Candidates (round bound : Nat) (block : Block) : Prop where
  staged : overflow = false -> exists cands : List Nat,
    cands.Perm (level row.indices (row.rank half round) bound) ∧
      block.numInput (round % 2) = cands.length ∧ cands.length ≤ smemInputSize ∧
      forall (i : Nat) idx, cands[i]? = some idx -> block.inputIdx (round % 2) i = idx
  rescanned : overflow = true -> forall idx, idx < row.length ->
    (row.rank half round idx = bound <->
      row.coarse half idx = coarseThreshold ∧
        forall p, p < round -> row.digit p idx = block.prefixBins p)

/-- What holds before a round. -/
structure Refining (round bound : Nat) (topk : Int) (start block : Block) : Prop where
  gathered : Gathered row.indices (row.rank half round) bound kTopK start block
  counts : block.Counts (level row.indices (row.rank half round) bound) (row.digit round)
  candidates : row.Candidates half overflow coarseThreshold round bound block
  remaining : topk + (aboveLevel row.indices (row.rank half round) bound).length = kTopK
  wanted : 0 < topk
  many : topk < (level row.indices (row.rank half round) bound).length

end Refining

section Rounds

variable {half : BitVec 32 -> BitVec 16} {kTopK : Nat} {row : ScoreRow} {order : Nat -> Order}
  {overflow : Bool} {coarseThreshold round bound bin : Nat} {topk : Int} {start block : Block}

theorem Block.matchesPrefix_iff {idx : Nat} :
    block.matchesPrefix row round idx = true <->
      forall p, p < round -> row.digit p idx = block.prefixBins p := by
  unfold Block.matchesPrefix
  rw [List.all_eq_true]
  constructor
  · intro all p before
    exact of_decide_eq_true (all p (List.mem_range.mpr before))
  · intro all p member
    exact decide_eq_true (all p (List.mem_range.mp member))

/-- The loop of a round visits the candidates. -/
theorem ScoreRow.Candidates.visited
    (candidates : row.Candidates half overflow coarseThreshold round bound block) (topk : Int)
    (bin : Nat) :
    ((List.range (if overflow = true then row.length
        else min (block.numInput (round % 2)) smemInputSize)).filterMap
      (candidateAt half row overflow coarseThreshold round
        (storeRound round topk block.runCumsum bin))).Perm
      (level row.indices (row.rank half round) bound) := by
  cases overflow with
  | false =>
      rcases candidates.staged rfl with ⟨cands, listed, count, fits, stored⟩
      have visited : (List.range cands.length).filterMap (candidateAt half row false
          coarseThreshold round (storeRound round topk block.runCumsum bin)) = cands := by
        change (List.range cands.length).filterMap (fun turn =>
          some (block.inputIdx (round % 2) turn)) = cands
        rw [List.filterMap_eq_map']
        apply List.ext_getElem?
        intro i
        rw [List.getElem?_map]
        by_cases inside : i < cands.length
        · rw [List.getElem?_range inside, List.getElem?_eq_getElem inside]
          exact congrArg some (stored i _ (List.getElem?_eq_getElem inside))
        · rw [List.getElem?_eq_none (by rw [List.length_range]; omega),
            List.getElem?_eq_none (by omega)]
          rfl
      rw [if_neg Bool.false_ne_true, count, Nat.min_eq_left fits, visited]
      exact listed
  | true =>
      rw [if_pos rfl]
      have visited : (List.range row.length).filterMap (candidateAt half row true coarseThreshold
          round (storeRound round topk block.runCumsum bin)) =
          level row.indices (row.rank half round) bound := by
        unfold level ScoreRow.indices
        rw [← List.filterMap_eq_filter]
        apply List.filterMap_congr
        intro idx member
        have at_rank := candidates.rescanned rfl idx (List.mem_range.mp member)
        have digits : (storeRound round topk block.runCumsum bin).matchesPrefix row round idx =
            true <-> forall p, p < round -> row.digit p idx = block.prefixBins p := by
          rw [Block.matchesPrefix_iff]
          constructor
          · intro all p before
            have found := all p before
            change _ = Function.update block.prefixBins round bin p at found
            rwa [Function.update_of_ne (Nat.ne_of_lt before)] at found
          · intro all p before
            change _ = Function.update block.prefixBins round bin p
            rw [Function.update_of_ne (Nat.ne_of_lt before)]
            exact all p before
        change (if row.coarse half idx ≠ coarseThreshold then none
          else if (storeRound round topk block.runCumsum bin).matchesPrefix row round idx = false
            then none else some idx) = Option.guard _ idx
        by_cases own : row.rank half round idx = bound
        · rcases at_rank.mp own with ⟨coarse, found⟩
          have taken : Option.guard (fun item => decide (row.rank half round item = bound)) idx =
              some idx := Option.guard_eq_some_iff.mpr ⟨rfl, decide_eq_true own⟩
          rw [if_neg (not_not.mpr coarse), digits.mpr found, if_neg (by decide), taken]
        · have skipped : Option.guard (fun item => decide (row.rank half round item = bound)) idx =
              none := by
            unfold Option.guard
            rw [if_neg fun passed => own (of_decide_eq_true passed)]
          rw [skipped]
          by_cases coarse : row.coarse half idx = coarseThreshold
          · have unmatched : ¬ (storeRound round topk block.runCumsum bin).matchesPrefix row round
                idx = true := fun found => own (at_rank.mpr ⟨coarse, digits.mp found⟩)
            rw [if_neg (not_not.mpr coarse), if_pos (Bool.eq_false_iff.mpr unmatched)]
          · rw [if_pos coarse]
      rw [visited]

/-- The threshold of a round. -/
theorem Refining.threshold
    (refining : Refining half kTopK row overflow coarseThreshold round bound topk start block) :
    exists bin, bin < radix ∧
      IsThreshold (level row.indices (row.rank half round) bound) (row.digit round) topk bin ∧
      block.runCumsum.select topk (storeRound round topk) =
        storeRound round topk block.runCumsum bin ∧
      block.runCumsum.histogram (bin + 1) =
        tailCount (level row.indices (row.rank half round) bound) (row.digit round) (bin + 1) := by
  have digits : forall item, item ∈ level row.indices (row.rank half round) bound ->
      row.digit round item < radix := fun item _ => row.digit_lt round item
  have sums := Block.runCumsum_sums digits refining.counts
  rcases Block.select_threshold (storeRound round topk) digits sums refining.wanted.le
    refining.many with ⟨bin, inside, threshold, selected⟩
  exact ⟨bin, inside, threshold, selected, sums (bin + 1) (Nat.succ_le_of_lt inside)⟩

/-- What a round selects is no longer wanted. -/
theorem aboveLevel_extend_length {items : List Nat} {rank digit : Nat -> Nat}
    (digits : forall item, item ∈ items -> digit item < radix) (inside : bin < radix) :
    (aboveLevel items (extend radix rank digit) (bound * radix + bin)).length =
      (aboveLevel items rank bound).length +
        tailCount (level items rank bound) digit (bin + 1) := by
  rw [(aboveLevel_extend digits inside).length_eq, List.length_append]
  unfold tailCount
  rw [List.countP_eq_length_filter]
  rfl

/-- What a round leaves untouched before its loop. -/
theorem Gathered.stored {items : List Nat} {rank : Nat -> Nat}
    (gathered : Gathered items rank bound kTopK start block) :
    Gathered items rank bound kTopK start (storeRound round topk block.runCumsum bin) :=
  ⟨gathered.counter, gathered.front, gathered.kept⟩

theorem Gathered.cleared {items : List Nat} {rank : Nat -> Nat}
    (gathered : Gathered items rank bound kTopK start block) :
    Gathered items rank bound kTopK start block.clearHistogram :=
  ⟨gathered.counter, gathered.front, gathered.kept⟩

theorem Block.clearHistogram_zero (inside : bin ≤ radix) :
    block.clearHistogram.histogram bin = 0 := by
  change (Function.update block.histogramBuf 0 (fun (bin : Nat) =>
    if bin < radix + 1 then 0 else block.histogramBuf 0 bin) : Nat -> Nat -> Nat) 0 bin = 0
  rw [Function.update_self, if_pos (Nat.lt_succ_of_le inside)]

theorem onThreshold_quiet (idx : Nat) :
    (onThreshold overflow round idx).filterMap Atomic.emitted = [] := by
  unfold onThreshold
  split
  · rfl
  · split
    · rfl
    · rfl

/-- The threshold items of a staged round fit the staging buffer, as its
candidates did. -/
theorem Refining.fits
    (refining : Refining half kTopK row overflow coarseThreshold round bound topk start block)
    (fast : overflow = false) (inside : bin < radix) :
    (level row.indices (row.rank half (round + 1)) (bound * radix + bin)).length ≤
      smemInputSize := by
  rcases refining.candidates.staged fast with ⟨cands, listed, _, room, _⟩
  have fewer : level row.indices (row.rank half (round + 1)) (bound * radix + bin) =
      (level row.indices (row.rank half round) bound).filter fun item =>
        decide (row.digit round item = bin) :=
    level_extend (fun item _ => row.digit_lt round item) inside
  rw [fewer]
  calc
    _ ≤ (level row.indices (row.rank half round) bound).length := List.length_filter_le _ _
    _ = cands.length := listed.length_eq.symm
    _ ≤ smemInputSize := room

/-- The candidates of the next round are the items at the threshold of this one. -/
theorem ScoreRow.Candidates.next {trace : List Atomic} {phase : Phase}
    (candidates : row.Candidates half overflow coarseThreshold round bound block)
    (inside : bin < radix) (filled : phase.side = (round + 1) % 2)
    (empty : (storeRound round topk block.runCumsum bin).clearHistogram.numInput phase.side = 0)
    (staged : overflow = false -> (trace.filterMap Atomic.staged).Perm
      (level row.indices (row.rank half (round + 1)) (bound * radix + bin)))
    (fits : overflow = false -> (trace.filterMap Atomic.staged).length ≤ smemInputSize) :
    row.Candidates half overflow coarseThreshold (round + 1) (bound * radix + bin)
      (trace.foldl phase.perform (storeRound round topk block.runCumsum bin).clearHistogram) := by
  refine ⟨fun fast => ?_, fun slow idx listed => ?_⟩
  · have after := foldl_staged trace empty
    rw [← filled]
    refine ⟨_, staged fast, after.numInput, fits fast, ?_⟩
    intro i idx found
    exact after.inputIdx i idx found
      ((List.getElem?_eq_some_iff.mp found).1.trans_le (fits fast))
  · have at_rank := candidates.rescanned slow idx listed
    have at_next : row.rank half (round + 1) idx = bound * radix + bin <->
        row.rank half round idx = bound ∧ row.digit round idx = bin :=
      extend_eq_iff (row.digit_lt round idx) inside
    rw [foldl_prefixBins]
    change _ <-> _ ∧ forall p, p < round + 1 ->
      row.digit p idx = Function.update block.prefixBins round bin p
    rw [at_next, at_rank]
    constructor
    · rintro ⟨⟨coarse, digits⟩, own⟩
      refine ⟨coarse, fun p before => ?_⟩
      by_cases last : p = round
      · rw [last, Function.update_self]
        exact own
      · rw [Function.update_of_ne last]
        exact digits p (by omega)
    · rintro ⟨coarse, digits⟩
      refine ⟨⟨coarse, fun p before => ?_⟩, ?_⟩
      · have found := digits p (by omega)
        rwa [Function.update_of_ne (by omega)] at found
      · have found := digits round (Nat.lt_succ_self round)
        rwa [Function.update_self] at found

/-- A round that leaves something over makes the next round's candidates and
counts them. -/
theorem Refining.scanned
    (refining : Refining half kTopK row overflow coarseThreshold round bound topk start block)
    (early : round < 3) (inside : bin < radix)
    (threshold : IsThreshold (level row.indices (row.rank half round) bound) (row.digit round)
      topk bin)
    (left : topk - tailCount (level row.indices (row.rank half round) bound) (row.digit round)
      (bin + 1) ≠ 0)
    (orders : forall programs, Interleaves programs (order (3 + round) programs)) :
    Refining half kTopK row overflow coarseThreshold (round + 1) (bound * radix + bin)
      (topk - tailCount (level row.indices (row.rank half round) bound) (row.digit round)
        (bin + 1)) start
      (refineScan kTopK row (order (3 + round)) overflow round
        (if overflow = true then row.length else min (block.numInput (round % 2)) smemInputSize)
        bin
        (candidateAt half row overflow coarseThreshold round
          (storeRound round topk block.runCumsum bin))
        (storeRound round topk block.runCumsum bin)) := by
  have digits : forall item, item ∈ row.indices -> row.digit round item < radix :=
    fun item _ => row.digit_lt round item
  have thrice : round ≠ 3 := Nat.ne_of_lt early
  rcases Phase.run_scans ⟨kTopK, 1 - round % 2, row.digit (round + 1), !overflow⟩
    (onThreshold overflow round) (storeRound round topk block.runCumsum bin).clearHistogram
    orders digits inside onThreshold_quiet (refining.candidates.visited topk bin) with
    ⟨trace, scans, runs, preceded⟩
  have lengths : (aboveLevel row.indices (row.rank half (round + 1)) (bound * radix + bin)).length =
      _ := aboveLevel_extend_length digits inside
  have remaining := refining.remaining
  rcases Threshold.remaining threshold with ⟨nonneg, many⟩
  rw [← level_extend digits inside] at many
  have empty : (storeRound round topk block.runCumsum bin).clearHistogram.numInput
      (1 - round % 2) = 0 := Function.update_self (1 - round % 2) 0 block.numInput
  have tallied := scans.equal Atomic.tallied (fun _ => rfl) (by
    intro idx
    unfold onThreshold
    rw [if_neg thrice]
    split
    · rfl
    · rfl)
  have staged (fast : overflow = false) := scans.equal Atomic.staged (fun _ => rfl) (by
    intro idx
    unfold onThreshold
    rw [if_neg thrice, fast]
    rfl)
  have untied := scans.none Atomic.tied (fun _ => rfl) (by
    intro idx
    unfold onThreshold
    rw [if_neg thrice]
    split
    · rfl
    · rfl)
  have fits (fast : overflow = false) :
      (trace.filterMap Atomic.staged).length ≤ smemInputSize :=
    (staged fast).length_eq.trans_le (refining.fits fast inside)
  unfold refineScan
  rw [runs]
  refine ⟨?_, ?_, ?_, ?_, ?_, many⟩
  · apply scans.gathered ⟨kTopK, _, _, _⟩ refining.gathered.stored.cleared
    · change (aboveLevel row.indices (row.rank half (round + 1)) (bound * radix + bin)).length ≤
        kTopK
      omega
    · exact fun ties => absurd untied ties
  · intro other small
    rw [foldl_histogram trace other, Block.clearHistogram_zero small, Nat.zero_add]
    · exact tallied.countP_eq _
    · intro only
      have fast : overflow = false := Bool.not_eq_eq_eq_not.mp only
      refine ⟨empty, fits fast, preceded fun idx => ?_⟩
      unfold onThreshold
      rw [if_neg thrice, fast]
      exact stage_tally_preceded idx
  · exact refining.candidates.next inside (by dsimp only; omega) empty staged fits
  · omega
  · omega

end Rounds

end Kernels
end QSAHiSparse

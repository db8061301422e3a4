import QSAHiSparse.Kernels.FastTopkRefine
import Mathlib.Tactic.Positivity

namespace QSAHiSparse
namespace Kernels

open Foundation

/-!
# Exactness of the radix selection

The coarse stage and the rounds after it select everything above a rank.  A row
of output is full when nothing is left to select or when the last round has
filled its end with ties, which have one key.
-/

/-! ## Scores as numbers -/

/-- A score that is not a number. -/
def IsNaN (score : BitVec 32) : Prop :=
  score &&& 0x7F800000 = 0x7F800000 ∧ score &&& 0x007FFFFF ≠ 0

instance (score : BitVec 32) : Decidable (IsNaN score) :=
  inferInstanceAs (Decidable (_ ∧ _))

/-- What the exponent and the fraction of a score are worth, in units of the
least subnormal number. -/
def magnitude (bits : Nat) : Nat :=
  if bits < 2 ^ 23 then bits else (2 ^ 23 + bits % 2 ^ 23) * 2 ^ (bits / 2 ^ 23 - 1)

/-- The number a score stands for, in the same units; an infinity is the number
after the largest finite one. -/
def scoreValue (score : BitVec 32) : Option Int :=
  if IsNaN score then none
  else if score.toNat < 2 ^ 31 then some (magnitude score.toNat)
  else some (-magnitude (score.toNat - 2 ^ 31))

theorem magnitude_strictMono : StrictMono magnitude := by
  intro low high below
  unfold magnitude
  by_cases subnormal : high < 2 ^ 23
  · rw [if_pos (below.trans subnormal), if_pos subnormal]
    exact below
  · rw [if_neg subnormal]
    have leading : 2 ^ 23 ≤ (2 ^ 23 + high % 2 ^ 23) * 2 ^ (high / 2 ^ 23 - 1) :=
      Nat.le_trans (Nat.le_add_right _ _) (Nat.le_mul_of_pos_right _ (by positivity))
    by_cases small : low < 2 ^ 23
    · rw [if_pos small]
      exact Nat.lt_of_lt_of_le small leading
    · rw [if_neg small]
      rcases Nat.lt_or_eq_of_le (Nat.div_le_div_right (c := 2 ^ 23) below.le) with binade | binade
      · have carry : low / 2 ^ 23 - 1 + 1 ≤ high / 2 ^ 23 - 1 := by omega
        calc (2 ^ 23 + low % 2 ^ 23) * 2 ^ (low / 2 ^ 23 - 1)
            < 2 ^ 23 * 2 * 2 ^ (low / 2 ^ 23 - 1) :=
              Nat.mul_lt_mul_of_pos_right (by omega) (by positivity)
          _ = 2 ^ 23 * 2 ^ (low / 2 ^ 23 - 1 + 1) := by
              rw [Nat.pow_succ' (n := low / 2 ^ 23 - 1), Nat.mul_assoc]
          _ ≤ 2 ^ 23 * 2 ^ (high / 2 ^ 23 - 1) :=
              Nat.mul_le_mul_left _ (Nat.pow_le_pow_right (by decide) carry)
          _ ≤ (2 ^ 23 + high % 2 ^ 23) * 2 ^ (high / 2 ^ 23 - 1) :=
              Nat.mul_le_mul_right _ (Nat.le_add_right _ _)
      · rw [binade]
        exact Nat.mul_lt_mul_of_pos_right (by omega) (by positivity)

theorem convertToUint32_toNat (score : BitVec 32) :
    (convertToUint32 score).toNat =
      if score.toNat < 2 ^ 31 then score.toNat + 2 ^ 31 else 2 ^ 32 - 1 - score.toNat := by
  have sign : score &&& 0x80000000 ≠ 0 <-> ¬ score.toNat < 2 ^ 31 := by
    have masked : score &&& 0x80000000 = if score.getLsbD 31 then BitVec.twoPow 32 31 else 0 :=
      BitVec.and_twoPow score 31
    have top : score.getLsbD 31 = decide (2 ^ 31 ≤ score.toNat) :=
      (BitVec.msb_eq_getLsbD_last score).symm.trans (BitVec.msb_eq_decide score)
    rw [masked, top, not_lt]
    by_cases negative : 2 ^ 31 ≤ score.toNat
    · rw [decide_eq_true negative]
      exact ⟨fun _ => negative, fun _ => by decide⟩
    · rw [decide_eq_false negative]
      exact ⟨fun set => absurd rfl set, fun large => absurd large negative⟩
  unfold convertToUint32
  by_cases positive : score.toNat < 2 ^ 31
  · rw [if_neg (fun set => sign.mp set positive), if_pos positive, BitVec.toNat_or]
    have apart := Nat.two_pow_add_eq_or_of_lt positive 1
    rw [Nat.mul_one] at apart
    rw [Nat.or_comm, Nat.add_comm]
    exact apart.symm
  · rw [if_pos (sign.mpr positive), if_neg positive, BitVec.toNat_not]

/-- The order key orders scores as the numbers they stand for. -/
theorem convertToUint32_orders {first second : BitVec 32} {low high : Int}
    (one : scoreValue first = some low) (other : scoreValue second = some high)
    (below : low < high) : convertToUint32 first < convertToUint32 second := by
  unfold scoreValue at one other
  split at one
  · cases one
  · split at other
    · cases other
    · have firstFits := first.isLt
      rw [BitVec.lt_def, convertToUint32_toNat, convertToUint32_toNat]
      by_cases firstSign : first.toNat < 2 ^ 31
      · rw [if_pos firstSign, Option.some_inj] at one
        by_cases secondSign : second.toNat < 2 ^ 31
        · rw [if_pos secondSign, Option.some_inj] at other
          have smaller : first.toNat < second.toNat :=
            magnitude_strictMono.lt_iff_lt.mp (by omega)
          rw [if_pos firstSign, if_pos secondSign]
          omega
        · rw [if_neg secondSign, Option.some_inj] at other
          omega
      · rw [if_neg firstSign, Option.some_inj] at one
        by_cases secondSign : second.toNat < 2 ^ 31
        · rw [if_neg firstSign, if_pos secondSign]
          omega
        · rw [if_neg secondSign, Option.some_inj] at other
          have smaller : second.toNat - 2 ^ 31 < first.toNat - 2 ^ 31 :=
            magnitude_strictMono.lt_iff_lt.mp (by omega)
          rw [if_neg firstSign, if_neg secondSign]
          omega

/-! ## The specification -/

/-- The order key of an index. -/
def ScoreRow.key (row : ScoreRow) (idx : Nat) : BitVec 32 :=
  convertToUint32 (row.input (idx + row.rowStart))

/-- The output row. -/
def Block.output (block : Block) (kTopK : Nat) : List Nat :=
  (List.range kTopK).map block.index

/-- The output row holds distinct indices of the largest scores, and nothing is
written past its end. -/
structure TopkExact (row : ScoreRow) (kTopK : Nat) (start after : Block) : Prop where
  distinct : (after.output kTopK).Nodup
  inRange : forall idx, idx ∈ after.output kTopK -> idx < row.length
  largest : forall other idx, other < row.length -> other ∉ after.output kTopK ->
    idx ∈ after.output kTopK -> row.key other ≤ row.key idx
  kept : forall pos, kTopK ≤ pos -> after.index pos = start.index pos

/-! ## Ranks and keys -/

section Ranks

variable {half : BitVec 32 -> BitVec 16} {row : ScoreRow}

theorem ScoreRow.digit_eq {round idx : Nat} (early : round ≤ 3) :
    row.digit round idx = (row.key idx).toNat / 256 ^ (3 - round) % 256 := by
  have power : 2 ^ (24 - round * 8) = 256 ^ (3 - round) := by
    have exponent : 24 - round * 8 = 8 * (3 - round) := by omega
    rw [exponent, Nat.pow_mul]
  unfold ScoreRow.digit radixDigit ScoreRow.key
  rw [BitVec.toNat_and, BitVec.toNat_ushiftRight, Nat.shiftRight_eq_div_pow, power]
  exact Nat.and_two_pow_sub_one_eq_mod _ 8

/-- The rank is the coarse bin and the leading bytes of the key. -/
theorem ScoreRow.rank_eq {round idx : Nat} (early : round ≤ 4) :
    row.rank half round idx =
      row.coarse half idx * 256 ^ round + (row.key idx).toNat / 256 ^ (4 - round) := by
  induction round with
  | zero =>
      have none_left : (row.key idx).toNat / 256 ^ 4 = 0 :=
        Nat.div_eq_of_lt (row.key idx).isLt
      change 0 * radix + row.coarse half idx = _
      rw [none_left]
      omega
  | succ round inductionHypothesis =>
      have earlier := inductionHypothesis (Nat.le_of_succ_le early)
      have digit : row.digit round idx = _ := row.digit_eq (Nat.le_of_succ_le_succ early)
      have power : 256 ^ (4 - round) = 256 ^ (3 - round) * 256 := by
        rw [← Nat.pow_succ]
        congr 1
        omega
      change row.rank half round idx * 256 + row.digit round idx = _
      rw [earlier, digit, power, ← Nat.div_div_eq_div_mul, Nat.succ_sub_succ, Nat.pow_succ]
      have whole := Nat.div_add_mod ((row.key idx).toNat / 256 ^ (3 - round)) 256
      rw [Nat.add_mul, Nat.mul_assoc]
      omega

/-- The rounding of scores keeps their order. -/
def RoundsMonotone (half : BitVec 32 -> BitVec 16) : Prop :=
  forall first second, ¬ IsNaN first -> ¬ IsNaN second ->
    convertToUint32 first ≤ convertToUint32 second ->
      convertToUint8 half first ≤ convertToUint8 half second

theorem ScoreRow.rank_le {round first second : Nat} (early : round ≤ 4)
    (rounding : RoundsMonotone half)
    (numbers : forall idx, idx < row.length -> ¬ IsNaN (row.input (idx + row.rowStart)))
    (one : first < row.length) (other : second < row.length)
    (below : row.key first ≤ row.key second) :
    row.rank half round first ≤ row.rank half round second := by
  rw [row.rank_eq early, row.rank_eq early]
  have coarse : row.coarse half first ≤ row.coarse half second :=
    rounding _ _ (numbers first one) (numbers second other) below
  exact Nat.add_le_add (Nat.mul_le_mul_right _ coarse) (Nat.div_le_div_right below)

/-- A full rank determines the key. -/
theorem ScoreRow.key_eq_of_rank {first second : Nat}
    (same : row.rank half 4 first = row.rank half 4 second) : row.key first = row.key second := by
  rw [row.rank_eq le_rfl, row.rank_eq le_rfl, Nat.sub_self, Nat.pow_zero, Nat.div_one,
    Nat.div_one] at same
  apply BitVec.eq_of_toNat_eq
  have one := (row.key first).isLt
  have other := (row.key second).isLt
  omega

end Ranks

/-! ## Full output rows -/

section Full

variable {half : BitVec 32 -> BitVec 16} {kTopK : Nat} {row : ScoreRow} {order : Nat -> Order}
  {overflow : Bool} {coarseThreshold round bound : Nat} {topk : Int} {start block : Block}

theorem ScoreRow.mem_indices {idx : Nat} : idx ∈ row.indices <-> idx < row.length :=
  List.mem_range

theorem mem_aboveLevel {items : List Nat} {rank : Nat -> Nat} {idx : Nat} :
    idx ∈ aboveLevel items rank bound <-> idx ∈ items ∧ bound < rank idx := by
  unfold aboveLevel
  rw [List.mem_filter, decide_eq_true_iff]

theorem mem_level {items : List Nat} {rank : Nat -> Nat} {idx : Nat} :
    idx ∈ level items rank bound <-> idx ∈ items ∧ rank idx = bound := by
  unfold level
  rw [List.mem_filter, decide_eq_true_iff]

/-- A list of as many entries as the output row has, each in its place. -/
theorem Block.output_eq {out : List Nat} (length : out.length = kTopK)
    (listed : forall (i : Nat) idx, out[i]? = some idx -> block.index i = idx) :
    block.output kTopK = out := by
  apply List.ext_getElem?
  intro i
  unfold Block.output
  rw [List.getElem?_map]
  by_cases inside : i < out.length
  · rw [List.getElem?_range (length ▸ inside), List.getElem?_eq_getElem inside]
    exact congrArg some (listed i _ (List.getElem?_eq_getElem inside))
  · rw [List.getElem?_eq_none (by rw [List.length_range]; omega),
      List.getElem?_eq_none (not_lt.mp inside)]
    rfl

/-- A selection that has everything above a rank, nothing below it, and ties of
one key. -/
theorem TopkExact.of_selected {depth : Nat} {out : List Nat} (bound : Nat) (early : depth ≤ 4)
    (rounding : RoundsMonotone half)
    (numbers : forall idx, idx < row.length -> ¬ IsNaN (row.input (idx + row.rowStart)))
    (length : out.length = kTopK)
    (listed : forall (i : Nat) idx, out[i]? = some idx -> block.index i = idx)
    (distinct : out.Nodup)
    (inside : forall idx, idx ∈ out -> idx ∈ row.indices ∧ bound ≤ row.rank half depth idx)
    (complete : forall idx, idx ∈ row.indices -> bound < row.rank half depth idx -> idx ∈ out)
    (ties : (forall idx, idx ∈ out -> bound < row.rank half depth idx) ∨ depth = 4)
    (kept : forall pos, kTopK ≤ pos -> block.index pos = start.index pos) :
    TopkExact row kTopK start block := by
  have monotone (first second : Nat) (one : first ∈ row.indices) (two : second ∈ row.indices)
      (below : (row.key first).toNat ≤ (row.key second).toNat) :
      row.rank half depth first ≤ row.rank half depth second :=
    row.rank_le early rounding numbers (ScoreRow.mem_indices.mp one) (ScoreRow.mem_indices.mp two)
      below
  have alike : (forall idx, idx ∈ out -> bound < row.rank half depth idx) ∨
      forall first second, first ∈ row.indices -> second ∈ row.indices ->
        row.rank half depth first = bound -> row.rank half depth second = bound ->
          (row.key first).toNat = (row.key second).toNat := by
    rcases ties with above | all_digits
    · exact Or.inl above
    · rw [all_digits]
      right
      intro first second _ _ one two
      rw [ScoreRow.key_eq_of_rank (one.trans two.symm)]
  have output := Block.output_eq length listed
  refine ⟨?_, ?_, ?_, kept⟩
  · rw [output]
    exact distinct
  · rw [output]
    exact fun idx member => ScoreRow.mem_indices.mp (inside idx member).1
  · rw [output]
    intro other idx in_row left_out member
    exact selection_largest monotone inside complete alike other idx
      (ScoreRow.mem_indices.mpr in_row) left_out member

/-- Everything above a rank fills the output row. -/
theorem Gathered.full {depth : Nat} (early : depth ≤ 4) (rounding : RoundsMonotone half)
    (numbers : forall idx, idx < row.length -> ¬ IsNaN (row.input (idx + row.rowStart)))
    (gathered : Gathered row.indices (row.rank half depth) bound kTopK start block)
    (full : (aboveLevel row.indices (row.rank half depth) bound).length = kTopK) :
    TopkExact row kTopK start block := by
  rcases gathered.front with ⟨out, selected, listed⟩
  have taken (idx : Nat) : idx ∈ out <->
      idx ∈ row.indices ∧ bound < row.rank half depth idx := by
    rw [selected.mem_iff, mem_aboveLevel]
  apply TopkExact.of_selected bound early rounding numbers (selected.length_eq.trans full) listed
  · exact selected.nodup_iff.mpr (List.nodup_range.filter _)
  · exact fun idx member => ⟨((taken idx).mp member).1, ((taken idx).mp member).2.le⟩
  · exact fun idx in_row above => (taken idx).mpr ⟨in_row, above⟩
  · exact Or.inl fun idx member => ((taken idx).mp member).2
  · exact gathered.kept

/-- The loop after which nothing is left to select. -/
theorem Gathered.emitAbove {items : List Nat} {rank digit : Nat -> Nat} {bin count : Nat}
    {phaseOrder : Order} {indexOf : Nat -> Option Nat}
    (gathered : Gathered items rank bound kTopK start block)
    (digits : forall item, item ∈ items -> digit item < radix) (inside : bin < radix)
    (orders : forall programs, Interleaves programs (phaseOrder programs))
    (candidates : ((List.range count).filterMap indexOf).Perm (level items rank bound))
    (full : (aboveLevel items (extend radix rank digit) (bound * radix + bin)).length = kTopK) :
    Gathered items (extend radix rank digit) (bound * radix + bin) kTopK start
      (emitAbove kTopK phaseOrder count indexOf digit bin block) := by
  rcases Phase.run_scans ⟨kTopK, 0, digit, false⟩ (fun _ => []) block orders digits inside
    (fun _ => rfl) candidates with ⟨trace, scans, runs, _⟩
  have untied := scans.none Atomic.tied (fun _ => rfl) (fun _ => rfl)
  unfold Kernels.emitAbove
  rw [runs]
  exact scans.gathered ⟨kTopK, 0, digit, false⟩ gathered full.le fun ties => absurd untied ties

/-- A round that leaves nothing to select fills the output row. -/
theorem Refining.emitAbove {bin : Nat}
    (refining : Refining half kTopK row overflow coarseThreshold round bound topk start block)
    (rounding : RoundsMonotone half)
    (numbers : forall idx, idx < row.length -> ¬ IsNaN (row.input (idx + row.rowStart)))
    (early : round ≤ 3)
    (orders : forall programs, Interleaves programs (order (3 + round) programs))
    (inside : bin < radix)
    (sum : block.runCumsum.histogram (bin + 1) =
      tailCount (level row.indices (row.rank half round) bound) (row.digit round) (bin + 1))
    (all_taken : topk - (block.runCumsum.histogram (bin + 1) : Int) = 0) :
    TopkExact row kTopK start
      (Kernels.emitAbove kTopK (order (3 + round))
        (if overflow = true then row.length else min (block.numInput (round % 2)) smemInputSize)
        (candidateAt half row overflow coarseThreshold round
          (storeRound round topk block.runCumsum bin))
        (row.digit round) bin (storeRound round topk block.runCumsum bin)) := by
  have digits : forall item, item ∈ row.indices -> row.digit round item < radix :=
    fun item _ => row.digit_lt round item
  have remaining := refining.remaining
  have full : (aboveLevel row.indices (row.rank half (round + 1)) (bound * radix + bin)).length =
      kTopK := by
    have lengths : (aboveLevel row.indices (row.rank half (round + 1)) (bound * radix + bin)).length =
        (aboveLevel row.indices (row.rank half round) bound).length +
          tailCount (level row.indices (row.rank half round) bound) (row.digit round) (bin + 1) :=
      aboveLevel_extend_length digits inside
    omega
  exact (refining.gathered.stored.emitAbove digits inside orders
    (refining.candidates.visited topk bin) full).full (Nat.succ_le_succ early) rounding numbers full

/-- The last round fills the end of the output row with ties. -/
theorem Refining.lastRound {bin : Nat}
    (refining : Refining half kTopK row overflow coarseThreshold 3 bound topk start block)
    (rounding : RoundsMonotone half)
    (numbers : forall idx, idx < row.length -> ¬ IsNaN (row.input (idx + row.rowStart)))
    (inside : bin < radix)
    (threshold : IsThreshold (level row.indices (row.rank half 3) bound) (row.digit 3) topk bin)
    (sum : block.runCumsum.histogram (bin + 1) =
      tailCount (level row.indices (row.rank half 3) bound) (row.digit 3) (bin + 1))
    (orders : forall programs, Interleaves programs (order 6 programs)) :
    TopkExact row kTopK start
      (refineScan kTopK row (order 6) overflow 3
        (if overflow = true then row.length else min (block.numInput (3 % 2)) smemInputSize)
        bin
        (candidateAt half row overflow coarseThreshold 3
          (storeRound 3 topk block.runCumsum bin))
        (storeRound 3 topk block.runCumsum bin)) := by
  have digits : forall item, item ∈ row.indices -> row.digit 3 item < radix :=
    fun item _ => row.digit_lt 3 item
  rcases Phase.run_scans ⟨kTopK, 1 - 3 % 2, row.digit (3 + 1), !overflow⟩
    (onThreshold overflow 3) (storeRound 3 topk block.runCumsum bin).clearHistogram
    orders digits inside onThreshold_quiet (refining.candidates.visited topk bin) with
    ⟨trace, scans, runs, _⟩
  have lengths : (aboveLevel row.indices (row.rank half 4) (bound * radix + bin)).length =
      (aboveLevel row.indices (row.rank half 3) bound).length +
        tailCount (level row.indices (row.rank half 3) bound) (row.digit 3) (bin + 1) :=
    aboveLevel_extend_length digits inside
  have remaining := refining.remaining
  rcases Threshold.remaining threshold with ⟨nonneg, many⟩
  rw [← level_extend digits inside] at many
  change _ < ((level row.indices (row.rank half 4) (bound * radix + bin)).length : Int) at many
  have remain : (storeRound 3 topk block.runCumsum bin).clearHistogram.lastRemain =
      topk - tailCount (level row.indices (row.rank half 3) bound) (row.digit 3) (bin + 1) := by
    rw [← sum]
    rfl
  have tied : (trace.filterMap Atomic.tied).Perm
      (level row.indices (row.rank half 4) (bound * radix + bin)) :=
    scans.equal Atomic.tied (fun _ => rfl) (fun _ => rfl)
  have room : (aboveLevel row.indices (row.rank half 4) (bound * radix + bin)).length ≤ kTopK := by
    omega
  have ends (_ : trace.filterMap Atomic.tied ≠ []) :
      ((aboveLevel row.indices (row.rank half 4) (bound * radix + bin)).length : Int) ≤
        kTopK - (storeRound 3 topk block.runCumsum bin).clearHistogram.lastRemain := by
    omega
  have gathered := scans.gathered ⟨kTopK, 1 - 3 % 2, row.digit (3 + 1), !overflow⟩
    refining.gathered.stored.cleared room ends
  have written := scans.written ⟨kTopK, 1 - 3 % 2, row.digit (3 + 1), !overflow⟩
    refining.gathered.stored.cleared room ends
  rcases gathered.front with ⟨out, selected, listed⟩
  have front : out.length =
      (aboveLevel row.indices (row.rank half 4) (bound * radix + bin)).length :=
    selected.length_eq
  generalize wanted_eq : (topk - (tailCount (level row.indices (row.rank half 3) bound)
    (row.digit 3) (bin + 1) : Int)).toNat = wanted
  have taken : ((trace.filterMap Atomic.tied).take wanted).length = wanted := by
    rw [List.length_take, tied.length_eq]
    omega
  have is_tie (idx : Nat) (member : idx ∈ (trace.filterMap Atomic.tied).take wanted) :
      idx ∈ row.indices ∧ row.rank half 4 idx = bound * radix + bin :=
    mem_level.mp (tied.mem_iff.mp (List.mem_of_mem_take member))
  have is_above (idx : Nat) : idx ∈ out <->
      idx ∈ row.indices ∧ bound * radix + bin < row.rank half 4 idx := by
    rw [selected.mem_iff]
    exact mem_aboveLevel
  unfold refineScan
  rw [runs]
  refine TopkExact.of_selected (bound * radix + bin) (le_refl 4) rounding numbers
    (?_ : (out ++ (trace.filterMap Atomic.tied).take wanted).length = kTopK) ?_ ?_ ?_ ?_
    (Or.inr rfl) gathered.kept
  · rw [List.length_append, taken]
    omega
  · intro i idx found
    by_cases early : i < out.length
    · rw [List.getElem?_append_left early] at found
      exact listed i idx found
    · rw [List.getElem?_append_right (not_lt.mp early)] at found
      have bounded := (List.getElem?_eq_some_iff.mp found).1
      rw [taken] at bounded
      rw [List.getElem?_take_of_lt bounded] at found
      have slot := written.ties _ idx found (by omega)
      dsimp only at slot
      have place : ((kTopK : Int) - (storeRound 3 topk block.runCumsum bin).clearHistogram.lastRemain +
          ((i - out.length : Nat) : Int)).toNat = i := by omega
      rwa [place] at slot
  · apply List.nodup_append.mpr
    refine ⟨selected.nodup_iff.mpr (List.nodup_range.filter _),
      (tied.nodup_iff.mpr (List.nodup_range.filter _)).sublist (List.take_sublist _ _), ?_⟩
    intro first one second two same
    have above := ((is_above first).mp one).2
    have at_rank := (is_tie second two).2
    rw [same] at above
    omega
  · intro idx member
    rcases List.mem_append.mp member with above | tie
    · exact ⟨((is_above idx).mp above).1, ((is_above idx).mp above).2.le⟩
    · exact ⟨(is_tie idx tie).1, (is_tie idx tie).2.ge⟩
  · intro idx in_row above
    exact List.mem_append_left _ ((is_above idx).mpr ⟨in_row, above⟩)

/-! ## The rounds -/

theorem refine_succ {left bin : Nat}
    (selected : block.runCumsum.select topk (storeRound (3 - left) topk) =
      storeRound (3 - left) topk block.runCumsum bin) :
    refine half kTopK row order overflow coarseThreshold (left + 1) topk block =
      if topk - block.runCumsum.histogram (bin + 1) = 0 then
        emitAbove kTopK (order (3 + (3 - left)))
          (if overflow = true then row.length
            else min (block.numInput ((3 - left) % 2)) smemInputSize)
          (candidateAt half row overflow coarseThreshold (3 - left)
            (storeRound (3 - left) topk block.runCumsum bin))
          (row.digit (3 - left)) bin (storeRound (3 - left) topk block.runCumsum bin)
      else
        refine half kTopK row order overflow coarseThreshold left
          (topk - block.runCumsum.histogram (bin + 1))
          (refineScan kTopK row (order (3 + (3 - left))) overflow (3 - left)
            (if overflow = true then row.length
              else min (block.numInput ((3 - left) % 2)) smemInputSize) bin
            (candidateAt half row overflow coarseThreshold (3 - left)
              (storeRound (3 - left) topk block.runCumsum bin))
            (storeRound (3 - left) topk block.runCumsum bin)) := by
  rw [refine]
  rw [selected]
  rfl

/-- From any round on, the output row is filled. -/
theorem Refining.exact (rounding : RoundsMonotone half)
    (numbers : forall idx, idx < row.length -> ¬ IsNaN (row.input (idx + row.rowStart)))
    (orders : forall phase programs, Interleaves programs (order phase programs)) (left : Nat) :
    left ≤ 3 -> forall (bound : Nat) (topk : Int) (block : Block),
      Refining half kTopK row overflow coarseThreshold (3 - left) bound topk start block ->
        TopkExact row kTopK start
          (refine half kTopK row order overflow coarseThreshold (left + 1) topk block) := by
  induction left with
  | zero =>
      intro _ bound topk block refining
      rcases refining.threshold with ⟨bin, inside, threshold, selected, sum⟩
      rw [refine_succ selected]
      split
      next all_taken =>
        exact refining.emitAbove rounding numbers (by omega) (orders 6) inside sum all_taken
      next some_left =>
        exact refining.lastRound rounding numbers inside threshold sum (orders 6)
  | succ left inductionHypothesis =>
      intro early bound topk block refining
      rcases refining.threshold with ⟨bin, inside, threshold, selected, sum⟩
      rw [refine_succ selected]
      split
      next all_taken =>
        exact refining.emitAbove rounding numbers (by omega) (orders _) inside sum all_taken
      next some_left =>
        have next_round : 3 - (left + 1) + 1 = 3 - left := by omega
        apply inductionHypothesis (Nat.le_of_succ_le early) (bound * radix + bin)
        rw [sum] at some_left ⊢
        rw [← next_round]
        exact refining.scanned (by omega) inside threshold some_left (orders _)

/-! ## The coarse stage -/

/-- A loop that only tallies some of the indices. -/
theorem Phase.run_tallies (phase : Phase) {phaseOrder : Order} (count : Nat)
    (chosen : Nat -> Prop) [DecidablePred chosen] (block : Block) (every : phase.stagedOnly = false)
    (orders : forall programs, Interleaves programs (phaseOrder programs)) :
    (phase.run phaseOrder count (fun idx => if chosen idx then [.tally idx] else [])
        block.clearHistogram).Counts ((List.range count).filter fun idx => decide (chosen idx)) phase.bin ∧
      (phase.run phaseOrder count (fun idx => if chosen idx then [.tally idx] else [])
        block.clearHistogram).index = block.index ∧
      (phase.run phaseOrder count (fun idx => if chosen idx then [.tally idx] else [])
        block.clearHistogram).counter = block.counter := by
  rcases phase.run_trace count (fun idx => if chosen idx then [.tally idx] else [])
    block.clearHistogram orders with ⟨trace, complete, runs, _⟩
  have tallies (action : Atomic) (member : action ∈ trace) : exists idx, action = .tally idx := by
    rcases List.mem_flatMap.mp (complete.mem_iff.mp member) with ⟨idx, _, made⟩
    split at made
    · exact ⟨idx, List.mem_singleton.mp made⟩
    · exact absurd made List.not_mem_nil
  have nothing : trace.filterMap Atomic.emitted = [] := by
    apply List.filterMap_eq_nil_iff.mpr
    intro action member
    rcases tallies action member with ⟨idx, rfl⟩
    rfl
  have listed (turns : List Nat) :
      (turns.flatMap fun idx => if chosen idx then [Atomic.tally idx] else []).filterMap
        Atomic.tallied = turns.filter fun idx => decide (chosen idx) := by
    induction turns with
    | nil => rfl
    | cons turn turns inductionHypothesis =>
        rw [List.flatMap_cons, List.filterMap_append, inductionHypothesis, List.filter_cons]
        by_cases own : chosen turn
        · rw [if_pos own, if_pos (decide_eq_true own)]
          rfl
        · rw [if_neg own, if_neg fun passed => own (of_decide_eq_true passed)]
          rfl
  have tallied := complete.filterMap Atomic.tallied
  rw [listed] at tallied
  rw [runs]
  refine ⟨?_, ?_, ?_⟩
  · intro bin inside
    rw [foldl_histogram trace bin fun only => absurd (every.symm.trans only) Bool.false_ne_true,
      Block.clearHistogram_zero inside, Nat.zero_add]
    exact tallied.countP_eq _
  · exact foldl_index_same trace tallies
  · rw [foldl_counter, nothing]
    rfl

/-- Every index is at the rank of no digits. -/
theorem level_none (items : List Nat) : level items (fun _ => 0) 0 = items :=
  List.filter_eq_self.mpr fun _ _ => rfl

theorem aboveLevel_none (items : List Nat) : aboveLevel items (fun _ => 0) 0 = [] :=
  List.filter_eq_nil_iff.mpr fun _ _ => Bool.false_ne_true

/-- The coarse threshold of the row. -/
theorem coarse_threshold (half : BitVec 32 -> BitVec 16) (block : Block)
    (long : kTopK < row.length)
    (orders : forall programs, Interleaves programs (order 0 programs)) :
    exists bin, bin < radix ∧
      IsThreshold row.indices (row.coarse half) kTopK bin ∧
      (coarseHistogram half kTopK row order block).runCumsum.select kTopK storeCoarse =
        storeCoarse (coarseHistogram half kTopK row order block).runCumsum bin ∧
      (coarseHistogram half kTopK row order block).runCumsum.histogram (bin + 1) =
        tailCount row.indices (row.coarse half) (bin + 1) := by
  have digits : forall item, item ∈ row.indices -> row.coarse half item < radix :=
    fun item _ => row.coarse_lt half item
  have counted := (Phase.run_tallies ⟨kTopK, 0, row.coarse half, false⟩ row.length
    (fun _ => True) block rfl orders).1
  have counts : (coarseHistogram half kTopK row order block).Counts row.indices
      (row.coarse half) := by
    intro bin inside
    have found := counted bin inside
    rwa [List.filter_eq_self.mpr fun _ _ => decide_eq_true trivial] at found
  have sums := Block.runCumsum_sums digits counts
  have many : (kTopK : Int) < row.indices.length := by
    unfold ScoreRow.indices
    rw [List.length_range]
    omega
  rcases Block.select_threshold storeCoarse digits sums (Int.natCast_nonneg kTopK) many with
    ⟨bin, inside, threshold, selected⟩
  exact ⟨bin, inside, threshold, selected, sums (bin + 1) (Nat.succ_le_of_lt inside)⟩

/-- Before the coarse stage nothing is selected. -/
theorem storeCoarse_gathered {bin : Nat}
    (orders : forall programs, Interleaves programs (order 0 programs)) :
    Gathered row.indices (fun _ => 0) 0 kTopK block
      (storeCoarse (coarseHistogram half kTopK row order block).runCumsum bin) := by
  have same := (Phase.run_tallies ⟨kTopK, 0, row.coarse half, false⟩ row.length
    (fun _ => True) block rfl orders).2.1
  refine ⟨?_, ⟨[], ?_, fun _ _ found => nomatch found⟩, ?_⟩
  · rw [aboveLevel_none]
    rfl
  · rw [aboveLevel_none]
  · intro pos _
    exact congrFun same pos

/-- What the coarse stage leaves. -/
theorem stageCoarse_scanned {bin : Nat}
    (orders : forall programs, Interleaves programs (order 1 programs))
    (inside : bin < radix) (before : Gathered row.indices (fun _ => 0) 0 kTopK start block)
    (room : (aboveLevel row.indices (row.rank half 0) (0 * radix + bin)).length ≤ kTopK)
    (empty : block.numInput 0 = 0) :
    Gathered row.indices (row.rank half 0) (0 * radix + bin) kTopK start
        (stageCoarse half kTopK row order bin block) ∧
      (stageCoarse half kTopK row order bin block).numInput 0 =
        (level row.indices (row.rank half 0) (0 * radix + bin)).length ∧
      ((stageCoarse half kTopK row order bin block).numInput 0 ≤ smemInputSize ->
        (stageCoarse half kTopK row order bin block).Counts
            (level row.indices (row.rank half 0) (0 * radix + bin)) (row.digit 0) ∧
          row.Candidates half false bin 0 (0 * radix + bin)
            (stageCoarse half kTopK row order bin block)) := by
  have digits : forall item, item ∈ row.indices -> row.coarse half item < radix :=
    fun item _ => row.coarse_lt half item
  have every : ((List.range row.length).filterMap some).Perm (level row.indices (fun _ => 0) 0) := by
    rw [List.filterMap_some, level_none]
    exact .refl _
  rcases Phase.run_scans ⟨kTopK, 0, row.digit 0, true⟩ (fun idx => [.stage idx, .tally idx])
    block.clearHistogram orders digits inside (fun _ => rfl) every with
    ⟨trace, scans, runs, preceded⟩
  have untied := scans.none Atomic.tied (fun _ => rfl) (fun _ => rfl)
  have listed : (trace.filterMap Atomic.staged).Perm
      (level row.indices (row.rank half 0) (0 * radix + bin)) :=
    scans.equal Atomic.staged (fun _ => rfl) (fun _ => rfl)
  have tallied : (trace.filterMap Atomic.tallied).Perm
      (level row.indices (row.rank half 0) (0 * radix + bin)) :=
    scans.equal Atomic.tallied (fun _ => rfl) (fun _ => rfl)
  have staged : Staged ⟨kTopK, 0, row.digit 0, true⟩ (trace.filterMap Atomic.staged)
      (trace.foldl (Phase.perform ⟨kTopK, 0, row.digit 0, true⟩) block.clearHistogram) :=
    foldl_staged trace empty
  have same : stageCoarse half kTopK row order bin block =
      trace.foldl (Phase.perform ⟨kTopK, 0, row.digit 0, true⟩) block.clearHistogram := runs
  rw [same]
  refine ⟨?_, ?_, fun fits => ⟨?_, ?_⟩⟩
  · exact scans.gathered ⟨kTopK, 0, row.digit 0, true⟩ before.cleared room
      fun ties => absurd untied ties
  · exact staged.numInput.trans listed.length_eq
  · intro digit small
    rw [foldl_histogram trace digit, Block.clearHistogram_zero small, Nat.zero_add]
    · exact tallied.countP_eq _
    · exact fun _ => ⟨empty, staged.numInput.symm.trans_le fits, preceded stage_tally_preceded⟩
  · refine ⟨fun _ => ⟨_, listed, staged.numInput, staged.numInput.symm.trans_le fits, ?_⟩,
      fun slow => absurd slow Bool.false_ne_true⟩
    intro i idx found
    exact staged.inputIdx i idx found
      ((List.getElem?_eq_some_iff.mp found).1.trans_le (staged.numInput.symm.trans_le fits))

/-- What the rescan after an overflow leaves. -/
theorem rescanCoarse_scanned {bin : Nat}
    (orders : forall programs, Interleaves programs (order 2 programs)) (inside : bin < radix)
    (before : Gathered row.indices (row.rank half 0) (0 * radix + bin) kTopK start block) :
    Gathered row.indices (row.rank half 0) (0 * radix + bin) kTopK start
        (rescanCoarse half kTopK row order bin block) ∧
      (rescanCoarse half kTopK row order bin block).Counts
        (level row.indices (row.rank half 0) (0 * radix + bin)) (row.digit 0) ∧
      row.Candidates half true bin 0 (0 * radix + bin)
        (rescanCoarse half kTopK row order bin block) := by
  have at_bin (idx : Nat) : row.rank half 0 idx = 0 * radix + bin <-> row.coarse half idx = bin :=
    (extend_eq_iff (row.coarse_lt half idx) inside).trans (and_iff_right rfl)
  have candidates : level row.indices (row.rank half 0) (0 * radix + bin) =
      (List.range row.length).filter fun idx => decide (row.coarse half idx = bin) :=
    List.filter_congr fun idx _ => decide_eq_decide.mpr (at_bin idx)
  rcases Phase.run_tallies ⟨kTopK, 0, row.digit 0, false⟩ row.length
    (fun idx => row.coarse half idx = bin) block rfl orders with ⟨counts, index, counter⟩
  refine ⟨⟨counter.trans before.counter, ?_, ?_⟩, ?_, ⟨fun fast => (nomatch fast), ?_⟩⟩
  · rcases before.front with ⟨out, selected, listed⟩
    exact ⟨out, selected, fun i idx found => (congrFun index i).trans (listed i idx found)⟩
  · exact fun pos past => (congrFun index pos).trans (before.kept pos past)
  · rw [candidates]
    exact counts
  · intro _ idx _
    rw [at_bin]
    exact (and_iff_left fun p none => absurd none (Nat.not_lt_zero p)).symm

end Full

section Whole

variable (half : BitVec 32 -> BitVec 16) (kTopK : Nat) (row : ScoreRow) (order : Nat -> Order)
  (block : Block)

theorem radixSelectTopk_eq {bin : Nat}
    (selected : (coarseHistogram half kTopK row order block).runCumsum.select kTopK storeCoarse =
      storeCoarse (coarseHistogram half kTopK row order block).runCumsum bin) :
    radixSelectTopk half kTopK row order block =
      let coarse := storeCoarse (coarseHistogram half kTopK row order block).runCumsum bin
      let staged := stageCoarse half kTopK row order bin coarse
      let topk : Int :=
        kTopK - (coarseHistogram half kTopK row order block).runCumsum.histogram (bin + 1)
      if topk = 0 then
        emitAbove kTopK (order 1) row.length some (row.coarse half) bin coarse
      else
        refine half kTopK row order (decide (staged.numInput 0 > smemInputSize)) bin 4 topk
          (if decide (staged.numInput 0 > smemInputSize) = true then
            rescanCoarse half kTopK row order bin staged else staged) := by
  unfold radixSelectTopk
  dsimp only
  rw [selected]
  rfl

/-- The selection fills the output row with the largest scores. -/
theorem radix_topk_exact (rounding : RoundsMonotone half)
    (numbers : forall idx, idx < row.length -> ¬ IsNaN (row.input (idx + row.rowStart)))
    (long : kTopK < row.length)
    (orders : forall phase programs, Interleaves programs (order phase programs)) :
    TopkExact row kTopK block (radixSelectTopk half kTopK row order block) := by
  rcases coarse_threshold half block long (orders 0) with
    ⟨bin, inside, threshold, selected, sum⟩
  have before : Gathered row.indices (fun _ => 0) 0 kTopK block
      (storeCoarse (coarseHistogram half kTopK row order block).runCumsum bin) :=
    storeCoarse_gathered (orders 0)
  have digits : forall item, item ∈ row.indices -> row.coarse half item < radix :=
    fun item _ => row.coarse_lt half item
  have every : ((List.range row.length).filterMap some).Perm
      (level row.indices (fun _ => 0) 0) := by
    rw [List.filterMap_some, level_none]
    exact .refl _
  have lengths : (aboveLevel row.indices (row.rank half 0) (0 * radix + bin)).length =
      tailCount row.indices (row.coarse half) (bin + 1) := by
    have found : (aboveLevel row.indices (extend radix (fun _ => 0) (row.coarse half))
        (0 * radix + bin)).length = _ := aboveLevel_extend_length digits inside
    rw [aboveLevel_none, level_none, List.length_nil, Nat.zero_add] at found
    exact found
  have at_bin : level row.indices (row.rank half 0) (0 * radix + bin) =
      row.indices.filter fun idx => decide (row.coarse half idx = bin) := by
    have found : level row.indices (extend radix (fun _ => 0) (row.coarse half))
        (0 * radix + bin) = _ := level_extend digits inside
    rw [level_none] at found
    exact found
  rcases Threshold.remaining threshold with ⟨nonneg, many⟩
  rw [← at_bin] at many
  rw [radixSelectTopk_eq half kTopK row order block selected, sum]
  dsimp only
  split
  next all_taken =>
    have full : (aboveLevel row.indices (row.rank half 0) (0 * radix + bin)).length = kTopK := by
      omega
    exact (before.emitAbove digits inside (orders 1) every full).full (Nat.zero_le 4) rounding
      numbers full
  next some_left =>
    have room : (aboveLevel row.indices (row.rank half 0) (0 * radix + bin)).length ≤ kTopK := by
      omega
    have empty : (storeCoarse (coarseHistogram half kTopK row order block).runCumsum
        bin).numInput 0 = 0 :=
      Function.update_self 0 0 (coarseHistogram half kTopK row order block).runCumsum.numInput
    have staged := stageCoarse_scanned (orders 1) inside before room empty
    revert staged
    generalize stageCoarse half kTopK row order bin
      (storeCoarse (coarseHistogram half kTopK row order block).runCumsum bin) = after
    rintro ⟨gathered, staged, fitting⟩
    by_cases overflow : after.numInput 0 > smemInputSize
    · rw [decide_eq_true overflow, if_pos rfl]
      have rescanned := rescanCoarse_scanned (orders 2) inside gathered
      have refining : Refining half kTopK row true bin 0 (0 * radix + bin)
          (kTopK - (tailCount row.indices (row.coarse half) (bin + 1) : Int)) block
          (rescanCoarse half kTopK row order bin after) :=
        ⟨rescanned.1, rescanned.2.1, rescanned.2.2, by omega, by omega, many⟩
      exact Refining.exact rounding numbers orders 3 le_rfl _ _ _ refining
    · rw [decide_eq_false overflow, if_neg Bool.false_ne_true]
      have fits := fitting (not_lt.mp overflow)
      have refining : Refining half kTopK row false bin 0 (0 * radix + bin)
          (kTopK - (tailCount row.indices (row.coarse half) (bin + 1) : Int)) block after :=
        ⟨gathered, fits.1, fits.2, by omega, by omega, many⟩
      exact Refining.exact rounding numbers orders 3 le_rfl _ _ _ refining

end Whole

/-! ## A row of three scores -/

/-- Rounds 1, 2 and 3 to themselves, and every score down to one of them. -/
def roundDown (score : BitVec 32) : BitVec 16 :=
  if convertToUint32 score < convertToUint32 0x40000000 then 0x3C00
  else if convertToUint32 score < convertToUint32 0x40400000 then 0x4000
  else 0x4200

theorem roundDown_bin (score : BitVec 32) :
    convertToUint8 roundDown score =
      if convertToUint32 score < convertToUint32 0x40000000 then 188
      else if convertToUint32 score < convertToUint32 0x40400000 then 192
      else 194 := by
  unfold convertToUint8 roundDown
  split
  · rfl
  · split
    · rfl
    · rfl

theorem roundDown_monotone : RoundsMonotone roundDown := by
  intro first second _ _ below
  rw [roundDown_bin, roundDown_bin]
  by_cases low : convertToUint32 first < convertToUint32 0x40000000
  · rw [if_pos low]
    split
    · exact le_rfl
    · split
      · decide
      · decide
  · have high : ¬ convertToUint32 second < convertToUint32 0x40000000 := fun lower =>
      low (Nat.lt_of_le_of_lt below lower)
    rw [if_neg low, if_neg high]
    by_cases middle : convertToUint32 first < convertToUint32 0x40400000
    · rw [if_pos middle]
      split
      · exact le_rfl
      · decide
    · have top : ¬ convertToUint32 second < convertToUint32 0x40400000 := fun lower =>
        middle (Nat.lt_of_le_of_lt below lower)
      rw [if_neg middle, if_neg top]

/-- The scores 1, 3 and 2. -/
def threeScores : ScoreRow where
  input idx := if idx = 1 then 0x40400000 else if idx = 2 then 0x40000000 else 0x3F800000
  rowStart := 0
  length := 3

/-- Shared memory before the kernel starts. -/
def freshBlock : Block where
  histogramBuf _ _ := 0
  counter := 0
  thresholdBinId := 0
  prefixBins _ := 0
  numInput _ := 0
  inputIdx _ _ := 0
  lastRemain := 0
  position _ := 0
  index _ := 0

theorem radix_topk_exact_example :
    TopkExact threeScores 2 freshBlock
      (radixSelectTopk roundDown 2 threeScores (fun _ programs => programs.flatten) freshBlock) :=
  radix_topk_exact roundDown 2 threeScores (fun _ programs => programs.flatten) freshBlock
    roundDown_monotone (by decide) (by decide) fun _ programs => Interleaves.flatten programs

end Kernels
end QSAHiSparse

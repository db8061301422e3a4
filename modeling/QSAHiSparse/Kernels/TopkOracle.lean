import QSAHiSparse.Foundation.Fallible
import QSAHiSparse.Kernels.StableTopk
import Mathlib.Order.Nat

namespace QSAHiSparse
namespace Kernels

open Foundation

/-!
# The top-k oracle

The best entries of an interval are those a stable descending sort puts first.
Masked columns come after every entry of the interval, also after those that
are negative infinity themselves, because their indices are larger.
-/

section Interval

variable {Score : Type}

/-- The scores a row chooses from. -/
def Row.interval (row : Row Score) : List Score :=
  (row.logits.drop row.start.toInt.toNat).take row.length.toInt.toNat

/-- The interval lies within the row. -/
def Row.Within (row : Row Score) : Prop :=
  0 ≤ row.start.toInt ∧ row.start.toInt + row.length.toInt ≤ row.logits.length

theorem interval_length {row : Row Score} (within : row.Within) :
    row.interval.length = row.length.toInt.toNat := by
  have start_nonneg := within.1
  have stop := within.2
  unfold Row.interval
  rw [List.length_take, List.length_drop]
  omega

theorem interval_getElem? {row : Row Score} {column : Nat} (inside : column < row.interval.length) :
    row.interval[column]? = row.logits[row.start.toInt.toNat + column]? := by
  have bound := List.length_take_le row.length.toInt.toNat (row.logits.drop row.start.toInt.toNat)
  have short : column < row.length.toInt.toNat := lt_of_lt_of_le inside bound
  unfold Row.interval
  rw [List.getElem?_take_of_lt short, List.getElem?_drop]

end Interval

variable {Score : Type} [LinearOrder Score]

/-- The indices of an interval, best first. -/
def ranking (values : List Score) : List Nat :=
  (argsort (fun first second => decide (second ≤ first)) values).map Prod.snd

/-- The indices of the best entries, in ascending order. -/
def best (topk : Nat) (values : List Score) : List Nat :=
  ((ranking values).take topk).mergeSort fun first second => decide (first ≤ second)

/-- The best entries, then `-1`. -/
def oracleRow (topk : Nat) (values : List Score) : List Int :=
  (best topk values).map Nat.cast ++ List.replicate (topk - (best topk values).length) (-1)

theorem descending : Comparison fun (first second : Score) => decide (second ≤ first) := by
  constructor
  · intro first second third lower upper
    exact decide_eq_true ((of_decide_eq_true upper).trans (of_decide_eq_true lower))
  · intro first second
    rw [Bool.or_eq_true, decide_eq_true_eq, decide_eq_true_eq]
    exact le_total second first

theorem ranking_perm (values : List Score) :
    (ranking values).Perm (List.range values.length) := by
  have positions := (argsort_perm (fun first second => decide (second ≤ first)) values).map Prod.snd
  rw [List.zipIdx_map_snd, ← List.range_eq_range'] at positions
  exact positions

theorem ranking_length (values : List Score) : (ranking values).length = values.length := by
  rw [(ranking_perm values).length_eq, List.length_range]

theorem ranking_lt {values : List Score} {index : Nat} (member : index ∈ ranking values) :
    index < values.length :=
  List.mem_range.mp ((ranking_perm values).mem_iff.mp member)

theorem best_length (topk : Nat) (values : List Score) :
    (best topk values).length = min topk values.length := by
  unfold best
  rw [List.length_mergeSort, List.length_take, ranking_length]

theorem mem_best {topk : Nat} {values : List Score} {index : Nat} :
    index ∈ best topk values <-> index ∈ (ranking values).take topk :=
  List.mem_mergeSort

/-- What the best entries are: as many as there can be, listed in ascending order,
each with a larger score than any entry left out or with the same and a smaller
index. -/
structure Best (topk : Nat) (values : List Score) (chosen : List Nat) : Prop where
  ascending : chosen.Pairwise (· < ·)
  inside : forall index, index ∈ chosen -> index < values.length
  size : chosen.length = min topk values.length
  better : forall index other score left, index ∈ chosen -> other ∉ chosen ->
    values[index]? = some score -> values[other]? = some left ->
    left < score ∨ (left = score ∧ index < other)

theorem best_lt {topk : Nat} {values : List Score} {index : Nat}
    (member : index ∈ best topk values) : index < values.length :=
  ranking_lt (List.mem_of_mem_take (mem_best.mp member))

theorem best_nodup (topk : Nat) (values : List Score) : (best topk values).Nodup := by
  have distinct := List.nodup_range.perm (ranking_perm values).symm
  have taken := distinct.sublist (List.take_sublist topk (ranking values))
  exact taken.perm (List.mergeSort_perm _ _).symm

/-- What a stable descending sort puts first is best. -/
theorem best_best (topk : Nat) (values : List Score) : Best topk values (best topk values) := by
  constructor
  case ascending =>
    have sorted : (best topk values).Pairwise (· ≤ ·) := List.pairwise_mergeSort' (· ≤ ·) _
    exact (sorted.and (best_nodup topk values)).imp fun both => lt_of_le_of_ne both.1 both.2
  case inside => exact fun index member => best_lt member
  case size => exact best_length topk values
  case better =>
    intro index other score left chosen spared index_score other_score
    have ordered := argsort_precedes (@descending Score _) values
    rw [← List.take_append_drop topk (argsort _ values), List.pairwise_append] at ordered
    have first_mem := mem_best.mp chosen
    have listed : other ∈ ranking values := by
      apply (ranking_perm values).mem_iff.mpr
      exact List.mem_range.mpr (List.getElem?_eq_some_iff.mp other_score).1
    rw [← List.take_append_drop topk (ranking values)] at listed
    have second_mem := (List.mem_append.mp listed).resolve_left (mt mem_best.mpr spared)
    unfold ranking at first_mem second_mem
    rw [← List.map_take] at first_mem
    rw [← List.map_drop] at second_mem
    rcases List.mem_map.mp first_mem with ⟨first, early, rfl⟩
    rcases List.mem_map.mp second_mem with ⟨second, late, rfl⟩
    have first_at := List.mk_mem_zipIdx_iff_getElem?.mp
      ((argsort_perm _ values).mem_iff.mp (List.mem_of_mem_take early))
    have second_at := List.mk_mem_zipIdx_iff_getElem?.mp
      ((argsort_perm _ values).mem_iff.mp (List.mem_of_mem_drop late))
    have before := ordered.2.2 first early second late
    rw [first_at] at index_score
    rw [second_at] at other_score
    have score_eq := Option.some.inj index_score
    have left_eq := Option.some.inj other_score
    rw [← score_eq, ← left_eq]
    rcases lt_or_eq_of_le (of_decide_eq_true before.1) with smaller | tie
    · exact Or.inl smaller
    · exact Or.inr ⟨tie, before.2 (decide_eq_true tie.ge)⟩

/-- Sorting leaves trailing sentinels behind smaller indices. -/
theorem mergeSort_sentinels (indices : List Nat) (small : forall index, index ∈ indices ->
    (index : Int) ≤ sentinel) (count : Nat) :
    (indices.map Nat.cast ++ List.replicate count sentinel).mergeSort
        (fun first second => decide (first ≤ second)) =
      (indices.mergeSort fun first second => decide (first ≤ second)).map Nat.cast ++
        List.replicate count sentinel := by
  have arranged : ((indices.map Nat.cast ++ List.replicate count sentinel).mergeSort
      (fun first second => decide (first ≤ second))).Perm
      ((indices.mergeSort fun first second => decide (first ≤ second)).map Nat.cast ++
        List.replicate count sentinel) :=
    (List.mergeSort_perm _ _).trans
      (((List.mergeSort_perm indices _).symm.map _).append_right _)
  apply arranged.eq_of_pairwise' (r := (· ≤ ·))
  · exact List.pairwise_mergeSort' (· ≤ ·) _
  · rw [List.pairwise_append]
    refine ⟨?_, List.pairwise_replicate.mpr (Or.inr le_rfl), ?_⟩
    · rw [List.pairwise_map]
      exact (List.pairwise_mergeSort' (· ≤ ·) indices).imp fun ordered => Int.ofNat_le.mpr ordered
    · intro first first_mem last last_mem
      rcases List.mem_map.mp first_mem with ⟨index, listed, rfl⟩
      rw [List.eq_of_mem_replicate last_mem]
      exact small index (List.mem_mergeSort.mp listed)

variable [OrderBot Score]

/-- The masked row is the interval followed by negative infinities. -/
theorem maskedScores_eq {row : Row Score} (within : row.Within)
    (wide : 0 < row.logits.length) :
    maskedScores row.logits.length row = .ok (row.interval ++
      List.replicate (row.logits.length - row.interval.length) ⊥) := by
  have start_nonneg := within.1
  have stop := within.2
  have length := interval_length within
  have start_eq : (row.start.toInt.toNat : Int) = row.start.toInt := Int.toNat_of_nonneg start_nonneg
  have each : forall index, index ∈ (List.range row.logits.length).map
      (fun (column : Nat) => min (row.start.toInt + column) (row.logits.length - 1)) ->
      gatherOne row.logits index = .ok (row.logits.getD index.toNat ⊥) := by
    intro index member
    rcases List.mem_map.mp member with ⟨column, _, rfl⟩
    have bounds : 0 ≤ min (row.start.toInt + column) ((row.logits.length : Int) - 1) ∧
        min (row.start.toInt + column) ((row.logits.length : Int) - 1) < row.logits.length := by
      omega
    generalize min (row.start.toInt + column) ((row.logits.length : Int) - 1) = index at bounds
    lift index to Nat using bounds.1
    have inside : index < row.logits.length := by omega
    have found := List.getElem?_eq_getElem inside
    apply gatherOne_eq
    rw [Int.toNat_natCast, List.getD_eq_getElem?_getD, found, Option.getD_some]
  -- Columns of the interval keep their scores, later ones are masked.
  have split : List.range row.logits.length = List.range row.interval.length ++
      (List.range (row.logits.length - row.interval.length)).map (row.interval.length + ·) := by
    rw [← List.range_add]
    congr 1
    omega
  unfold maskedScores
  dsimp only
  rw [mapM_succeeds _ each, Except.ok_bind, List.map_map, List.zipWith_map_right, List.zipWith_self]
  apply congrArg Except.ok
  rw [split, List.map_append, List.map_map]
  congr 1
  · apply List.ext_getElem
    · rw [List.length_map, List.length_range]
    · intro column bound inside
      have valid : ¬ (column : Int) ≥ row.length.toInt := by omega
      have place : (min (row.start.toInt + (column : Nat)) ((row.logits.length : Int) - 1)).toNat =
          row.start.toInt.toNat + column := by
        omega
      have found := List.getElem?_eq_getElem inside
      rw [interval_getElem? inside] at found
      rw [List.getElem_map, List.getElem_range, if_neg valid, Function.comp_apply, place,
        List.getD_eq_getElem?_getD, found, Option.getD_some]
  · apply List.eq_replicate_iff.mpr
    constructor
    · rw [List.length_map, List.length_range]
    · intro score member
      rcases List.mem_map.mp member with ⟨extra, _, rfl⟩
      rw [Function.comp_apply, if_pos (by omega)]

/-- Ranking the masked row ranks the interval and then the masked columns. -/
theorem ranking_masked (values : List Score) (count : Nat) :
    ranking (values ++ List.replicate count ⊥) =
      ranking values ++ List.range' values.length count := by
  unfold ranking
  rw [argsort_append_replicate descending values (fun _ _ => decide_eq_true bot_le),
    List.map_append, List.zipIdx_map_snd, List.length_replicate]

/-- A row of the selection, before it is assigned to the output. -/
theorem selectRow_eq {row : Row Score} (within : row.Within) (wide : 0 < row.logits.length)
    (topk : Nat) :
    selectRow row.logits.length (min topk row.logits.length) row =
      .ok ((best topk row.interval).map Nat.cast ++
        List.replicate (min topk row.logits.length - (best topk row.interval).length) (-1)) := by
  have stop := within.2
  have start_nonneg := within.1
  have length := interval_length within
  have narrow : row.length.toInt < 2 ^ 31 := row.length.toInt_lt
  have ranked : ((argsort (fun first second => decide (second ≤ first))
      (row.interval ++ List.replicate (row.logits.length - row.interval.length) ⊥)).map
        fun pair => (pair.2 : Int)) =
      (ranking row.interval).map Nat.cast ++
        (List.range' row.interval.length (row.logits.length - row.interval.length)).map
          Nat.cast := by
    rw [← List.map_append, ← ranking_masked]
    unfold ranking
    rw [List.map_map]
    rfl
  -- What is chosen of the interval stays; every masked column becomes the sentinel.
  have selected : (((ranking row.interval).map (Nat.cast : Nat -> Int) ++
      (List.range' row.interval.length (row.logits.length - row.interval.length)).map
        Nat.cast).take (min topk row.logits.length)).map
          (fun index => if index < row.length.toInt then index else sentinel) =
      ((ranking row.interval).take topk).map Nat.cast ++
        List.replicate (min topk row.logits.length - (best topk row.interval).length) sentinel := by
    have taken : (ranking row.interval).take (min topk row.logits.length) =
        (ranking row.interval).take topk := by
      rw [List.take_eq_take_iff, ranking_length]
      omega
    rw [List.take_append, List.map_append, List.length_map, ranking_length, ← List.map_take, taken]
    congr 1
    · rw [List.map_map]
      apply List.map_congr_left
      intro index member
      have bound := ranking_lt (List.mem_of_mem_take member)
      rw [Function.comp_apply, if_pos (by omega)]
    · apply List.eq_replicate_iff.mpr
      constructor
      · rw [List.length_map, List.length_take, List.length_map, List.length_range', best_length]
        omega
      · intro index member
        rcases List.mem_map.mp member with ⟨column, listed, rfl⟩
        rcases List.mem_map.mp (List.mem_of_mem_take listed) with ⟨place, inside, rfl⟩
        have bounds := List.mem_range'_1.mp inside
        rw [if_neg (by omega)]
  have small : forall index, index ∈ (ranking row.interval).take topk -> (index : Int) < 2 ^ 31 := by
    intro index member
    have bound := ranking_lt (List.mem_of_mem_take member)
    omega
  unfold selectRow
  rw [maskedScores_eq within wide, Except.ok_bind]
  dsimp only
  rw [ranked, selected, mergeSort_sentinels]
  · have kept : forall index, index ∈ best topk row.interval ->
        toInt32 (if (index : Int) = sentinel then -1 else index) = index := by
      intro index member
      have bound := small index (mem_best.mp member)
      have different : (index : Int) ≠ sentinel := by
        unfold sentinel
        omega
      rw [if_neg different]
      exact toInt32_eq (by omega) bound
    have padding : toInt32 (if sentinel = sentinel then -1 else sentinel) = -1 := by decide
    rw [List.map_append, List.map_map, List.map_replicate, padding]
    congr 2
    exact List.map_congr_left kept
  · intro index member
    have bound := small index member
    unfold sentinel
    omega

/-! ## Tiles -/

theorem slice_map {α β : Type} (answer : α -> β) (items : List α) (start stop : Nat) :
    slice (items.map answer) start stop = (slice items start stop).map answer := by
  unfold slice
  rw [List.map_drop, List.map_take]

/-- Extending what is done by one slice. -/
theorem take_append_slice {α : Type} (items : List α) {start stop : Nat} (ordered : start ≤ stop) :
    items.take start ++ slice items start stop = items.take stop := by
  have whole := List.take_append_drop start (items.take stop)
  rw [List.take_take, Nat.min_eq_left ordered] at whole
  exact whole

/-- The output while tiles are processed: the answers so far, then the fill. -/
def Filled (answers blank : List (List Int)) (done : Nat) : List (List Int) :=
  answers.take done ++ blank.drop done

section Filled

variable {answers blank : List (List Int)} {start stop : Nat}

theorem filled_take (inside : start ≤ answers.length) :
    (Filled answers blank start).take start = answers.take start := by
  have length : (answers.take start).length = start := by
    rw [List.length_take, Nat.min_eq_left inside]
  exact List.take_left' length

theorem filled_drop (inside : start ≤ answers.length) (ordered : start ≤ stop) :
    (Filled answers blank start).drop stop = blank.drop stop := by
  have length : (answers.take start).length = start := by
    rw [List.length_take, Nat.min_eq_left inside]
  have rest : stop = start + (stop - start) := by omega
  unfold Filled
  rw [rest, ← List.drop_drop, List.drop_left' length, List.drop_drop]

theorem filled_slice (inside : start ≤ answers.length) :
    slice (Filled answers blank start) start stop = slice blank start stop := by
  have dropped := @filled_drop _ blank _ _ inside (le_refl start)
  unfold slice
  rw [List.drop_take, List.drop_take, dropped]

end Filled

section Batch

variable {batch : Batch Score} (topk : Nat)

/-- The rows of the answer. -/
def oracleRows (batch : Batch Score) : List (List Int) :=
  batch.rows.map fun row => oracleRow topk row.interval

/-- A tile turns its part of the fill into answers. -/
theorem selectTile_eq (within : forall row, row ∈ batch.rows -> row.Within)
    (wide : 0 < batch.width) {tileRows tile : Nat} (begun : tile * tileRows ≤ batch.rows.length) :
    selectTile batch (min topk batch.width) tileRows
        (Filled (oracleRows topk batch)
          (List.replicate batch.rows.length (List.replicate topk (-1))) (tile * tileRows)) tile =
      .ok (Filled (oracleRows topk batch)
        (List.replicate batch.rows.length (List.replicate topk (-1)))
          (min (tile * tileRows + tileRows) batch.rows.length)) := by
  have answers_length : (oracleRows topk batch).length = batch.rows.length := List.length_map _
  have each : forall row,
      row ∈ slice batch.rows (tile * tileRows)
        (min (tile * tileRows + tileRows) batch.rows.length) ->
      selectRow batch.width (min topk batch.width) row =
        .ok ((best topk row.interval).map Nat.cast ++
          List.replicate (min topk batch.width - (best topk row.interval).length) (-1)) := by
    intro row member
    have listed := List.mem_of_mem_take (List.mem_of_mem_drop member)
    have shape := batch.shape row listed
    rw [← shape]
    exact selectRow_eq (within row listed) (by omega) topk
  have ordered : tile * tileRows ≤ min (tile * tileRows + tileRows) batch.rows.length := by omega
  unfold selectTile
  dsimp only
  rw [mapM_succeeds _ each, Except.ok_bind, filled_take (by omega), filled_drop (by omega) ordered,
    filled_slice (by omega)]
  have fresh : slice (List.replicate batch.rows.length (List.replicate topk (-1 : Int)))
      (tile * tileRows) (min (tile * tileRows + tileRows) batch.rows.length) =
      (slice batch.rows (tile * tileRows)
        (min (tile * tileRows + tileRows) batch.rows.length)).map
          fun _ => List.replicate topk (-1) := by
    rw [← slice_map, List.map_const']
  have assigned : List.zipWith (fun old new => new ++ old.drop (min topk batch.width))
      (slice (List.replicate batch.rows.length (List.replicate topk (-1 : Int)))
        (tile * tileRows) (min (tile * tileRows + tileRows) batch.rows.length))
      ((slice batch.rows (tile * tileRows)
        (min (tile * tileRows + tileRows) batch.rows.length)).map fun row =>
          (best topk row.interval).map Nat.cast ++
            List.replicate (min topk batch.width - (best topk row.interval).length) (-1)) =
      slice (oracleRows topk batch) (tile * tileRows)
        (min (tile * tileRows + tileRows) batch.rows.length) := by
    unfold oracleRows
    rw [fresh, List.zipWith_map, List.zipWith_self, slice_map]
    apply List.map_congr_left
    intro row member
    have listed := List.mem_of_mem_take (List.mem_of_mem_drop member)
    have shape := batch.shape row listed
    have inside := interval_length (within row listed)
    have stop := (within row listed).2
    have start_nonneg := (within row listed).1
    unfold oracleRow
    rw [List.append_assoc, List.drop_replicate, ← List.replicate_add, best_length]
    congr 2
    omega
  rw [assigned, take_append_slice _ ordered]
  rfl

theorem qsaStableTopkTiled_eq (within : forall row, row ∈ batch.rows -> row.Within)
    {tileRows : Nat} (positive : 0 < tileRows) :
    qsaStableTopkTiled tileRows batch topk = .ok (oracleRows topk batch) := by
  have answers_length : (oracleRows topk batch).length = batch.rows.length := List.length_map _
  unfold qsaStableTopkTiled
  dsimp only
  by_cases trivial : batch.rows.length = 0 ∨ batch.width = 0
  · rw [if_pos trivial]
    apply congrArg Except.ok
    symm
    apply List.eq_replicate_iff.mpr
    refine ⟨answers_length, fun answer member => ?_⟩
    rcases List.mem_map.mp member with ⟨row, listed, rfl⟩
    have shape := batch.shape row listed
    have some_row := List.length_pos_of_mem listed
    have stop := (within row listed).2
    have start_nonneg := (within row listed).1
    have inside := interval_length (within row listed)
    have none := best_length topk row.interval
    have empty : best topk row.interval = [] := List.length_eq_zero_iff.mp (by omega)
    unfold oracleRow
    rw [empty]
    rfl
  · rw [if_neg trivial]
    have steps (tiles : Nat) (bound : tiles ≤ (batch.rows.length + tileRows - 1) / tileRows) :
        (List.range tiles).foldlM (selectTile batch (min topk batch.width) tileRows)
            (List.replicate batch.rows.length (List.replicate topk (-1))) =
          .ok (Filled (oracleRows topk batch)
            (List.replicate batch.rows.length (List.replicate topk (-1)))
              (min (tiles * tileRows) batch.rows.length)) := by
      induction tiles with
      | zero =>
          rw [Nat.zero_mul, Nat.zero_min]
          rfl
      | succ tiles inductionHypothesis =>
          have begun : tiles * tileRows ≤ batch.rows.length := by
            have whole := Nat.mul_le_of_le_div _ _ _ bound
            rw [Nat.succ_mul] at whole
            omega
          rw [List.range_succ, List.foldlM_append, inductionHypothesis (by omega), Except.ok_bind,
            Nat.min_eq_left begun, List.foldlM_cons,
            selectTile_eq topk within (by omega) begun, Nat.succ_mul]
          rfl
    have whole := Nat.lt_div_mul_add (a := batch.rows.length + tileRows - 1) positive
    rw [steps _ le_rfl, Nat.min_eq_right (by omega)]
    unfold Filled
    rw [List.take_of_length_le (by omega), List.drop_of_length_le (by rw [List.length_replicate]),
      List.append_nil]

end Batch

theorem tileRows_pos (rows width : Nat) : 0 < qsaDeterministicTopkTileRows rows width := by
  unfold qsaDeterministicTopkTileRows
  split <;> omega

/-- Every row gets the best entries of its interval in ascending order and then
`-1`, whatever the tiling, the width and the scores outside the intervals. -/
theorem topk_equals_oracle (batch : Batch Score) (topk : Nat)
    (within : forall row, row ∈ batch.rows -> row.Within) :
    qsaStableTopk batch topk = .ok (batch.rows.map fun row => oracleRow topk row.interval) ∧
      (forall row, row ∈ batch.rows -> Best topk row.interval (best topk row.interval)) ∧
      (forall tileRows, 0 < tileRows ->
        qsaStableTopkTiled tileRows batch topk = qsaStableTopk batch topk) ∧
      forall other : Batch Score, (forall row, row ∈ other.rows -> row.Within) ->
        other.rows.map Row.interval = batch.rows.map Row.interval ->
        qsaStableTopk other topk = qsaStableTopk batch topk := by
  have result := qsaStableTopkTiled_eq topk within
    (tileRows_pos batch.rows.length batch.width)
  refine ⟨result, fun row _ => best_best topk row.interval, ?_, ?_⟩
  · intro tileRows positive
    exact (qsaStableTopkTiled_eq topk within positive).trans result.symm
  · intro other other_within same
    have other_result := qsaStableTopkTiled_eq topk other_within
      (tileRows_pos other.rows.length other.width)
    have answers (batch : Batch Score) :
        oracleRows topk batch = (batch.rows.map Row.interval).map (oracleRow topk) := by
      unfold oracleRows
      rw [List.map_map]
      rfl
    rw [answers, same, ← answers] at other_result
    exact other_result.trans result.symm

/-- Two rows with ties, one interval shorter than `topk`. -/
theorem topk_equals_oracle_example :
    qsaStableTopk (⟨4, [⟨[9, 2, 5, 5], 1, 3⟩, ⟨[0, 0, 8, 8], 0, 2⟩], by decide⟩ : Batch Nat) 3 =
      .ok [oracleRow 3 [2, 5, 5], oracleRow 3 [0, 0]] :=
  (topk_equals_oracle (⟨4, [⟨[9, 2, 5, 5], 1, 3⟩, ⟨[0, 0, 8, 8], 0, 2⟩], by decide⟩ : Batch Nat) 3
    (by unfold Row.Within; decide)).1

end Kernels
end QSAHiSparse

import Mathlib.Algebra.BigOperators.Group.Finset.Basic
import Mathlib.Algebra.BigOperators.Ring.Finset
import Mathlib.Algebra.Order.BigOperators.Group.Finset
import Mathlib.Data.List.Range

namespace QSAHiSparse
namespace Foundation

/-!
# Consecutive segments

Segments of given sizes laid end to end.  A segment starts where the ones before
it end, and the number of segment ends at or before a position tells which
segment the position is in.
-/

/-- Where a segment starts. -/
def segmentStart (size : Nat -> Nat) (place : Nat) : Nat :=
  (Finset.range place).sum size

variable (size : Nat -> Nat)

@[simp]
theorem segmentStart_zero : segmentStart size 0 = 0 :=
  Finset.sum_range_zero _

theorem segmentStart_succ (place : Nat) :
    segmentStart size (place + 1) = segmentStart size place + size place :=
  Finset.sum_range_succ _ _

theorem segmentStart_mono : Monotone (segmentStart size) := by
  apply monotone_nat_of_le_succ
  intro place
  rw [segmentStart_succ]
  exact Nat.le_add_right _ _

theorem segmentStart_mul (factor place : Nat) :
    segmentStart (fun place => size place * factor) place = segmentStart size place * factor :=
  (Finset.sum_mul _ _ _).symm

variable {size}

theorem length_flatMap_segments {α : Type} {segment : Nat -> List α}
    (sized : forall place, (segment place).length = size place) (count : Nat) :
    ((List.range count).flatMap segment).length = segmentStart size count := by
  induction count with
  | zero => rfl
  | succ count inductionHypothesis =>
      rw [List.range_succ, List.flatMap_append, List.length_append, inductionHypothesis,
        List.flatMap_singleton, sized, segmentStart_succ]

/-- Cutting one segment out. -/
theorem take_drop_flatMap {α : Type} {segment : Nat -> List α}
    (sized : forall place, (segment place).length = size place) {count place : Nat}
    (bound : place < count) (rest : List α) :
    (((List.range count).flatMap segment ++ rest).drop (segmentStart size place)).take
      (size place) = segment place := by
  have split : List.range count = List.range place ++
      place :: (List.range (count - place - 1)).map (place + 1 + ·) := by
    have whole : count = place + 1 + (count - place - 1) := by omega
    rw [whole, List.range_add, List.range_succ, List.append_assoc, ← whole]
    rfl
  rw [split, List.flatMap_append, List.flatMap_cons, List.append_assoc, List.append_assoc,
    ← length_flatMap_segments sized place, List.drop_left, ← sized place, List.take_left]

/-- Segments of equal lengths pair up. -/
theorem zipWith_flatMap {α β γ : Type} (pair : α -> β -> γ) {first : Nat -> List α}
    {second : Nat -> List β} (alike : forall place, (first place).length = (second place).length)
    (places : List Nat) :
    List.zipWith pair (places.flatMap first) (places.flatMap second) =
      places.flatMap fun place => List.zipWith pair (first place) (second place) := by
  induction places with
  | nil => rfl
  | cons place places inductionHypothesis =>
      rw [List.flatMap_cons, List.flatMap_cons, List.flatMap_cons,
        List.zipWith_append (alike place), inductionHypothesis]

/-- Inside a segment exactly the ends before it have passed. -/
theorem countP_ends {count place position : Nat} (bound : place < count)
    (after : segmentStart size place ≤ position)
    (before : position < segmentStart size (place + 1)) :
    (List.range count).countP (fun other => segmentStart size (other + 1) ≤ position) = place := by
  have test : forall other, other ∈ List.range count ->
      (decide (segmentStart size (other + 1) ≤ position) = true <->
        decide (other < place) = true) := by
    intro other _
    rw [decide_eq_true_eq, decide_eq_true_eq]
    constructor
    · intro passed
      by_contra later
      have ordered := segmentStart_mono size (show place + 1 ≤ other + 1 by omega)
      omega
    · intro earlier
      exact (segmentStart_mono size earlier).trans after
  have split : List.range count = List.range place ++
      (List.range (count - place)).map (place + ·) := by
    rw [← List.range_add]
    congr 1
    omega
  have lower : (List.range place).countP (fun other => decide (other < place)) = place := by
    rw [List.countP_eq_length.mpr, List.length_range]
    intro other member
    exact decide_eq_true (List.mem_range.mp member)
  have upper : ((List.range (count - place)).map (place + ·)).countP
      (fun other => decide (other < place)) = 0 := by
    apply List.countP_eq_zero.mpr
    intro other member
    rcases List.mem_map.mp member with ⟨extra, _, rfl⟩
    rw [decide_eq_true_eq]
    omega
  rw [List.countP_congr test, split, List.countP_append, lower, upper, Nat.add_zero]

/-- The positions, segment by segment. -/
theorem range_segmentStart (count : Nat) :
    List.range (segmentStart size count) =
      (List.range count).flatMap fun place =>
        List.range' (segmentStart size place) (size place) := by
  induction count with
  | zero => rfl
  | succ count inductionHypothesis =>
      rw [List.range_succ, List.flatMap_append, ← inductionHypothesis, List.flatMap_singleton,
        segmentStart_succ, List.range_add, List.range'_eq_map_range]

/-- The positions' segments, in order. -/
theorem map_countP_ends (count : Nat) :
    (List.range (segmentStart size count)).map (fun position =>
        (List.range count).countP fun other => segmentStart size (other + 1) ≤ position) =
      (List.range count).flatMap fun place => List.replicate (size place) place := by
  rw [range_segmentStart, List.map_flatMap]
  apply List.flatMap_congr
  intro place member
  apply List.eq_replicate_iff.mpr
  constructor
  · rw [List.length_map, List.length_range']
  · intro passed listed
    rcases List.mem_map.mp listed with ⟨position, inside, rfl⟩
    have bounds := List.mem_range'_1.mp inside
    apply countP_ends (List.mem_range.mp member) bounds.1
    rw [segmentStart_succ]
    exact bounds.2

/-! ## Staircases -/

/-- Every segment filled with its own number. -/
def staircase (size : Nat -> Nat) (count : Nat) : List Int :=
  (List.range count).flatMap fun place => List.replicate (size place) (place : Int)

theorem mem_staircase {count : Nat} {step : Int} (member : step ∈ staircase size count) :
    0 ≤ step ∧ step < count := by
  rcases List.mem_flatMap.mp member with ⟨place, bound, inside⟩
  have small := List.mem_range.mp bound
  rw [List.eq_of_mem_replicate inside]
  omega

theorem staircase_sorted (count : Nat) : (staircase size count).Pairwise (· ≤ ·) := by
  unfold staircase
  rw [List.pairwise_flatMap]
  constructor
  · intro place _
    exact List.pairwise_replicate.mpr (Or.inr (Int.le_refl _))
  · apply List.pairwise_lt_range.imp
    intro place later lower first first_mem second second_mem
    rw [List.eq_of_mem_replicate first_mem, List.eq_of_mem_replicate second_mem]
    omega

/-- The steps below a number are those of the segments before it. -/
theorem countP_staircase {count place : Nat} (bound : place ≤ count) :
    (staircase size count).countP (fun (step : Int) => step < place) = segmentStart size place := by
  induction count with
  | zero =>
      have none := Nat.le_zero.mp bound
      rw [none, segmentStart_zero]
      rfl
  | succ count inductionHypothesis =>
      have extended : staircase size (count + 1) =
          staircase size count ++ List.replicate (size count) (count : Int) := by
        unfold staircase
        rw [List.range_succ, List.flatMap_append, List.flatMap_singleton]
      rw [extended, List.countP_append, List.countP_replicate]
      rcases Nat.lt_or_eq_of_le bound with inside | whole
      · have outside : ¬ (count : Int) < place := by omega
        rw [inductionHypothesis (by omega), decide_eq_false outside, if_neg Bool.false_ne_true,
          Nat.add_zero]
      · have last : (count : Int) < place := by omega
        have all : (staircase size count).countP (fun (step : Int) => step < place) =
            segmentStart size count := by
          rw [List.countP_eq_length.mpr]
          · exact length_flatMap_segments (fun _ => List.length_replicate) count
          · intro step member
            have small := (mem_staircase member).2
            exact decide_eq_true (by omega)
        rw [all, decide_eq_true last, if_pos rfl, whole, segmentStart_succ]

end Foundation
end QSAHiSparse

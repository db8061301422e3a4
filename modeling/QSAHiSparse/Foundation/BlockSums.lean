import Mathlib.Algebra.BigOperators.Intervals
import Mathlib.Algebra.BigOperators.Ring.Finset

namespace QSAHiSparse
namespace Foundation

/-!
# Sums taken in blocks

A sum over a range is the sum of its blocks, in whatever order the blocks are dealt
out.  The last block may reach past the range where the terms are masked.
-/

variable {K : Type} [AddCommMonoid K]

theorem sum_blocks (term : Nat -> K) (blocks width : Nat) :
    ∑ block ∈ Finset.range blocks, ∑ lane ∈ Finset.range width, term (block * width + lane) =
      ∑ place ∈ Finset.range (blocks * width), term place := by
  induction blocks with
  | zero => rw [Nat.zero_mul, Finset.sum_range_zero, Finset.sum_range_zero]
  | succ blocks previous =>
      rw [Finset.sum_range_succ, previous, Nat.succ_mul, Finset.sum_range_add]

/-- Blocks dealt out in turns to `shares` shares. -/
theorem sum_dealt (term : Nat -> K) (shares turns : Nat) :
    ∑ share ∈ Finset.range shares, ∑ turn ∈ Finset.range turns, term (share + turn * shares) =
      ∑ block ∈ Finset.range (turns * shares), term block := by
  rw [Finset.sum_comm, ← sum_blocks]
  exact Finset.sum_congr rfl fun turn _ => Finset.sum_congr rfl fun share _ => by rw [Nat.add_comm]

theorem sum_masked (term : Nat -> K) {bound reached : Nat} (covers : bound ≤ reached) :
    (∑ place ∈ Finset.range reached, if place < bound then term place else 0) =
      ∑ place ∈ Finset.range bound, term place := by
  rw [← Finset.sum_subset (Finset.range_mono covers)]
  · exact Finset.sum_congr rfl fun place inside => if_pos (Finset.mem_range.mp inside)
  · exact fun place _ past => if_neg fun inside => past (Finset.mem_range.mpr inside)

/-- A loop that adds to an accumulator. -/
theorem foldl_sum (term : Nat -> K) (count : Nat) (start : K) :
    (List.range count).foldl (fun value place => value + term place) start =
      start + ∑ place ∈ Finset.range count, term place := by
  induction count with
  | zero => rw [List.range_zero, List.foldl_nil, Finset.sum_range_zero, add_zero]
  | succ count previous =>
      rw [List.range_succ, List.foldl_append, previous, List.foldl_cons, List.foldl_nil,
        Finset.sum_range_succ, add_assoc]

theorem sum_map_range (term : Nat -> K) (count : Nat) :
    ((List.range count).map term).sum = ∑ place ∈ Finset.range count, term place := by
  induction count with
  | zero => rw [List.range_zero, List.map_nil, List.sum_nil, Finset.sum_range_zero]
  | succ count previous =>
      rw [List.range_succ, List.map_append, List.sum_append, previous, Finset.sum_range_succ,
        List.map_singleton, List.sum_singleton]

end Foundation
end QSAHiSparse

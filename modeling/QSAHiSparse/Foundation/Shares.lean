import Mathlib.Data.List.Range
import Mathlib.Algebra.Order.Floor.Div

namespace QSAHiSparse
namespace Foundation

/-!
# Contiguous shares

Work items `0, 1, …` are dealt out in consecutive shares of one size; the last
shares may be short or empty.  Laid end to end the shares are the items in
order, so each item is in exactly one share.
-/

/-- The items of one share, of `total` items in shares of `size`. -/
def shareOf (size total part : Nat) : List Nat :=
  List.range' (part * size) (min size (total - part * size))

/-- The first `parts` shares laid end to end. -/
theorem flatMap_shareOf (size total parts : Nat) :
    (List.range parts).flatMap (shareOf size total) = List.range (min (parts * size) total) := by
  induction parts with
  | zero => simp
  | succ parts inductionHypothesis =>
      rw [List.range_succ, List.flatMap_append, inductionHypothesis, List.flatMap_singleton,
        Nat.succ_mul]
      unfold shareOf
      by_cases short : total ≤ parts * size
      · have spent : min size (total - parts * size) = 0 := by omega
        rw [spent, List.range'_zero, List.append_nil]
        congr 1
        omega
      · have full : min (parts * size) total = parts * size := by omega
        have joined (last : Nat) : List.range' 0 (parts * size) ++ List.range' (parts * size) last =
            List.range' 0 (parts * size + last) := by
          have step := List.range'_append_1 (s := 0) (m := parts * size) (n := last)
          rw [Nat.zero_add] at step
          exact step
        rw [full, List.range_eq_range', joined, List.range_eq_range']
        congr 1
        omega

/-- Shares that reach the total cover every item once, in order. -/
theorem flatMap_shareOf_of_le {size total parts : Nat} (enough : total ≤ parts * size) :
    (List.range parts).flatMap (shareOf size total) = List.range total := by
  rw [flatMap_shareOf, Nat.min_eq_right enough]

end Foundation
end QSAHiSparse

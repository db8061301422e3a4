import Mathlib.Data.List.Count

namespace QSAHiSparse
namespace Foundation

/-!
# Binary search

A list is partitioned by a test when no item that passes follows one that fails.
Halving then finds how many items pass.
-/

variable {α : Type} (before : α -> Bool)

/-- The halving loop between two bounds. -/
def bisect (items : List α) : Nat -> Nat -> Nat -> Nat
  | 0, start, _ => start
  | fuel + 1, start, stop =>
      if start < stop then
        let mid := start + (stop - start) / 2
        if items[mid]?.any before then bisect items fuel (mid + 1) stop
        else bisect items fuel start mid
      else start

/-- The position of the first item that fails the test. -/
def partitionPoint (items : List α) : Nat :=
  bisect before items items.length 0 items.length

/-- No item that passes follows one that fails. -/
def Partitioned (items : List α) : Prop :=
  items.Pairwise fun first second => before second -> before first

variable {before}

theorem Partitioned.before_iff {items : List α} (partitioned : Partitioned before items)
    {position : Nat} {item : α} (found : items[position]? = some item) :
    before item <-> position < items.countP before := by
  induction items generalizing position with
  | nil => exact absurd found (by simp)
  | cons head rest inductionHypothesis =>
      have parts := List.pairwise_cons.mp partitioned
      by_cases passes : before head
      · rw [List.countP_cons_of_pos passes]
        cases position with
        | zero =>
            rw [List.getElem?_cons_zero, Option.some_inj] at found
            rw [← found]
            exact iff_of_true passes (Nat.succ_pos _)
        | succ position =>
            rw [List.getElem?_cons_succ] at found
            rw [inductionHypothesis parts.2 found, Nat.succ_lt_succ_iff]
      · -- Once the head fails, nothing passes.
        have fails : forall other, other ∈ head :: rest -> ¬ before other := by
          intro other member
          rcases List.mem_cons.mp member with same | later
          · rw [same]
            exact passes
          · exact fun passed => passes (parts.1 other later passed)
        have none_pass : (head :: rest).countP before = 0 := List.countP_eq_zero.mpr fails
        rw [none_pass]
        exact iff_of_false (fails item (List.mem_of_getElem? found)) (Nat.not_lt_zero _)

/-- The loop keeps the count between its bounds until they meet. -/
theorem bisect_eq {items : List α} (partitioned : Partitioned before items) (fuel : Nat) :
    forall start stop, stop - start ≤ fuel -> start ≤ items.countP before ->
      items.countP before ≤ stop -> stop ≤ items.length ->
      bisect before items fuel start stop = items.countP before := by
  induction fuel with
  | zero =>
      intro start stop small lower upper _
      unfold bisect
      omega
  | succ fuel inductionHypothesis =>
      intro start stop small lower upper inside
      unfold bisect
      by_cases opened : start < stop
      · have bound : start + (stop - start) / 2 < items.length := by omega
        have found := List.getElem?_eq_getElem bound
        have side := partitioned.before_iff found
        rw [if_pos opened]
        dsimp only
        rw [found, Option.any_some]
        by_cases passes : before items[start + (stop - start) / 2]
        · rw [if_pos passes]
          have above := side.mp passes
          exact inductionHypothesis _ _ (by omega) (by omega) upper inside
        · rw [if_neg passes]
          have below := mt side.mpr passes
          exact inductionHypothesis _ _ (by omega) lower (by omega) (by omega)
      · rw [if_neg opened]
        omega

theorem partitionPoint_eq {items : List α} (partitioned : Partitioned before items) :
    partitionPoint before items = items.countP before :=
  bisect_eq partitioned _ _ _ (by omega) (Nat.zero_le _) List.countP_le_length (Nat.le_refl _)

end Foundation
end QSAHiSparse

import QSAHiSparse.Kernels.FastTopkScan

namespace QSAHiSparse
namespace Kernels

open Foundation

/-!
# Threshold bins of the radix selection

The doubling passes turn a histogram into its suffix sums: after each pass a bin
counts twice as many digits.  Of the suffix sums, exactly one thread finds that
its bin is the threshold.
-/

section Threshold

variable {items : List Nat} {digit : Nat -> Nat}

/-! ## Suffix sums -/

/-- Each bin counts the items of so many digits. -/
def Windows (buffers : Nat -> Nat -> Nat) (side : Nat) (items : List Nat) (digit : Nat -> Nat)
    (width : Nat) : Prop :=
  forall bin, bin < radix -> buffers side bin = windowCount items digit bin width

/-- A pass doubles the digits that a bin counts. -/
theorem cumsumPass_windows {buffers : Nat -> Nat -> Nat} {pass : Nat}
    (digits : forall item, item ∈ items -> digit item < radix)
    (before : Windows buffers (pass % 2) items digit (2 ^ pass)) :
    Windows (cumsumPass buffers pass) ((pass + 1) % 2) items digit (2 ^ (pass + 1)) := by
  intro bin inside
  have other : (pass + 1) % 2 = 1 - pass % 2 := by omega
  have twice : windowCount items digit bin (2 ^ (pass + 1)) =
      windowCount items digit bin (2 ^ pass) +
        windowCount items digit (bin + 2 ^ pass) (2 ^ pass) := by
    rw [← windowCount_add, Nat.pow_succ, Nat.mul_two]
  unfold cumsumPass
  rw [other, Function.update_self, if_pos inside, twice]
  by_cases reaches : bin < radix - 2 ^ pass
  · rw [if_pos reaches, before bin inside, before (bin + 2 ^ pass) (by omega)]
  · have gone : windowCount items digit (bin + 2 ^ pass) (2 ^ pass) = 0 :=
      windowCount_past (by omega) digits
    rw [if_neg reaches, gone, Nat.add_zero]
    exact before bin inside

/-- A pass leaves the entries past the bins alone. -/
theorem cumsumPass_past {buffers : Nat -> Nat -> Nat} {pass side bin : Nat} (past : radix ≤ bin) :
    cumsumPass buffers pass side bin = buffers side bin := by
  unfold cumsumPass
  by_cases filled : side = 1 - pass % 2
  · rw [filled, Function.update_self, if_neg (by omega)]
  · rw [Function.update_of_ne filled]

theorem cumsumPasses_windows {buffers : Nat -> Nat -> Nat} (passes : Nat)
    (digits : forall item, item ∈ items -> digit item < radix)
    (before : Windows buffers 0 items digit 1) :
    Windows ((List.range passes).foldl cumsumPass buffers) (passes % 2) items digit (2 ^ passes) := by
  induction passes with
  | zero => exact before
  | succ passes inductionHypothesis =>
      rw [List.range_succ, List.foldl_concat]
      exact cumsumPass_windows digits inductionHypothesis

theorem cumsumPasses_past {buffers : Nat -> Nat -> Nat} {side bin : Nat} (passes : Nat)
    (past : radix ≤ bin) :
    (List.range passes).foldl cumsumPass buffers side bin = buffers side bin := by
  induction passes with
  | zero => rfl
  | succ passes inductionHypothesis =>
      rw [List.range_succ, List.foldl_concat, cumsumPass_past past]
      exact inductionHypothesis

/-- The histogram of a block counts the items by their digits. -/
def Block.Counts (block : Block) (items : List Nat) (digit : Nat -> Nat) : Prop :=
  forall bin, bin ≤ radix ->
    block.histogram bin = items.countP fun item => decide (digit item = bin)

/-- The histogram holds, for each bin, the items from that bin on. -/
def Block.Sums (block : Block) (items : List Nat) (digit : Nat -> Nat) : Prop :=
  forall bin, bin ≤ radix -> block.histogram bin = tailCount items digit bin

theorem Block.runCumsum_sums {block : Block}
    (digits : forall item, item ∈ items -> digit item < radix)
    (counts : block.Counts items digit) : block.runCumsum.Sums items digit := by
  intro bin inside
  rcases Nat.lt_or_eq_of_le inside with below | last
  · have start : Windows block.histogramBuf 0 items digit 1 := by
      intro other small
      rw [windowCount_one]
      exact counts other small.le
    exact (cumsumPasses_windows 8 digits start bin below).trans (windowCount_radix bin digits)
  · have kept : block.runCumsum.histogram bin = block.histogram bin := by
      change (List.range 8).foldl cumsumPass block.histogramBuf 0 bin = block.histogramBuf 0 bin
      exact cumsumPasses_past 8 last.ge
    have nobody : items.countP (fun item => decide (digit item = bin)) = 0 := by
      apply List.countP_eq_zero.mpr
      intro item member same
      have := digits item member
      have := of_decide_eq_true same
      omega
    rw [kept, counts bin inside, nobody, last, tailCount_radix digits]

/-! ## The threshold -/

theorem Block.passes_iff {block : Block} {topk : Int} {tx : Nat}
    (sums : block.Sums items digit) (thread : tx < radix) :
    block.passes topk tx = true <-> IsThreshold items digit topk tx := by
  unfold Block.passes IsThreshold
  rw [decide_eq_true_iff, sums tx thread.le, sums (tx + 1) (Nat.succ_le_of_lt thread)]

/-- One thread stores, and its bin is the threshold. -/
theorem Block.select_threshold {block : Block} {topk : Int} (store : Block -> Nat -> Block)
    (digits : forall item, item ∈ items -> digit item < radix)
    (sums : block.Sums items digit) (nonneg : 0 ≤ topk) (many : topk < items.length) :
    exists bin, bin < radix ∧ IsThreshold items digit topk bin ∧
      block.select topk store = store block bin := by
  rcases exists_threshold digits nonneg many with ⟨bin, inside, threshold⟩
  refine ⟨bin, inside, threshold, ?_⟩
  have only : (List.range radix).filter (block.passes topk) = [bin] := by
    apply List.perm_singleton.mp
    apply (List.perm_ext_iff_of_nodup (List.nodup_range.filter _) (List.nodup_singleton bin)).mpr
    intro tx
    rw [List.mem_filter, List.mem_range, List.mem_singleton]
    constructor
    · rintro ⟨thread, passed⟩
      exact ((Block.passes_iff sums thread).mp passed).unique threshold
    · rintro rfl
      exact ⟨inside, (Block.passes_iff sums inside).mpr threshold⟩
  unfold Block.select
  rw [only]
  rfl

/-- What is left to select, once everything above the threshold is. -/
theorem Threshold.remaining {topk : Int} {bin : Nat} (threshold : IsThreshold items digit topk bin) :
    0 ≤ topk - tailCount items digit (bin + 1) ∧
      topk - tailCount items digit (bin + 1) <
        (items.filter fun item => decide (digit item = bin)).length := by
  have split : tailCount items digit bin = _ := tailCount_split bin
  rw [← List.countP_eq_length_filter]
  rcases threshold with ⟨exceeds, enough⟩
  omega

end Threshold

end Kernels
end QSAHiSparse

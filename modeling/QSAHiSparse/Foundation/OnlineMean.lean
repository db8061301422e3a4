import Mathlib.Algebra.BigOperators.Intervals
import Mathlib.Algebra.BigOperators.Ring.Finset
import Mathlib.Algebra.Field.Basic
import Mathlib.Data.Finset.Lattice.Fold
import Mathlib.Order.WithBot

namespace QSAHiSparse
namespace Foundation

/-!
# Weighted means of a stream

The mean of a stream of values is weighted by the powers of their scores.  It is
computed block by block without forming a power: the running total and the running
sum are kept as multiples of the power of the largest score so far.
-/

variable {S K : Type} [Semifield K]

/-- What is known of a power function: quotients of powers are given without the
powers.  The score `⊥` has no weight. -/
structure Powers (power : S -> K) (quotient : WithBot S -> WithBot S -> K) : Prop where
  nonzero : forall score, power score ≠ 0
  quotient_coe : forall score top : S, quotient score top * power top = power score
  quotient_bot : forall top : S, quotient ⊥ top = 0

/-- The weight of a score. -/
def weight (power : S -> K) (score : WithBot S) : K :=
  score.recBotCoe 0 power

@[simp] theorem weight_bot (power : S -> K) : weight power ⊥ = 0 := rfl

section Weights

variable {power : S -> K} {quotient : WithBot S -> WithBot S -> K}

theorem Powers.weight_ne_zero (powers : Powers power quotient) {top : WithBot S} (live : top ≠ ⊥) :
    weight power top ≠ 0 := by
  induction top with
  | bot => exact absurd rfl live
  | coe top => exact powers.nonzero top

/-- A quotient by a real score is a quotient of weights. -/
theorem Powers.quotient_mul_weight (powers : Powers power quotient) (score : WithBot S)
    {top : WithBot S} (live : top ≠ ⊥) :
    quotient score top * weight power top = weight power score := by
  induction top with
  | bot => exact absurd rfl live
  | coe top =>
      induction score with
      | bot => rw [powers.quotient_bot, zero_mul, weight_bot]
      | coe score => exact powers.quotient_coe score top

end Weights

/-! ## The running state -/

structure Running (S K : Type) where
  top : WithBot S
  total : K
  sum : K

/-- Before the first block. -/
def Running.empty : Running S K := ⟨⊥, 0, 0⟩

/-- The state stands for a total weight and a weighted sum. -/
structure Running.StandsFor (power : S -> K) (state : Running S K) (total sum : K) : Prop where
  total : state.total * weight power state.top = total
  sum : state.sum * weight power state.top = sum

theorem Running.empty_standsFor (power : S -> K) :
    (Running.empty : Running S K).StandsFor power 0 0 :=
  ⟨zero_mul _, zero_mul _⟩

/-- The mean does not depend on the score that the state is kept relative to. -/
theorem Running.StandsFor.mean {power : S -> K} {quotient : WithBot S -> WithBot S -> K}
    (powers : Powers power quotient) {state : Running S K} {total sum : K}
    (stands : state.StandsFor power total sum) (live : state.top ≠ ⊥) :
    state.sum / state.total = sum / total := by
  rw [← stands.sum, ← stands.total, mul_div_mul_right _ _ (powers.weight_ne_zero live)]

variable [LinearOrder S] (quotient : WithBot S -> WithBot S -> K)

/-- Take a block of `width` scores and values. -/
def Running.absorb (width : Nat) (score : Nat -> WithBot S) (value : Nat -> K)
    (state : Running S K) : Running S K :=
  let next := max state.top ((Finset.range width).sup score)
  let rescale := quotient state.top next
  { top := next
    total := state.total * rescale + ∑ column ∈ Finset.range width, quotient (score column) next
    sum := ∑ column ∈ Finset.range width, quotient (score column) next * value column +
      state.sum * rescale }

/-- The blocks of a stream, from the first on. -/
def Running.absorbAll (width : Nat) (score : Nat -> WithBot S) (value : Nat -> K) (turns : Nat)
    (state : Running S K) : Running S K :=
  (List.range turns).foldl (fun state turn =>
    state.absorb quotient width (fun column => score (turn * width + column))
      fun column => value (turn * width + column)) state

variable {power : S -> K} {quotient : WithBot S -> WithBot S -> K} {width : Nat}
  {score : Nat -> WithBot S} (value : Nat -> K)

omit [Semifield K] in
/-- A score of the block is at most the next largest one. -/
theorem absorb_top_live {state : Running S K} {column : Nat} (inside : column < width)
    (live : score column ≠ ⊥) : max state.top ((Finset.range width).sup score) ≠ ⊥ := by
  intro none
  have none := (max_eq_bot.mp none).2
  exact live ((Finset.sup_eq_bot_iff _ _).mp none column (Finset.mem_range.mpr inside))

/-- A block adds its weights and its weighted values. -/
theorem Running.StandsFor.absorb (powers : Powers power quotient) {state : Running S K}
    {total sum : K} (stands : state.StandsFor power total sum)
    (live : max state.top ((Finset.range width).sup score) ≠ ⊥) :
    (state.absorb quotient width score value).StandsFor power
      (total + ∑ column ∈ Finset.range width, weight power (score column))
      (sum + ∑ column ∈ Finset.range width, weight power (score column) * value column) := by
  have rescaled (score : WithBot S) := powers.quotient_mul_weight score live
  constructor
  · unfold Running.absorb
    dsimp only
    rw [add_mul, mul_assoc, rescaled, stands.total, Finset.sum_mul]
    exact congrArg _ (Finset.sum_congr rfl fun column _ => rescaled (score column))
  · unfold Running.absorb
    dsimp only
    rw [add_mul, mul_assoc state.sum, rescaled, stands.sum, Finset.sum_mul, add_comm]
    refine congrArg _ (Finset.sum_congr rfl fun column _ => ?_)
    rw [mul_right_comm, rescaled]

/-- With a real score in the first block, the state stands for all blocks taken. -/
theorem absorbAll_standsFor (powers : Powers power quotient)
    (live : exists column, column < width ∧ score column ≠ ⊥) (turns : Nat) :
    ((Running.empty : Running S K).absorbAll quotient width score value turns).StandsFor power
        (∑ column ∈ Finset.range (turns * width), weight power (score column))
        (∑ column ∈ Finset.range (turns * width), weight power (score column) * value column) ∧
      (0 < turns ->
        ((Running.empty : Running S K).absorbAll quotient width score value turns).top ≠ ⊥) := by
  induction turns with
  | zero =>
      rw [Nat.zero_mul, Finset.sum_range_zero, Finset.sum_range_zero]
      exact ⟨Running.empty_standsFor power, fun none => absurd none (Nat.lt_irrefl 0)⟩
  | succ turns previous =>
      rcases previous with ⟨stands, top_live⟩
      have next_live : max
          ((Running.empty : Running S K).absorbAll quotient width score value turns).top
          ((Finset.range width).sup fun column => score (turns * width + column)) ≠ ⊥ := by
        rcases Nat.eq_zero_or_pos turns with first | later
        · rcases live with ⟨column, inside, real⟩
          apply absorb_top_live inside
          rw [first, Nat.zero_mul, Nat.zero_add]
          exact real
        · exact fun none => top_live later (max_eq_bot.mp none).1
      have taken := stands.absorb (fun column => value (turns * width + column)) powers next_live
      have last : (Running.empty : Running S K).absorbAll quotient width score value (turns + 1) =
          ((Running.empty : Running S K).absorbAll quotient width score value turns).absorb quotient
            width (fun column => score (turns * width + column))
            fun column => value (turns * width + column) := by
        unfold Running.absorbAll
        rw [List.range_succ, List.foldl_append]
        rfl
      rw [last, Nat.succ_mul, Finset.sum_range_add, Finset.sum_range_add]
      exact ⟨taken, fun _ => next_live⟩

/-- A stream of blocks gives the weighted mean of its values. -/
theorem absorbAll_mean (powers : Powers power quotient)
    (live : exists column, column < width ∧ score column ≠ ⊥) {turns : Nat} (some : 0 < turns) :
    let state := (Running.empty : Running S K).absorbAll quotient width score value turns
    state.sum / state.total =
      (∑ column ∈ Finset.range (turns * width), weight power (score column) * value column) /
        ∑ column ∈ Finset.range (turns * width), weight power (score column) := by
  have run := absorbAll_standsFor value powers live turns
  exact run.1.mean powers (run.2 some)

end Foundation
end QSAHiSparse

import QSAHiSparse.Foundation.BlockSums
import QSAHiSparse.Kernels.HcMixStable

namespace QSAHiSparse
namespace Kernels

open Foundation

/-!
# The stable mix is the gated mean

In exact arithmetic the splits and blocks of the kernel add up to the whole products:
every chunk of K belongs to one part of one split.
-/

variable {K : Type} [CommRing K]

/-- The operations do not round; the sigmoid and the reciprocal may be any functions. -/
structure HcArith.Exact (arith : HcArith K) : Prop where
  dot : forall first second value,
    arith.dot first second value = value + (List.zipWith (· * ·) first second).sum
  add : forall first second, arith.add first second = first + second
  mul : forall first second, arith.mul first second = first * second
  sum : forall terms, arith.sum terms = terms.sum
  round : forall value, arith.round value = value

theorem HcArith.Exact.dot_lanes {arith : HcArith K} (exact : arith.Exact) (width : Nat)
    (first second : Nat -> K) (value : K) :
    arith.dot (lanes width first) (lanes width second) value =
      value + ∑ lane ∈ Finset.range width, first lane * second lane := by
  rw [exact.dot]
  unfold lanes
  rw [List.zipWith_map, List.zipWith_self, sum_map_range]

theorem le_cdiv_mul {number width : Nat} (positive : 0 < width) :
    number ≤ cdiv number width * width := by
  unfold cdiv
  have covered := Nat.lt_div_mul_add (a := number + width - 1) positive
  omega

namespace HcMixer

variable {mixer : HcMixer K} (row : Nat -> K)

/-- The first product, whole. -/
theorem rowReduced_exact (exact : mixer.arith.Exact) {n : Nat} (in_rank : n < mixer.weights.lowrank) :
    mixer.rowReduced row n = ∑ place ∈ Finset.range mixer.weights.k,
      row place * mixer.weights.wDown (n * mixer.weights.k + place : Nat) := by
  let term : Nat -> K := fun place => if place < mixer.weights.k then
    row place * mixer.weights.wDown (n * mixer.weights.k + place : Nat) else 0
  have masked (place : Nat) :
      (if place < mixer.weights.k then row place else 0) * mixer.down n place = term place := by
    unfold down maskedLoad
    dsimp only [term]
    by_cases inside : place < mixer.weights.k
    · rw [if_pos inside, if_pos ⟨in_rank, inside⟩, if_pos inside]
    · rw [if_neg inside, if_neg inside, zero_mul]
  have parts (splitId : Nat) : mixer.rowPartial row splitId n =
      ∑ part ∈ Finset.range (cdiv mixer.kChunks mixer.tiles.splits),
        ∑ lane ∈ Finset.range mixer.tiles.blockK,
          term ((splitId + part * mixer.tiles.splits) * mixer.tiles.blockK + lane) := by
    unfold rowPartial
    simp only [exact.dot_lanes, masked]
    rw [foldl_sum, zero_add]
  have reached : mixer.weights.k ≤
      cdiv mixer.kChunks mixer.tiles.splits * mixer.tiles.splits * mixer.tiles.blockK :=
    (le_cdiv_mul mixer.tiles.blockK_pos).trans
      (Nat.mul_le_mul_right _ (le_cdiv_mul mixer.tiles.splits_pos))
  unfold rowReduced
  simp only [exact.add, parts]
  rw [foldl_sum, zero_add,
    sum_dealt fun block => ∑ lane ∈ Finset.range mixer.tiles.blockK,
      term (block * mixer.tiles.blockK + lane),
    sum_blocks]
  exact sum_masked _ reached

end HcMixer

/-- The mean of the streams of a row, each element times its gate. -/
def HcWeights.gatedMean (weights : HcWeights K) (sigmoid : K -> K) (hc : Nat) (row : Nat -> K)
    (j : Nat) : K :=
  let a := fun r => (∑ place ∈ Finset.range weights.k,
    row place * weights.wDown (r * weights.k + place : Nat)) * weights.invHc
  let gate := fun g => sigmoid (∑ r ∈ Finset.range weights.lowrank,
    a r * sigmoid (a r) * weights.wUp ((g * weights.hs + j) * weights.lowrank + r : Nat))
  (∑ g ∈ Finset.range hc, gate g * row (g * weights.hs + j)) * weights.invHc

/-- The second product, whole. -/
theorem HcMixer.rowMixed_exact {mixer : HcMixer K} (exact : mixer.arith.Exact) (row : Nat -> K)
    {j : Nat} (in_row : j < mixer.weights.hs) :
    mixer.rowMixed row j =
      mixer.weights.gatedMean mixer.arith.sigmoid mixer.tiles.hc row j := by
  let a := fun r => (∑ place ∈ Finset.range mixer.weights.k,
    row place * mixer.weights.wDown (r * mixer.weights.k + place : Nat)) * mixer.weights.invHc
  let term : Nat -> Nat -> K := fun g r => a r * mixer.arith.sigmoid (a r) *
    mixer.weights.wUp ((g * mixer.weights.hs + j) * mixer.weights.lowrank + r : Nat)
  have masked (g r : Nat) :
      mixer.activation (if r < mixer.weights.lowrank then mixer.rowReduced row r else 0) *
        mixer.up (g * mixer.weights.hs + j) r j =
      if r < mixer.weights.lowrank then term g r else 0 := by
    unfold up maskedLoad
    by_cases in_rank : r < mixer.weights.lowrank
    · rw [if_pos in_rank, if_pos ⟨in_row, in_rank⟩, if_pos in_rank,
        mixer.rowReduced_exact row exact in_rank]
      unfold activation
      rw [exact.round, exact.mul, exact.mul]
    · rw [if_neg in_rank, if_neg fun both => in_rank both.2, if_neg in_rank, mul_zero]
  have gate (g : Nat) : mixer.rowGate row g j =
      mixer.arith.sigmoid (∑ r ∈ Finset.range mixer.weights.lowrank, term g r) := by
    unfold rowGate
    simp only [exact.dot_lanes, masked]
    rw [foldl_sum, zero_add,
      sum_blocks fun r => if r < mixer.weights.lowrank then term g r else 0,
      sum_masked _ (le_cdiv_mul mixer.tiles.blockR_pos)]
  unfold rowMixed HcWeights.gatedMean lanes
  rw [exact.round, exact.mul, exact.sum, sum_map_range]
  simp only [exact.mul, gate]
  rfl

/-- A launch of `fused_hc_mix` leaves the gated means of its rows, for any number of
splits and CTAs. -/
theorem fused_hc_mix_exact {arith : HcArith K} {multiProcessorCount rows k lowrank hc hs : Nat}
    {x wDown wUp : Memory K} {stableSplits : Nat} {positive : 0 < stableSplits} {args : HcArgs K}
    (launched : fusedHcMix arith multiProcessorCount x rows k wDown wUp lowrank hc hs
      stableSplits positive = some args)
    (exact : arith.Exact) (fits : rows ≤ 16) (width : k = hc * hs)
    (processors : 0 < multiProcessorCount) {arrive : Int -> Int} {passes : Int -> Prop}
    (barrier : (args.grid arrive passes).BarrierHolds) {buffers : Nat -> Memory K}
    {counters : Nat -> Int} (clear : forall counter, counter ≤ 2 -> counters counter = 0)
    {labels : List Nat} {state : GridState (HcTile K) K}
    (run : ((args.grid arrive passes).system buffers counters).Run
      ((args.grid arrive passes).start buffers counters) labels state)
    (complete : (args.grid arrive passes).Complete state) {m j : Nat} (real : m < rows)
    (in_row : j < hs) :
    state.buffers 3 (m * hs + j : Nat) =
      (⟨wDown, wUp, k, lowrank, hs, arith.reciprocal hc⟩ : HcWeights K).gatedMean arith.sigmoid
        hc (fun place => x (m * k + place : Nat)) j := by
  unfold fusedHcMix at launched
  rw [if_neg (Nat.ne_of_gt (Nat.zero_lt_of_lt real))] at launched
  cases Option.some.inj launched
  have left := (HcArgs.complete_rows barrier processors fits width clear run complete).1
  exact (left m j real in_row).trans (HcMixer.rowMixed_exact exact _ in_row)

/-! ## A launch with four splits -/

theorem stepArith_exact : stepArith.Exact where
  dot := fun _ _ _ => rfl
  add := fun _ _ => rfl
  mul := fun _ _ => rfl
  sum := fun _ => rfl
  round := fun _ => rfl

def fourSplits : HcArgs Rat where
  arith := stepArith
  tiles := stableTiles 2 4 (Nat.succ_pos 3)
  weights := narrowArgs.weights
  x := narrowArgs.x
  numRows := 1
  numCtas := 2

/-- The row of the two streams above, through the launcher. -/
theorem fused_hc_mix_exact_example :
    fusedHcMix stepArith 2 narrowArgs.x 1 2 narrowArgs.weights.wDown narrowArgs.weights.wUp 1 2 1
        4 (Nat.succ_pos 3) = some fourSplits ∧
      exists labels state, ((fourSplits.grid (fun counter => counter + 1) fun counter =>
          counter = 2).system (fun _ _ => 0) fun _ => 0).Run
        ((fourSplits.grid (fun counter => counter + 1) fun counter => counter = 2).start
          (fun _ _ => 0) fun _ => 0) labels state ∧ state.buffers 3 0 = 3 / 2 := by
  have launched : fusedHcMix stepArith 2 narrowArgs.x 1 2 narrowArgs.weights.wDown
      narrowArgs.weights.wUp 1 2 1 4 (Nat.succ_pos 3) = some fourSplits := rfl
  have barrier : (fourSplits.grid (fun counter => counter + 1) fun counter =>
      counter = 2).BarrierHolds := countingBarrier_holds rfl
  rcases HcArgs.exists_complete barrier (by decide) (fun _ _ => 0) (fun _ _ => rfl) with
    ⟨labels, state, run, complete⟩
  refine ⟨launched, labels, state, run, ?_⟩
  refine (fused_hc_mix_exact (m := 0) (j := 0) launched stepArith_exact (by decide) (by decide)
    (by decide) barrier (fun _ _ => rfl) run complete (by decide) (by decide)).trans ?_
  decide +kernel

end Kernels
end QSAHiSparse

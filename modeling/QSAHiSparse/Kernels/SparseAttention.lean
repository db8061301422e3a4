import Mathlib.Algebra.Field.Rat
import Mathlib.Data.Rat.Floor
import Mathlib.Tactic.IntervalCases
import QSAHiSparse.Foundation.OnlineMean
import QSAHiSparse.Kernels.Descale

namespace QSAHiSparse
namespace Kernels

open Foundation
open Weights (TorchDtype)

/-!
# The sparse kernels compute the torch reference

A kernel streams the selected keys of a query row block by block; the reference
takes a softmax over all of them.  Both give the same mean of the values, for every
block size and in whatever order the programs of a launch store.
-/

variable {K : Type}

/-! ## Selections -/

section Selections

variable (args : GqaArgs K) (row : GqaRow)

/-- The slots of the cache that a query row selects.  Its first column is filled, and
it selects none of the tokens past the visible ones. -/
structure GqaArgs.Selects (slots : TokenSlots) : Prop where
  columns : slots.columns = args.indices.topk
  slot : forall current : Nat, current < args.indices.topk ->
    slots.data (row.query * slots.columns + current) =
      if 0 ≤ args.token row current then row.kStart + args.token row current else -1
  filled : 0 ≤ args.token row 0
  seen : forall current : Nat, 0 ≤ args.token row current -> (current : Int) < row.visible
  query : 0 ≤ row.query
  start : 0 ≤ row.kStart

variable {args : GqaArgs K} {row : GqaRow} {slots : TokenSlots}

/-- A column past the selection is not filled. -/
theorem GqaArgs.token_listed {current : Nat} (filled : 0 ≤ args.token row current) :
    current < args.indices.topk := by
  by_contra past
  unfold GqaArgs.token maskedLoad at filled
  rw [if_neg past] at filled
  exact absurd filled (by decide)

/-- The columns that the loop takes. -/
theorem GqaArgs.Selects.taken (selects : args.Selects row slots) (width : 0 < args.blockN)
    {current : Nat} (filled : 0 ≤ args.token row current) :
    current < (args.starts row).length * args.blockN := by
  have listed := GqaArgs.token_listed filled
  have seen := selects.seen current filled
  have limit : (current : Int) < args.rowLimit row := by
    have block : (0 : Int) < args.blockN := Int.ofNat_lt.mpr width
    have rounded := Int.lt_ediv_add_one_mul_self
      (min (args.indices.topk : Int) row.visible - 1) block
    have whole : (min (args.indices.topk : Int) row.visible + args.blockN - 1) / args.blockN =
        (min (args.indices.topk : Int) row.visible - 1) / args.blockN + 1 := by
      rw [show min (args.indices.topk : Int) row.visible + args.blockN - 1 =
        min (args.indices.topk : Int) row.visible - 1 + args.blockN by omega,
        Int.add_ediv_of_dvd_right (Int.dvd_refl _), Int.ediv_self block.ne']
    unfold GqaArgs.rowLimit
    dsimp only
    rw [whole]
    omega
  have turns := Nat.lt_div_mul_add (a := (args.rowLimit row).toNat + args.blockN - 1) width
  unfold GqaArgs.starts
  rw [List.length_map, List.length_range]
  omega

theorem GqaArgs.Selects.turns_pos (selects : args.Selects row slots) (width : 0 < args.blockN) :
    0 < (args.starts row).length := by
  have taken := selects.taken width selects.filled
  by_contra none
  rw [Nat.le_zero.mp (Nat.not_lt.mp none), Nat.zero_mul] at taken
  exact absurd taken (Nat.lt_irrefl 0)

/-- The slots of the row are the filled columns. -/
theorem GqaArgs.Selects.valid_eq (selects : args.Selects row slots) :
    slots.valid row.query.toNat =
      ((List.range args.indices.topk).filter fun current => 0 ≤ args.token row current).map
        fun current => row.kStart + args.token row current := by
  have entries : ((List.range slots.columns).map fun column : Nat =>
      slots.data (row.query.toNat * slots.columns + column)) =
      (List.range args.indices.topk).map fun current : Nat =>
        if 0 ≤ args.token row current then row.kStart + args.token row current else -1 := by
    rw [selects.columns]
    refine List.map_congr_left fun current listed => ?_
    rw [Int.toNat_of_nonneg selects.query, ← selects.columns]
    exact selects.slot current (List.mem_range.mp listed)
  have kept (current : Nat) : (0 ≤ if 0 ≤ args.token row current then
      row.kStart + args.token row current else -1) <-> 0 ≤ args.token row current := by
    have start := selects.start
    by_cases filled : 0 ≤ args.token row current
    · rw [if_pos filled]
      omega
    · rw [if_neg filled]
      omega
  unfold TokenSlots.valid
  rw [entries, List.filter_map]
  have same : ((fun slot : Int => decide (0 ≤ slot)) ∘ fun current : Nat =>
      if 0 ≤ args.token row current then row.kStart + args.token row current else -1) =
      fun current => decide (0 ≤ args.token row current) :=
    funext fun current => decide_eq_decide.mpr (kept current)
  rw [same]
  refine List.map_congr_left fun current chosen => ?_
  exact if_pos (of_decide_eq_true (List.mem_filter.mp chosen).2)

end Selections

/-- The stores of all programs of a launch. -/
def GqaLaunch.stores (launch : GqaLaunch K) : List (Store K) :=
  (List.range launch.grid.1).flatMap fun query =>
    (List.range launch.grid.2).flatMap fun batchGroup => launch.program query batchGroup

theorem GqaLaunch.mem_stores {launch : GqaLaunch K} {store : Store K} :
    store ∈ launch.stores <-> exists query batchGroup, query < launch.grid.1 ∧
      batchGroup < launch.grid.2 ∧ store ∈ launch.program query batchGroup := by
  unfold GqaLaunch.stores
  simp only [List.mem_flatMap, List.mem_range]
  constructor
  · rintro ⟨query, in_rows, batchGroup, in_groups, stored⟩
    exact ⟨query, batchGroup, in_rows, in_groups, stored⟩
  · rintro ⟨query, batchGroup, in_rows, in_groups, stored⟩
    exact ⟨query, in_rows, batchGroup, in_groups, stored⟩

/-- An address names its row, head and element. -/
theorem Tensor.address_unique {tensor : Tensor K} {row other : Int} {head otherHead element
    otherElement : Nat} (nonneg : 0 ≤ row) (other_nonneg : 0 ≤ other)
    (head_bound : head < tensor.heads) (other_head : otherHead < tensor.heads)
    (element_bound : element < tensor.dim) (other_element : otherElement < tensor.dim)
    (same : tensor.address row head element = tensor.address other otherHead otherElement) :
    row = other ∧ head = otherHead ∧ element = otherElement := by
  rcases Int.eq_ofNat_of_zero_le nonneg with ⟨row, rfl⟩
  rcases Int.eq_ofNat_of_zero_le other_nonneg with ⟨other, rfl⟩
  unfold Tensor.address at same
  push_cast at same
  rw [← Int.mul_assoc, ← Int.mul_assoc, ← Int.add_mul, ← Int.add_mul] at same
  have elements := row_column_unique element_bound other_element (by exact_mod_cast same)
  have heads := row_column_unique head_bound other_head (by exact_mod_cast elements.1)
  exact ⟨congrArg _ heads.1, heads.2, elements.2⟩

theorem validateSparseGqaDtypes_ok {q k v : Tensor K} {kvIsFp8 : Bool}
    (valid : validateSparseGqaDtypes q k v = .ok kvIsFp8) : kvIsFp8 = isFp8KvDtype k.dtype := by
  unfold validateSparseGqaDtypes at valid
  split_ifs at valid
  exact (Except.ok.inj valid).symm

variable [Field K]

/-! ## The reference -/

/-- The logarithm of e to the base two, as the kernels have it. -/
def log2E : K := (14426950408 : Nat) / (10000000000 : Nat)

theorem log2E_eq : (log2E : K) = 14426950408 / 10000000000 := by
  unfold log2E
  rw [Nat.cast_ofNat, Nat.cast_ofNat]

/-- `torch.softmax` with two to the power of `log2E` for e. -/
def softmaxBase2 (power : K -> K) (scores : List K) : List K :=
  scores.map fun score =>
    power (score * log2E) / (scores.map fun score => power (score * log2E)).sum

/-- A softmax weighs the values by the powers of the scores. -/
theorem softmaxBase2_mean {ι : Type} (power : K -> K) (entries : List ι) (score value : ι -> K) :
    (((softmaxBase2 power (entries.map score)).zip entries).map fun entry =>
        entry.1 * value entry.2).sum =
      (entries.map fun entry => power (score entry * log2E) * value entry).sum /
        (entries.map fun entry => power (score entry * log2E)).sum := by
  have pairs (total : K) :
      (((entries.map score).map fun score => power (score * log2E) / total).zip entries) =
        entries.map fun entry => (power (score entry * log2E) / total, entry) := by
    rw [List.map_map]
    exact (List.map_prod_right_eq_zip).symm
  unfold softmaxBase2
  rw [pairs, List.map_map, List.map_map, div_eq_mul_inv, ← List.sum_map_mul_right]
  refine congrArg List.sum (List.map_congr_left fun entry _ => ?_)
  exact div_mul_eq_mul_div _ _ _ |>.trans (div_eq_mul_inv _ _)

theorem sum_filter_range (count : Nat) (chosen : Nat -> Prop) [DecidablePred chosen]
    (value : Nat -> K) :
    (((List.range count).filter fun entry => chosen entry).map value).sum =
      ∑ entry ∈ Finset.range count, if chosen entry then value entry else 0 := by
  have split := List.sum_map_ite chosen value (fun _ => 0) (List.range count)
  rw [List.map_const', List.sum_replicate, nsmul_zero, add_zero] at split
  exact split.symm

/-! ## A program -/

section Program

/-- What the loop keeps for an element of the output. -/
def SoftmaxState.running (state : SoftmaxState K) (lane element : Nat) : Running K K :=
  ⟨state.maxValue lane, state.normalizer lane, state.accumulator lane element⟩

/-- A score: the query row times a key. -/
def GqaArgs.dot (args : GqaArgs K) (row : GqaRow) (lane current : Nat) : K :=
  ∑ element ∈ Finset.range args.q.dim,
    args.qValues row lane element * args.load row args.k current element

variable [LinearOrder K] {args : GqaArgs K} {row : GqaRow} {slots : TokenSlots} {power : K -> K}

omit [LinearOrder K] in
theorem GqaArgs.weight_score (kScale : K) (lane current : Nat) :
    weight power (args.score row false kScale current lane) =
      if 0 ≤ args.token row current then power (args.dot row lane current) else 0 := by
  unfold GqaArgs.score
  by_cases filled : 0 ≤ args.token row current
  · rw [if_pos filled, if_pos filled]
    rfl
  · rw [if_neg filled, if_neg filled]
    rfl

/-- The loop is a stream of blocks. -/
theorem GqaArgs.foldl_running (kScale vScale : K) (lane element : Nat) :
    ((args.starts row).foldl (args.step row false kScale vScale)
        ⟨fun _ => ⊥, fun _ => 0, fun _ _ => 0⟩).running lane element =
      Running.empty.absorbAll args.exp2 args.blockN
        (fun current => args.score row false kScale current lane)
        (fun current => args.load row args.v current element) (args.starts row).length := by
  unfold GqaArgs.starts
  rw [List.foldl_map, List.length_map, List.length_range]
  refine (List.foldl_hom (fun state : SoftmaxState K => state.running lane element) ?_).symm
  exact fun state turn => rfl

omit [LinearOrder K] in
/-- The columns past those taken weigh nothing. -/
theorem GqaArgs.Selects.sum_taken (selects : args.Selects row slots) (width : 0 < args.blockN)
    (value : Nat -> K) :
    ∑ current ∈ Finset.range ((args.starts row).length * args.blockN),
        (if 0 ≤ args.token row current then value current else 0) =
      ∑ current ∈ Finset.range args.indices.topk,
        if 0 ≤ args.token row current then value current else 0 := by
  apply Finset.sum_congr_of_eq_on_inter
  · intro current _ unlisted
    refine if_neg fun filled => unlisted (Finset.mem_range.mpr (GqaArgs.token_listed filled))
  · intro current _ untaken
    refine if_neg fun filled => untaken (Finset.mem_range.mpr (selects.taken width filled))
  · exact fun current _ _ => rfl

/-- What a program divides: the mean of the values over the filled columns. -/
theorem GqaArgs.Selects.program_mean (selects : args.Selects row slots) (width : 0 < args.blockN)
    (powers : Powers power args.exp2) (kScale vScale : K) (lane element : Nat) :
    let final := (args.starts row).foldl (args.step row false kScale vScale)
      ⟨fun _ => ⊥, fun _ => 0, fun _ _ => 0⟩
    final.accumulator lane element / final.normalizer lane =
      (∑ current ∈ Finset.range args.indices.topk, if 0 ≤ args.token row current then
        power (args.dot row lane current) * args.load row args.v current element else 0) /
      ∑ current ∈ Finset.range args.indices.topk, if 0 ≤ args.token row current then
        power (args.dot row lane current) else 0 := by
  have live : exists column, column < args.blockN ∧ args.score row false kScale column lane ≠ ⊥ := by
    refine ⟨0, width, ?_⟩
    unfold GqaArgs.score
    rw [if_pos selects.filled]
    exact WithBot.coe_ne_bot
  have mean := absorbAll_mean (fun current => args.load row args.v current element) powers live (selects.turns_pos width)
  dsimp only at mean
  rw [← GqaArgs.foldl_running kScale vScale] at mean
  simp only [GqaArgs.weight_score, ite_mul, zero_mul] at mean
  rw [selects.sum_taken width, selects.sum_taken width] at mean
  exact mean

omit [LinearOrder K] in
/-- The mean is the element of the reference. -/
theorem GqaArgs.Selects.reference_eq [DecidableEq K] (selects : args.Selects row slots)
    (nonzero : args.scale ≠ 0) (inverseSqrt : Nat -> K) {lane : Nat}
    (inside : lane < args.groupSize) (element : Nat) :
    qsaSparseAttentionReference ⟨softmaxBase2 power, inverseSqrt⟩ args.q args.k args.v slots
        (some args.scale) none none row.query.toNat (row.group * args.groupSize + lane) element =
      (∑ current ∈ Finset.range args.indices.topk, if 0 ≤ args.token row current then
        power (args.dot row lane current) * args.load row args.v current element else 0) /
      ∑ current ∈ Finset.range args.indices.topk, if 0 ≤ args.token row current then
        power (args.dot row lane current) else 0 := by
  have group : (row.group * args.groupSize + lane) / (args.q.heads / args.k.heads) = row.group :=
    row_of_place row.group inside
  let score := fun slot : Int => (∑ place ∈ Finset.range args.q.dim,
    args.q.data (args.q.address row.query.toNat (row.group * args.groupSize + lane) place) *
      args.k.data (args.k.address slot row.group place)) * args.scale
  let value := fun slot : Int => args.v.data (args.v.address slot row.group element)
  have scored (current : Nat) (filled : 0 ≤ args.token row current) :
      score (row.kStart + args.token row current) * log2E = args.dot row lane current := by
    unfold GqaArgs.dot
    dsimp only [score]
    rw [mul_assoc, Finset.sum_mul]
    refine Finset.sum_congr rfl fun place _ => ?_
    unfold GqaArgs.qValues GqaArgs.load maskedLoad
    rw [if_pos inside, if_pos filled, Int.toNat_of_nonneg selects.query, log2E_eq]
    rw [mul_assoc (args.q.data _) args.scale, mul_right_comm]
  have valued (current : Nat) (filled : 0 ≤ args.token row current) :
      value (row.kStart + args.token row current) = args.load row args.v current element := by
    unfold GqaArgs.load maskedLoad
    rw [if_pos filled]
  unfold qsaSparseAttentionReference
  simp only [if_neg nonzero, unitScale_none, mul_one, group, selects.valid_eq]
  refine (softmaxBase2_mean power _ score value).trans ?_
  rw [List.map_map, List.map_map, sum_filter_range, sum_filter_range]
  refine congrArg₂ (· / ·) (Finset.sum_congr rfl fun current _ => ?_)
    (Finset.sum_congr rfl fun current _ => ?_)
  · by_cases filled : 0 ≤ args.token row current
    · rw [if_pos filled, if_pos filled, ← scored current filled, ← valued current filled]
      rfl
    · rw [if_neg filled, if_neg filled]
  · by_cases filled : 0 ≤ args.token row current
    · rw [if_pos filled, if_pos filled, ← scored current filled]
      rfl
    · rw [if_neg filled, if_neg filled]

end Program

/-! ## Programs over an FP8 cache -/

section Scales

variable [LinearOrder K] {args : GqaArgs K} {row : GqaRow} {slots : TokenSlots} {power : K -> K}
  {kvIsFp8 : Bool} {kScale vScale : Option K}

/-- The scales that a kernel applies. -/
def appliedScale (kvIsFp8 : Bool) (scale : Option K) : Option K :=
  if kvIsFp8 then scale else none

/-- Without an FP8 cache the scales are not read. -/
theorem GqaArgs.stores_unscaled (kScale vScale : K) :
    args.stores row false kScale vScale = args.stores row false 1 1 := by
  have score (current lane : Nat) :
      args.score row false kScale current lane = args.score row false 1 current lane := rfl
  have step : args.step row false kScale vScale = args.step row false 1 1 := by
    funext state start
    unfold GqaArgs.step
    simp only [score, Bool.false_eq_true, if_false]
  unfold GqaArgs.stores
  rw [step]

omit [LinearOrder K] in
/-- The reference with scales is the one without over restored K and V. -/
theorem qsaSparseAttentionReference_restored [DecidableEq K] (math : TorchMath K) (q k v : Tensor K)
    (dtype : TorchDtype) (slots : TokenSlots) (softmaxScale kScale vScale : Option K) :
    qsaSparseAttentionReference math q k v slots softmaxScale kScale vScale =
      qsaSparseAttentionReference math q (k.restored dtype (unitScale kScale))
        (v.restored dtype (unitScale vScale)) slots softmaxScale none none := by
  funext row head element
  unfold qsaSparseAttentionReference
  simp only [unitScale_none, mul_one]
  rfl

/-- A program stores the elements of the reference, for the heads of its group. -/
theorem GqaArgs.Selects.mem_stores (selects : args.Selects row slots) (width : 0 < args.blockN)
    (lanes : args.groupSize ≤ args.blockM) (powers : Powers power args.exp2)
    (nonzero : args.scale ≠ 0) (inverseSqrt : Nat -> K) {store : Store K} :
    store ∈ args.stores row kvIsFp8 (unitScale kScale) (unitScale vScale) <->
      exists lane element : Nat, lane < args.groupSize ∧ element < args.q.dim ∧
        store = ⟨args.q.address row.query (row.group * args.groupSize + lane) element,
          qsaSparseAttentionReference ⟨softmaxBase2 power, inverseSqrt⟩ args.q args.k args.v slots
            (some args.scale) (appliedScale kvIsFp8 kScale) (appliedScale kvIsFp8 vScale)
            row.query.toNat (row.group * args.groupSize + lane) element⟩ := by
  have plain (args : GqaArgs K) (selects : args.Selects row slots) (width : 0 < args.blockN)
      (lanes : args.groupSize ≤ args.blockM) (powers : Powers power args.exp2)
      (nonzero : args.scale ≠ 0) :
      store ∈ args.stores row false 1 1 <->
        exists lane element : Nat, lane < args.groupSize ∧ element < args.q.dim ∧
          store = ⟨args.q.address row.query (row.group * args.groupSize + lane) element,
            qsaSparseAttentionReference ⟨softmaxBase2 power, inverseSqrt⟩ args.q args.k args.v slots
              (some args.scale) none none row.query.toNat (row.group * args.groupSize + lane)
              element⟩ := by
    unfold GqaArgs.stores
    rw [mem_tileStore]
    constructor
    · rintro ⟨lane, element, _, in_row, inside, same⟩
      have inside := Int.ofNat_lt.mp inside
      refine ⟨lane, element, inside, in_row, ?_⟩
      rw [same, selects.reference_eq nonzero inverseSqrt inside]
      exact congrArg (Store.mk _) (selects.program_mean width powers 1 1 lane element)
    · rintro ⟨lane, element, inside, in_row, same⟩
      refine ⟨lane, element, inside.trans_le lanes, in_row, Int.ofNat_lt.mpr inside, ?_⟩
      rw [same, selects.reference_eq nonzero inverseSqrt inside]
      exact congrArg (Store.mk _) (selects.program_mean width powers 1 1 lane element).symm
  cases kvIsFp8 with
  | false =>
      rw [GqaArgs.stores_unscaled]
      exact plain args selects width lanes powers nonzero
  | true =>
      have restored := plain (args.restored args.q.dtype (unitScale kScale) (unitScale vScale))
        ⟨selects.columns, selects.slot, selects.filled, selects.seen, selects.query, selects.start⟩
        width lanes powers nonzero
      rw [args.stores_restored row args.q.dtype, restored]
      change _ <-> exists lane element : Nat, lane < args.groupSize ∧ element < args.q.dim ∧
        store = ⟨_, qsaSparseAttentionReference ⟨softmaxBase2 power, inverseSqrt⟩ args.q args.k args.v
          slots (some args.scale) kScale vScale row.query.toNat _ element⟩
      rw [qsaSparseAttentionReference_restored _ args.q args.k args.v args.q.dtype]
      rfl

end Scales

/-! ## The launches -/

section Launches

variable [LinearOrder K]

/-- The three launchers, with what each takes besides the tensors, the selection, the
offsets of the queries and the scales. -/
inductive GqaLauncher where
  | prefill (maxSeqlenK : Nat)
  | chunk (cuK kvLens : Memory Int) (maxQ : Option Nat)
  | packedDecode (cuK kvLens : Memory Int)

def GqaLauncher.launch (launcher : GqaLauncher) (device : GqaDevice K) (q k v : Tensor K)
    (indices : Indices) (cuQ : Offsets) (scale : K) (kScale vScale : Option K) :
    Except PyError (GqaLaunch K) :=
  match launcher with
  | .prefill maxSeqlenK =>
      sparseGqaFwdInterfaceTriton device q k v maxSeqlenK indices cuQ scale kScale vScale
  | .chunk cuK kvLens maxQ =>
      sparseGqaFwdInterfaceTritonCk device q k v indices cuQ cuK kvLens scale maxQ kScale vScale
  | .packedDecode cuK kvLens =>
      sparseGqaPackedDecodeTriton device q k v indices cuQ cuK kvLens scale kScale vScale

/-- The queries of a sequence that a launch covers. -/
def GqaLauncher.rows (launcher : GqaLauncher) (cuQ : Offsets) : Nat :=
  match launcher with
  | .prefill maxSeqlenK => maxSeqlenK
  | .chunk _ _ maxQ => maxQ.getD cuQ.longest
  | .packedDecode _ _ => 1

/-- Where the keys of the sequences start; a prefill has its keys at the queries. -/
def GqaLauncher.cuK (launcher : GqaLauncher) (cuQ : Offsets) : Memory Int :=
  match launcher with
  | .prefill _ => cuQ.data
  | .chunk cuK _ _ => cuK
  | .packedDecode cuK _ => cuK

/-- How many keys the sequences have. -/
def GqaLauncher.kvLens (launcher : GqaLauncher) (cuQ : Offsets) : Memory Int :=
  match launcher with
  | .prefill _ => fun sequence => cuQ.data (sequence + 1) - cuQ.data sequence
  | .chunk _ kvLens _ => kvLens
  | .packedDecode _ kvLens => kvLens

/-- An element of the output that a launch covers. -/
structure GqaLauncher.Covers (launcher : GqaLauncher) (q k : Tensor K) (cuQ : Offsets)
    (sequence query head element : Nat) : Prop where
  in_batch : sequence < cuQ.sequences
  in_grid : query < launcher.rows cuQ
  in_sequence : cuQ.data sequence + query < cuQ.data (sequence + 1)
  in_heads : head < k.heads * (q.heads / k.heads)
  in_row : element < q.dim

/-- The row of a program of the chunk kernel. -/
def chunkRow (cuQ cuK kvLens : Memory Int) (sequence query group : Nat) : GqaRow where
  query := cuQ sequence + query
  group := group
  kStart := cuK sequence
  visible := query + kvLens sequence - (cuQ (sequence + 1) - cuQ sequence) + 1

/-- The slots that the rows of a launch select, for each group of heads. -/
def GqaLauncher.Selects (launcher : GqaLauncher) (args : GqaArgs K) (cuQ : Offsets)
    (slots : Nat -> TokenSlots) : Prop :=
  forall sequence query group : Nat, sequence < cuQ.sequences -> query < launcher.rows cuQ ->
    cuQ.data sequence + query < cuQ.data (sequence + 1) -> group < args.k.heads ->
    args.Selects (chunkRow cuQ.data (launcher.cuK cuQ) (launcher.kvLens cuQ) sequence query group)
      (slots group)

/-- A prefill is a chunk that starts with its first key. -/
theorem sparseGqaPrefill_chunk (args : GqaArgs K) (kvIsFp8 : Bool) (kScale vScale : K)
    (cuSeqlens : Memory Int) :
    sparseGqaPrefill args kvIsFp8 kScale vScale cuSeqlens =
      sparseGqaChunkPrefill args kvIsFp8 kScale vScale cuSeqlens cuSeqlens
        fun sequence => cuSeqlens (sequence + 1) - cuSeqlens sequence := by
  funext queryRelative batchGroup
  unfold sparseGqaPrefill sparseGqaChunkPrefill
  simp only [Int.add_sub_cancel]

/-- Every launcher runs the chunk kernel. -/
theorem GqaLauncher.launch_eq {launcher : GqaLauncher} {device : GqaDevice K} {q k v : Tensor K}
    {indices : Indices} {cuQ : Offsets} {scale : K} {kScale vScale : Option K}
    {launch : GqaLaunch K}
    (accepted : launcher.launch device q k v indices cuQ scale kScale vScale = .ok launch) :
    launch = {
      grid := (launcher.rows cuQ, cuQ.sequences * k.heads)
      program := sparseGqaChunkPrefill (device.args q k v indices scale) (isFp8KvDtype k.dtype)
        (unitScale kScale) (unitScale vScale) cuQ.data (launcher.cuK cuQ)
        (launcher.kvLens cuQ) } := by
  cases valid : validateSparseGqaDtypes q k v with
  | error cause =>
      cases launcher with
      | prefill maxSeqlenK =>
          unfold GqaLauncher.launch sparseGqaFwdInterfaceTriton at accepted
          rw [valid] at accepted
          exact nomatch accepted
      | chunk cuK kvLens maxQ =>
          unfold GqaLauncher.launch sparseGqaFwdInterfaceTritonCk at accepted
          rw [valid] at accepted
          exact nomatch accepted
      | packedDecode cuK kvLens =>
          unfold GqaLauncher.launch sparseGqaPackedDecodeTriton at accepted
          rw [valid] at accepted
          exact nomatch accepted
  | ok kvIsFp8 =>
      rw [← validateSparseGqaDtypes_ok valid]
      cases launcher with
      | prefill maxSeqlenK =>
          unfold GqaLauncher.launch sparseGqaFwdInterfaceTriton at accepted
          rw [valid] at accepted
          rw [← Except.ok.inj accepted, sparseGqaPrefill_chunk]
          rfl
      | chunk cuK kvLens maxQ =>
          unfold GqaLauncher.launch sparseGqaFwdInterfaceTritonCk at accepted
          rw [valid] at accepted
          exact (Except.ok.inj accepted).symm
      | packedDecode cuK kvLens =>
          unfold GqaLauncher.launch sparseGqaPackedDecodeTriton at accepted
          rw [valid] at accepted
          exact (Except.ok.inj accepted).symm

/-- A program of the chunk kernel, with its row. -/
theorem mem_sparseGqaChunkPrefill (args : GqaArgs K) {kvIsFp8 : Bool} {kScale vScale : K}
    {cuQ cuK kvLens : Memory Int} {sequence query group : Nat} (inside : group < args.k.heads)
    {store : Store K} :
    store ∈ sparseGqaChunkPrefill args kvIsFp8 kScale vScale cuQ cuK kvLens query
        (sequence * args.k.heads + group) <->
      cuQ sequence + query < cuQ (sequence + 1) ∧
        store ∈ args.stores (chunkRow cuQ cuK kvLens sequence query group) kvIsFp8 kScale vScale := by
  have place := row_of_place sequence inside
  have rest := column_of_place sequence inside
  unfold sparseGqaChunkPrefill
  dsimp only
  rw [place, rest]
  by_cases past : cuQ (sequence + 1) ≤ cuQ sequence + query
  · rw [if_pos past]
    exact ⟨fun stored => absurd stored List.not_mem_nil,
      fun both => absurd both.1 (Int.not_lt.mpr past)⟩
  · rw [if_neg past]
    exact ⟨fun stored => ⟨Int.not_le.mp past, stored⟩, fun both => both.2⟩

/-- The stores of a launch: the elements of the reference at the rows of the sequences. -/
theorem GqaLauncher.mem_launch {launcher : GqaLauncher} {device : GqaDevice K} {q k v : Tensor K}
    {indices : Indices} {cuQ : Offsets} {scale : K} {kScale vScale : Option K}
    {launch : GqaLaunch K} {power : K -> K} {slots : Nat -> TokenSlots}
    (accepted : launcher.launch device q k v indices cuQ scale kScale vScale = .ok launch)
    (powers : Powers power device.exp2) (width : 0 < device.bestBlockN q.rows)
    (nonzero : scale ≠ 0) (inverseSqrt : Nat -> K)
    (selects : launcher.Selects (device.args q k v indices scale) cuQ slots) {store : Store K} :
    store ∈ launch.stores <-> exists sequence query head element : Nat,
      launcher.Covers q k cuQ sequence query head element ∧ store = ⟨q.address (cuQ.data sequence + query) head element,
        qsaSparseAttentionReference ⟨softmaxBase2 power, inverseSqrt⟩ q k v
          (slots (head / (q.heads / k.heads))) (some scale)
          (appliedScale (isFp8KvDtype k.dtype) kScale) (appliedScale (isFp8KvDtype k.dtype) vScale)
          (cuQ.data sequence + query).toNat head element⟩ := by
  have lanes : (device.args q k v indices scale).groupSize ≤
      (device.args q k v indices scale).blockM :=
    (le_nextPowerOf2 _).trans (Nat.le_max_right 16 _)
  rw [launcher.launch_eq accepted, GqaLaunch.mem_stores]
  constructor
  · rintro ⟨query, batchGroup, in_rows, in_groups, stored⟩
    have some : 0 < k.heads := by
      by_contra none
      rw [Nat.le_zero.mp (Nat.not_lt.mp none), Nat.mul_zero] at in_groups
      exact Nat.not_lt_zero _ in_groups
    have group := Nat.mod_lt batchGroup some
    have sequence := (Nat.div_lt_iff_lt_mul some).mpr in_groups
    have program := Nat.div_add_mod' batchGroup k.heads
    dsimp only at stored
    rw [← program] at stored
    rcases (mem_sparseGqaChunkPrefill _ group).mp stored with ⟨in_sequence, stored⟩
    rcases ((selects _ query _ sequence in_rows in_sequence group).mem_stores width lanes powers
      nonzero inverseSqrt).mp stored with ⟨lane, element, inside, in_row, same⟩
    have head := row_of_place (batchGroup % k.heads) inside
    have in_heads : batchGroup % k.heads * (q.heads / k.heads) + lane <
        k.heads * (q.heads / k.heads) :=
      (Nat.div_lt_iff_lt_mul (Nat.zero_lt_of_lt inside)).mp (head.trans_lt group)
    refine ⟨_, query, _, element, ⟨sequence, in_rows, in_sequence, in_heads, in_row⟩, ?_⟩
    rw [show (batchGroup % k.heads * (q.heads / k.heads) + lane) / (q.heads / k.heads) =
      batchGroup % k.heads from head]
    exact same
  · rintro ⟨sequence, query, head, element,
      ⟨in_sequences, in_rows, in_sequence, in_heads, in_row⟩, same⟩
    have width_pos : 0 < q.heads / k.heads := by
      by_contra none
      rw [Nat.le_zero.mp (Nat.not_lt.mp none), Nat.mul_zero] at in_heads
      exact Nat.not_lt_zero _ in_heads
    have group := (Nat.div_lt_iff_lt_mul width_pos).mpr in_heads
    refine ⟨query, sequence * k.heads + head / (q.heads / k.heads), in_rows, ?_, ?_⟩
    · exact (Nat.div_lt_iff_lt_mul (Nat.zero_lt_of_lt group)).mp
        ((row_of_place sequence group).trans_lt in_sequences)
    · refine (mem_sparseGqaChunkPrefill (device.args q k v indices scale) group).mpr
        ⟨in_sequence, ?_⟩
      refine ((selects sequence query _ in_sequences in_rows in_sequence group).mem_stores width
        lanes powers nonzero inverseSqrt).mpr
        ⟨head % (q.heads / k.heads), element, Nat.mod_lt head width_pos, in_row, ?_⟩
      have whole : (device.args q k v indices scale).groupSize = q.heads / k.heads := rfl
      have split := Nat.div_add_mod' head (q.heads / k.heads)
      rw [whole, show (chunkRow cuQ.data (launcher.cuK cuQ) (launcher.kvLens cuQ) sequence query
        (head / (q.heads / k.heads))).group = head / (q.heads / k.heads) from rfl, split]
      exact same

/-- A launch, its programs storing in any order, leaves the torch reference at the rows
of the sequences and every other address as it was.  The selections of a row may differ
between the groups of heads; the block size does not matter. -/
theorem sparse_attention_exact {launcher : GqaLauncher} {device : GqaDevice K} {q k v : Tensor K}
    {indices : Indices} {cuQ : Offsets} {scale : K} {kScale vScale : Option K}
    {launch : GqaLaunch K} {power : K -> K} {slots : Nat -> TokenSlots}
    (accepted : launcher.launch device q k v indices cuQ scale kScale vScale = .ok launch)
    (powers : Powers power device.exp2) (width : 0 < device.bestBlockN q.rows)
    (nonzero : scale ≠ 0) (inverseSqrt : Nat -> K)
    (selects : launcher.Selects (device.args q k v indices scale) cuQ slots)
    {out final : Memory K} (lands : Lands out final launch.stores) :
    (forall sequence query head element : Nat,
      launcher.Covers q k cuQ sequence query head element ->
      final (q.address (cuQ.data sequence + query) head element) =
        qsaSparseAttentionReference ⟨softmaxBase2 power, inverseSqrt⟩ q k v
          (slots (head / (q.heads / k.heads))) (some scale)
          (appliedScale (isFp8KvDtype k.dtype) kScale) (appliedScale (isFp8KvDtype k.dtype) vScale)
          (cuQ.data sequence + query).toNat head element) ∧
      forall address : Int,
        (forall sequence query head element : Nat,
          launcher.Covers q k cuQ sequence query head element ->
          q.address (cuQ.data sequence + query) head element ≠ address) ->
        final address = out address := by
  rcases lands with ⟨order, permuted, rfl⟩
  have member (store : Store K) : store ∈ order <-> _ :=
    permuted.mem_iff.trans (launcher.mem_launch accepted powers width nonzero inverseSqrt selects)
  have heads {sequence query head element : Nat}
      (covers : launcher.Covers q k cuQ sequence query head element) : head < q.heads :=
    covers.in_heads.trans_le (Nat.mul_div_le _ _)
  have nonneg {sequence query head element : Nat}
      (covers : launcher.Covers q k cuQ sequence query head element) :
      0 ≤ cuQ.data sequence + query :=
    (selects sequence query 0 covers.in_batch covers.in_grid covers.in_sequence
      (Nat.pos_of_mul_pos_right (Nat.zero_lt_of_lt covers.in_heads))).query
  constructor
  · intro sequence query head element covers
    apply storeAll_determined
    · exact (member _).mpr ⟨sequence, query, head, element, covers, rfl⟩
    · intro store stored same
      rcases (member store).mp stored with
        ⟨other, otherQuery, otherHead, otherElement, other_covers, rfl⟩
      have unique := Tensor.address_unique (nonneg other_covers) (nonneg covers)
        (heads other_covers) (heads covers) other_covers.in_row covers.in_row same
      dsimp only
      rw [unique.1, unique.2.1, unique.2.2]
  · intro address apart
    apply storeAll_untouched
    intro store stored same
    rcases (member store).mp stored with ⟨sequence, query, head, element, covers, rfl⟩
    exact apart sequence query head element covers same

end Launches

/-! ## A packed decode -/

/-- Powers of two, where the exponents are whole. -/
def wholePower (score : Rat) : Rat := 2 ^ ⌊score⌋

def wholeQuotient (score top : WithBot Rat) : Rat :=
  score.recBotCoe 0 fun score => top.recBotCoe 0 fun top => 2 ^ (⌊score⌋ - ⌊top⌋)

theorem wholePower_powers : Powers wholePower wholeQuotient where
  nonzero := fun score => zpow_ne_zero _ (by decide)
  quotient_coe := fun score top =>
    (congrArg (· * wholePower top) (zpow_sub₀ (by decide) ⌊score⌋ ⌊top⌋)).trans
      (div_mul_cancel₀ _ (zpow_ne_zero _ (by decide)))
  quotient_bot := fun top => rfl

/-- Blocks of one column. -/
def narrowDevice : GqaDevice Rat where
  exp2 := wholeQuotient
  bestBlockN := fun _ => 1

/-- Two heads of queries: 1 and 2. -/
def packedQueries : Tensor Rat where
  dtype := .bfloat16
  isCuda := true
  rows := 1
  heads := 2
  dim := 1
  data := fun address => address + 1

/-- Keys 0 and 1, or values 3 and 6. -/
def packedRows (first next : Rat) : Tensor Rat where
  dtype := .float8E4m3fn
  isCuda := true
  rows := 2
  heads := 1
  dim := 1
  data := fun address => if address = 0 then first else next

/-- The row selects token 1, then token 0. -/
def packedIndices : Indices where
  rows := 1
  groups := none
  topk := 2
  data := fun address => 1 - address

def packedSlots : TokenSlots where
  rows := 1
  columns := 2
  data := fun address => 1 - address

def packedOffsets : Offsets where
  sequences := 1
  data := fun sequence => sequence

/-- One request with two keys. -/
def packedLauncher : GqaLauncher := .packedDecode (fun _ => 0) fun _ => 2

theorem packedLauncher_selects :
    packedLauncher.Selects (narrowDevice.args packedQueries (packedRows 0 1) (packedRows 3 6)
      packedIndices (1 / log2E)) packedOffsets fun _ => packedSlots := by
  intro sequence query group in_batch in_grid in_sequence in_heads
  change sequence < 1 at in_batch
  change query < 1 at in_grid
  change group < 1 at in_heads
  rcases Nat.lt_one_iff.mp in_batch
  rcases Nat.lt_one_iff.mp in_grid
  rcases Nat.lt_one_iff.mp in_heads
  constructor
  · rfl
  · intro current listed
    change current < 2 at listed
    interval_cases current
    · decide
    · decide
  · decide
  · intro current filled
    exact Int.ofNat_lt.mpr (GqaArgs.token_listed filled)
  · decide
  · decide

/-- The weights of the two keys are 2 and 1 for the first head, 4 and 1 for the other;
the values count twice. -/
theorem sparse_attention_exact_example :
    exists launch, packedLauncher.launch narrowDevice packedQueries (packedRows 0 1)
        (packedRows 3 6) packedIndices packedOffsets (1 / log2E) none (some 2) = .ok launch ∧
      forall out final, Lands out final launch.stores -> final 0 = 10 ∧ final 1 = 54 / 5 := by
  cases accepted : packedLauncher.launch narrowDevice packedQueries (packedRows 0 1)
    (packedRows 3 6) packedIndices packedOffsets (1 / log2E) none (some 2) with
  | error cause => exact nomatch accepted
  | ok launch =>
      refine ⟨launch, rfl, fun out final lands => ?_⟩
      have exact := (sparse_attention_exact accepted wholePower_powers Nat.zero_lt_one
        (by decide +kernel) (fun _ => 1) packedLauncher_selects lands).1
      constructor
      · refine (exact 0 0 0 0 ⟨by decide, by decide, by decide, by decide, by decide⟩).trans ?_
        decide +kernel
      · refine (exact 0 0 1 0 ⟨by decide, by decide, by decide, by decide, by decide⟩).trans ?_
        decide +kernel

end Kernels
end QSAHiSparse

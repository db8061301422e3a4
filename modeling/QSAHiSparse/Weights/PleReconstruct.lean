import QSAHiSparse.Weights.PleGather
import Mathlib.Algebra.BigOperators.Group.Finset.Basic
import Mathlib.Data.Fintype.Basic
import Mathlib.Tactic.IntervalCases

namespace QSAHiSparse
namespace Weights

open Foundation

/-!
# The table that the ranks gather

Every row of the vocabulary is in the interval of one rank.  The ranks load the
shards of one checkpoint, each in its own order, and their gathers add up to the
scaled row of the table.
-/

section Group

variable {Element Scale Value : Type}

/-- The table that a checkpoint holds in shards. -/
structure GlobalTable (Element Scale : Type) where
  vocabSize : Nat
  embeddingDim : Nat
  rows : Nat -> List Element
  scales : Nat -> Scale
  width : forall row, (rows row).length = embeddingDim

/-- The shards of a module hold all rows of a table, and the scales of some. -/
structure GlobalTable.InShards (table : GlobalTable Element Scale)
    (weights : List (PleShard (List Element) Scale)) (modPrefix : String) (size : Nat) : Prop where
  rows : forall shard, shard ∈ weightShards modPrefix weights -> forall row value,
    shard.rowAt size row = some value -> value = table.rows row
  scales : forall shard, shard ∈ weights -> forall row scale,
    shard.scaleOf modPrefix size row = some scale -> scale = table.scales row
  complete : forall row, row < table.vocabSize ->
    exists shard, shard ∈ weightShards modPrefix weights ∧ (shard.rowAt size row).isSome = true

/-- What a rank loads: its tables, the weights in their order, and what a new
storage holds. -/
structure RankLoad (Element Scale : Type) where
  state : LoadState (List Element) Scale
  weights : List (PleShard (List Element) Scale)
  fresh : Nat -> List Element

variable (convert : TorchDtype -> TorchDtype -> List Element -> List Element)
  (toBfloat16 : Scale -> Scale) (isNan : Scale -> Bool) (pleNumSyncShards : Nat)

def RankLoad.load (rank : RankLoad Element Scale) :
    Except PyError (LoadState (List Element) Scale) :=
  loadWeights convert toBfloat16 isNan pleNumSyncShards rank.fresh rank.state rank.weights

/-- A group of ranks in `int8_row` mode that share the vocabulary of a table. -/
structure RowScaledGroup (modPrefix : String) (table : GlobalTable Element Scale) {count : Nat}
    (ranks : Fin count -> RankLoad Element Scale)
    (emb : Fin count -> PleEmbedding (List Element) Scale) : Prop where
  loads : forall rank,
    ScaleLoad toBfloat16 isNan pleNumSyncShards (ranks rank).state (ranks rank).weights
  found : forall rank, (ranks rank).state.pleModules modPrefix = some (emb rank)
  listed : forall rank, modPrefix ∈ (ranks rank).state.names
  vocab : forall rank, (emb rank).orgVocabSize = table.vocabSize
  interval : forall rank, (emb rank).orgVocabEndIndex ≤ table.vocabSize
  partition : forall row, row < table.vocabSize -> ∃! rank, (emb rank).table.Holds row
  shards : forall rank, table.InShards (ranks rank).weights modPrefix
    (rowsApart table.vocabSize pleNumSyncShards)
  unconverted : forall row, convert .int8 .int8 row = row

variable {convert} {toBfloat16} {isNan} {pleNumSyncShards}
variable {modPrefix : String} {table : GlobalTable Element Scale} {count : Nat}
  {ranks : Fin count -> RankLoad Element Scale}
  {emb : Fin count -> PleEmbedding (List Element) Scale}

namespace RowScaledGroup

/-- A rank that accepts its shards has the scales of its interval. -/
theorem scales
    (group : RowScaledGroup convert toBfloat16 isNan pleNumSyncShards modPrefix table ranks emb)
    {rank : Fin count} {loaded : LoadState (List Element) Scale}
    {last : PleEmbedding (List Element) Scale}
    (accepted : (ranks rank).load convert toBfloat16 isNan pleNumSyncShards = .ok loaded)
    (held : loaded.pleModules modPrefix = some last) {row : Nat}
    (holds : (emb rank).table.Holds row) :
    last.rowScale[row - (emb rank).orgVocabStartIndex]? = some (toBfloat16 (table.scales row)) := by
  have load := group.loads rank
  rcases foldlM_rowScaled convert toBfloat16 (ranks rank).fresh load.positive load.rowScaled
    load.int8 with ⟨stepped, steps, run⟩
  have received := (loadWeights_accepted_iff convert toBfloat16 (ranks rank).fresh load).mp
    ⟨loaded, accepted⟩ modPrefix (group.listed rank) (emb rank) (group.found rank) row holds
  unfold RankLoad.load loadWeights at accepted
  rw [steps, Except.ok_bind] at accepted
  rcases Except.bind_ok accepted with ⟨_, _, same⟩
  cases same
  rcases run.modules modPrefix (emb rank) (group.found rank) with ⟨next, at_end, _, rows⟩
  rw [Option.some.inj (held.symm.trans at_end)]
  rcases rows row holds with ⟨shard, scale, member, has, written⟩ | ⟨none_has, _⟩
  · rw [group.vocab rank] at has
    rw [written, (group.shards rank).scales shard member row scale has]
  · rcases received with ⟨shard, member, some_has⟩
    rw [none_has shard member] at some_has
    cases some_has

/-- A rank that accepts its shards has the rows of its interval. -/
theorem rows
    (group : RowScaledGroup convert toBfloat16 isNan pleNumSyncShards modPrefix table ranks emb)
    {rank : Fin count} {loaded : LoadState (List Element) Scale}
    {last : PleEmbedding (List Element) Scale}
    (accepted : (ranks rank).load convert toBfloat16 isNan pleNumSyncShards = .ok loaded)
    (held : loaded.pleModules modPrefix = some last) {row : Nat}
    (holds : (emb rank).table.Holds row) :
    last.weight[row - (emb rank).orgVocabStartIndex]? = some (table.rows row) := by
  have load := group.loads rank
  have int8 : forall shard, shard ∈ weightShards modPrefix (ranks rank).weights ->
      shard.dtype = .int8 := by
    intro shard member
    rcases List.mem_filterMap.mp member with ⟨weight, listed, made⟩
    unfold weightShard at made
    split at made
    · cases kind : weight.tensor with
      | weight dtype rows =>
          rw [kind] at made
          rw [← Option.some.inj made]
          exact load.int8 weight listed dtype rows kind
      | rowScale scales =>
          rw [kind] at made
          cases made
    · cases made
  rcases loadWeights_loadedBy accepted (group.found rank) with ⟨next, at_end, run⟩
  have steady := run.steady fun shard member switched => by
    have fp8 := switched.1
    rw [int8 shard member] at fp8
    cases fp8
  rw [Option.some.inj (held.symm.trans at_end)]
  have start : next.table.tpStart = (emb rank).orgVocabStartIndex := run.tpStart
  have dtype : next.table.dtype = .int8 :=
    steady.1.trans (load.rowScaled modPrefix (emb rank) (group.found rank)).dtype
  have at_row : next.table.rowOf row = next.weight[row - (emb rank).orgVocabStartIndex]? := by
    unfold Table.rowOf
    rw [start]
    rfl
  have vocab : (emb rank).table.orgVocabSize = table.vocabSize := group.vocab rank
  rw [← at_row]
  rcases steady.2 row holds with ⟨shard, value, member, has, written⟩ | ⟨none_has, _⟩
  · rw [vocab] at has
    rw [written, int8 shard member, dtype, group.unconverted,
      (group.shards rank).rows shard member row value has]
  · have inside : row < table.vocabSize := Nat.lt_of_lt_of_le holds.2 (group.interval rank)
    rcases (group.shards rank).complete row inside with ⟨shard, member, some_has⟩
    rw [vocab] at none_has
    rw [none_has shard member] at some_has
    cases some_has

/-- Loading changes neither the interval of a rank nor its mode. -/
theorem kept
    (group : RowScaledGroup convert toBfloat16 isNan pleNumSyncShards modPrefix table ranks emb)
    {rank : Fin count} {loaded : LoadState (List Element) Scale}
    {last : PleEmbedding (List Element) Scale}
    (accepted : (ranks rank).load convert toBfloat16 isNan pleNumSyncShards = .ok loaded)
    (held : loaded.pleModules modPrefix = some last) :
    RowScaled last ∧ SameRank (emb rank) last := by
  have load := group.loads rank
  rcases foldlM_rowScaled convert toBfloat16 (ranks rank).fresh load.positive load.rowScaled
    load.int8 with ⟨stepped, steps, run⟩
  unfold RankLoad.load loadWeights at accepted
  rw [steps, Except.ok_bind] at accepted
  rcases Except.bind_ok accepted with ⟨_, _, same⟩
  cases same
  rcases run.modules modPrefix (emb rank) (group.found rank) with ⟨next, at_end, rank_kept, _⟩
  rw [Option.some.inj (held.symm.trans at_end)]
  exact ⟨run.rowScaled modPrefix next at_end, rank_kept⟩

variable {cast : TorchDtype -> Element -> Value} {rescale : Value -> Scale -> Value}
  {padding : Element} {pinned : Memory Element} {pinnedScales : Memory Scale}

theorem inRange_iff
    (group : RowScaledGroup convert toBfloat16 isNan pleNumSyncShards modPrefix table ranks emb)
    {rank : Fin count} {loaded : LoadState (List Element) Scale}
    {last : PleEmbedding (List Element) Scale}
    (accepted : (ranks rank).load convert toBfloat16 isNan pleNumSyncShards = .ok loaded)
    (held : loaded.pleModules modPrefix = some last) (row : Nat) :
    (last.gatherSource table.embeddingDim pinned pinnedScales).InRange row <->
      (emb rank).table.Holds row := by
  have same := (group.kept accepted held).2
  change ((row : Int) ≥ last.orgVocabStartIndex ∧ (row : Int) < last.orgVocabEndIndex) <->
    (emb rank).orgVocabStartIndex ≤ row ∧ row < (emb rank).orgVocabEndIndex
  rw [same.start, same.stop]
  omega

/-- The rank of a row reads its elements and its scale. -/
theorem values
    (group : RowScaledGroup convert toBfloat16 isNan pleNumSyncShards modPrefix table ranks emb)
    {rank : Fin count} {loaded : LoadState (List Element) Scale}
    {last : PleEmbedding (List Element) Scale}
    (accepted : (ranks rank).load convert toBfloat16 isNan pleNumSyncShards = .ok loaded)
    (held : loaded.pleModules modPrefix = some last) {row offset : Nat} {element : Element}
    (holds : (emb rank).table.Holds row) (inside : offset < table.embeddingDim)
    (at_offset : (table.rows row)[offset]? = some element) :
    (last.gatherSource table.embeddingDim pinned pinnedScales).values cast rescale padding row
      offset = rescale (cast .int8 element) (toBfloat16 (table.scales row)) := by
  rcases group.kept accepted held with ⟨scaled, same⟩
  have place : (last.gatherSource table.embeddingDim pinned pinnedScales).localIdx row =
      ((row - (emb rank).orgVocabStartIndex : Nat) : Int) := by
    unfold GatherSource.localIdx
    rw [if_pos ((group.inRange_iff accepted held row).mpr holds)]
    change (row : Int) - last.orgVocabStartIndex = _
    rw [same.start]
    exact (Int.ofNat_sub holds.1).symm
  have loaded_element : maskedLoad (rowMajor last.weight table.embeddingDim pinned)
      (((row - (emb rank).orgVocabStartIndex : Nat) : Int) * table.embeddingDim + offset)
      ((offset : Int) < table.embeddingDim) padding = element := by
    unfold maskedLoad
    rw [if_pos (Int.ofNat_lt.mpr inside)]
    exact rowMajor_at inside (group.rows accepted held holds) at_offset pinned
  have loaded_scale : flatEntries last.rowScale pinnedScales
      ((row - (emb rank).orgVocabStartIndex : Nat) : Int) = toBfloat16 (table.scales row) :=
    flatEntries_at (group.scales accepted held holds) pinnedScales
  unfold GatherSource.values
  rw [place]
  change (if last.pleRowScaleMode = true then
    rescale (cast (pointerType last.dtype) (maskedLoad
      (rowMajor last.weight table.embeddingDim pinned)
      (((row - (emb rank).orgVocabStartIndex : Nat) : Int) * table.embeddingDim + offset)
      ((offset : Int) < table.embeddingDim) padding))
      (flatEntries last.rowScale pinnedScales
        ((row - (emb rank).orgVocabStartIndex : Nat) : Int)) else _) = _
  rw [if_pos scaled.pleRowScaleMode, loaded_element, loaded_scale, scaled.dtype]
  rfl

end RowScaledGroup

/-- A rank accepts its shards exactly when each row of its interval received its
scale, and then has the scales of the table.  Of ranks that accept, the one of an
id gathers its scaled row and the others zeros. -/
theorem row_scales_reconstruct [AddCommMonoid Value] (cast : TorchDtype -> Element -> Value)
    (rescale : Value -> Scale -> Value) (padding : Element)
    (group : RowScaledGroup convert toBfloat16 isNan pleNumSyncShards modPrefix table ranks emb) :
    (forall rank, (exists loaded,
        (ranks rank).load convert toBfloat16 isNan pleNumSyncShards = .ok loaded) <->
      forall module, module ∈ (ranks rank).state.names -> forall held,
        (ranks rank).state.pleModules module = some held ->
        forall row, held.table.Holds row ->
          Received (ranks rank).weights module (rowsApart held.orgVocabSize pleNumSyncShards)
            row) ∧
    (forall rank loaded last,
      (ranks rank).load convert toBfloat16 isNan pleNumSyncShards = .ok loaded ->
      loaded.pleModules modPrefix = some last -> forall row, (emb rank).table.Holds row ->
        last.rowScale[row - last.orgVocabStartIndex]? = some (toBfloat16 (table.scales row))) ∧
    forall (loaded : Fin count -> LoadState (List Element) Scale)
        (last : Fin count -> PleEmbedding (List Element) Scale),
      (forall rank, (ranks rank).load convert toBfloat16 isNan pleNumSyncShards =
        .ok (loaded rank)) ->
      (forall rank, (loaded rank).pleModules modPrefix = some (last rank)) ->
      forall (flatIds : List Int) (beyond : Memory Int) (pinned : Fin count -> Memory Element)
        (pinnedScales : Fin count -> Memory Scale) (output final : Fin count -> Memory Value),
      (forall rank, Lands (output rank) (final rank)
        (gather cast rescale padding ((last rank).gatherSource table.embeddingDim (pinned rank)
          (pinnedScales rank)) flatIds beyond)) ->
      forall (place row : Nat), flatIds[place]? = some (row : Int) -> row < table.vocabSize ->
        exists owner : Fin count, forall (offset : Nat) (element : Element),
          (table.rows row)[offset]? = some element ->
          (forall rank, final rank ((place : Int) * table.embeddingDim + offset) =
            if rank = owner then rescale (cast .int8 element) (toBfloat16 (table.scales row))
            else 0) ∧
          ∑ rank, final rank ((place : Int) * table.embeddingDim + offset) =
            rescale (cast .int8 element) (toBfloat16 (table.scales row)) := by
  refine ⟨?_, ?_, ?_⟩
  · exact fun rank => loadWeights_accepted_iff convert toBfloat16 (ranks rank).fresh
      (group.loads rank)
  · intro rank loaded last accepted held row holds
    rw [(group.kept accepted held).2.start]
    exact group.scales accepted held holds
  · intro loaded last accepted held flatIds beyond pinned pinnedScales output final lands place
      row at_place inside
    rcases group.partition row inside with ⟨owner, owns, alone⟩
    refine ⟨owner, ?_⟩
    intro offset element at_offset
    have column : offset < table.embeddingDim := by
      rw [← table.width row]
      exact (List.getElem?_eq_some_iff.mp at_offset).1
    have gathered (rank : Fin count) : final rank ((place : Int) * table.embeddingDim + offset) =
        if rank = owner then rescale (cast .int8 element) (toBfloat16 (table.scales row))
        else 0 := by
      have stored := gather_lands (lands rank) at_place column
      change final rank ((place : Int) * table.embeddingDim + offset) = _ at stored
      rw [stored]
      by_cases own : rank = owner
      · rw [if_pos own, if_pos ((group.inRange_iff (accepted rank) (held rank) row).mpr
          (own ▸ owns))]
        exact group.values (accepted rank) (held rank) (own ▸ owns) column at_offset
      · rw [if_neg own, if_neg fun ranged =>
          own (alone rank ((group.inRange_iff (accepted rank) (held rank) row).mp ranged))]
    refine ⟨gathered, ?_⟩
    rw [Finset.sum_eq_single owner]
    · rw [gathered, if_pos rfl]
    · intro rank _ other
      rw [gathered, if_neg other]
    · exact fun missing => absurd (Finset.mem_univ owner) missing

end Group

/-! ## Two ranks of one row -/

/-- A table of one row, from row `start` of two on. -/
def oneRow (start : Nat) : PleEmbedding (List Int) (Option Int) where
  pinnedHost := true
  pleRowScaleMode := true
  orgVocabSize := 2
  orgVocabStartIndex := start
  orgVocabEndIndex := start + 1
  numOrgEmbeddingsPerPartition := 1
  dtype := .int8
  weight := [[0]]
  rowScale := [none]

/-- The shards of two rows; a scale that is missing is a NaN. -/
def scaledShards : List (PleShard (List Int) (Option Int)) :=
  [⟨"ple", 1, .rowScale [some 7]⟩, ⟨"ple", 0, .weight .int8 [[3]]⟩,
    ⟨"ple", 1, .weight .int8 [[5]]⟩, ⟨"ple", 0, .rowScale [some 2]⟩]

def scaledRows : GlobalTable Int (Option Int) where
  vocabSize := 2
  embeddingDim := 1
  rows row := [if row = 0 then 3 else 5]
  scales row := some (if row = 0 then 2 else 7)
  width _ := rfl

def oneRowRanks (rank : Fin 2) : RankLoad Int (Option Int) where
  state := ⟨["ple"], fun name => if name = "ple" then some (oneRow rank) else none, false, []⟩
  weights := scaledShards
  fresh _ := []

theorem oneRowRanks_loads (rank : Fin 2) :
    ScaleLoad id Option.isNone 2 (oneRowRanks rank).state (oneRowRanks rank).weights := by
  have module (modPrefix : String) (emb : PleEmbedding (List Int) (Option Int))
      (found : (oneRowRanks rank).state.pleModules modPrefix = some emb) : emb = oneRow rank := by
    change (if modPrefix = "ple" then some (oneRow rank) else none) = some emb at found
    split at found
    · exact (Option.some.inj found).symm
    · cases found
  refine ⟨by decide, ?_, ?_, ?_, ?_, fun scale number => number⟩
  · intro modPrefix emb found
    rw [module modPrefix emb found]
    exact ⟨rfl, rfl, rfl, (Nat.add_sub_cancel_left _ _).symm, (Nat.add_sub_cancel_left _ _).le,
      (Nat.add_sub_cancel_left _ _).le⟩
  · intro modPrefix emb found
    rw [module modPrefix emb found]
    exact ⟨none, rfl, rfl⟩
  · intro shard member dtype rows kind
    simp only [oneRowRanks, scaledShards, List.mem_cons, List.not_mem_nil, or_false] at member
    rcases member with rfl | rfl | rfl | rfl
    · cases kind
    · cases kind
      rfl
    · cases kind
      rfl
    · cases kind
  · intro shard member scales kind scale listed
    simp only [oneRowRanks, scaledShards, List.mem_cons, List.not_mem_nil, or_false] at member
    rcases member with rfl | rfl | rfl | rfl
    · cases kind
      rw [List.mem_singleton.mp listed]
      rfl
    · cases kind
    · cases kind
    · cases kind
      rw [List.mem_singleton.mp listed]
      rfl

theorem scaledRows_inShards : scaledRows.InShards scaledShards "ple" 1 := by
  have shards : weightShards "ple" scaledShards = [⟨0, .int8, [[3]]⟩, ⟨1, .int8, [[5]]⟩] := rfl
  refine ⟨?_, ?_, ?_⟩
  · rw [shards]
    intro shard member row value has
    simp only [List.mem_cons, List.not_mem_nil, or_false] at member
    unfold WeightShard.rowAt at has
    rcases member with rfl | rfl
    · dsimp only at has
      rw [if_pos (by omega), List.getElem?_singleton] at has
      split at has
      · have zero : row = 0 := by omega
        rw [zero, ← Option.some.inj has]
        rfl
      · cases has
    · dsimp only at has
      split at has
      · rw [List.getElem?_singleton] at has
        split at has
        · have one : row = 1 := by omega
          rw [one, ← Option.some.inj has]
          rfl
        · cases has
      · cases has
  · intro shard member row scale has
    unfold PleShard.scaleOf at has
    simp only [scaledShards, List.mem_cons, List.not_mem_nil, or_false] at member
    rcases member with rfl | rfl | rfl | rfl
    · rw [if_pos rfl] at has
      unfold PleShard.scaleAt at has
      dsimp only at has
      split at has
      · rw [List.getElem?_singleton] at has
        split at has
        · have one : row = 1 := by omega
          rw [one, ← Option.some.inj has]
          rfl
        · cases has
      · cases has
    · cases has
    · cases has
    · rw [if_pos rfl] at has
      unfold PleShard.scaleAt at has
      dsimp only at has
      rw [if_pos (by omega), List.getElem?_singleton] at has
      split at has
      · have zero : row = 0 := by omega
        rw [zero, ← Option.some.inj has]
        rfl
      · cases has
  · rw [shards]
    intro row inside
    change row < 2 at inside
    interval_cases row
    · exact ⟨_, List.mem_cons_self, rfl⟩
    · exact ⟨_, List.mem_cons_of_mem _ List.mem_cons_self, rfl⟩

theorem oneRowRanks_group :
    RowScaledGroup (fun _ _ row => row) id Option.isNone 2 "ple" scaledRows oneRowRanks
      fun rank => oneRow rank := by
  refine ⟨oneRowRanks_loads, fun _ => rfl, fun _ => List.mem_cons_self, fun _ => rfl, ?_, ?_,
    fun _ => scaledRows_inShards, fun _ => rfl⟩
  · intro rank
    exact Nat.succ_le_of_lt rank.isLt
  · intro row inside
    refine ⟨⟨row, inside⟩, ⟨le_rfl, Nat.lt_succ_self row⟩, ?_⟩
    rintro rank ⟨lower, upper⟩
    apply Fin.ext
    change rank.val ≤ row at lower
    change row < rank.val + 1 at upper
    change rank.val = row
    omega

/-- Both ranks accept the shards, and their outputs for an id of row one add up to
its element times its scale. -/
theorem row_scales_reconstruct_example :
    (forall rank, exists loaded,
      (oneRowRanks rank).load (fun _ _ row => row) id Option.isNone 2 = .ok loaded) ∧
    forall (loaded : Fin 2 -> LoadState (List Int) (Option Int))
        (last : Fin 2 -> PleEmbedding (List Int) (Option Int)) (final : Fin 2 -> Memory Int),
      (forall rank, (oneRowRanks rank).load (fun _ _ row => row) id Option.isNone 2 =
        .ok (loaded rank)) ->
      (forall rank, (loaded rank).pleModules "ple" = some (last rank)) ->
      (forall rank, Lands (fun _ => 0) (final rank)
        (gather (fun _ element => element) (fun value scale => value * scale.getD 0) 0
          ((last rank).gatherSource 1 (fun _ => 0) fun _ => none) [1] fun _ => 0)) ->
      ∑ rank, final rank 0 = 35 := by
  have exact_gather := row_scales_reconstruct (fun _ (element : Int) => element)
    (fun value scale => value * scale.getD 0) 0 oneRowRanks_group
  refine ⟨fun rank => (exact_gather.1 rank).mpr ?_, ?_⟩
  · intro module _ held found row holds
    have same : held = oneRow rank := by
      change (if module = "ple" then some (oneRow rank) else none) = some held at found
      split at found
      · exact (Option.some.inj found).symm
      · cases found
    have name : module = "ple" := by
      by_contra other
      change (if module = "ple" then some (oneRow rank) else none) = some held at found
      rw [if_neg other] at found
      cases found
    rw [same] at holds
    rw [same, name]
    rcases holds with ⟨lower, upper⟩
    change rank.val ≤ row at lower
    change row < rank.val + 1 at upper
    have inside := rank.isLt
    have cases_row : row = 0 ∨ row = 1 := by omega
    have apart : rowsApart (oneRow rank).orgVocabSize 2 = 1 := by
      change (2 + 2 - 1) / 2 = 1
      decide
    rw [apart]
    change Received scaledShards "ple" 1 row
    rcases cases_row with rfl | rfl
    · exact ⟨_, List.mem_of_getElem? (i := 3) rfl, by decide⟩
    · exact ⟨_, List.mem_of_getElem? (i := 0) rfl, by decide⟩
  · intro loaded last final accepted held lands
    rcases exact_gather.2.2 loaded last accepted held [1] (fun _ => 0) (fun _ _ => 0)
      (fun _ _ => none) (fun _ _ => 0) final lands 0 1 rfl (by decide) with ⟨_, gathered⟩
    exact (gathered 0 5 rfl).2

end Weights
end QSAHiSparse

import QSAHiSparse.Weights.PleLoading
import Mathlib.Algebra.Order.Ring.Int

namespace QSAHiSparse
namespace Weights

open Foundation

/-!
# Row scales of a table

In `int8_row` mode every row of a table has a scale of its own.  A rank starts
with a NaN for each of its rows and copies the scales of its interval out of the
shards, in any order; a row that is still without one at the end is an error.
-/

section RowScales

variable {Row Scale : Type} (convert : TorchDtype -> TorchDtype -> Row -> Row)
  (toBfloat16 : Scale -> Scale) (fresh : Nat -> Row) {isNan : Scale -> Bool}
  {pleNumSyncShards : Nat}

/-- The table of a rank in `int8_row` mode.  Its storage is as long as that of
every other rank, so it may be longer than its interval. -/
structure RowScaled (emb : PleEmbedding Row Scale) : Prop where
  pinnedHost : emb.pinnedHost = true
  pleRowScaleMode : emb.pleRowScaleMode = true
  dtype : emb.dtype = .int8
  partition : emb.numOrgEmbeddingsPerPartition = emb.orgVocabEndIndex - emb.orgVocabStartIndex
  weights : emb.orgVocabEndIndex - emb.orgVocabStartIndex ≤ emb.weight.length
  scales : emb.orgVocabEndIndex - emb.orgVocabStartIndex ≤ emb.rowScale.length

/-- The scale of a row in a shard, when shards are `size` rows apart. -/
def PleShard.scaleAt (shard : PleShard Row Scale) (size row : Nat) : Option Scale :=
  match shard.tensor with
  | .weight _ _ => none
  | .rowScale scales =>
      if shard.shardIdx * size ≤ row then scales[row - shard.shardIdx * size]? else none

/-- A shard that a table in `int8_row` mode takes. -/
def PleShard.Int8 (shard : PleShard Row Scale) : Prop :=
  forall dtype rows, shard.tensor = .weight dtype rows -> dtype = .int8

/-- Two tables of one rank. -/
structure SameRank (first second : PleEmbedding Row Scale) : Prop where
  start : second.orgVocabStartIndex = first.orgVocabStartIndex
  stop : second.orgVocabEndIndex = first.orgVocabEndIndex
  vocab : second.orgVocabSize = first.orgVocabSize

/-! ## One shard -/

/-- The overlap of a shard with an interval fits the storage of the interval. -/
theorem copyOverlap_fits {α : Type} {tpStart tpEnd : Nat} {target : List α}
    (room : tpEnd - tpStart ≤ target.length) (rowStart : Nat) (source : List α) :
    exists result, copyOverlap tpStart tpEnd target source rowStart (rowStart + source.length) =
      .ok result := by
  unfold copyOverlap
  dsimp only
  split
  · unfold copySlice
    rw [if_pos]
    · exact ⟨_, rfl⟩
    · rw [List.length_take, List.length_drop]
      omega
  · exact ⟨target, rfl⟩

theorem shardSize_pos (positive : 0 < pleNumSyncShards) (orgVocabSize : Nat) :
    shardSize orgVocabSize pleNumSyncShards = .ok (rowsApart orgVocabSize pleNumSyncShards) := by
  unfold shardSize
  rw [if_neg (Nat.ne_of_gt positive)]
  rfl

/-- The scales of a table after a shard: those that the shard has, the others as
before. -/
structure Rescaled (size : Nat) (toBfloat16 : Scale -> Scale) (shard : PleShard Row Scale)
    (before after : PleEmbedding Row Scale) : Prop where
  rank : SameRank before after
  rowScaled : RowScaled after
  scales : forall row, before.table.Holds row ->
    after.rowScale[row - before.orgVocabStartIndex]? =
      match shard.scaleAt size row with
      | some scale => some (toBfloat16 scale)
      | none => before.rowScale[row - before.orgVocabStartIndex]?

/-- A table in `int8_row` mode accepts its shards. -/
theorem loadTensor_rowScaled {emb : PleEmbedding Row Scale} {shard : PleShard Row Scale}
    (positive : 0 < pleNumSyncShards) (scaled : RowScaled emb) (int8 : shard.Int8) :
    exists loaded,
      loadTensor convert toBfloat16 pleNumSyncShards fresh emb shard = .ok loaded ∧
        Rescaled (rowsApart emb.orgVocabSize pleNumSyncShards) toBfloat16 shard emb loaded := by
  unfold loadTensor
  cases kind : shard.tensor with
  | weight dtype rows =>
      have type := int8 dtype rows kind
      have unswitched : switchStorage fresh emb dtype = .ok emb := by
        unfold switchStorage
        rw [if_neg]
        rintro ⟨fp8, _⟩
        rw [type] at fp8
        cases fp8
      have checked : checkInt8 emb dtype = .ok () := by
        unfold checkInt8
        rw [if_neg (fun both => both.2 scaled.dtype), if_neg (fun both => both.2 type)]
      have room : emb.orgVocabEndIndex - emb.orgVocabStartIndex ≤ emb.weight.length :=
        scaled.weights
      rcases copyOverlap_fits room
        (shard.shardIdx * rowsApart emb.orgVocabSize pleNumSyncShards)
        (rows.map (convert dtype emb.dtype)) with ⟨weight, copied⟩
      have length := (copyOverlap_ok copied).1
      rw [List.length_map] at copied
      refine ⟨{ emb with weight }, ?_, ⟨⟨rfl, rfl, rfl⟩, ?_, ?_⟩⟩
      · dsimp only
        unfold loadWeightShard
        rw [unswitched, Except.ok_bind, checked, Except.ok_bind, shardSize_pos positive,
          Except.ok_bind]
        unfold copyPleRowsToTpEmbedding
        dsimp only
        rw [copied]
        rfl
      · exact ⟨scaled.pinnedHost, scaled.pleRowScaleMode, scaled.dtype, scaled.partition,
          room.trans_eq length.symm, scaled.scales⟩
      · intro row _
        unfold PleShard.scaleAt
        rw [kind]
  | rowScale scales =>
      have room : emb.orgVocabEndIndex - emb.orgVocabStartIndex ≤ emb.rowScale.length :=
        scaled.scales
      rcases copyOverlap_fits room
        (shard.shardIdx * rowsApart emb.orgVocabSize pleNumSyncShards)
        (scales.map toBfloat16) with ⟨rowScale, copied⟩
      have effect := copyOverlap_ok copied
      have found := copied
      rw [List.length_map] at found
      refine ⟨{ emb with rowScale }, ?_, ⟨⟨rfl, rfl, rfl⟩, ?_, ?_⟩⟩
      · dsimp only
        unfold loadRowScaleShard
        rw [if_neg (by rw [scaled.pinnedHost, scaled.pleRowScaleMode]; decide)]
        change (shardSize emb.orgVocabSize pleNumSyncShards >>= _) = _
        rw [shardSize_pos positive, Except.ok_bind]
        dsimp only
        rw [found]
        rfl
      · exact ⟨scaled.pinnedHost, scaled.pleRowScaleMode, scaled.dtype, scaled.partition,
          scaled.weights, room.trans_eq effect.1.symm⟩
      · rintro row ⟨lower, upper⟩
        have at_row := effect.2 row lower upper
        unfold PleShard.scaleAt
        rw [kind]
        dsimp only
        rw [at_row, List.length_map]
        by_cases after_start : shard.shardIdx * rowsApart emb.orgVocabSize pleNumSyncShards ≤ row
        · rw [if_pos after_start]
          by_cases before_end : row < shard.shardIdx *
              rowsApart emb.orgVocabSize pleNumSyncShards + scales.length
          · have inside : row - shard.shardIdx * rowsApart emb.orgVocabSize pleNumSyncShards <
                scales.length := by omega
            rw [if_pos ⟨after_start, before_end⟩, List.getElem?_map,
              List.getElem?_eq_getElem inside]
            rfl
          · have past : scales[row - shard.shardIdx *
                rowsApart emb.orgVocabSize pleNumSyncShards]? = none :=
              List.getElem?_eq_none (by omega)
            rw [if_neg (fun both => before_end both.2), past]
        · rw [if_neg after_start, if_neg (fun both => after_start both.1)]

/-! ## All shards -/

/-- The scale that a shard has for a row of a module. -/
def PleShard.scaleOf (shard : PleShard Row Scale) (modPrefix : String) (size row : Nat) :
    Option Scale :=
  if shard.modPrefix = modPrefix then shard.scaleAt size row else none

/-- A row of a module is given its scale. -/
def Received (weights : List (PleShard Row Scale)) (modPrefix : String) (size row : Nat) : Prop :=
  exists shard, shard ∈ weights ∧ (shard.scaleOf modPrefix size row).isSome = true

/-- The scale of a row is that of a shard that has it, or it was not written. -/
def ScaledBy (toBfloat16 : Scale -> Scale) (weights : List (PleShard Row Scale))
    (modPrefix : String) (size : Nat) (before after : PleEmbedding Row Scale) (row : Nat) : Prop :=
  (exists shard scale, shard ∈ weights ∧ shard.scaleOf modPrefix size row = some scale ∧
    after.rowScale[row - before.orgVocabStartIndex]? = some (toBfloat16 scale)) ∨
  ((forall shard, shard ∈ weights -> shard.scaleOf modPrefix size row = none) ∧
    after.rowScale[row - before.orgVocabStartIndex]? =
      before.rowScale[row - before.orgVocabStartIndex]?)

/-- All tables of a rank are in `int8_row` mode. -/
def AllRowScaled (state : LoadState Row Scale) : Prop :=
  forall modPrefix emb, state.pleModules modPrefix = some emb -> RowScaled emb

/-- What a shard changes of the tables of a rank. -/
structure StateRescaled (pleNumSyncShards : Nat) (toBfloat16 : Scale -> Scale)
    (shard : PleShard Row Scale) (before after : LoadState Row Scale) : Prop where
  names : after.names = before.names
  rowScaled : AllRowScaled after
  modules : forall modPrefix emb, before.pleModules modPrefix = some emb ->
    exists next, after.pleModules modPrefix = some next ∧ SameRank emb next ∧
      forall row, emb.table.Holds row -> next.rowScale[row - emb.orgVocabStartIndex]? =
        match shard.scaleOf modPrefix (rowsApart emb.orgVocabSize pleNumSyncShards) row with
        | some scale => some (toBfloat16 scale)
        | none => emb.rowScale[row - emb.orgVocabStartIndex]?
  absent : forall modPrefix, before.pleModules modPrefix = none ->
    after.pleModules modPrefix = none

theorem loadQwen4ExpPleShard_rowScaled {state : LoadState Row Scale} {shard : PleShard Row Scale}
    (positive : 0 < pleNumSyncShards) (scaled : AllRowScaled state) (int8 : shard.Int8) :
    exists loaded, loadQwen4ExpPleShard convert toBfloat16 pleNumSyncShards fresh state shard =
        .ok loaded ∧
      StateRescaled pleNumSyncShards toBfloat16 shard state loaded := by
  unfold loadQwen4ExpPleShard
  cases found : state.pleModules shard.modPrefix with
  | none =>
      refine ⟨state, rfl, rfl, scaled, ?_, fun _ absent => absent⟩
      intro modPrefix emb held
      refine ⟨emb, held, ⟨rfl, rfl, rfl⟩, ?_⟩
      intro row _
      unfold PleShard.scaleOf
      have other : shard.modPrefix ≠ modPrefix := by
        intro same
        rw [same, held] at found
        cases found
      rw [if_neg other]
  | some emb =>
      rcases loadTensor_rowScaled convert toBfloat16 fresh positive (scaled _ emb found) int8 with ⟨next, loads, effect⟩
      dsimp only
      rw [loads]
      refine ⟨_, rfl, rfl, ?_, ?_, ?_⟩
      · intro modPrefix held at_prefix
        change Function.update state.pleModules shard.modPrefix (some next) modPrefix = _
          at at_prefix
        by_cases own : modPrefix = shard.modPrefix
        · rw [own, Function.update_self] at at_prefix
          rw [← Option.some.inj at_prefix]
          exact effect.rowScaled
        · rw [Function.update_of_ne own] at at_prefix
          exact scaled modPrefix held at_prefix
      · intro modPrefix held at_prefix
        change exists other, Function.update state.pleModules shard.modPrefix (some next)
          modPrefix = some other ∧ _
        unfold PleShard.scaleOf
        by_cases own : modPrefix = shard.modPrefix
        · rw [own, found] at at_prefix
          rw [own, Function.update_self, ← Option.some.inj at_prefix]
          refine ⟨next, rfl, effect.rank, ?_⟩
          intro row holds
          rw [if_pos rfl]
          exact effect.scales row holds
        · rw [Function.update_of_ne own]
          refine ⟨held, at_prefix, ⟨rfl, rfl, rfl⟩, ?_⟩
          intro row _
          rw [if_neg (Ne.symm own)]
      · intro modPrefix absent
        change Function.update state.pleModules shard.modPrefix (some next) modPrefix = none
        rw [Function.update_of_ne]
        · exact absent
        · intro own
          rw [own, found] at absent
          cases absent

/-- The tables of a rank after its shards. -/
structure AllRescaled (pleNumSyncShards : Nat) (toBfloat16 : Scale -> Scale)
    (weights : List (PleShard Row Scale)) (before after : LoadState Row Scale) : Prop where
  names : after.names = before.names
  rowScaled : AllRowScaled after
  modules : forall modPrefix emb, before.pleModules modPrefix = some emb ->
    exists next, after.pleModules modPrefix = some next ∧ SameRank emb next ∧
      forall row, emb.table.Holds row -> ScaledBy toBfloat16 weights modPrefix
        (rowsApart emb.orgVocabSize pleNumSyncShards) emb next row
  absent : forall modPrefix, before.pleModules modPrefix = none ->
    after.pleModules modPrefix = none

/-- A rank in `int8_row` mode accepts every shard. -/
theorem foldlM_rowScaled {weights : List (PleShard Row Scale)} (positive : 0 < pleNumSyncShards) :
    forall {state : LoadState Row Scale}, AllRowScaled state ->
      (forall shard, shard ∈ weights -> shard.Int8) ->
      exists loaded,
        weights.foldlM (loadQwen4ExpPleShard convert toBfloat16 pleNumSyncShards fresh) state =
          .ok loaded ∧ AllRescaled pleNumSyncShards toBfloat16 weights state loaded := by
  induction weights with
  | nil =>
      intro state scaled _
      refine ⟨state, rfl, rfl, scaled, ?_, fun _ absent => absent⟩
      intro modPrefix emb held
      exact ⟨emb, held, ⟨rfl, rfl, rfl⟩,
        fun _ _ => Or.inr ⟨fun _ member => absurd member List.not_mem_nil, rfl⟩⟩
  | cons shard weights inductionHypothesis =>
      intro state scaled int8
      rcases loadQwen4ExpPleShard_rowScaled convert toBfloat16 fresh positive scaled (int8 shard List.mem_cons_self) with
        ⟨between, stepped, step⟩
      rcases inductionHypothesis step.rowScaled
        (fun other member => int8 other (List.mem_cons_of_mem _ member)) with
        ⟨loaded, rest, run⟩
      rw [List.foldlM_cons, stepped, Except.ok_bind]
      refine ⟨loaded, rest, run.names.trans step.names, run.rowScaled, ?_,
        fun modPrefix absent => run.absent modPrefix (step.absent modPrefix absent)⟩
      intro modPrefix emb held
      rcases step.modules modPrefix emb held with ⟨middle, found, rank, scales⟩
      rcases run.modules modPrefix middle found with ⟨last, at_end, rank', rows⟩
      refine ⟨last, at_end, ⟨rank'.start.trans rank.start, rank'.stop.trans rank.stop,
        rank'.vocab.trans rank.vocab⟩, ?_⟩
      intro row holds
      have holds' : middle.table.Holds row := by
        unfold Table.Holds PleEmbedding.table
        rw [rank.start, rank.stop]
        exact holds
      have here := scales row holds
      have written := rows row holds'
      unfold ScaledBy at written
      rw [rank.vocab, rank.start] at written
      rcases written with ⟨other, scale, member, has, at_row⟩ | ⟨none_has, at_row⟩
      · exact Or.inl ⟨other, scale, List.mem_cons_of_mem _ member, has, at_row⟩
      · rw [here] at at_row
        cases own : shard.scaleOf modPrefix (rowsApart emb.orgVocabSize pleNumSyncShards) row with
        | some scale =>
            rw [own] at at_row
            exact Or.inl ⟨shard, scale, List.mem_cons_self, own, at_row⟩
        | none =>
            rw [own] at at_row
            refine Or.inr ⟨?_, at_row⟩
            intro other member
            rcases List.mem_cons.mp member with same | later
            · rw [same]
              exact own
            · exact none_has other later

/-! ## Coverage -/

/-- What is given to a rank in `int8_row` mode: tables without scales, and
shards of int8 rows and of scales that are numbers. -/
structure ScaleLoad (toBfloat16 : Scale -> Scale) (isNan : Scale -> Bool) (pleNumSyncShards : Nat)
    (state : LoadState Row Scale) (weights : List (PleShard Row Scale)) : Prop where
  positive : 0 < pleNumSyncShards
  rowScaled : AllRowScaled state
  unloaded : forall modPrefix emb, state.pleModules modPrefix = some emb ->
    exists nan, isNan nan = true ∧ emb.rowScale = List.replicate emb.weight.length nan
  int8 : forall shard, shard ∈ weights -> shard.Int8
  numbers : forall shard, shard ∈ weights -> forall scales, shard.tensor = .rowScale scales ->
    forall scale, scale ∈ scales -> isNan scale = false
  rounding : forall scale, isNan scale = false -> isNan (toBfloat16 scale) = false

theorem scaleOf_number {shard : PleShard Row Scale} {modPrefix : String} {size row : Nat}
    {scale : Scale}
    (numbers : forall scales, shard.tensor = .rowScale scales ->
      forall scale, scale ∈ scales -> isNan scale = false)
    (has : shard.scaleOf modPrefix size row = some scale) : isNan scale = false := by
  unfold PleShard.scaleOf at has
  split at has
  · unfold PleShard.scaleAt at has
    split at has
    · cases has
    · rename_i scales kind
      split at has
      · exact numbers scales kind scale (List.mem_of_getElem? has)
      · cases has
  · cases has

/-- The check of a table passes when each row of its interval has a number. -/
theorem checkRowScales_ok {state : LoadState Row Scale} {modPrefix : String}
    {emb : PleEmbedding Row Scale} (found : state.pleModules modPrefix = some emb)
    (scaled : RowScaled emb) :
    checkRowScales isNan state modPrefix = .ok () <->
      forall row, emb.table.Holds row -> forall scale,
        emb.rowScale[row - emb.orgVocabStartIndex]? = some scale -> isNan scale = false := by
  have counts : (emb.rowScale.take emb.numOrgEmbeddingsPerPartition).countP isNan = 0 <->
      forall row, emb.table.Holds row -> forall scale,
        emb.rowScale[row - emb.orgVocabStartIndex]? = some scale -> isNan scale = false := by
    rw [List.countP_eq_zero, scaled.partition]
    constructor
    · intro none_nan row holds scale at_row
      rcases holds with ⟨lower, upper⟩
      change emb.orgVocabStartIndex ≤ row at lower
      change row < emb.orgVocabEndIndex at upper
      apply Bool.eq_false_iff.mpr
      apply none_nan scale
      apply List.mem_of_getElem? (i := row - emb.orgVocabStartIndex)
      rw [List.getElem?_take_of_lt (by omega)]
      exact at_row
    · intro all_numbers scale member
      rcases List.mem_iff_getElem?.mp member with ⟨place, at_place⟩
      have bound := (List.getElem?_eq_some_iff.mp at_place).1
      rw [List.length_take] at bound
      rw [List.getElem?_take_of_lt (by omega)] at at_place
      have number := all_numbers (emb.orgVocabStartIndex + place)
        ⟨Nat.le_add_right _ _, by change _ < emb.orgVocabEndIndex; omega⟩ scale
        (by rw [Nat.add_sub_cancel_left]; exact at_place)
      exact Bool.eq_false_iff.mp number
  unfold checkRowScales
  rw [found, ← counts]
  dsimp only
  constructor
  · intro passed
    by_contra missing
    rw [if_pos ⟨scaled.pinnedHost, scaled.pleRowScaleMode, missing⟩] at passed
    cases passed
  · intro covered
    rw [if_neg fun all => all.2.2 covered]

/-- A rank accepts the shards exactly when every row of its intervals received
its scale. -/
theorem loadWeights_accepted_iff {state : LoadState Row Scale}
    {weights : List (PleShard Row Scale)}
    (load : ScaleLoad toBfloat16 isNan pleNumSyncShards state weights) :
    (exists loaded, loadWeights convert toBfloat16 isNan pleNumSyncShards fresh state weights =
      .ok loaded) <->
    forall modPrefix, modPrefix ∈ state.names -> forall emb,
      state.pleModules modPrefix = some emb -> forall row, emb.table.Holds row ->
        Received weights modPrefix (rowsApart emb.orgVocabSize pleNumSyncShards) row := by
  rcases foldlM_rowScaled convert toBfloat16 fresh load.positive load.rowScaled load.int8 with ⟨loaded, stepped, run⟩
  have accepted : (exists loaded, loadWeights convert toBfloat16 isNan pleNumSyncShards fresh
      state weights = .ok loaded) <-> state.names.forM (checkRowScales isNan loaded) = .ok () := by
    unfold loadWeights
    rw [stepped, Except.ok_bind, run.names]
    constructor
    · rintro ⟨_, passed⟩
      rcases Except.bind_ok passed with ⟨_, checked, _⟩
      exact checked
    · intro checked
      rw [checked]
      exact ⟨loaded, rfl⟩
  rw [accepted]
  constructor
  · intro checked modPrefix listed emb found row holds
    rcases run.modules modPrefix emb found with ⟨last, at_end, rank, rows⟩
    have passed := (checkRowScales_ok at_end (run.rowScaled modPrefix last at_end)).mp
      (forM_ok checked modPrefix listed)
    rcases rows row holds with ⟨shard, scale, member, has, _⟩ | ⟨_, at_row⟩
    · exact ⟨shard, member, by rw [has]; rfl⟩
    · rcases load.unloaded modPrefix emb found with ⟨nan, is_nan, blank⟩
      have inside : row - emb.orgVocabStartIndex < emb.weight.length := by
        have := (load.rowScaled modPrefix emb found).weights
        rcases holds with ⟨lower, upper⟩
        change emb.orgVocabStartIndex ≤ row at lower
        change row < emb.orgVocabEndIndex at upper
        omega
      rw [blank, List.getElem?_replicate_of_lt inside, ← rank.start] at at_row
      have number := passed row
        (by unfold Table.Holds PleEmbedding.table; rw [rank.start, rank.stop]; exact holds)
        nan at_row
      rw [is_nan] at number
      cases number
  · intro received
    apply forM_succeeds
    intro modPrefix listed
    cases found : state.pleModules modPrefix with
    | none =>
        unfold checkRowScales
        rw [run.absent modPrefix found]
    | some emb =>
        rcases run.modules modPrefix emb found with ⟨last, at_end, rank, rows⟩
        apply (checkRowScales_ok at_end (run.rowScaled modPrefix last at_end)).mpr
        intro row holds' scale at_row
        have holds : emb.table.Holds row := by
          unfold Table.Holds PleEmbedding.table at holds'
          rw [rank.start, rank.stop] at holds'
          exact holds'
        rw [rank.start] at at_row
        rcases rows row holds with ⟨shard, found_scale, member, has, written⟩ | ⟨none_has, _⟩
        · rw [written] at at_row
          rw [← Option.some.inj at_row]
          exact load.rounding _ (scaleOf_number (load.numbers shard member) has)
        · rcases received modPrefix listed emb found row holds with ⟨shard, member, some_has⟩
          rw [none_has shard member] at some_has
          cases some_has

end RowScales

end Weights
end QSAHiSparse

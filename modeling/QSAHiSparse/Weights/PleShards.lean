import QSAHiSparse.Weights.PleTable

namespace QSAHiSparse
namespace Weights

open Foundation

/-!
# What one shard does to a table

Of an embedding only the interval of its rank, the type of its elements and its
rows matter for the weights; row scales and other modules leave them alone.
-/

/-- The table of a rank. -/
structure Table (Row : Type) where
  tpStart : Nat
  tpEnd : Nat
  orgVocabSize : Nat
  dtype : TorchDtype
  weight : List Row

/-- A weight shard of one module. -/
structure WeightShard (Row : Type) where
  shardIdx : Nat
  dtype : TorchDtype
  rows : List Row
deriving DecidableEq

section Rows

variable {α Row Scale : Type}

def PleEmbedding.table (emb : PleEmbedding Row Scale) : Table Row where
  tpStart := emb.orgVocabStartIndex
  tpEnd := emb.orgVocabEndIndex
  orgVocabSize := emb.orgVocabSize
  dtype := emb.dtype
  weight := emb.weight

/-- A row of the interval of the rank. -/
def Table.Holds (table : Table Row) (row : Nat) : Prop := table.tpStart ≤ row ∧ row < table.tpEnd

def Table.rowOf (table : Table Row) (row : Nat) : Option Row := table.weight[row - table.tpStart]?

/-- The row of a shard, when shards are `size` rows apart. -/
def WeightShard.rowAt (shard : WeightShard Row) (size row : Nat) : Option Row :=
  if shard.shardIdx * size ≤ row then shard.rows[row - shard.shardIdx * size]? else none

/-- The weight shards of a module among the weights. -/
def weightShard (modPrefix : String) (shard : PleShard Row Scale) : Option (WeightShard Row) :=
  if shard.modPrefix = modPrefix then
    match shard.tensor with
    | .weight dtype rows => some ⟨shard.shardIdx, dtype, rows⟩
    | .rowScale _ => none
  else none

/-! ## Copies -/

theorem copySlice_ok {target source result : List α} {start count : Nat}
    (copied : copySlice target start count source = .ok result) :
    result.length = target.length ∧ forall place, result[place]? =
      if start ≤ place ∧ place < start + count then source[place - start]? else target[place]? := by
  unfold copySlice at copied
  split at copied
  · rename_i fits
    rcases fits with ⟨inside, sized⟩
    have head : (target.take start).length = start := by
      rw [List.length_take, Nat.min_eq_left (by omega)]
    cases copied
    constructor
    · rw [List.length_append, List.length_append, List.length_drop, head]
      omega
    · intro place
      by_cases before : place < start
      · rw [if_neg (fun both => by omega), List.append_assoc,
          List.getElem?_append_left (by rw [head]; exact before), List.getElem?_take, if_pos before]
      · by_cases within : place < start + count
        · rw [if_pos ⟨by omega, within⟩, List.append_assoc,
            List.getElem?_append_right (by rw [head]; omega), head,
            List.getElem?_append_left (by omega)]
        · rw [if_neg (fun both => within both.2), List.getElem?_append_right
            (by rw [List.length_append, head]; omega), List.length_append, head,
            List.getElem?_drop]
          congr 1
          omega
  · cases copied

/-- After a copy every row of the interval is that of the shard, if it has it. -/
theorem copyOverlap_ok {tpStart tpEnd rowStart : Nat} {target source result : List α}
    (copied : copyOverlap tpStart tpEnd target source rowStart (rowStart + source.length) =
      .ok result) :
    result.length = target.length ∧ forall row, tpStart ≤ row -> row < tpEnd ->
      result[row - tpStart]? =
        if rowStart ≤ row ∧ row < rowStart + source.length then source[row - rowStart]?
        else target[row - tpStart]? := by
  unfold copyOverlap at copied
  dsimp only at copied
  split at copied
  · rename_i overlaps
    rcases copySlice_ok copied with ⟨length, places⟩
    refine ⟨length, ?_⟩
    intro row lower upper
    rw [places]
    by_cases covered : rowStart ≤ row ∧ row < rowStart + source.length
    · rw [if_pos covered, if_pos ⟨by omega, by omega⟩, List.getElem?_take, if_pos (by omega),
        List.getElem?_drop]
      congr 1
      omega
    · rw [if_neg covered, if_neg (fun both => covered ⟨by omega, by omega⟩)]
  · rename_i apart
    cases copied
    refine ⟨rfl, ?_⟩
    intro row lower upper
    rw [if_neg (fun covered => apart (by omega))]

/-! ## Shards -/

variable (convert : TorchDtype -> TorchDtype -> Row -> Row) (toBfloat16 : Scale -> Scale)
  (isNan : Scale -> Bool) (pleNumSyncShards : Nat) (fresh : Nat -> Row)

/-- The rows between the starts of two shards. -/
def rowsApart (orgVocabSize pleNumSyncShards : Nat) : Nat :=
  (orgVocabSize + pleNumSyncShards - 1) / pleNumSyncShards

/-- A shard in FP8 finds a table in another type. -/
def Table.SwitchedBy (table : Table Row) (shard : WeightShard Row) : Prop :=
  shard.dtype = .float8E4m3fn ∧ table.dtype ≠ .float8E4m3fn

instance (table : Table Row) (shard : WeightShard Row) : Decidable (table.SwitchedBy shard) := by
  unfold Table.SwitchedBy
  infer_instance

/-- The table with a new storage in FP8. -/
def Table.switched (table : Table Row) : Table Row :=
  { table with dtype := .float8E4m3fn, weight := (List.range table.weight.length).map fresh }

/-- The table that the rows of a shard are copied to. -/
def Table.prepared (table : Table Row) (shard : WeightShard Row) : Table Row :=
  if table.SwitchedBy shard then table.switched fresh else table

theorem prepared_length (table : Table Row) (shard : WeightShard Row) :
    (table.prepared fresh shard).weight.length = table.weight.length := by
  unfold Table.prepared
  split
  · unfold Table.switched
    rw [List.length_map, List.length_range]
  · rfl

/-- A shard was loaded: the rows it has are converted to the type of the table,
the others stay as its storage has them. -/
structure ShardLoaded (shard : WeightShard Row) (before after : Table Row) : Prop where
  tpStart : after.tpStart = before.tpStart
  tpEnd : after.tpEnd = before.tpEnd
  orgVocabSize : after.orgVocabSize = before.orgVocabSize
  length : after.weight.length = before.weight.length
  dtype : after.dtype = (before.prepared fresh shard).dtype
  rows : forall row, before.Holds row -> after.rowOf row =
    match shard.rowAt (rowsApart before.orgVocabSize pleNumSyncShards) row with
    | some value => some (convert shard.dtype after.dtype value)
    | none => (before.prepared fresh shard).rowOf row

theorem copied_row {Target : Type} (shard : WeightShard Row) (change : Row -> Target)
    (size row : Nat) (other : Option Target) :
    (if shard.shardIdx * size ≤ row ∧
          row < shard.shardIdx * size + (shard.rows.map change).length then
        (shard.rows.map change)[row - shard.shardIdx * size]?
      else other) =
      match shard.rowAt size row with
      | some value => some (change value)
      | none => other := by
  unfold WeightShard.rowAt
  rw [List.length_map]
  by_cases lower : shard.shardIdx * size ≤ row
  · rw [if_pos lower]
    by_cases upper : row < shard.shardIdx * size + shard.rows.length
    · have inside : row - shard.shardIdx * size < shard.rows.length := by omega
      rw [if_pos ⟨lower, upper⟩, List.getElem?_map, List.getElem?_eq_getElem inside]
      rfl
    · rw [if_neg (fun both => upper both.2), List.getElem?_eq_none (by omega)]
  · rw [if_neg lower, if_neg (fun both => lower both.1)]

theorem switchStorage_ok {emb prepared : PleEmbedding Row Scale} {shard : WeightShard Row}
    (switches : switchStorage fresh emb shard.dtype = .ok prepared) :
    prepared.table = emb.table.prepared fresh shard ∧
      prepared.orgVocabStartIndex = emb.orgVocabStartIndex ∧
      prepared.orgVocabEndIndex = emb.orgVocabEndIndex ∧
      prepared.orgVocabSize = emb.orgVocabSize := by
  unfold switchStorage at switches
  unfold Table.prepared
  by_cases fp8 : shard.dtype = .float8E4m3fn ∧ emb.dtype ≠ .float8E4m3fn
  · rw [if_pos fp8] at switches
    rw [if_pos (show emb.table.SwitchedBy shard from fp8)]
    split at switches
    · cases switches
    · cases switches
      exact ⟨rfl, rfl, rfl, rfl⟩
  · rw [if_neg fp8] at switches
    rw [if_neg (show ¬ emb.table.SwitchedBy shard from fp8)]
    cases switches
    exact ⟨rfl, rfl, rfl, rfl⟩

theorem shardSize_ok {orgVocabSize size : Nat}
    (sized : shardSize orgVocabSize pleNumSyncShards = .ok size) :
    size = rowsApart orgVocabSize pleNumSyncShards := by
  unfold shardSize at sized
  split at sized
  · cases sized
  · exact (Except.ok.inj sized).symm

variable {convert pleNumSyncShards fresh}

theorem loadWeightShard_ok {emb loaded : PleEmbedding Row Scale} {shard : WeightShard Row}
    (loads : loadWeightShard convert pleNumSyncShards fresh emb shard.shardIdx shard.dtype
      shard.rows = .ok loaded) :
    ShardLoaded convert pleNumSyncShards fresh shard emb.table loaded.table := by
  unfold loadWeightShard at loads
  rcases Except.bind_ok loads with ⟨prepared, switches, checks⟩
  rcases Except.bind_ok checks with ⟨_, _, rest⟩
  rcases Except.bind_ok rest with ⟨size, sized, copies⟩
  unfold copyPleRowsToTpEmbedding at copies
  rcases Except.bind_ok copies with ⟨weight, copied, same⟩
  cases same
  rcases switchStorage_ok fresh switches with ⟨table, start, stop, vocab⟩
  have apart : size = rowsApart emb.orgVocabSize pleNumSyncShards := by
    rw [← vocab]
    exact shardSize_ok _ sized
  rw [← List.length_map (f := convert shard.dtype prepared.dtype)] at copied
  rcases copyOverlap_ok copied with ⟨length, rows⟩
  have dtype : prepared.dtype = (emb.table.prepared fresh shard).dtype :=
    congrArg Table.dtype table
  have sized_alike : prepared.weight.length = emb.weight.length :=
    (congrArg (fun held => Table.weight held |>.length) table).trans (prepared_length ..)
  refine ⟨start, stop, vocab, length.trans sized_alike, dtype, ?_⟩
  rintro row ⟨lower, upper⟩
  have copied_here := rows row (start ▸ lower) (stop ▸ upper)
  rw [copied_row, apart] at copied_here
  have stays : prepared.weight[row - prepared.orgVocabStartIndex]? =
      (emb.table.prepared fresh shard).rowOf row := congrArg (fun held => Table.rowOf held row) table
  rw [stays] at copied_here
  exact copied_here

variable {toBfloat16 : Scale -> Scale} {modPrefix : String}

theorem loadRowScaleShard_table {emb loaded : PleEmbedding Row Scale} {name : String}
    {shardIdx : Nat} {scales : List Scale}
    (loads : loadRowScaleShard toBfloat16 pleNumSyncShards emb name shardIdx scales =
      .ok loaded) : loaded.table = emb.table := by
  unfold loadRowScaleShard at loads
  split at loads
  · cases loads
  · rcases Except.bind_ok loads with ⟨size, _, copies⟩
    rcases Except.bind_ok copies with ⟨rowScale, _, same⟩
    cases same
    rfl

/-- A weight of the checkpoint is a shard of the module or leaves its table
alone. -/
theorem loadQwen4ExpPleShard_ok {state loaded : LoadState Row Scale}
    {shard : PleShard Row Scale} {emb : PleEmbedding Row Scale}
    (loads : loadQwen4ExpPleShard convert toBfloat16 pleNumSyncShards fresh state shard =
      .ok loaded) (found : state.pleModules modPrefix = some emb) :
    exists next, loaded.pleModules modPrefix = some next ∧
      match weightShard modPrefix shard with
      | some own => ShardLoaded convert pleNumSyncShards fresh own emb.table next.table
      | none => next.table = emb.table := by
  unfold loadQwen4ExpPleShard at loads
  unfold weightShard
  by_cases own : shard.modPrefix = modPrefix
  · rw [if_pos own]
    rw [own, found] at loads
    rcases Except.bind_ok loads with ⟨next, tensor, same⟩
    cases same
    refine ⟨next, Function.update_self .., ?_⟩
    unfold loadTensor at tensor
    cases kind : shard.tensor with
    | weight dtype rows =>
        rw [kind] at tensor
        exact @loadWeightShard_ok _ _ _ _ _ _ _ ⟨shard.shardIdx, dtype, rows⟩ tensor
    | rowScale scales =>
        rw [kind] at tensor
        exact loadRowScaleShard_table tensor
  · rw [if_neg own]
    split at loads
    · cases loads
      exact ⟨emb, found, rfl⟩
    · rcases Except.bind_ok loads with ⟨next, _, same⟩
      cases same
      exact ⟨emb, (Function.update_of_ne (Ne.symm own) ..).trans found, rfl⟩

end Rows

end Weights
end QSAHiSparse

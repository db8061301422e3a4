import QSAHiSparse.Foundation.Fallible
import QSAHiSparse.Foundation.Python

namespace QSAHiSparse
namespace Weights

open Foundation

/-!
# The n-gram embedding table

The vocabulary of the table is split over the ranks, and the checkpoint holds it
in shards of its own.  The loader copies of each shard the rows that belong to
the rank.  A shard in FP8 makes it replace the storage of a table in another
type; what a new storage holds is a parameter, and so are the conversions
between the types of elements.
-/

inductive TorchDtype where
  | bfloat16
  | float8E4m3fn
  | int8
  | other (name : String)
deriving DecidableEq, Repr

def TorchDtype.text : TorchDtype -> String
  | .bfloat16 => "torch.bfloat16"
  | .float8E4m3fn => "torch.float8_e4m3fn"
  | .int8 => "torch.int8"
  | .other name => "torch." ++ name

/-- What is read and written of an embedding.  The flag says that it is a
`Qwen4ExpPinnedHostEmbedding`. -/
structure PleEmbedding (Row Scale : Type) where
  pinnedHost : Bool
  pleRowScaleMode : Bool
  orgVocabSize : Nat
  orgVocabStartIndex : Nat
  orgVocabEndIndex : Nat
  numOrgEmbeddingsPerPartition : Nat
  dtype : TorchDtype
  weight : List Row
  rowScale : List Scale

/-- The tensor of a shard. -/
inductive ShardTensor (Row Scale : Type) where
  | weight (dtype : TorchDtype) (rows : List Row)
  | rowScale (scales : List Scale)

/-- A loaded weight and its name, `{prefix}.ngram_embedding.shard_{idx}.{part}`. -/
structure PleShard (Row Scale : Type) where
  modPrefix : String
  shardIdx : Nat
  tensor : ShardTensor Row Scale

def PleShard.name {Row Scale : Type} (shard : PleShard Row Scale) : String :=
  shard.modPrefix ++ ".ngram_embedding.shard_" ++ toString shard.shardIdx ++
    match shard.tensor with
    | .weight _ _ => ".weight"
    | .rowScale _ => ".row_scale"

/-- The variables of `load_weights` that the shards change. -/
structure LoadState (Row Scale : Type) where
  names : List String
  pleModules : String -> Option (PleEmbedding Row Scale)
  pleWarnedDowncast : Bool
  loadedShardParams : List String

/-! ## One shard -/

section Shard

variable {α Row Scale : Type}

/-- `target[start : start + count].copy_(source)`. -/
def copySlice (target : List α) (start count : Nat) (source : List α) :
    Except PyError (List α) :=
  if start + count ≤ target.length ∧ source.length = count then
    .ok (target.take start ++ source ++ target.drop (start + count))
  else
    .error (.runtimeError "The size of tensor a must match the size of tensor b")

/-- The rows from `rowStart` on are copied to the interval of the rank, clipped
on both sides. -/
def copyOverlap (tpStart tpEnd : Nat) (target source : List α) (rowStart rowEnd : Nat) :
    Except PyError (List α) :=
  let ovStart := max rowStart tpStart
  let ovEnd := min rowEnd tpEnd
  if ovStart < ovEnd then
    copySlice target (ovStart - tpStart) (ovEnd - ovStart)
      ((source.drop (ovStart - rowStart)).take (ovEnd - ovStart))
  else .ok target

/-- `(emb.org_vocab_size + ple_num_sync_shards - 1) // ple_num_sync_shards`. -/
def shardSize (orgVocabSize pleNumSyncShards : Nat) : Except PyError Nat :=
  if pleNumSyncShards = 0 then .error (.external true "integer division or modulo by zero")
  else .ok ((orgVocabSize + pleNumSyncShards - 1) / pleNumSyncShards)

variable (convert : TorchDtype -> TorchDtype -> Row -> Row) (toBfloat16 : Scale -> Scale)
  (isNan : Scale -> Bool) (pleNumSyncShards : Nat) (fresh : Nat -> Row)

/-- `copy_ple_rows_to_tp_embedding`. -/
def copyPleRowsToTpEmbedding (emb : PleEmbedding Row Scale) (dtype : TorchDtype)
    (loadedWeight : List Row) (rowStart rowEnd : Nat) : Except PyError (PleEmbedding Row Scale) := do
  let weight <- copyOverlap emb.orgVocabStartIndex emb.orgVocabEndIndex emb.weight
    (loadedWeight.map (convert dtype emb.dtype)) rowStart rowEnd
  return { emb with weight }

/-- The storage becomes a new one in FP8, of the same shape. -/
def PleEmbedding.switched (emb : PleEmbedding Row Scale) : PleEmbedding Row Scale :=
  { emb with dtype := .float8E4m3fn, weight := (List.range emb.weight.length).map fresh }

/-- An FP8 shard switches the storage of a table in another type. -/
def switchStorage (emb : PleEmbedding Row Scale) (dtype : TorchDtype) :
    Except PyError (PleEmbedding Row Scale) :=
  if dtype = .float8E4m3fn ∧ emb.dtype ≠ .float8E4m3fn then
    if emb.pinnedHost = true then
      .error (.valueError ("fp8 PLE auto-switch is unsupported with ple_offload_embedding; set " ++
        "text_config.ple_embedding_dtype=\"float8_e4m3fn\" instead"))
    else .ok (emb.switched fresh)
  else .ok emb

/-- An int8 shard and an int8 table go together. -/
def checkInt8 (emb : PleEmbedding Row Scale) (dtype : TorchDtype) : Except PyError Unit :=
  if dtype = .int8 ∧ emb.dtype ≠ .int8 then
    .error (.valueError ("int8 PLE checkpoint shards require " ++
      "text_config.ple_embedding_dtype=\"int8\" (the offload path cannot auto-switch table storage)"))
  else if emb.dtype = .int8 ∧ dtype ≠ .int8 then
    .error (.valueError ("PLE embedding storage is int8 but checkpoint shards are " ++ dtype.text ++
      "; rebuild the table as int8"))
  else .ok ()

/-- The branch of `load_qwen4_exp_ple_shard` for a weight. -/
def loadWeightShard (emb : PleEmbedding Row Scale) (shardIdx : Nat) (dtype : TorchDtype)
    (rows : List Row) : Except PyError (PleEmbedding Row Scale) := do
  let emb <- switchStorage fresh emb dtype
  checkInt8 emb dtype
  let size <- shardSize emb.orgVocabSize pleNumSyncShards
  let shardStart := shardIdx * size
  copyPleRowsToTpEmbedding convert emb dtype rows shardStart (shardStart + rows.length)

/-- The branch for a row scale. -/
def loadRowScaleShard (emb : PleEmbedding Row Scale) (name : String) (shardIdx : Nat)
    (scales : List Scale) : Except PyError (PleEmbedding Row Scale) := do
  if emb.pinnedHost = false ∨ emb.pleRowScaleMode = false then
    throw (.valueError ("PLE checkpoint ships row_scale shards (" ++ name ++ ") but " ++
      "ple_embedding_dtype is not 'int8_row'"))
  let size <- shardSize emb.orgVocabSize pleNumSyncShards
  let shardStart := shardIdx * size
  let rowScale <- copyOverlap emb.orgVocabStartIndex emb.orgVocabEndIndex emb.rowScale
    (scales.map toBfloat16) shardStart (shardStart + scales.length)
  return { emb with rowScale }

/-- The embedding after a shard. -/
def loadTensor (emb : PleEmbedding Row Scale) (shard : PleShard Row Scale) :
    Except PyError (PleEmbedding Row Scale) :=
  match shard.tensor with
  | .weight dtype rows => loadWeightShard convert pleNumSyncShards fresh emb shard.shardIdx dtype rows
  | .rowScale scales =>
      loadRowScaleShard toBfloat16 pleNumSyncShards emb shard.name shard.shardIdx scales

/-- Whether the warning about a lossy downcast was given, after a shard. -/
def warnsDowncast (warned : Bool) (emb : PleEmbedding Row Scale) (shard : PleShard Row Scale) :
    Bool :=
  match shard.tensor with
  | .weight dtype _ => warned || decide (emb.dtype = .float8E4m3fn ∧ dtype ≠ .float8E4m3fn)
  | .rowScale _ => warned

/-- The parameter that a shard is a part of. -/
def PleShard.param (shard : PleShard Row Scale) : String :=
  match shard.tensor with
  | .weight _ _ => shard.modPrefix ++ ".ngram_embedding.weight"
  | .rowScale _ => shard.modPrefix ++ ".ngram_embedding.row_scale"

/-- `load_qwen4_exp_ple_shard`; a shard of no module is left to other code. -/
def loadQwen4ExpPleShard (state : LoadState Row Scale) (shard : PleShard Row Scale) :
    Except PyError (LoadState Row Scale) :=
  match state.pleModules shard.modPrefix with
  | none => .ok state
  | some emb => do
      let loaded <- loadTensor convert toBfloat16 pleNumSyncShards fresh emb shard
      return { state with
        pleModules := Function.update state.pleModules shard.modPrefix (some loaded)
        pleWarnedDowncast := warnsDowncast state.pleWarnedDowncast loaded shard
        loadedShardParams := shard.param :: state.loadedShardParams }

/-! ## All shards -/

/-- Every row of a row-scaled table needs its scale. -/
def checkRowScales (state : LoadState Row Scale) (modPrefix : String) : Except PyError Unit :=
  match state.pleModules modPrefix with
  | none => .ok ()
  | some emb =>
      let missing := (emb.rowScale.take emb.numOrgEmbeddingsPerPartition).countP isNan
      if emb.pinnedHost = true ∧ emb.pleRowScaleMode = true ∧ missing ≠ 0 then
        .error (.valueError ("PLE row_scale shards missing for " ++ modPrefix ++ ": " ++
          toString missing ++ " of " ++ toString emb.numOrgEmbeddingsPerPartition ++
          " rows unloaded"))
      else .ok ()

/-- `load_weights`, of the shards among the weights. -/
def loadWeights (state : LoadState Row Scale) (weights : List (PleShard Row Scale)) :
    Except PyError (LoadState Row Scale) := do
  let loaded <- weights.foldlM
    (loadQwen4ExpPleShard convert toBfloat16 pleNumSyncShards fresh) state
  loaded.names.forM (checkRowScales isNan loaded)
  return loaded

end Shard

end Weights
end QSAHiSparse

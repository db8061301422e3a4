import QSAHiSparse.Weights.PleLoading
import Mathlib.Data.Nat.Basic
import Mathlib.Tactic.IntervalCases

namespace QSAHiSparse
namespace Weights

open Foundation

/-!
# Which sequences of shards load losslessly

What an uninitialised storage holds does not decide whether the loader accepts
its shards, but it is what a table holds where a row was loaded before the
switch only.
-/

section Accepted

variable {α Row Scale : Type} {convert : TorchDtype -> TorchDtype -> Row -> Row}
  {toBfloat16 : Scale -> Scale} {isNan : Scale -> Bool} {pleNumSyncShards : Nat}
  {fresh other : Nat -> Row}

/-! ## Acceptance -/

/-- Only the lengths decide whether a slice can be copied. -/
theorem copySlice_lengths {target source result target' source' : List α} {start count : Nat}
    (copied : copySlice target start count source = .ok result)
    (targets : target'.length = target.length) (sources : source'.length = source.length) :
    exists result', copySlice target' start count source' = .ok result' ∧
      result'.length = result.length := by
  have fits : start + count ≤ target'.length ∧ source'.length = count := by
    unfold copySlice at copied
    split at copied
    · rw [targets, sources]
      assumption
    · cases copied
  have copied' : copySlice target' start count source' =
      .ok (target'.take start ++ source' ++ target'.drop (start + count)) := if_pos fits
  refine ⟨_, copied', ?_⟩
  rw [(copySlice_ok copied').1, (copySlice_ok copied).1, targets]

theorem copyOverlap_lengths {tpStart tpEnd rowStart rowEnd : Nat}
    {target source result target' source' : List α}
    (copied : copyOverlap tpStart tpEnd target source rowStart rowEnd = .ok result)
    (targets : target'.length = target.length) (sources : source'.length = source.length) :
    exists result', copyOverlap tpStart tpEnd target' source' rowStart rowEnd = .ok result' ∧
      result'.length = result.length := by
  unfold copyOverlap at copied ⊢
  dsimp only at copied ⊢
  split at copied
  · rename_i overlaps
    rw [if_pos overlaps]
    apply copySlice_lengths copied targets
    rw [List.length_take, List.length_take, List.length_drop, List.length_drop, sources]
  · rename_i apart
    rw [if_neg apart]
    cases copied
    exact ⟨target', rfl, targets⟩

theorem switchStorage_lengths {emb prepared : PleEmbedding Row Scale} {dtype : TorchDtype}
    {weight : List Row} (switches : switchStorage fresh emb dtype = .ok prepared)
    (sized : weight.length = emb.weight.length) :
    exists weight', switchStorage other { emb with weight } dtype =
        .ok { prepared with weight := weight' } ∧ weight'.length = prepared.weight.length := by
  unfold switchStorage at switches ⊢
  dsimp only
  split at switches
  · rename_i fp8
    rw [if_pos fp8]
    split at switches
    · cases switches
    · rename_i loaded
      rw [if_neg loaded]
      cases switches
      refine ⟨_, rfl, ?_⟩
      change ((List.range weight.length).map other).length =
        ((List.range emb.weight.length).map fresh).length
      rw [List.length_map, List.length_map, List.length_range, List.length_range, sized]
  · rename_i same
    rw [if_neg same]
    cases switches
    exact ⟨weight, rfl, sized⟩

theorem loadTensor_lengths {emb loaded : PleEmbedding Row Scale} {shard : PleShard Row Scale}
    {weight : List Row}
    (loads : loadTensor convert toBfloat16 pleNumSyncShards fresh emb shard = .ok loaded)
    (sized : weight.length = emb.weight.length) :
    exists weight', loadTensor convert toBfloat16 pleNumSyncShards other { emb with weight } shard =
        .ok { loaded with weight := weight' } ∧ weight'.length = loaded.weight.length := by
  unfold loadTensor at loads ⊢
  cases kind : shard.tensor with
  | weight dtype rows =>
      rw [kind] at loads
      dsimp only at loads ⊢
      unfold loadWeightShard at loads ⊢
      rcases Except.bind_ok loads with ⟨prepared, switches, checks⟩
      rcases Except.bind_ok checks with ⟨_, checked, rest⟩
      rcases Except.bind_ok rest with ⟨size, vocab, copies⟩
      unfold copyPleRowsToTpEmbedding at copies
      rcases Except.bind_ok copies with ⟨written, copied, same⟩
      cases same
      rcases @switchStorage_lengths _ _ _ other _ _ _ _ switches sized with
        ⟨storage, switched, storage_length⟩
      rcases copyOverlap_lengths copied storage_length rfl with ⟨weight', copied', length⟩
      have checked' : checkInt8 { prepared with weight := storage } dtype = .ok _ := checked
      rw [switched, Except.ok_bind, checked', Except.ok_bind, vocab, Except.ok_bind]
      unfold copyPleRowsToTpEmbedding
      dsimp only
      rw [copied', Except.ok_bind]
      exact ⟨weight', rfl, length⟩
  | rowScale scales =>
      rw [kind] at loads
      dsimp only at loads ⊢
      unfold loadRowScaleShard at loads ⊢
      split at loads
      · cases loads
      · rename_i scaled
        rw [if_neg scaled]
        rcases Except.bind_ok loads with ⟨size, vocab, copies⟩
        rcases Except.bind_ok copies with ⟨rowScale, copied, same⟩
        cases same
        rw [vocab, Except.ok_bind]
        dsimp only
        rw [copied, Except.ok_bind]
        exact ⟨weight, rfl, sized⟩

/-- Two states that differ in the rows of their tables only. -/
structure SameButRows (first second : LoadState Row Scale) : Prop where
  names : second.names = first.names
  modules : forall modPrefix,
    (first.pleModules modPrefix = none ∧ second.pleModules modPrefix = none) ∨
      exists emb weight, first.pleModules modPrefix = some emb ∧
        second.pleModules modPrefix = some { emb with weight } ∧
        weight.length = emb.weight.length

theorem loadQwen4ExpPleShard_accepts {first second loaded : LoadState Row Scale}
    {shard : PleShard Row Scale} (alike : SameButRows first second)
    (loads : loadQwen4ExpPleShard convert toBfloat16 pleNumSyncShards fresh first shard =
      .ok loaded) :
    exists loaded', loadQwen4ExpPleShard convert toBfloat16 pleNumSyncShards other second shard =
      .ok loaded' ∧ SameButRows loaded loaded' := by
  unfold loadQwen4ExpPleShard at loads ⊢
  rcases alike.modules shard.modPrefix with ⟨absent, absent'⟩ | ⟨emb, weight, found, found', sized⟩
  · rw [absent] at loads
    rw [absent']
    cases loads
    exact ⟨second, rfl, alike⟩
  · rw [found] at loads
    rw [found']
    rcases Except.bind_ok loads with ⟨next, tensor, same⟩
    cases same
    rcases @loadTensor_lengths _ _ _ _ _ _ other _ _ _ _ tensor sized with ⟨weight', tensor', length⟩
    dsimp only
    rw [tensor', Except.ok_bind]
    refine ⟨_, rfl, alike.names, ?_⟩
    intro modPrefix
    by_cases own : modPrefix = shard.modPrefix
    · right
      rw [own]
      exact ⟨next, weight', Function.update_self .., Function.update_self .., length⟩
    · dsimp only
      rw [Function.update_of_ne own, Function.update_of_ne own]
      exact alike.modules modPrefix

theorem foldlM_accepts {weights : List (PleShard Row Scale)} :
    forall {first second loaded : LoadState Row Scale}, SameButRows first second ->
      weights.foldlM (loadQwen4ExpPleShard convert toBfloat16 pleNumSyncShards fresh) first =
        .ok loaded ->
      exists loaded',
        weights.foldlM (loadQwen4ExpPleShard convert toBfloat16 pleNumSyncShards other) second =
          .ok loaded' ∧ SameButRows loaded loaded' := by
  induction weights with
  | nil =>
      intro first second loaded alike loads
      cases loads
      exact ⟨second, rfl, alike⟩
  | cons shard weights inductionHypothesis =>
      intro first second loaded alike loads
      rw [List.foldlM_cons] at loads
      rcases Except.bind_ok loads with ⟨between, stepped, rest⟩
      rcases @loadQwen4ExpPleShard_accepts _ _ _ _ _ _ other _ _ _ _ alike stepped with
        ⟨between', stepped', alike'⟩
      rw [List.foldlM_cons, stepped', Except.ok_bind]
      exact inductionHypothesis alike' rest

/-- Whether the shards are accepted does not depend on the fresh storage. -/
theorem loadWeights_accepts {state loaded : LoadState Row Scale}
    {weights : List (PleShard Row Scale)}
    (loads : loadWeights convert toBfloat16 isNan pleNumSyncShards fresh state weights =
      .ok loaded) :
    exists loaded', loadWeights convert toBfloat16 isNan pleNumSyncShards other state weights =
      .ok loaded' := by
  have alike : SameButRows state state := by
    refine ⟨rfl, ?_⟩
    intro modPrefix
    cases found : state.pleModules modPrefix with
    | none => exact Or.inl ⟨rfl, rfl⟩
    | some emb => exact Or.inr ⟨emb, emb.weight, rfl, rfl, rfl⟩
  unfold loadWeights at loads ⊢
  rcases Except.bind_ok loads with ⟨between, stepped, rest⟩
  rcases Except.bind_ok rest with ⟨_, checked, _⟩
  rcases @foldlM_accepts _ _ _ _ _ _ other _ _ _ _ alike stepped with ⟨between', stepped', alike'⟩
  have checks : checkRowScales isNan between' = checkRowScales isNan between := by
    funext modPrefix
    unfold checkRowScales
    rcases alike'.modules modPrefix with ⟨absent, absent'⟩ | ⟨emb, weight, found, found', _⟩
    · rw [absent, absent']
    · rw [found, found']
  rw [stepped', Except.ok_bind, alike'.names, checks, checked]
  exact ⟨between', rfl⟩

end Accepted

/-! ## Lossless loads -/

section Lossless

variable {Row Scale : Type}

/-- Every row of the vocabulary is in exactly one shard. -/
def Owned (size orgVocabSize : Nat) (shards : List (WeightShard Row)) : Prop :=
  forall row, row < orgVocabSize ->
    exists shard, shard ∈ shards ∧ (shard.rowAt size row).isSome = true ∧
      forall other, other ∈ shards -> (other.rowAt size row).isSome = true -> other = shard

instance [DecidableEq Row] (size orgVocabSize : Nat) (shards : List (WeightShard Row)) :
    Decidable (Owned size orgVocabSize shards) := by
  unfold Owned
  infer_instance

/-- Every row of the rank is that of its shard, converted to the type of the
table. -/
def Lossless (convert : TorchDtype -> TorchDtype -> Row -> Row) (size : Nat)
    (shards : List (WeightShard Row)) (table : Table Row) : Prop :=
  forall row, table.Holds row -> forall shard value, shard ∈ shards ->
    shard.rowAt size row = some value ->
    table.rowOf row = some (convert shard.dtype table.dtype value)

/-- If the storage is switched, every row of the rank is loaded no earlier. -/
def LoadedLast (size : Nat) (shards : List (WeightShard Row)) (table : Table Row) : Prop :=
  Switches table.dtype shards -> forall row, table.Holds row ->
    exists shard, shard ∈ fromSwitch shards ∧ (shard.rowAt size row).isSome = true

theorem mem_of_mem_fromSwitch {shards : List (WeightShard Row)} {shard : WeightShard Row}
    (member : shard ∈ fromSwitch shards) : shard ∈ shards :=
  (List.dropWhile_sublist _).subset member

variable {convert : TorchDtype -> TorchDtype -> Row -> Row} {pleNumSyncShards : Nat}
  {fresh : Nat -> Row} {shards : List (WeightShard Row)} {before after : Table Row}

/-- The type of the table at the end. -/
theorem LoadedBy.dtype (run : LoadedBy convert pleNumSyncShards fresh shards before after) :
    after.dtype = if Switches before.dtype shards then .float8E4m3fn else before.dtype := by
  by_cases switches : Switches before.dtype shards
  · rw [if_pos switches]
    exact (run.switched switches).1
  · rw [if_neg switches]
    exact (run.steady fun shard member switched =>
      switches ⟨switched.2, shard, member, switched.1⟩).1

/-- A row that a shard has wins over what the storage held. -/
theorem lossless_row {size row : Nat} {last : List (WeightShard Row)} {start : Table Row}
    (written : WrittenBy convert size last start after row)
    (covered : exists shard, shard ∈ last ∧ (shard.rowAt size row).isSome = true)
    (inside : forall shard, shard ∈ last -> shard ∈ shards)
    {owner : WeightShard Row} {value : Row}
    (sole : forall other, other ∈ shards -> (other.rowAt size row).isSome = true -> other = owner)
    (has : owner.rowAt size row = some value) :
    after.rowOf row = some (convert owner.dtype after.dtype value) := by
  rcases written with ⟨shard, found, member, has_found, at_row⟩ | ⟨none_has, _⟩
  · have same := sole shard (inside shard member) (by rw [has_found]; rfl)
    rw [same] at has_found at_row
    rw [at_row, Option.some.inj (has_found.symm.trans has)]
  · rcases covered with ⟨shard, member, some_has⟩
    rw [none_has shard member] at some_has
    cases some_has

/-- Shards that are loaded last are loaded losslessly. -/
theorem lossless_of_loadedLast
    (run : LoadedBy convert pleNumSyncShards fresh shards before after)
    (owned : Owned (rowsApart before.orgVocabSize pleNumSyncShards) before.orgVocabSize shards)
    (interval : before.tpEnd ≤ before.orgVocabSize)
    (last : LoadedLast (rowsApart before.orgVocabSize pleNumSyncShards) shards before) :
    Lossless convert (rowsApart before.orgVocabSize pleNumSyncShards) shards after := by
  intro row holds shard value member has
  have held : before.Holds row := run.holds_iff.mp holds
  rcases owned row (Nat.lt_of_lt_of_le held.2 interval) with ⟨owner, listed, owns, sole⟩
  have same : shard = owner := sole shard member (by rw [has]; rfl)
  rw [same] at has ⊢
  by_cases switches : Switches before.dtype shards
  · exact lossless_row ((run.switched switches).2 row held) (last switches row held)
      (fun _ => mem_of_mem_fromSwitch) sole has
  · have unswitched := run.steady fun shard member switched =>
      switches ⟨switched.2, shard, member, switched.1⟩
    exact lossless_row (unswitched.2 row held) ⟨owner, listed, owns⟩ (fun _ inside => inside) sole
      has

/-- A row that is loaded before the switch only is what the new storage holds. -/
theorem lost_row (run : LoadedBy convert pleNumSyncShards fresh shards before after)
    (switches : Switches before.dtype shards) {row : Nat} (held : before.Holds row)
    (early : ¬ exists shard, shard ∈ fromSwitch shards ∧
      (shard.rowAt (rowsApart before.orgVocabSize pleNumSyncShards) row).isSome = true) :
    after.rowOf row = (before.switched fresh).rowOf row := by
  rcases (run.switched switches).2 row held with ⟨shard, value, member, has, _⟩ | ⟨_, at_row⟩
  · exact absurd ⟨shard, member, by rw [has]; rfl⟩ early
  · exact at_row

variable (convert) (pleNumSyncShards)
variable (toBfloat16 : Scale -> Scale) (isNan : Scale -> Bool)

/-- Whatever a fresh storage holds, the shards that are accepted are loaded
losslessly to the table of a module. -/
def LoadsLosslessly (state : LoadState Row Scale) (weights : List (PleShard Row Scale))
    (modPrefix : String) : Prop :=
  forall fresh loaded last,
    loadWeights convert toBfloat16 isNan pleNumSyncShards fresh state weights = .ok loaded ->
    loaded.pleModules modPrefix = some last ->
    Lossless convert (rowsApart last.orgVocabSize pleNumSyncShards)
      (weightShards modPrefix weights) last.table

/-- The shards of a checkpoint that a rank accepts for the table of a module. -/
structure Accepted (state : LoadState Row Scale) (weights : List (PleShard Row Scale))
    (modPrefix : String) (emb : PleEmbedding Row Scale) : Prop where
  found : state.pleModules modPrefix = some emb
  interval : emb.orgVocabEndIndex ≤ emb.orgVocabSize
  owned : Owned (rowsApart emb.orgVocabSize pleNumSyncShards) emb.orgVocabSize
    (weightShards modPrefix weights)
  accepts : exists fresh loaded,
    loadWeights convert toBfloat16 isNan pleNumSyncShards fresh state weights = .ok loaded

variable {convert} {pleNumSyncShards} {toBfloat16} {isNan}
variable {state : LoadState Row Scale} {weights : List (PleShard Row Scale)} {modPrefix : String}
  {emb : PleEmbedding Row Scale}

theorem Accepted.run (accepted : Accepted convert pleNumSyncShards toBfloat16 isNan state weights
      modPrefix emb) {loaded : LoadState Row Scale} {last : PleEmbedding Row Scale}
    (loads : loadWeights convert toBfloat16 isNan pleNumSyncShards fresh state weights =
      .ok loaded) (held : loaded.pleModules modPrefix = some last) :
    LoadedBy convert pleNumSyncShards fresh (weightShards modPrefix weights) emb.table
      last.table := by
  rcases loadWeights_loadedBy loads accepted.found with ⟨found, at_end, run⟩
  rw [Option.some.inj (held.symm.trans at_end)]
  exact run

theorem Accepted.lossless (accepted : Accepted convert pleNumSyncShards toBfloat16 isNan state
      weights modPrefix emb)
    (kept : LoadedLast (rowsApart emb.orgVocabSize pleNumSyncShards)
      (weightShards modPrefix weights) emb.table) :
    LoadsLosslessly convert pleNumSyncShards toBfloat16 isNan state weights modPrefix := by
  intro fresh loaded last loads held
  have run := accepted.run loads held
  have vocab : last.orgVocabSize = emb.orgVocabSize := run.orgVocabSize
  rw [vocab]
  exact lossless_of_loadedLast run accepted.owned accepted.interval kept

/-- A lossless load is one of the shards that are loaded last. -/
theorem Accepted.loadedLast [Nontrivial Row]
    (accepted : Accepted convert pleNumSyncShards toBfloat16 isNan state weights modPrefix emb)
    (lossless : LoadsLosslessly convert pleNumSyncShards toBfloat16 isNan state weights
      modPrefix) :
    LoadedLast (rowsApart emb.orgVocabSize pleNumSyncShards) (weightShards modPrefix weights)
      emb.table := by
  intro switches row held
  by_contra early
  rcases accepted.owned row (Nat.lt_of_lt_of_le held.2 accepted.interval) with
    ⟨owner, listed, owns, _⟩
  rcases Option.isSome_iff_exists.mp owns with ⟨value, has⟩
  -- a storage that holds anything but the converted row shows the loss
  rcases exists_ne (convert owner.dtype .float8E4m3fn value) with ⟨garbage, differs⟩
  rcases accepted.accepts with ⟨some_fresh, some_loaded, some_loads⟩
  rcases @loadWeights_accepts _ _ _ _ _ _ _ (fun _ => garbage) _ _ _ some_loads with ⟨loaded, loads⟩
  rcases loadWeights_loadedBy loads accepted.found with ⟨last, at_end, run⟩
  have right := lossless (fun _ => garbage) loaded last loads at_end row
    (run.holds_iff.mpr held) owner value listed
  have vocab : last.orgVocabSize = emb.orgVocabSize := run.orgVocabSize
  rw [vocab] at right
  have stale : last.table.rowOf row =
      ((List.range emb.weight.length).map fun _ => garbage)[row - emb.orgVocabStartIndex]? :=
    lost_row run switches held early
  have type : last.table.dtype = .float8E4m3fn := (run.switched switches).1
  rw [stale, type, List.getElem?_map] at right
  rcases Option.map_eq_some_iff.mp (right has) with ⟨_, _, same⟩
  exact differs same

/-- Accepted shards are loaded losslessly exactly when no row of the rank is
loaded before the switch only, and then in any order to the same table. -/
theorem shards_lossless_iff [Nontrivial Row]
    (accepted : Accepted convert pleNumSyncShards toBfloat16 isNan state weights modPrefix emb) :
    (LoadsLosslessly convert pleNumSyncShards toBfloat16 isNan state weights modPrefix <->
      LoadedLast (rowsApart emb.orgVocabSize pleNumSyncShards) (weightShards modPrefix weights)
        emb.table) ∧
    forall weights' : List (PleShard Row Scale), weights'.Perm weights ->
      LoadedLast (rowsApart emb.orgVocabSize pleNumSyncShards) (weightShards modPrefix weights)
        emb.table ->
      LoadedLast (rowsApart emb.orgVocabSize pleNumSyncShards) (weightShards modPrefix weights')
        emb.table ->
      forall fresh fresh' loaded loaded' last last',
        loadWeights convert toBfloat16 isNan pleNumSyncShards fresh state weights = .ok loaded ->
        loadWeights convert toBfloat16 isNan pleNumSyncShards fresh' state weights' = .ok loaded' ->
        loaded.pleModules modPrefix = some last -> loaded'.pleModules modPrefix = some last' ->
        last'.dtype = last.dtype ∧ forall row, emb.table.Holds row ->
          last'.table.rowOf row = last.table.rowOf row := by
  refine ⟨⟨accepted.loadedLast, accepted.lossless⟩, ?_⟩
  intro weights' same kept kept' fresh fresh' loaded loaded' last last' loads loads' held held'
  have shards : (weightShards modPrefix weights').Perm (weightShards modPrefix weights) :=
    same.filterMap _
  have accepted' : Accepted convert pleNumSyncShards toBfloat16 isNan state weights' modPrefix
      emb := by
    refine ⟨accepted.found, accepted.interval, ?_, fresh', loaded', loads'⟩
    intro row inside
    rcases accepted.owned row inside with ⟨owner, listed, owns, sole⟩
    exact ⟨owner, shards.mem_iff.mpr listed, owns, fun other member => sole other
      (shards.mem_iff.mp member)⟩
  have run := accepted.run loads held
  have run' := accepted'.run loads' held'
  have switches : Switches emb.dtype (weightShards modPrefix weights') <->
      Switches emb.dtype (weightShards modPrefix weights) :=
    and_congr_right fun _ => exists_congr fun shard => and_congr_left fun _ => shards.mem_iff
  have type : last'.table.dtype = last.table.dtype := by
    rw [run.dtype, run'.dtype]
    exact if_congr switches rfl rfl
  refine ⟨type, ?_⟩
  intro row holds
  rcases accepted.owned row (Nat.lt_of_lt_of_le holds.2 accepted.interval) with
    ⟨owner, listed, owns, _⟩
  rcases Option.isSome_iff_exists.mp owns with ⟨value, has⟩
  have first := lossless_of_loadedLast run accepted.owned accepted.interval kept row
    (run.holds_iff.mpr holds) owner value listed has
  have second := lossless_of_loadedLast run' accepted'.owned accepted'.interval kept' row
    (run'.holds_iff.mpr holds) owner value (shards.mem_iff.mpr listed) has
  rw [first, second, type]

end Lossless

/-! ## A checkpoint of two types -/

section Example

/-- A bfloat16 table of two rows, all of which the rank has. -/
def twoRows : LoadState Nat Unit where
  names := ["ple"]
  pleModules modPrefix :=
    if modPrefix = "ple" then some ⟨false, false, 2, 0, 2, 2, .bfloat16, [0, 0], []⟩ else none
  pleWarnedDowncast := false
  loadedShardParams := []

def bfloat16Shard : PleShard Nat Unit := ⟨"ple", 0, .weight .bfloat16 [5]⟩

def fp8Shard : PleShard Nat Unit := ⟨"ple", 1, .weight .float8E4m3fn [6]⟩

theorem twoRows_accepted (weights : List (PleShard Nat Unit))
    (both : weights = [bfloat16Shard, fp8Shard] ∨ weights = [fp8Shard, bfloat16Shard]) :
    Accepted (fun _ _ row => row) 2 id (fun _ => false) twoRows weights "ple"
      ⟨false, false, 2, 0, 2, 2, .bfloat16, [0, 0], []⟩ := by
  constructor
  · rfl
  · decide
  · rcases both with rfl | rfl <;> decide
  · rcases both with rfl | rfl
    · exact ⟨fun _ => 0, _, rfl⟩
    · exact ⟨fun _ => 0, _, rfl⟩

/-- The FP8 shard comes first, and both rows are kept. -/
theorem shards_lossless_iff_example :
    LoadsLosslessly (fun _ _ row => row) 2 id (fun _ => false) twoRows [fp8Shard, bfloat16Shard]
      "ple" := by
  refine (shards_lossless_iff (twoRows_accepted _ (Or.inr rfl))).1.mpr ?_
  rintro _ row ⟨_, upper⟩
  have two : row < 2 := upper
  interval_cases row
  · exact ⟨⟨0, .bfloat16, [5]⟩, by decide, by decide⟩
  · exact ⟨⟨1, .float8E4m3fn, [6]⟩, by decide, by decide⟩

/-- The bfloat16 shard comes first, and its row is lost. -/
theorem early_shard_lost :
    ¬ forall (pleNumSyncShards : Nat) (state : LoadState Nat Unit)
      (weights : List (PleShard Nat Unit)) (modPrefix : String) (emb : PleEmbedding Nat Unit),
      Accepted (fun _ _ row => row) pleNumSyncShards id (fun _ => false) state weights modPrefix
        emb ->
      LoadsLosslessly (fun _ _ row => row) pleNumSyncShards id (fun _ => false) state weights
        modPrefix := by
  intro lossless
  have kept := lossless 2 twoRows [bfloat16Shard, fp8Shard] "ple" _
    (twoRows_accepted _ (Or.inl rfl)) (fun _ => 0) _ _ rfl rfl 0 ⟨by decide, by decide⟩
    ⟨0, .bfloat16, [5]⟩ 5 (by decide) (by decide)
  have lost : some 0 = some 5 := kept
  cases lost

end Example

end Weights
end QSAHiSparse

import QSAHiSparse.Weights.PleShards

namespace QSAHiSparse
namespace Weights

open Foundation

/-!
# What a sequence of shards leaves in a table

A table switches its storage at most once, at the first FP8 shard.  What was
loaded before is lost then, so a row is that of the last shard that has it and
comes no earlier.
-/

section Loading

variable {Row Scale : Type} {convert : TorchDtype -> TorchDtype -> Row -> Row}
  {toBfloat16 : Scale -> Scale} {isNan : Scale -> Bool} {pleNumSyncShards : Nat}
  {fresh : Nat -> Row}

/-- Shards were loaded one after the other. -/
inductive LoadedBy (convert : TorchDtype -> TorchDtype -> Row -> Row) (pleNumSyncShards : Nat)
    (fresh : Nat -> Row) : List (WeightShard Row) -> Table Row -> Table Row -> Prop where
  | nil (table : Table Row) : LoadedBy convert pleNumSyncShards fresh [] table table
  | cons {shard : WeightShard Row} {shards : List (WeightShard Row)}
      {before between after : Table Row} :
      ShardLoaded convert pleNumSyncShards fresh shard before between ->
      LoadedBy convert pleNumSyncShards fresh shards between after ->
      LoadedBy convert pleNumSyncShards fresh (shard :: shards) before after

/-- The weight shards of a module, in their order. -/
def weightShards (modPrefix : String) (weights : List (PleShard Row Scale)) :
    List (WeightShard Row) :=
  weights.filterMap (weightShard modPrefix)

theorem foldlM_loadedBy {modPrefix : String} {weights : List (PleShard Row Scale)} :
    forall {state loaded : LoadState Row Scale} {emb : PleEmbedding Row Scale},
      weights.foldlM (loadQwen4ExpPleShard convert toBfloat16 pleNumSyncShards fresh) state =
        .ok loaded ->
      state.pleModules modPrefix = some emb ->
      exists last, loaded.pleModules modPrefix = some last ∧
        LoadedBy convert pleNumSyncShards fresh (weightShards modPrefix weights) emb.table
          last.table := by
  induction weights with
  | nil =>
      intro state loaded emb loads found
      cases loads
      exact ⟨emb, found, .nil _⟩
  | cons shard weights inductionHypothesis =>
      intro state loaded emb loads found
      rw [List.foldlM_cons] at loads
      rcases Except.bind_ok loads with ⟨between, stepped, rest⟩
      rcases loadQwen4ExpPleShard_ok stepped found with ⟨next, held, effect⟩
      rcases inductionHypothesis rest held with ⟨last, final, run⟩
      refine ⟨last, final, ?_⟩
      unfold weightShards
      cases own : weightShard modPrefix shard with
      | none =>
          rw [own] at effect
          rw [List.filterMap_cons_none own, ← effect]
          exact run
      | some weight =>
          rw [own] at effect
          rw [List.filterMap_cons_some own]
          exact .cons effect run

theorem loadWeights_loadedBy {modPrefix : String} {weights : List (PleShard Row Scale)}
    {state loaded : LoadState Row Scale} {emb : PleEmbedding Row Scale}
    (loads : loadWeights convert toBfloat16 isNan pleNumSyncShards fresh state weights =
      .ok loaded)
    (found : state.pleModules modPrefix = some emb) :
    exists last, loaded.pleModules modPrefix = some last ∧
      LoadedBy convert pleNumSyncShards fresh (weightShards modPrefix weights) emb.table
        last.table := by
  unfold loadWeights at loads
  rcases Except.bind_ok loads with ⟨between, stepped, rest⟩
  rcases Except.bind_ok rest with ⟨_, _, same⟩
  cases same
  exact foldlM_loadedBy stepped found

/-- A row is that of a shard that has it, or it was not written. -/
def WrittenBy (convert : TorchDtype -> TorchDtype -> Row -> Row) (size : Nat)
    (shards : List (WeightShard Row)) (start after : Table Row) (row : Nat) : Prop :=
  (exists shard value, shard ∈ shards ∧ shard.rowAt size row = some value ∧
    after.rowOf row = some (convert shard.dtype after.dtype value)) ∨
  ((forall shard, shard ∈ shards -> shard.rowAt size row = none) ∧
    after.rowOf row = start.rowOf row)

namespace LoadedBy

variable {shards : List (WeightShard Row)} {before after : Table Row}

theorem tpStart (run : LoadedBy convert pleNumSyncShards fresh shards before after) :
    after.tpStart = before.tpStart := by
  induction run with
  | nil => rfl
  | cons step _ later => exact later.trans step.tpStart

theorem tpEnd (run : LoadedBy convert pleNumSyncShards fresh shards before after) :
    after.tpEnd = before.tpEnd := by
  induction run with
  | nil => rfl
  | cons step _ later => exact later.trans step.tpEnd

theorem holds_iff (run : LoadedBy convert pleNumSyncShards fresh shards before after)
    {row : Nat} : after.Holds row <-> before.Holds row := by
  unfold Table.Holds
  rw [run.tpStart, run.tpEnd]

theorem orgVocabSize (run : LoadedBy convert pleNumSyncShards fresh shards before after) :
    after.orgVocabSize = before.orgVocabSize := by
  induction run with
  | nil => rfl
  | cons step _ later => exact later.trans step.orgVocabSize

theorem length (run : LoadedBy convert pleNumSyncShards fresh shards before after) :
    after.weight.length = before.weight.length := by
  induction run with
  | nil => rfl
  | cons step _ later => exact later.trans step.length

theorem append_split {first second : List (WeightShard Row)} :
    forall {before : Table Row},
      LoadedBy convert pleNumSyncShards fresh (first ++ second) before after ->
      exists between, LoadedBy convert pleNumSyncShards fresh first before between ∧
        LoadedBy convert pleNumSyncShards fresh second between after := by
  induction first with
  | nil => exact fun run => ⟨_, .nil _, run⟩
  | cons shard first inductionHypothesis =>
      intro before run
      cases run with
      | cons step rest =>
          rcases inductionHypothesis rest with ⟨between, head, tail⟩
          exact ⟨between, .cons step head, tail⟩

/-- Shards that do not switch the storage. -/
theorem steady (run : LoadedBy convert pleNumSyncShards fresh shards before after)
    (same : forall shard, shard ∈ shards -> ¬ before.SwitchedBy shard) :
    after.dtype = before.dtype ∧ forall row, before.Holds row ->
      WrittenBy convert (rowsApart before.orgVocabSize pleNumSyncShards) shards before after
        row := by
  induction run with
  | nil =>
      exact ⟨rfl, fun row _ => Or.inr ⟨fun _ member => (nomatch member), rfl⟩⟩
  | @cons shard shards before between after step rest later =>
      have unswitched : before.prepared fresh shard = before :=
        if_neg (same shard List.mem_cons_self)
      have dtype : between.dtype = before.dtype :=
        step.dtype.trans (congrArg Table.dtype unswitched)
      rcases later (fun other member switches => same other (List.mem_cons_of_mem _ member)
        ⟨switches.1, dtype ▸ switches.2⟩) with ⟨type, rows⟩
      refine ⟨type.trans dtype, ?_⟩
      rintro row ⟨lower, upper⟩
      have written := rows row ⟨step.tpStart ▸ lower, step.tpEnd ▸ upper⟩
      rw [step.orgVocabSize] at written
      rcases written with ⟨other, value, member, has, at_row⟩ | ⟨none_has, at_row⟩
      · exact Or.inl ⟨other, value, List.mem_cons_of_mem _ member, has, at_row⟩
      · have own := step.rows row ⟨lower, upper⟩
        cases has : shard.rowAt (rowsApart before.orgVocabSize pleNumSyncShards) row with
        | some value =>
            rw [has] at own
            left
            refine ⟨shard, value, List.mem_cons_self, has, ?_⟩
            rw [at_row, type]
            exact own
        | none =>
            rw [has, unswitched] at own
            right
            refine ⟨?_, at_row.trans own⟩
            intro other member
            rcases List.mem_cons.mp member with here | there
            · rw [here]
              exact has
            · exact none_has other there

end LoadedBy

/-! ## The switch -/

/-- The storage of a table in this type is switched by one of the shards. -/
def Switches (dtype : TorchDtype) (shards : List (WeightShard Row)) : Prop :=
  dtype ≠ .float8E4m3fn ∧ exists shard, shard ∈ shards ∧ shard.dtype = .float8E4m3fn

instance (dtype : TorchDtype) (shards : List (WeightShard Row)) :
    Decidable (Switches dtype shards) := by
  unfold Switches
  infer_instance

/-- The shards from the one on that switches the storage. -/
def fromSwitch (shards : List (WeightShard Row)) : List (WeightShard Row) :=
  shards.dropWhile fun shard => decide (shard.dtype ≠ .float8E4m3fn)

/-- A list with an FP8 shard is split before the first of them. -/
theorem fromSwitch_split {shards : List (WeightShard Row)}
    (fp8 : exists shard, shard ∈ shards ∧ shard.dtype = .float8E4m3fn) :
    exists earlier first later, shards = earlier ++ first :: later ∧
      fromSwitch shards = first :: later ∧ first.dtype = .float8E4m3fn ∧
      forall shard, shard ∈ earlier -> shard.dtype ≠ .float8E4m3fn := by
  induction shards with
  | nil =>
      rcases fp8 with ⟨shard, member, _⟩
      cases member
  | cons shard shards inductionHypothesis =>
      by_cases here : shard.dtype = .float8E4m3fn
      · refine ⟨[], shard, shards, rfl, ?_, here, fun _ member => (nomatch member)⟩
        exact List.dropWhile_cons_of_neg (by rw [decide_eq_true_eq]; exact fun other => other here)
      · have later : exists other, other ∈ shards ∧ other.dtype = .float8E4m3fn := by
          rcases fp8 with ⟨other, member, is_fp8⟩
          rcases List.mem_cons.mp member with same | member
          · exact absurd (same ▸ is_fp8) here
          · exact ⟨other, member, is_fp8⟩
        rcases inductionHypothesis later with ⟨earlier, first, rest, split, tail, is_fp8, none_fp8⟩
        refine ⟨shard :: earlier, first, rest, congrArg _ split, ?_, is_fp8, ?_⟩
        · unfold fromSwitch
          rw [List.dropWhile_cons_of_pos (by exact decide_eq_true here)]
          exact tail
        · intro other member
          rcases List.mem_cons.mp member with same | member
          · rw [same]
            exact here
          · exact none_fp8 other member

/-- A shard that switches the storage is loaded to the new one. -/
theorem ShardLoaded.of_switched {shard : WeightShard Row} {before after : Table Row}
    (step : ShardLoaded convert pleNumSyncShards fresh shard before after)
    (switches : before.SwitchedBy shard) :
    ShardLoaded convert pleNumSyncShards fresh shard (before.switched fresh) after := by
  have new : before.prepared fresh shard = before.switched fresh := if_pos switches
  have settled : (before.switched fresh).prepared fresh shard = before.switched fresh :=
    if_neg fun again => again.2 rfl
  have sized : (before.switched fresh).weight.length = before.weight.length := by
    rw [← new, prepared_length]
  refine ⟨step.tpStart, step.tpEnd, step.orgVocabSize, step.length.trans sized.symm, ?_, ?_⟩
  · rw [step.dtype, new, settled]
  · intro row held
    rw [step.rows row held, new, settled]
    rfl

theorem LoadedBy.switched {shards : List (WeightShard Row)} {before after : Table Row}
    (run : LoadedBy convert pleNumSyncShards fresh shards before after)
    (switches : Switches before.dtype shards) :
    after.dtype = .float8E4m3fn ∧ forall row, before.Holds row ->
      WrittenBy convert (rowsApart before.orgVocabSize pleNumSyncShards) (fromSwitch shards)
        (before.switched fresh) after row := by
  rcases switches with ⟨other, fp8⟩
  rcases fromSwitch_split fp8 with ⟨earlier, first, later, split, tail, is_fp8, none_fp8⟩
  rw [split] at run
  rcases run.append_split with ⟨between, head, rest⟩
  have unswitched := head.steady fun shard member switches =>
    none_fp8 shard member switches.1
  have switched : between.SwitchedBy first := ⟨is_fp8, unswitched.1 ▸ other⟩
  have same_storage : between.switched fresh =
      { before.switched fresh with
        tpStart := between.tpStart
        tpEnd := between.tpEnd
        orgVocabSize := between.orgVocabSize } := by
    unfold Table.switched
    rw [head.length]
  have same : between.switched fresh = before.switched fresh := by
    rw [same_storage, head.tpStart, head.tpEnd, head.orgVocabSize]
    rfl
  rw [tail]
  cases rest with
  | cons step others =>
      have steps : LoadedBy convert pleNumSyncShards fresh (first :: later)
          (before.switched fresh) after := by
        rw [← same]
        exact .cons (step.of_switched switched) others
      exact steps.steady fun _ _ again => again.2 rfl

end Loading

end Weights
end QSAHiSparse

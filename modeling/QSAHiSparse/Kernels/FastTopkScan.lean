import QSAHiSparse.Foundation.RadixSelect
import QSAHiSparse.Kernels.FastTopk
import Mathlib.Data.List.Nodup
import Mathlib.Data.List.Induction

namespace QSAHiSparse
namespace Kernels

open Foundation

/-!
# Phases of the radix selection

A loop of all threads visits every index once.  Its trace is a rearrangement of
the updates of one sequential loop, in which the staging of an index comes before
its tally.  What a block holds after a trace depends on the trace only through
the order in which indices are selected, staged and tied.
-/

/-! ## Threads -/

theorem mem_strided {count tx idx : Nat} (thread : tx < kThreadsPerBlock) :
    idx ∈ strided count tx <-> idx < count ∧ idx % kThreadsPerBlock = tx := by
  unfold strided
  rw [List.mem_map]
  unfold kThreadsPerBlock at *
  constructor
  · rintro ⟨turn, inside, rfl⟩
    have := List.mem_range.mp inside
    omega
  · rintro ⟨inside, own⟩
    exact ⟨idx / 1024, List.mem_range.mpr (by omega), by omega⟩

theorem strided_nodup (count tx : Nat) : (strided count tx).Nodup := by
  apply List.Nodup.map _ List.nodup_range
  intro first second same
  have : tx + first * kThreadsPerBlock = tx + second * kThreadsPerBlock := same
  unfold kThreadsPerBlock at this
  omega

/-- The threads share out the indices. -/
theorem strided_perm (count : Nat) :
    ((List.range kThreadsPerBlock).flatMap (strided count)).Perm (List.range count) := by
  have apart : ((List.range kThreadsPerBlock).flatMap (strided count)).Nodup := by
    apply List.nodup_flatMap.mpr
    refine ⟨fun tx _ => strided_nodup count tx, ?_⟩
    apply List.nodup_range.imp_of_mem
    intro first second one other different idx in_first in_second
    have left := (mem_strided (List.mem_range.mp one)).mp in_first
    have right := (mem_strided (List.mem_range.mp other)).mp in_second
    exact different (left.2.symm.trans right.2)
  apply (List.perm_ext_iff_of_nodup apart List.nodup_range).mpr
  intro idx
  rw [List.mem_flatMap, List.mem_range]
  constructor
  · rintro ⟨tx, thread, member⟩
    exact ((mem_strided (List.mem_range.mp thread)).mp member).1
  · intro inside
    have thread : idx % kThreadsPerBlock < kThreadsPerBlock := Nat.mod_lt _ (by decide)
    exact ⟨_, List.mem_range.mpr thread, (mem_strided thread).mpr ⟨inside, rfl⟩⟩

theorem threadPrograms_flatten (count : Nat) (body : Nat -> List Atomic) :
    (threadPrograms count body).flatten.Perm ((List.range count).flatMap body) := by
  unfold threadPrograms
  rw [← List.flatMap_def, ← List.flatMap_assoc]
  exact (strided_perm count).flatMap_right body

/-- The tally of an index needs its staging. -/
def Atomic.needsStage (action needed : Atomic) : Prop :=
  exists idx, action = .tally idx ∧ needed = .stage idx

/-- What a loop does is a trace of the updates of its turns. -/
theorem Phase.run_trace (phase : Phase) {order : Order} (count : Nat)
    (body : Nat -> List Atomic) (block : Block)
    (orders : forall programs, Interleaves programs (order programs)) :
    exists trace : List Atomic, trace.Perm ((List.range count).flatMap body) ∧
      phase.run order count body block = trace.foldl phase.perform block ∧
      ((forall turn, Interleaves.Preceded Atomic.needsStage [] (body turn)) ->
        Interleaves.Preceded Atomic.needsStage [] trace) := by
  refine ⟨order (threadPrograms count body), ?_, rfl, ?_⟩
  · exact (orders _).perm.trans (threadPrograms_flatten count body)
  · intro staged
    apply (orders _).preceded []
    intro program member
    rcases List.mem_map.mp member with ⟨tx, _, rfl⟩
    exact Interleaves.Preceded.flatMap staged

/-! ## Traces -/

/-- The index that an update selects. -/
def Atomic.emitted : Atomic -> Option Nat
  | .emit idx => some idx
  | _ => none

/-- The index that an update stages. -/
def Atomic.staged : Atomic -> Option Nat
  | .stage idx => some idx
  | _ => none

/-- The index that an update tallies. -/
def Atomic.tallied : Atomic -> Option Nat
  | .tally idx => some idx
  | _ => none

/-- The index that an update takes for a tie. -/
def Atomic.tied : Atomic -> Option Nat
  | .tie idx => some idx
  | _ => none

theorem getElem?_append_last {α : Type} {items : List α} {last item : α} {i : Nat}
    (found : (items ++ [last])[i]? = some item) :
    items[i]? = some item ∨ (i = items.length ∧ item = last) := by
  by_cases inside : i < items.length
  · rw [List.getElem?_append_left inside] at found
    exact Or.inl found
  · rw [List.getElem?_append_right (not_lt.mp inside)] at found
    have bound := (List.getElem?_eq_some_iff.mp found).1
    have at_end : i = items.length := by
      rw [List.length_singleton] at bound
      omega
    rw [at_end, Nat.sub_self] at found
    exact Or.inr ⟨at_end, (Option.some.inj found).symm⟩

section Traces

variable {phase : Phase} {block : Block}

theorem foldl_counter (trace : List Atomic) :
    (trace.foldl phase.perform block).counter =
      block.counter + (trace.filterMap Atomic.emitted).length := by
  induction trace using List.reverseRecOn with
  | nil => rfl
  | append_singleton trace action inductionHypothesis =>
      rw [List.foldl_concat, List.filterMap_append, List.length_append, ← Nat.add_assoc,
        ← inductionHypothesis]
      cases action with
      | emit idx => rfl
      | stage idx => rfl
      | tie idx => rfl
      | tally idx =>
          change Block.counter (if _ then _ else _) = _
          split
          · rfl
          · rfl

theorem foldl_lastRemain (trace : List Atomic) :
    (trace.foldl phase.perform block).lastRemain =
      block.lastRemain - (trace.filterMap Atomic.tied).length := by
  induction trace using List.reverseRecOn with
  | nil => exact (Int.sub_zero _).symm
  | append_singleton trace action inductionHypothesis =>
      rw [List.foldl_concat, List.filterMap_append, List.length_append, Int.natCast_add,
        ← Int.sub_sub, ← inductionHypothesis]
      cases action with
      | emit idx => exact (Int.sub_zero _).symm
      | stage idx => exact (Int.sub_zero _).symm
      | tie idx => rfl
      | tally idx =>
          change Block.lastRemain (if _ then _ else _) = _
          split
          · exact (Int.sub_zero _).symm
          · exact (Int.sub_zero _).symm

theorem foldl_prefixBins (trace : List Atomic) :
    (trace.foldl phase.perform block).prefixBins = block.prefixBins := by
  induction trace using List.reverseRecOn with
  | nil => rfl
  | append_singleton trace action inductionHypothesis =>
      rw [List.foldl_concat, ← inductionHypothesis]
      cases action with
      | emit idx => rfl
      | stage idx => rfl
      | tie idx => rfl
      | tally idx =>
          change Block.prefixBins (if _ then _ else _) = _
          split
          · rfl
          · rfl

/-- The output row, after indices were selected and ties taken. -/
structure Written (phase : Phase) (block : Block) (emits ties : List Nat) (after : Block) :
    Prop where
  emits : forall (i : Nat) idx, emits[i]? = some idx -> after.index (block.counter + i) = idx
  ties : forall (i : Nat) idx, ties[i]? = some idx -> (i : Int) < block.lastRemain ->
    after.index (phase.kTopK - block.lastRemain + i).toNat = idx
  kept : forall pos, pos < block.counter ∨ phase.kTopK ≤ pos -> after.index pos = block.index pos

/-- Selected indices fill the row from its front, ties its end. -/
theorem foldl_index (trace : List Atomic)
    (room : block.counter + (trace.filterMap Atomic.emitted).length ≤ phase.kTopK)
    (ends : trace.filterMap Atomic.tied ≠ [] ->
      (block.counter + (trace.filterMap Atomic.emitted).length : Int) ≤
        phase.kTopK - block.lastRemain) :
    Written phase block (trace.filterMap Atomic.emitted) (trace.filterMap Atomic.tied)
      (trace.foldl phase.perform block) := by
  induction trace using List.reverseRecOn with
  | nil => exact ⟨fun _ _ found => (nomatch found), fun _ _ found => (nomatch found), fun _ _ => rfl⟩
  | append_singleton trace action inductionHypothesis =>
      rw [List.filterMap_append, List.length_append] at room
      rw [List.filterMap_append, List.filterMap_append, List.length_append] at ends
      have earlier := inductionHypothesis (by omega) (by
        intro some_tie
        have := ends (by
          rw [ne_eq, List.append_eq_nil_iff]
          exact fun both => some_tie both.1)
        push_cast at this
        omega)
      rw [List.foldl_concat, List.filterMap_append, List.filterMap_append]
      have counter : (trace.foldl phase.perform block).counter = _ := foldl_counter trace
      have remain : (trace.foldl phase.perform block).lastRemain = _ := foldl_lastRemain trace
      revert earlier counter remain
      generalize trace.foldl phase.perform block = before
      generalize trace.filterMap Atomic.emitted = emits at *
      generalize trace.filterMap Atomic.tied = ties at *
      intro earlier counter remain
      cases action with
      | stage idx =>
          change Written _ _ (emits ++ []) (ties ++ []) _
          rw [List.append_nil, List.append_nil]
          exact ⟨earlier.emits, earlier.ties, earlier.kept⟩
      | tally idx =>
          change Written _ _ (emits ++ []) (ties ++ []) (if _ then _ else _)
          rw [List.append_nil, List.append_nil]
          split
          · exact earlier
          · exact ⟨earlier.emits, earlier.ties, earlier.kept⟩
      | emit idx =>
          change Written _ _ (emits ++ [idx]) (ties ++ []) _
          rw [List.append_nil]
          change block.counter + (emits.length + 1) ≤ _ at room
          change ties ++ [] ≠ [] -> (block.counter + ((emits.length + 1 : Nat) : Int) ≤ _) at ends
          rw [List.append_nil] at ends
          refine ⟨?_, ?_, ?_⟩
          · intro i other found
            change Function.update before.index before.counter idx _ = _
            rcases getElem?_append_last found with old | ⟨last, same⟩
            · have inside := (List.getElem?_eq_some_iff.mp old).1
              rw [Function.update_of_ne (by omega)]
              exact earlier.emits i other old
            · rw [last, ← counter, Function.update_self, same]
          · intro i other found remains
            change Function.update before.index before.counter idx _ = _
            have := ends (List.ne_nil_of_mem (List.mem_of_getElem? found))
            rw [Function.update_of_ne (by omega)]
            exact earlier.ties i other found remains
          · intro pos outside
            change Function.update before.index before.counter idx _ = _
            rw [Function.update_of_ne (by omega)]
            exact earlier.kept pos outside
      | tie idx =>
          change Written _ _ (emits ++ []) (ties ++ [idx]) _
          rw [List.append_nil]
          change ties ++ [idx] ≠ [] -> (block.counter + ((emits.length + 0 : Nat) : Int) ≤ _) at ends
          have front := ends (by simp)
          change Written _ _ _ _ { before with
            lastRemain := before.lastRemain - 1
            index :=
              if 0 < before.lastRemain then
                Function.update before.index (phase.kTopK - before.lastRemain).toNat idx
              else before.index }
          by_cases remains : 0 < before.lastRemain
          · rw [if_pos remains]
            refine ⟨?_, ?_, ?_⟩
            · intro i other found
              have inside := (List.getElem?_eq_some_iff.mp found).1
              dsimp only
              rw [Function.update_of_ne (by omega)]
              exact earlier.emits i other found
            · intro i other found fits
              dsimp only
              rcases getElem?_append_last found with old | ⟨last, same⟩
              · have inside := (List.getElem?_eq_some_iff.mp old).1
                rw [Function.update_of_ne (by omega)]
                exact earlier.ties i other old fits
              · have slot : (phase.kTopK - block.lastRemain + i).toNat =
                    (phase.kTopK - before.lastRemain).toNat := by omega
                rw [slot, Function.update_self, same]
            · intro pos outside
              dsimp only
              rw [Function.update_of_ne (by omega)]
              exact earlier.kept pos outside
          · rw [if_neg remains]
            refine ⟨earlier.emits, ?_, earlier.kept⟩
            intro i other found fits
            rcases getElem?_append_last found with old | ⟨last, same⟩
            · exact earlier.ties i other old fits
            · omega

/-- A phase that selects nothing and takes no tie writes no output. -/
theorem foldl_index_same (trace : List Atomic)
    (tallies : forall action, action ∈ trace -> exists idx, action = .tally idx) :
    (trace.foldl phase.perform block).index = block.index := by
  induction trace using List.reverseRecOn with
  | nil => rfl
  | append_singleton trace action inductionHypothesis =>
      rcases tallies action (List.mem_append_right _ List.mem_cons_self) with ⟨idx, rfl⟩
      rw [List.foldl_concat, ← inductionHypothesis fun other member =>
        tallies other (List.mem_append_left _ member)]
      change Block.index (if _ then _ else _) = _
      split
      · rfl
      · rfl

/-- The filled side of the staging buffer. -/
structure Staged (phase : Phase) (stages : List Nat) (after : Block) : Prop where
  numInput : after.numInput phase.side = stages.length
  inputIdx : forall (i : Nat) idx, stages[i]? = some idx -> i < smemInputSize ->
    after.inputIdx phase.side i = idx
  position : forall idx, idx ∈ stages -> after.position idx < stages.length

/-- Staged indices fill an empty side in their order, as far as it reaches. -/
theorem foldl_staged (trace : List Atomic) (empty : block.numInput phase.side = 0) :
    Staged phase (trace.filterMap Atomic.staged) (trace.foldl phase.perform block) := by
  induction trace using List.reverseRecOn with
  | nil => exact ⟨empty, fun _ _ found => (nomatch found), fun _ member => (nomatch member)⟩
  | append_singleton trace action inductionHypothesis =>
      rw [List.foldl_concat, List.filterMap_append]
      revert inductionHypothesis
      generalize trace.foldl phase.perform block = before
      generalize trace.filterMap Atomic.staged = stages
      intro earlier
      cases action with
      | emit idx =>
          change Staged _ (stages ++ []) _
          rw [List.append_nil]
          exact ⟨earlier.numInput, earlier.inputIdx, earlier.position⟩
      | tie idx =>
          change Staged _ (stages ++ []) _
          rw [List.append_nil]
          exact ⟨earlier.numInput, earlier.inputIdx, earlier.position⟩
      | tally idx =>
          change Staged _ (stages ++ []) (if _ then _ else _)
          rw [List.append_nil]
          split
          · exact earlier
          · exact ⟨earlier.numInput, earlier.inputIdx, earlier.position⟩
      | stage idx =>
          change Staged _ (stages ++ [idx]) { before with
            numInput := Function.update before.numInput phase.side (before.numInput phase.side + 1)
            position := Function.update before.position idx (before.numInput phase.side)
            inputIdx :=
              if before.numInput phase.side < smemInputSize then
                Function.update before.inputIdx phase.side
                  (Function.update (before.inputIdx phase.side) (before.numInput phase.side) idx)
              else before.inputIdx }
          rw [earlier.numInput]
          refine ⟨?_, ?_, ?_⟩
          · dsimp only
            rw [Function.update_self, List.length_append, List.length_singleton]
          · intro i other found fits
            dsimp only
            rcases getElem?_append_last found with old | ⟨last, same⟩
            · have inside := (List.getElem?_eq_some_iff.mp old).1
              split
              · rw [Function.update_self, Function.update_of_ne (by omega)]
                exact earlier.inputIdx i other old fits
              · exact earlier.inputIdx i other old fits
            · rw [last] at fits
              rw [if_pos fits, Function.update_self, last, Function.update_self, same]
          · intro other member
            dsimp only
            rw [List.length_append, List.length_singleton]
            by_cases same : other = idx
            · rw [same, Function.update_self]
              exact Nat.lt_succ_self _
            · rw [Function.update_of_ne same]
              rcases List.mem_append.mp member with old | new
              · exact Nat.lt_succ_of_lt (earlier.position other old)
              · exact absurd (List.mem_singleton.mp new) same

theorem foldl_position {trace : List Atomic} {idx : Nat} (empty : block.numInput phase.side = 0)
    (staged : .stage idx ∈ trace)
    (fits : (trace.filterMap Atomic.staged).length ≤ smemInputSize) :
    (trace.foldl phase.perform block).position idx < smemInputSize := by
  have member : idx ∈ trace.filterMap Atomic.staged :=
    List.mem_filterMap.mpr ⟨.stage idx, staged, rfl⟩
  exact ((foldl_staged trace empty).position idx member).trans_le fits

theorem perform_tally {idx : Nat}
    (counted : ¬ (phase.stagedOnly = true ∧ ¬ block.position idx < smemInputSize)) :
    (phase.perform block (.tally idx)).histogram =
      Function.update block.histogram (phase.bin idx) (block.histogram (phase.bin idx) + 1) := by
  change Block.histogram (if _ then _ else _) = _
  rw [if_neg counted]
  exact Function.update_self 0 _ block.histogramBuf

/-- Every tallied index is counted in its bin, when what is staged fits. -/
theorem foldl_histogram (trace : List Atomic) (bin : Nat)
    (fits : phase.stagedOnly = true -> block.numInput phase.side = 0 ∧
      (trace.filterMap Atomic.staged).length ≤ smemInputSize ∧
      Interleaves.Preceded Atomic.needsStage [] trace) :
    (trace.foldl phase.perform block).histogram bin =
      block.histogram bin +
        (trace.filterMap Atomic.tallied).countP (fun idx => decide (phase.bin idx = bin)) := by
  induction trace using List.reverseRecOn with
  | nil => rfl
  | append_singleton trace action inductionHypothesis =>
      have earlier := inductionHypothesis fun only => by
        rcases fits only with ⟨empty, room, preceded⟩
        rw [List.filterMap_append, List.length_append] at room
        exact ⟨empty, by omega, preceded.left⟩
      rw [List.foldl_concat, List.filterMap_append, List.countP_append, ← Nat.add_assoc, ← earlier]
      cases action with
      | emit idx => rfl
      | stage idx => rfl
      | tie idx => rfl
      | tally idx =>
          have counted : ¬ (phase.stagedOnly = true ∧
              ¬ (trace.foldl phase.perform block).position idx < smemInputSize) := by
            rintro ⟨only, outside⟩
            rcases fits only with ⟨empty, room, preceded⟩
            rw [List.filterMap_append, List.length_append] at room
            have staged := preceded trace (.tally idx) [] rfl (.stage idx) ⟨idx, rfl, rfl⟩
            exact outside (foldl_position empty staged (by omega))
          rw [perform_tally counted]
          change _ = _ + List.countP _ [idx]
          rw [List.countP_singleton]
          by_cases own : phase.bin idx = bin
          · rw [own, Function.update_self, if_pos (decide_eq_true rfl)]
          · rw [Function.update_of_ne (Ne.symm own),
              if_neg fun same => own (of_decide_eq_true same)]
            rfl

end Traces

end Kernels
end QSAHiSparse

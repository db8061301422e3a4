import QSAHiSparse.Kernels.FastTopkThreshold

namespace QSAHiSparse
namespace Kernels

open Foundation

/-!
# Rounds of the radix selection

Before a round, the output row begins with everything above the rank that the
digits so far have singled out, and the histogram counts the next digit of the
items at that rank.  A round adds the items above its threshold and leaves those
at it, counted by the digit after.
-/

/-! ## Loops -/

/-- A loop that may skip a turn makes the updates of the indices it does not skip. -/
theorem flatMap_indexOf (turns : List Nat) (indexOf : Nat -> Option Nat)
    (body : Nat -> List Atomic) :
    (turns.flatMap fun turn => ((indexOf turn).map body).getD []) =
      (turns.filterMap indexOf).flatMap body := by
  induction turns with
  | nil => rfl
  | cons turn turns inductionHypothesis =>
      rw [List.flatMap_cons, inductionHypothesis, List.filterMap_cons]
      cases indexOf turn with
      | none => rfl
      | some idx => rfl

section Scan

variable {bin : Nat -> Nat} {threshold : Nat} {onEqual : Nat -> List Atomic}

/-- A scan selects the indices above the threshold. -/
theorem scanBody_emitted (quiet : forall idx, (onEqual idx).filterMap Atomic.emitted = [])
    (cands : List Nat) :
    (cands.flatMap (scanBody bin threshold onEqual)).filterMap Atomic.emitted =
      cands.filter fun idx => decide (threshold < bin idx) := by
  induction cands with
  | nil => rfl
  | cons idx cands inductionHypothesis =>
      rw [List.flatMap_cons, List.filterMap_append, inductionHypothesis, List.filter_cons]
      unfold scanBody
      by_cases above : bin idx > threshold
      · rw [if_pos above, if_pos (decide_eq_true above)]
        rfl
      · rw [if_neg above, if_neg fun passed => above (of_decide_eq_true passed)]
        split
        · rw [quiet, List.nil_append]
        · rfl

/-- What a scan does with the indices at the threshold. -/
theorem scanBody_equal {pick : Atomic -> Option Nat}
    (silent : forall idx, pick (.emit idx) = none)
    (own : forall idx, (onEqual idx).filterMap pick = [idx]) (cands : List Nat) :
    (cands.flatMap (scanBody bin threshold onEqual)).filterMap pick =
      cands.filter fun idx => decide (bin idx = threshold) := by
  induction cands with
  | nil => rfl
  | cons idx cands inductionHypothesis =>
      rw [List.flatMap_cons, List.filterMap_append, inductionHypothesis, List.filter_cons]
      unfold scanBody
      by_cases above : bin idx > threshold
      · rw [if_pos above, if_neg fun passed => by have := of_decide_eq_true passed; omega,
          List.filterMap_cons, silent]
        rfl
      · rw [if_neg above]
        by_cases same : bin idx = threshold
        · rw [if_pos same, if_pos (decide_eq_true same), own]
          rfl
        · rw [if_neg same, if_neg fun passed => same (of_decide_eq_true passed)]
          rfl

theorem scanBody_silent {pick : Atomic -> Option Nat}
    (silent : forall idx, pick (.emit idx) = none)
    (quiet : forall idx, (onEqual idx).filterMap pick = []) (cands : List Nat) :
    (cands.flatMap (scanBody bin threshold onEqual)).filterMap pick = [] := by
  apply List.filterMap_eq_nil_iff.mpr
  intro action member
  rcases List.mem_flatMap.mp member with ⟨idx, _, taken⟩
  unfold scanBody at taken
  split at taken
  · rw [List.mem_singleton.mp taken]
    exact silent idx
  · split at taken
    · exact List.filterMap_eq_nil_iff.mp (quiet idx) action taken
    · exact absurd taken List.not_mem_nil

/-- In a scan, too, the tally of an index comes after its staging. -/
theorem scanBody_preceded {idx : Nat}
    (staged : Interleaves.Preceded Atomic.needsStage [] (onEqual idx)) :
    Interleaves.Preceded Atomic.needsStage [] (scanBody bin threshold onEqual idx) := by
  unfold scanBody
  split
  · intro before action after split needed needs
    rcases needs with ⟨other, tally, _⟩
    rw [tally] at split
    have member : Atomic.tally other ∈ [Atomic.emit idx] := by
      rw [split]
      exact List.mem_append_right _ List.mem_cons_self
    exact absurd (List.mem_singleton.mp member) (fun same => nomatch same)
  · split
    · exact staged
    · exact Interleaves.Preceded.nil

end Scan

theorem stage_tally_preceded (idx : Nat) :
    Interleaves.Preceded Atomic.needsStage [] [.stage idx, .tally idx] := by
  intro before action after split needed needs
  rcases needs with ⟨other, tally, stage⟩
  rw [tally] at split
  rcases before with _ | ⟨first, _ | ⟨second, before⟩⟩
  · exact absurd (List.cons.inj split).1 (fun same => nomatch same)
  · rcases List.cons.inj split with ⟨head, rest⟩
    have same : idx = other := Atomic.tally.inj (List.cons.inj rest).1
    rw [stage, ← same, head]
    exact List.mem_cons_self
  · have lengths := congrArg List.length split
    simp only [List.length_append, List.length_cons, List.length_nil] at lengths
    omega

/-! ## What is selected -/

/-- The output row begins with everything above a rank; nothing is written past
its end. -/
structure Gathered (items : List Nat) (rank : Nat -> Nat) (bound kTopK : Nat)
    (start block : Block) : Prop where
  counter : block.counter = (aboveLevel items rank bound).length
  front : exists out : List Nat, out.Perm (aboveLevel items rank bound) ∧
    forall (i : Nat) idx, out[i]? = some idx -> block.index i = idx
  kept : forall pos, kTopK ≤ pos -> block.index pos = start.index pos

/-- The trace of a scan over the items at a rank. -/
structure Scans (items : List Nat) (rank digit : Nat -> Nat) (bound threshold : Nat)
    (onEqual : Nat -> List Atomic) (trace : List Atomic) : Prop where
  digits : forall item, item ∈ items -> digit item < radix
  inside : threshold < radix
  quiet : forall idx, (onEqual idx).filterMap Atomic.emitted = []
  complete : exists cands : List Nat, cands.Perm (level items rank bound) ∧
    trace.Perm (cands.flatMap (scanBody digit threshold onEqual))

namespace Scans

variable {items : List Nat} {rank digit : Nat -> Nat} {bound threshold : Nat}
  {onEqual : Nat -> List Atomic} {trace : List Atomic}

/-- What a scan selects joins what was selected before. -/
theorem emitted (scans : Scans items rank digit bound threshold onEqual trace) :
    (aboveLevel items rank bound ++ trace.filterMap Atomic.emitted).Perm
      (aboveLevel items (extend radix rank digit) (bound * radix + threshold)) := by
  rcases scans.complete with ⟨cands, candidates, complete⟩
  have emits := complete.filterMap Atomic.emitted
  rw [scanBody_emitted scans.quiet] at emits
  have joined := emits.trans (candidates.filter _)
  exact (joined.append_left _).trans (aboveLevel_extend scans.digits scans.inside).symm

/-- What a scan does with the items at the threshold, it does with those at the
rank of one digit more. -/
theorem equal (pick : Atomic -> Option Nat)
    (scans : Scans items rank digit bound threshold onEqual trace)
    (silent : forall idx, pick (.emit idx) = none)
    (own : forall idx, (onEqual idx).filterMap pick = [idx]) :
    (trace.filterMap pick).Perm
      (level items (extend radix rank digit) (bound * radix + threshold)) := by
  rcases scans.complete with ⟨cands, candidates, complete⟩
  have picked := complete.filterMap pick
  rw [scanBody_equal silent own] at picked
  rw [level_extend scans.digits scans.inside]
  exact picked.trans (candidates.filter _)

theorem none (pick : Atomic -> Option Nat)
    (scans : Scans items rank digit bound threshold onEqual trace)
    (silent : forall idx, pick (.emit idx) = none)
    (quiet : forall idx, (onEqual idx).filterMap pick = []) : trace.filterMap pick = [] := by
  rcases scans.complete with ⟨cands, _, complete⟩
  have picked := complete.filterMap pick
  rw [scanBody_silent silent quiet] at picked
  exact picked.eq_nil

variable {start block : Block} (phase : Phase)

/-- A scan fills the output row on from what was selected before. -/
theorem written (scans : Scans items rank digit bound threshold onEqual trace)
    (gathered : Gathered items rank bound phase.kTopK start block)
    (room : (aboveLevel items (extend radix rank digit) (bound * radix + threshold)).length ≤
      phase.kTopK)
    (ends : trace.filterMap Atomic.tied ≠ [] ->
      ((aboveLevel items (extend radix rank digit) (bound * radix + threshold)).length : Int) ≤
        phase.kTopK - block.lastRemain) :
    Written phase block (trace.filterMap Atomic.emitted) (trace.filterMap Atomic.tied)
      (trace.foldl phase.perform block) := by
  have lengths := scans.emitted.length_eq
  rw [List.length_append, ← gathered.counter] at lengths
  apply foldl_index
  · rw [lengths]
    exact room
  · intro ties
    have := ends ties
    omega

theorem gathered (scans : Scans items rank digit bound threshold onEqual trace)
    (before : Gathered items rank bound phase.kTopK start block)
    (room : (aboveLevel items (extend radix rank digit) (bound * radix + threshold)).length ≤
      phase.kTopK)
    (ends : trace.filterMap Atomic.tied ≠ [] ->
      ((aboveLevel items (extend radix rank digit) (bound * radix + threshold)).length : Int) ≤
        phase.kTopK - block.lastRemain) :
    Gathered items (extend radix rank digit) (bound * radix + threshold) phase.kTopK start
      (trace.foldl phase.perform block) := by
  have written := scans.written phase before room ends
  rcases before.front with ⟨out, selected, listed⟩
  refine ⟨?_, ⟨out ++ trace.filterMap Atomic.emitted, ?_, ?_⟩, ?_⟩
  · rw [foldl_counter, before.counter, ← List.length_append]
    exact scans.emitted.length_eq
  · exact (selected.append_right _).trans scans.emitted
  · intro i idx found
    have length : out.length = block.counter := by rw [before.counter, selected.length_eq]
    by_cases early : i < out.length
    · rw [List.getElem?_append_left early] at found
      rw [written.kept i (Or.inl (by omega))]
      exact listed i idx found
    · rw [List.getElem?_append_right (not_lt.mp early)] at found
      have slot := written.emits _ idx found
      rwa [length, Nat.add_sub_cancel' (by omega)] at slot
  · intro pos past
    rw [written.kept pos (Or.inr past)]
    exact before.kept pos past

end Scans

/-- A loop over the items at a rank is a scan of them. -/
theorem Phase.run_scans (phase : Phase) {order : Order} {count : Nat}
    {indexOf : Nat -> Option Nat} {items : List Nat} {rank digit : Nat -> Nat}
    {bound threshold : Nat} (onEqual : Nat -> List Atomic) (block : Block)
    (orders : forall programs, Interleaves programs (order programs))
    (digits : forall item, item ∈ items -> digit item < radix) (inside : threshold < radix)
    (quiet : forall idx, (onEqual idx).filterMap Atomic.emitted = [])
    (candidates : ((List.range count).filterMap indexOf).Perm (level items rank bound)) :
    exists trace, Scans items rank digit bound threshold onEqual trace ∧
      phase.run order count
        (fun turn => ((indexOf turn).map (scanBody digit threshold onEqual)).getD []) block =
          trace.foldl phase.perform block ∧
      ((forall idx, Interleaves.Preceded Atomic.needsStage [] (onEqual idx)) ->
        Interleaves.Preceded Atomic.needsStage [] trace) := by
  rcases phase.run_trace count
    (fun turn => ((indexOf turn).map (scanBody digit threshold onEqual)).getD [])
    block orders with ⟨trace, complete, runs, preceded⟩
  rw [flatMap_indexOf] at complete
  refine ⟨trace, ⟨digits, inside, quiet, _, candidates, complete⟩, runs, fun staged => ?_⟩
  apply preceded
  intro turn
  cases indexOf turn with
  | none => exact Interleaves.Preceded.nil
  | some idx => exact scanBody_preceded (staged idx)

end Kernels
end QSAHiSparse

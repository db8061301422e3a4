import Mathlib.Algebra.BigOperators.Intervals
import Mathlib.Algebra.Order.BigOperators.Group.Finset
import QSAHiSparse.Foundation.GridRun

namespace QSAHiSparse
namespace Foundation

/-!
# What a grid leaves

In every run the stores issued so far and those left are the stores of the stages, so
a complete run leaves what the stages leave one after the other.  Until then some
thread can go on, and every step uses up work.
-/

variable {ρ α : Type}

namespace Grid

variable {grid : Grid ρ α} {state : GridState ρ α}

/-! ## The buffers -/

section Buffers

variable {buffers : Nat -> Memory α} {after : GridState ρ α} {thread : Nat}

/-- The stores that a thread has left in a stage. -/
def left (grid : Grid ρ α) (buffers : Nat -> Memory α) (state : GridState ρ α)
    (stage thread : Nat) : List (Store α) :=
  let place := state.threads thread
  if place.stage < stage then
    storesOf (grid.staged buffers stage) (grid.code stage thread) grid.register
  else if place.stage = stage then
    storesOf (grid.staged buffers stage) place.pending place.register
  else []

/-- The stores issued so far, with those left, are the stores of the stages. -/
structure Issued (grid : Grid ρ α) (buffers : Nat -> Memory α) (state : GridState ρ α) : Prop where
  inputs : state.buffers 0 = buffers 0
  outputs : forall stage, stage ≤ grid.lastStage -> exists issued,
    state.buffers (stage + 1) = storeAll (buffers (stage + 1)) issued ∧
    (issued ++ (List.range grid.threads).flatMap (grid.left buffers state stage)).Perm
      (grid.stores (grid.staged buffers stage) stage)

/-- A thread past a stage has no stores left in it. -/
theorem Met.left_past (met : grid.Met state) (inside : thread < grid.threads) {stage : Nat}
    (past : (state.threads thread).past stage = true) :
    grid.left buffers state stage thread = [] := by
  unfold left
  dsimp only
  rcases Thread.past_iff.mp past with ahead | ⟨here, arrived⟩
  · rw [if_neg (by omega), if_neg (by omega)]
  · rw [if_neg (by omega), if_pos here, (met.placed thread inside).idle arrived, storesOf_nil]

/-- Once every thread is past a stage, its buffer is what the stage leaves. -/
theorem Issued.settled (issued : grid.Issued buffers state) (met : grid.Met state) {stage : Nat}
    (within : stage ≤ grid.lastStage)
    (agree : Agree (grid.stores (grid.staged buffers stage) stage))
    (all : forall thread, thread < grid.threads -> (state.threads thread).past stage = true) :
    state.buffers (stage + 1) = grid.staged buffers (stage + 1) := by
  rcases issued.outputs stage within with ⟨stores, left, whole⟩
  have none : (List.range grid.threads).flatMap (grid.left buffers state stage) = [] := by
    refine List.flatMap_eq_nil_iff.mpr fun thread member => ?_
    exact met.left_past (List.mem_range.mp member) (all thread (List.mem_range.mp member))
  rw [none, List.append_nil] at whole
  rw [left]
  exact ((agree.explains (buffers (stage + 1))).congr fun store => whole.mem_iff).storeAll_eq

/-- What a thread reads in its stage is what the stage before leaves. -/
theorem Issued.reads (issued : grid.Issued buffers state) (met : grid.Met state)
    (agree : forall stage, stage ≤ grid.lastStage ->
      Agree (grid.stores (grid.staged buffers stage) stage))
    (inside : thread < grid.threads) :
    state.buffers (state.threads thread).stage =
      grid.staged buffers (state.threads thread).stage := by
  have within := (met.placed thread inside).inStage
  cases place : (state.threads thread).stage with
  | zero => exact issued.inputs
  | succ stage =>
      rw [place] at within
      apply issued.settled met (Nat.le_of_succ_le within) (agree stage (Nat.le_of_succ_le within))
      intro other other_inside
      exact met.together thread inside other other_inside stage (place ▸ Nat.lt_succ_self stage)

/-- A thread goes on without a store. -/
theorem Issued.quiet (issued : grid.Issued buffers state)
    (buffers_same : after.buffers = state.buffers)
    (same : forall stage other, other < grid.threads ->
      grid.left buffers after stage other = grid.left buffers state stage other) :
    grid.Issued buffers after := by
  constructor
  · rw [buffers_same]
    exact issued.inputs
  · intro stage within
    rcases issued.outputs stage within with ⟨stores, left, whole⟩
    refine ⟨stores, buffers_same ▸ left, ?_⟩
    rw [List.flatMap_congr fun other member => same stage other (List.mem_range.mp member)]
    exact whole

/-- Other threads have the stores left that they had. -/
theorem left_other {next : Thread ρ α}
    (moved : after.threads = Function.update state.threads thread next) {other : Nat}
    (different : other ≠ thread) (stage : Nat) :
    grid.left buffers after stage other = grid.left buffers state stage other := by
  unfold left
  rw [moved, Function.update_of_ne different]

/-- A thread that stays in its stage keeps the stores of the other stages. -/
theorem left_elsewhere {next : Thread ρ α}
    (moved : after.threads = Function.update state.threads thread next)
    (same : next.stage = (state.threads thread).stage) {stage : Nat}
    (different : stage ≠ (state.threads thread).stage) (other : Nat) :
    grid.left buffers after stage other = grid.left buffers state stage other := by
  by_cases here : other = thread
  · unfold left
    rw [moved, here, Function.update_self]
    dsimp only
    rw [same, if_neg different.symm, if_neg different.symm]
  · exact left_other moved here stage

/-- The members of a range, one of which puts an element before what it gave. -/
theorem flatMap_range_cons {β : Type} {count place : Nat} (inside : place < count) {item : β}
    {before now : Nat -> List β} (here : before place = item :: now place)
    (others : forall other, other ≠ place -> before other = now other) :
    ((List.range count).flatMap before).Perm (item :: (List.range count).flatMap now) := by
  rcases List.append_of_mem (List.mem_range.mpr inside) with ⟨first, rest, split⟩
  have distinct : (first ++ place :: rest).Nodup := split ▸ List.nodup_range
  have apart := List.nodup_middle.mp distinct
  have fresh := (List.nodup_cons.mp apart).1
  have first_same : first.flatMap before = first.flatMap now :=
    List.flatMap_congr fun other member =>
      others other fun same => fresh (same ▸ List.mem_append_left _ member)
  have rest_same : rest.flatMap before = rest.flatMap now :=
    List.flatMap_congr fun other member =>
      others other fun same => fresh (same ▸ List.mem_append_right _ member)
  rw [split, List.flatMap_append, List.flatMap_append, List.flatMap_cons, List.flatMap_cons,
    first_same, rest_same, here, List.cons_append]
  exact List.perm_middle

theorem Issued.store (issued : grid.Issued buffers state) (inside : thread < grid.threads)
    {stage : Nat} {write : ρ -> Store α}
    {rest : List (Instruction ρ α)} {register : ρ}
    (here : state.threads thread = ⟨stage, .working, .store write :: rest, register⟩) :
    grid.Issued buffers { state.setThread thread ⟨stage, .working, rest, register⟩ with
      buffers := Function.update state.buffers (stage + 1)
        (storeAll (state.buffers (stage + 1)) [write register]) } := by
  let after : GridState ρ α := { state.setThread thread ⟨stage, .working, rest, register⟩ with
    buffers := Function.update state.buffers (stage + 1)
      (storeAll (state.buffers (stage + 1)) [write register]) }
  change grid.Issued buffers after
  have moved : after.threads = Function.update state.threads thread ⟨stage, .working, rest, register⟩ :=
    rfl
  have place : (state.threads thread).stage = stage := by rw [here]
  constructor
  · rw [← issued.inputs]
    exact Function.update_of_ne (Nat.succ_ne_zero stage).symm
      (storeAll (state.buffers (stage + 1)) [write register]) state.buffers
  · intro other within
    rcases issued.outputs other within with ⟨stores, left, whole⟩
    by_cases same : other = stage
    · cases same
      refine ⟨stores ++ [write register], ?_, ?_⟩
      · rw [storeAll_append, ← left]
        exact Function.update_self _ _ _
      · refine List.Perm.trans ?_ whole
        have mine : grid.left buffers state stage thread =
            write register :: grid.left buffers after stage thread := by
          unfold Grid.left
          rw [moved, Function.update_self, here]
          dsimp only
          rw [if_neg (Nat.lt_irrefl _), if_pos rfl, if_neg (Nat.lt_irrefl _), if_pos rfl,
            storesOf_store]
        have moved := flatMap_range_cons inside mine
          fun thread different => (left_other moved different stage).symm
        rw [List.append_assoc]
        exact (moved.append_left stores).symm
    · refine ⟨stores, ?_, ?_⟩
      · rw [← left]
        exact Function.update_of_ne (fun bad => same (Nat.succ_inj.mp bad)) _ _
      · rw [List.flatMap_congr fun thread _ =>
          left_elsewhere moved place.symm (place.symm ▸ same) thread]
        exact whole

/-- A thread that stays in its stage, with the same stores ahead of it. -/
theorem left_stays {next : Thread ρ α}
    (moved : after.threads = Function.update state.threads thread next)
    (same : next.stage = (state.threads thread).stage)
    (ahead : storesOf (grid.staged buffers next.stage) next.pending next.register =
      storesOf (grid.staged buffers next.stage) (state.threads thread).pending
        (state.threads thread).register) (stage other : Nat) :
    grid.left buffers after stage other = grid.left buffers state stage other := by
  by_cases elsewhere : stage = (state.threads thread).stage
  · by_cases here : other = thread
    · unfold left
      rw [moved, here, Function.update_self, elsewhere, ← same]
      dsimp only
      rw [if_neg (Nat.lt_irrefl _), if_pos rfl, if_neg same.not_gt, if_pos same.symm, ahead]
    · exact left_other moved here stage
  · exact left_elsewhere moved same elsewhere other

/-- A thread that enters a stage has all stores of the stage left, as before. -/
theorem left_enters {stage : Nat} {register : ρ}
    (here : state.threads thread = ⟨stage, .waiting, [], register⟩) (other index : Nat) :
    grid.left buffers (state.setThread thread
        ⟨stage + 1, .working, grid.code (stage + 1) thread, grid.register⟩) other index =
      grid.left buffers state other index := by
  have moved : (state.setThread thread
      ⟨stage + 1, .working, grid.code (stage + 1) thread, grid.register⟩).threads =
    Function.update state.threads thread
      ⟨stage + 1, .working, grid.code (stage + 1) thread, grid.register⟩ := rfl
  by_cases mine : index = thread
  · unfold left
    rw [moved, mine, Function.update_self, here]
    dsimp only
    rcases Nat.lt_trichotomy other stage with before | same | later
    · rw [if_neg (by omega), if_neg (by omega), if_neg (by omega), if_neg (by omega)]
    · rw [same, if_neg (by omega), if_neg (by omega), if_neg (by omega), if_pos rfl, storesOf_nil]
    · rw [if_pos later]
      by_cases next : other = stage + 1
      · rw [next, if_neg (Nat.lt_irrefl _), if_pos rfl]
      · rw [if_pos (by omega)]
  · exact left_other moved mine other

/-- No step breaks the account of the stores. -/
theorem Issued.step (issued : grid.Issued buffers state) (met : grid.Met state)
    (agree : forall stage, stage ≤ grid.lastStage ->
      Agree (grid.stores (grid.staged buffers stage) stage))
    (step : grid.Step state thread after) : grid.Issued buffers after := by
  cases step with
  | load inside here =>
      have reads := issued.reads met agree inside
      rw [here] at reads
      refine issued.quiet rfl fun other index _ => left_stays rfl (by rw [here]) ?_ other index
      rw [here, reads]
      rfl
  | store inside here => exact issued.store inside here
  | arrive inside below here =>
      exact issued.quiet rfl fun other index _ =>
        left_stays rfl (by rw [here]) (by rw [here]) other index
  | leave inside passes here =>
      exact issued.quiet rfl fun other index _ => left_enters here other index
  | ticket inside here =>
      exact issued.quiet rfl fun other index _ =>
        left_stays rfl (by rw [here]) (by rw [here]) other index
  | clear inside here =>
      exact issued.quiet rfl fun other index _ =>
        left_stays rfl (by rw [here]) (by rw [here]) other index

theorem issued_start (grid : Grid ρ α) (buffers : Nat -> Memory α) (counters : Nat -> Int) :
    grid.Issued buffers (grid.start buffers counters) := by
  constructor
  · rfl
  · intro stage within
    refine ⟨[], rfl, ?_⟩
    have all (thread : Nat) : grid.left buffers (grid.start buffers counters) stage thread =
        storesOf (grid.staged buffers stage) (grid.code stage thread) grid.register := by
      cases stage with
      | zero => rfl
      | succ stage => rfl
    rw [List.flatMap_congr fun thread _ => all thread]
    exact List.Perm.refl _

end Buffers

/-! ## Runs -/

section Runs

variable {buffers : Nat -> Memory α} {counters : Nat -> Int} {after : GridState ρ α}
  {labels : List Nat}

/-- What holds in every run of a launch with clear counters. -/
theorem run_sound (barrier : grid.BarrierHolds)
    (clear : forall counter, counter ≤ grid.lastStage -> counters counter = 0)
    (agree : forall stage, stage ≤ grid.lastStage ->
      Agree (grid.stores (grid.staged buffers stage) stage))
    (run : (grid.system buffers counters).Run (grid.start buffers counters) labels state) :
    grid.Met state ∧ grid.Issued buffers state := by
  refine @System.Run.invariant _ _ _ (fun state => grid.Met state ∧ grid.Issued buffers state)
    _ _ _ run ⟨met_start buffers clear, issued_start grid buffers counters⟩ ?_
  rintro before thread next ⟨met, issued⟩ step
  exact ⟨met.step barrier step, issued.step met agree step⟩

/-- A complete run leaves what the stages leave one after the other, and clear
counters. -/
theorem complete_run (barrier : grid.BarrierHolds) (some : 0 < grid.threads)
    (clear : forall counter, counter ≤ grid.lastStage -> counters counter = 0)
    (agree : forall stage, stage ≤ grid.lastStage ->
      Agree (grid.stores (grid.staged buffers stage) stage))
    (run : (grid.system buffers counters).Run (grid.start buffers counters) labels state)
    (complete : grid.Complete state) :
    (forall stage, stage ≤ grid.lastStage ->
      state.buffers (stage + 1) = grid.staged buffers (stage + 1)) ∧
      forall counter, counter ≤ grid.lastStage -> state.counters counter = 0 := by
  rcases run_sound barrier clear agree run with ⟨met, issued⟩
  have all (thread : Nat) (inside : thread < grid.threads) (stage : Nat)
      (within : stage ≤ grid.lastStage) : (state.threads thread).past stage = true := by
    have position := complete thread inside
    have place := (met.placed thread inside).clears [] position
    rcases Nat.lt_or_eq_of_le within with below | last
    · exact Thread.past_iff.mpr (Or.inl (place ▸ below))
    · exact Thread.past_iff.mpr (Or.inr ⟨place.trans last.symm, by rw [position]; rfl⟩)
  constructor
  · exact fun stage within => issued.settled met within (agree stage within)
      fun thread inside => all thread inside stage within
  · have tickets : grid.arrivals state grid.lastStage = grid.threads :=
      arrivals_eq_threads.mpr fun thread inside => all thread inside grid.lastStage le_rfl
    rcases met.clearing tickets some with ⟨last, left, inside, clearing, cleared, _⟩
    rw [complete last inside] at clearing
    rw [← Position.clearing.inj clearing] at cleared
    exact fun counter within => cleared counter within List.not_mem_nil

/-- Some thread can go on until all have returned. -/
theorem Met.progress (met : grid.Met state) (barrier : grid.BarrierHolds)
    (unfinished : ¬ grid.Complete state) : exists thread after, grid.Step state thread after := by
  by_contra stuck
  have stopped (thread : Nat) (inside : thread < grid.threads) :
      (state.threads thread).position = .waiting ∨
        (state.threads thread).position = .clearing [] := by
    have placed := met.placed thread inside
    cases here : state.threads thread with
    | mk stage position pending register =>
        rw [here] at placed
        cases position with
        | waiting => exact Or.inl rfl
        | clearing left =>
            cases left with
            | nil => exact Or.inr rfl
            | cons counter left => exact absurd ⟨thread, _, .clear inside here⟩ stuck
        | working =>
            cases pending with
            | nil =>
                rcases Nat.lt_or_eq_of_le placed.inStage with below | last
                · exact absurd ⟨thread, _, .arrive inside below here⟩ stuck
                · dsimp only at last
                  rw [last] at here
                  exact absurd ⟨thread, _, .ticket inside here⟩ stuck
            | cons instruction pending =>
                cases instruction with
                | load read => exact absurd ⟨thread, _, .load inside here⟩ stuck
                | store write => exact absurd ⟨thread, _, .store inside here⟩ stuck
  -- A waiting thread of the least stage waits for nobody.
  have some : exists stage thread, thread < grid.threads ∧
      (state.threads thread).position = .waiting ∧ (state.threads thread).stage = stage := by
    by_contra none
    refine unfinished fun thread inside => (stopped thread inside).resolve_left fun waiting => ?_
    exact none ⟨_, thread, inside, waiting, rfl⟩
  classical
  rcases Nat.find_spec some with ⟨thread, inside, waiting, place⟩
  have below : Nat.find some < grid.lastStage :=
    place ▸ (met.placed thread inside).waits waiting
  have all (other : Nat) (other_inside : other < grid.threads) :
      (state.threads other).past (Nat.find some) = true := by
    rcases stopped other other_inside with waits | returned
    · have least := Nat.find_min' some ⟨other, other_inside, waits, rfl⟩
      rcases Nat.lt_or_eq_of_le least with ahead | same
      · exact Thread.past_iff.mpr (Or.inl ahead)
      · exact Thread.past_iff.mpr (Or.inr ⟨same.symm, by rw [waits]; rfl⟩)
    · have last := (met.placed other other_inside).clears [] returned
      exact Thread.past_iff.mpr (Or.inl (last ▸ below))
  have tickets : (state.threads thread).past grid.lastStage = false := by
    rw [← Bool.not_eq_true, Thread.past_iff, place]
    rintro (ahead | arrived)
    · exact absurd ahead (Nat.not_lt.mpr below.le)
    · exact below.ne arrived.1
  have passes : grid.passes (state.counters (Nat.find some)) := by
    rw [(met.counted (arrivals_lt inside tickets)).barrier _ below]
    exact (barrier _ (arrivals_le _)).mpr (arrivals_eq_threads.mpr all)
  have idle := (met.placed thread inside).idle (by rw [waiting]; rfl)
  cases here : state.threads thread with
  | mk stage position pending register =>
      rw [here] at waiting place idle
      dsimp only at waiting place idle
      rw [waiting, idle, place] at here
      exact stuck ⟨thread, _, .leave inside passes here⟩

/-- The steps that a position has left in its stage. -/
def positionWork (grid : Grid ρ α) : Position -> Nat
  | .working => grid.lastStage + 2
  | .waiting => 1
  | .clearing left => left.length

/-- The steps that a thread has left. -/
def threadWork (grid : Grid ρ α) (index : Nat) (thread : Thread ρ α) : Nat :=
  thread.pending.length + grid.positionWork thread.position +
    ∑ stage ∈ Finset.Ico (thread.stage + 1) (grid.lastStage + 1),
      ((grid.code stage index).length + grid.lastStage + 2)

def work (grid : Grid ρ α) (state : GridState ρ α) : Nat :=
  ∑ index ∈ Finset.range grid.threads, grid.threadWork index (state.threads index)

theorem work_lt {thread : Nat} {next : Thread ρ α} (inside : thread < grid.threads)
    (moved : after.threads = Function.update state.threads thread next)
    (less : grid.threadWork thread next < grid.threadWork thread (state.threads thread)) :
    grid.work after < grid.work state := by
  refine Finset.sum_lt_sum (fun index _ => ?_) ⟨thread, Finset.mem_range.mpr inside, ?_⟩
  · rw [moved]
    by_cases same : index = thread
    · rw [same, Function.update_self]
      exact less.le
    · rw [Function.update_of_ne same]
  · rw [moved, Function.update_self]
    exact less

/-- Every step uses up work. -/
theorem Step.work_lt {thread : Nat} (met : grid.Met state) (step : grid.Step state thread after) :
    grid.work after < grid.work state := by
  cases step with
  | load inside here =>
      refine Grid.work_lt inside rfl ?_
      rw [here]
      unfold threadWork
      dsimp only
      rw [List.length_cons]
      omega
  | store inside here =>
      refine Grid.work_lt inside rfl ?_
      rw [here]
      unfold threadWork
      dsimp only
      rw [List.length_cons]
      omega
  | arrive inside below here =>
      refine Grid.work_lt inside rfl ?_
      rw [here]
      unfold threadWork positionWork
      dsimp only
      omega
  | leave inside passes here =>
      have below := (met.placed thread inside).waits (by rw [here])
      refine Grid.work_lt inside rfl ?_
      rw [here] at below ⊢
      unfold threadWork positionWork
      dsimp only at below ⊢
      rw [Finset.sum_eq_sum_Ico_succ_bot (Nat.add_lt_add_right below 1), List.length_nil]
      omega
  | ticket inside here =>
      refine Grid.work_lt inside rfl ?_
      rw [here]
      unfold threadWork positionWork
      dsimp only
      split_ifs with last
      · rw [List.length_range]
        omega
      · simp only [List.length_nil]
        omega
  | clear inside here =>
      refine Grid.work_lt inside rfl ?_
      rw [here]
      unfold threadWork positionWork
      dsimp only
      rw [List.length_cons]
      omega

/-- Every run ends: it has no more steps than the launch has work. -/
theorem run_length (barrier : grid.BarrierHolds)
    (clear : forall counter, counter ≤ grid.lastStage -> counters counter = 0)
    (agree : forall stage, stage ≤ grid.lastStage ->
      Agree (grid.stores (grid.staged buffers stage) stage))
    (run : (grid.system buffers counters).Run (grid.start buffers counters) labels state) :
    labels.length + grid.work state ≤ grid.work (grid.start buffers counters) := by
  have bound : forall {first last : GridState ρ α} {labels : List Nat},
      (grid.system buffers counters).Run first labels last ->
      first = grid.start buffers counters ->
      labels.length + grid.work last ≤ grid.work (grid.start buffers counters) := by
    intro first last labels run
    induction run with
    | nil =>
        intro same
        rw [same, List.length_nil, Nat.zero_add]
    | snoc earlier step previous =>
        intro same
        have met := (run_sound barrier clear agree (same ▸ earlier)).1
        have less := Step.work_lt met step
        have shorter := previous same
        rw [List.length_append, List.length_singleton]
        omega
  exact bound run rfl

/-- Every run goes on to a complete one. -/
theorem exists_complete (barrier : grid.BarrierHolds)
    (clear : forall counter, counter ≤ grid.lastStage -> counters counter = 0)
    (agree : forall stage, stage ≤ grid.lastStage ->
      Agree (grid.stores (grid.staged buffers stage) stage))
    (run : (grid.system buffers counters).Run (grid.start buffers counters) labels state) :
    exists labels last,
      (grid.system buffers counters).Run (grid.start buffers counters) labels last ∧
        grid.Complete last := by
  have goes_on : forall bound labels state,
      (grid.system buffers counters).Run (grid.start buffers counters) labels state ->
      grid.work state ≤ bound -> exists labels last,
        (grid.system buffers counters).Run (grid.start buffers counters) labels last ∧
          grid.Complete last := by
    intro bound
    induction bound with
    | zero =>
        intro labels state run none
        have met := (run_sound barrier clear agree run).1
        by_cases complete : grid.Complete state
        · exact ⟨labels, state, run, complete⟩
        · rcases met.progress barrier complete with ⟨thread, after, step⟩
          have less := Step.work_lt met step
          omega
    | succ bound previous =>
        intro labels state run within
        have met := (run_sound barrier clear agree run).1
        by_cases complete : grid.Complete state
        · exact ⟨labels, state, run, complete⟩
        · rcases met.progress barrier complete with ⟨thread, after, step⟩
          have less := Step.work_lt met step
          exact previous _ after (run.snoc step) (by omega)
  exact goes_on _ labels state run le_rfl

end Runs

end Grid

end Foundation
end QSAHiSparse

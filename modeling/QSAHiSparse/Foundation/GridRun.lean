import Mathlib.Data.Finset.Card
import Mathlib.Logic.Function.Iterate
import QSAHiSparse.Foundation.Memory
import QSAHiSparse.Foundation.Transitions

namespace QSAHiSparse
namespace Foundation

/-!
# Grids of threads that meet at barriers

The threads of a grid work in stages.  In a stage they read the buffer that the
stage before it wrote, and write a buffer of their own.  Between two stages they
meet at a barrier, which is a counter.  After the last stage every thread takes a
ticket, and the one with the last ticket clears the counters for the next launch.

Instructions of different threads are taken in any order.  As long as the stores of
a stage agree, a complete run leaves the same buffers in every order.
-/

variable {ρ α : Type}

/-! ## The code of a stage -/

/-- A load reads the buffer into the register of the thread; a store takes an address
and a value from it. -/
inductive Instruction (ρ α : Type) where
  | load (read : Memory α -> ρ -> ρ)
  | store (write : ρ -> Store α)

/-- The stores that code issues over a buffer. -/
def storesOf (buffer : Memory α) : List (Instruction ρ α) -> ρ -> List (Store α)
  | [], _ => []
  | .load read :: rest, register => storesOf buffer rest (read buffer register)
  | .store write :: rest, register => write register :: storesOf buffer rest register

@[simp] theorem storesOf_nil (buffer : Memory α) (register : ρ) :
    storesOf buffer [] register = [] := rfl

@[simp] theorem storesOf_load (buffer : Memory α) (read : Memory α -> ρ -> ρ)
    (rest : List (Instruction ρ α)) (register : ρ) :
    storesOf buffer (.load read :: rest) register =
      storesOf buffer rest (read buffer register) := rfl

@[simp] theorem storesOf_store (buffer : Memory α) (write : ρ -> Store α)
    (rest : List (Instruction ρ α)) (register : ρ) :
    storesOf buffer (.store write :: rest) register =
      write register :: storesOf buffer rest register := rfl

/-- Stores after loads are those of the register that the loads leave. -/
theorem storesOf_loads (buffer : Memory α) (reads : List (Memory α -> ρ -> ρ))
    (rest : List (Instruction ρ α)) (register : ρ) :
    storesOf buffer (reads.map Instruction.load ++ rest) register =
      storesOf buffer rest (reads.foldl (fun register read => read buffer register) register) := by
  induction reads generalizing register with
  | nil => rfl
  | cons read reads previous => exact previous (read buffer register)

theorem storesOf_stores (buffer : Memory α) (writes : List (ρ -> Store α))
    (rest : List (Instruction ρ α)) (register : ρ) :
    storesOf buffer (writes.map Instruction.store ++ rest) register =
      writes.map (fun write => write register) ++ storesOf buffer rest register := by
  induction writes with
  | nil => rfl
  | cons write writes previous =>
      rw [List.map_cons, List.cons_append, storesOf_store, previous]
      rfl

/-- A tile of work: set the register, load into it, then store from it. -/
def tileCode (zero : ρ) (reads : List (Memory α -> ρ -> ρ)) (writes : List (ρ -> Store α)) :
    List (Instruction ρ α) :=
  .load (fun _ _ => zero) :: (reads.map Instruction.load ++ writes.map Instruction.store)

/-- Tiles store what each of them stores alone. -/
theorem storesOf_tiles {ι : Type} (buffer : Memory α) (zero : ρ)
    (reads : ι -> List (Memory α -> ρ -> ρ)) (writes : ι -> List (ρ -> Store α)) (tiles : List ι)
    (register : ρ) :
    storesOf buffer (tiles.flatMap fun tile => tileCode zero (reads tile) (writes tile)) register =
      tiles.flatMap fun tile => (writes tile).map fun write =>
        write ((reads tile).foldl (fun register read => read buffer register) zero) := by
  induction tiles generalizing register with
  | nil => rfl
  | cons tile tiles previous =>
      rw [List.flatMap_cons, List.flatMap_cons]
      unfold tileCode
      rw [List.cons_append, storesOf_load, List.append_assoc, storesOf_loads, storesOf_stores]
      exact congrArg _ (previous _)

/-! ## Grids -/

/-- A grid, its code for every stage and thread, and its barrier: how an arrival
changes the counter, and which counters let the threads pass. -/
structure Grid (ρ α : Type) where
  threads : Nat
  lastStage : Nat
  code : Nat -> Nat -> List (Instruction ρ α)
  register : ρ
  arrive : Int -> Int
  passes : Int -> Prop

/-- A thread works, waits at the barrier, or has taken its ticket and has counters left
to clear. -/
inductive Position where
  | working
  | waiting
  | clearing (counters : List Nat)

structure Thread (ρ α : Type) where
  stage : Nat
  position : Position
  pending : List (Instruction ρ α)
  register : ρ

/-- Stage `n` reads buffer `n` and writes buffer `n + 1`. -/
structure GridState (ρ α : Type) where
  buffers : Nat -> Memory α
  counters : Nat -> Int
  threads : Nat -> Thread ρ α

def GridState.setThread (state : GridState ρ α) (thread : Nat) (next : Thread ρ α) :
    GridState ρ α :=
  { state with threads := Function.update state.threads thread next }

namespace Grid

variable (grid : Grid ρ α)

/-- A launch: every thread is at its first instruction. -/
def start (buffers : Nat -> Memory α) (counters : Nat -> Int) : GridState ρ α where
  buffers := buffers
  counters := counters
  threads := fun thread => ⟨0, .working, grid.code 0 thread, grid.register⟩

/-- One thread takes a step. -/
inductive Step : GridState ρ α -> Nat -> GridState ρ α -> Prop where
  | load {state : GridState ρ α} {thread stage : Nat} {read : Memory α -> ρ -> ρ}
      {rest : List (Instruction ρ α)} {register : ρ} :
      thread < grid.threads ->
      state.threads thread = ⟨stage, .working, .load read :: rest, register⟩ ->
      Step state thread
        (state.setThread thread ⟨stage, .working, rest, read (state.buffers stage) register⟩)
  | store {state : GridState ρ α} {thread stage : Nat} {write : ρ -> Store α}
      {rest : List (Instruction ρ α)} {register : ρ} :
      thread < grid.threads ->
      state.threads thread = ⟨stage, .working, .store write :: rest, register⟩ ->
      Step state thread
        { state.setThread thread ⟨stage, .working, rest, register⟩ with
          buffers := Function.update state.buffers (stage + 1)
            (storeAll (state.buffers (stage + 1)) [write register]) }
  | arrive {state : GridState ρ α} {thread stage : Nat} {register : ρ} :
      thread < grid.threads -> stage < grid.lastStage ->
      state.threads thread = ⟨stage, .working, [], register⟩ ->
      Step state thread
        { state.setThread thread ⟨stage, .waiting, [], register⟩ with
          counters := Function.update state.counters stage (grid.arrive (state.counters stage)) }
  | leave {state : GridState ρ α} {thread stage : Nat} {register : ρ} :
      thread < grid.threads -> grid.passes (state.counters stage) ->
      state.threads thread = ⟨stage, .waiting, [], register⟩ ->
      Step state thread
        (state.setThread thread
          ⟨stage + 1, .working, grid.code (stage + 1) thread, grid.register⟩)
  | ticket {state : GridState ρ α} {thread : Nat} {register : ρ} :
      thread < grid.threads ->
      state.threads thread = ⟨grid.lastStage, .working, [], register⟩ ->
      Step state thread
        { state.setThread thread
            ⟨grid.lastStage, .clearing
              (if state.counters grid.lastStage = grid.threads - 1 then
                List.range (grid.lastStage + 1) else []), [], register⟩ with
          counters := Function.update state.counters grid.lastStage
            (state.counters grid.lastStage + 1) }
  | clear {state : GridState ρ α} {thread stage counter : Nat} {counters : List Nat}
      {pending : List (Instruction ρ α)} {register : ρ} :
      thread < grid.threads ->
      state.threads thread = ⟨stage, .clearing (counter :: counters), pending, register⟩ ->
      Step state thread
        { state.setThread thread ⟨stage, .clearing counters, pending, register⟩ with
          counters := Function.update state.counters counter 0 }

/-- The launch over given buffers, with given counters. -/
def system (buffers : Nat -> Memory α) (counters : Nat -> Int) : System (GridState ρ α) Nat where
  initial := fun state => state = grid.start buffers counters
  step := grid.Step

/-- Every thread has returned. -/
def Complete (state : GridState ρ α) : Prop :=
  forall thread, thread < grid.threads -> (state.threads thread).position = .clearing []

/-- The threads pass a barrier when all of them have arrived. -/
def BarrierHolds : Prop :=
  forall arrivals, arrivals ≤ grid.threads ->
    (grid.passes (grid.arrive^[arrivals] 0) <-> arrivals = grid.threads)

/-! ## What a complete run leaves -/

/-- The stores of a stage over a buffer. -/
def stores (buffer : Memory α) (stage : Nat) : List (Store α) :=
  (List.range grid.threads).flatMap fun thread =>
    storesOf buffer (grid.code stage thread) grid.register

/-- The buffers, when each stage runs after the one before it. -/
def staged (buffers : Nat -> Memory α) : Nat -> Memory α
  | 0 => buffers 0
  | stage + 1 => storeAll (buffers (stage + 1)) (grid.stores (staged buffers stage) stage)

end Grid

/-! ## Where the threads are -/

def Position.isWorking : Position -> Bool
  | .working => true
  | .waiting => false
  | .clearing _ => false

/-- A thread has done its part of a stage. -/
def Thread.past (thread : Thread ρ α) (stage : Nat) : Bool :=
  stage < thread.stage || (thread.stage = stage && !thread.position.isWorking)

theorem Thread.past_iff {thread : Thread ρ α} {stage : Nat} :
    thread.past stage = true <->
      stage < thread.stage ∨ (thread.stage = stage ∧ thread.position.isWorking = false) := by
  unfold Thread.past
  rw [Bool.or_eq_true, Bool.and_eq_true, decide_eq_true_eq, decide_eq_true_eq,
    Bool.not_eq_true']

namespace Grid

variable {grid : Grid ρ α} {state : GridState ρ α}

/-- The threads that are past a stage. -/
def arrivals (grid : Grid ρ α) (state : GridState ρ α) (stage : Nat) : Nat :=
  ((Finset.range grid.threads).filter fun thread => (state.threads thread).past stage = true).card

theorem arrivals_le (stage : Nat) : grid.arrivals state stage ≤ grid.threads :=
  (Finset.card_filter_le _ _).trans_eq (Finset.card_range _)

theorem arrivals_eq_threads {stage : Nat} :
    grid.arrivals state stage = grid.threads <->
      forall thread, thread < grid.threads -> (state.threads thread).past stage = true := by
  unfold arrivals
  have whole := Finset.card_filter_eq_iff (s := Finset.range grid.threads)
    (p := fun thread => (state.threads thread).past stage = true)
  rw [Finset.card_range] at whole
  rw [whole]
  exact ⟨fun all thread inside => all thread (Finset.mem_range.mpr inside),
    fun all thread inside => all thread (Finset.mem_range.mp inside)⟩

/-- A step that moves no thread past a stage. -/
theorem arrivals_same {after : GridState ρ α} {stage : Nat}
    (same : forall thread, thread < grid.threads ->
      (after.threads thread).past stage = (state.threads thread).past stage) :
    grid.arrivals after stage = grid.arrivals state stage := by
  unfold arrivals
  refine congrArg Finset.card (Finset.filter_congr fun thread inside => ?_)
  rw [same thread (Finset.mem_range.mp inside)]

/-- A step that moves one thread past a stage. -/
theorem arrivals_succ {after : GridState ρ α} {thread stage : Nat} (inside : thread < grid.threads)
    (before : (state.threads thread).past stage = false)
    (now : (after.threads thread).past stage = true)
    (others : forall other, other ≠ thread ->
      (after.threads other).past stage = (state.threads other).past stage) :
    grid.arrivals after stage = grid.arrivals state stage + 1 := by
  have grown : (Finset.range grid.threads).filter
      (fun other => (after.threads other).past stage = true) =
      insert thread ((Finset.range grid.threads).filter
        fun other => (state.threads other).past stage = true) := by
    ext other
    rw [Finset.mem_insert, Finset.mem_filter, Finset.mem_filter, Finset.mem_range]
    by_cases same : other = thread
    · rw [same]
      exact ⟨fun _ => Or.inl rfl, fun _ => ⟨inside, now⟩⟩
    · rw [others other same]
      exact ⟨Or.inr, fun either => either.resolve_left same⟩
  unfold arrivals
  rw [grown, Finset.card_insert_of_notMem]
  intro member
  rw [Finset.mem_filter, before] at member
  exact absurd member.2 (by decide)

/-- Positions that a thread can have at its stage. -/
structure Placed (grid : Grid ρ α) (thread : Thread ρ α) : Prop where
  inStage : thread.stage ≤ grid.lastStage
  idle : thread.position.isWorking = false -> thread.pending = []
  waits : thread.position = .waiting -> thread.stage < grid.lastStage
  clears : forall counters, thread.position = .clearing counters -> thread.stage = grid.lastStage

/-- No thread is ahead of another by a stage. -/
def Together (grid : Grid ρ α) (state : GridState ρ α) : Prop :=
  forall thread, thread < grid.threads -> forall other, other < grid.threads ->
    forall stage, stage < (state.threads thread).stage -> (state.threads other).past stage = true

/-- What the counters count, until the last ticket is taken. -/
structure Counted (grid : Grid ρ α) (state : GridState ρ α) : Prop where
  barrier : forall stage, stage < grid.lastStage ->
    state.counters stage = grid.arrive^[grid.arrivals state stage] 0
  tickets : state.counters grid.lastStage = grid.arrivals state grid.lastStage
  returned : forall thread, thread < grid.threads -> forall counters,
    (state.threads thread).position = .clearing counters -> counters = []

/-- After the last ticket its thread clears the counters that are left. -/
def Clearing (grid : Grid ρ α) (state : GridState ρ α) : Prop :=
  exists last left, last < grid.threads ∧ (state.threads last).position = .clearing left ∧
    (forall counter, counter ≤ grid.lastStage -> counter ∉ left -> state.counters counter = 0) ∧
    forall other, other < grid.threads -> other ≠ last ->
      (state.threads other).position = .clearing []

/-- What holds of the threads and the counters in every run. -/
structure Met (grid : Grid ρ α) (state : GridState ρ α) : Prop where
  placed : forall thread, thread < grid.threads -> grid.Placed (state.threads thread)
  together : grid.Together state
  counted : grid.arrivals state grid.lastStage < grid.threads -> grid.Counted state
  clearing : grid.arrivals state grid.lastStage = grid.threads -> 0 < grid.threads ->
    grid.Clearing state

/-! ## The barrier -/

section Barrier

variable {after : GridState ρ α} {thread : Nat} {next : Thread ρ α}

theorem placed_update (placed : forall other, other < grid.threads ->
      grid.Placed (state.threads other))
    (moved : after.threads = Function.update state.threads thread next)
    (here : grid.Placed next) :
    forall other, other < grid.threads -> grid.Placed (after.threads other) := by
  intro other inside
  rw [moved]
  by_cases same : other = thread
  · rw [same, Function.update_self]
    exact here
  · rw [Function.update_of_ne same]
    exact placed other inside

/-- A thread goes on, to a stage that every thread lets it reach. -/
theorem Together.update (together : grid.Together state) (inside : thread < grid.threads)
    (moved : after.threads = Function.update state.threads thread next)
    (keeps : forall stage, (state.threads thread).past stage = true -> next.past stage = true)
    (reached : forall stage, stage < next.stage -> stage < (state.threads thread).stage ∨
      forall other, other < grid.threads -> (state.threads other).past stage = true) :
    grid.Together after := by
  have kept (other stage : Nat) (before : (state.threads other).past stage = true) :
      (after.threads other).past stage = true := by
    rw [moved]
    by_cases same : other = thread
    · rw [same, Function.update_self]
      exact keeps stage (same ▸ before)
    · rw [Function.update_of_ne same]
      exact before
  intro one one_inside other other_inside stage below
  apply kept
  rw [moved] at below
  by_cases same : one = thread
  · rw [same, Function.update_self] at below
    rcases reached stage below with old | all
    · exact together thread inside other other_inside stage old
    · exact all other other_inside
  · rw [Function.update_of_ne same] at below
    exact together one one_inside other other_inside stage below

theorem past_update_same (moved : after.threads = Function.update state.threads thread next)
    {stage : Nat} (same : next.past stage = (state.threads thread).past stage) (other : Nat) :
    (after.threads other).past stage = (state.threads other).past stage := by
  rw [moved]
  by_cases here : other = thread
  · rw [here, Function.update_self]
    exact same
  · rw [Function.update_of_ne here]

/-- A thread with nothing to clear, among threads that have returned. -/
theorem returned_update (returned : forall other, other < grid.threads -> forall left,
      (state.threads other).position = .clearing left -> left = [])
    (moved : after.threads = Function.update state.threads thread next)
    (here : forall left, next.position = .clearing left -> left = []) :
    forall other, other < grid.threads -> forall left,
      (after.threads other).position = .clearing left -> left = [] := by
  intro other inside left clearing
  rw [moved] at clearing
  by_cases same : other = thread
  · rw [same, Function.update_self] at clearing
    exact here left clearing
  · rw [Function.update_of_ne same] at clearing
    exact returned other inside left clearing

/-- A thread that stays where it is, while it has not taken its ticket. -/
theorem Met.stay (met : grid.Met state) (inside : thread < grid.threads)
    (moved : after.threads = Function.update state.threads thread next)
    (counters : after.counters = state.counters) (placed : grid.Placed next)
    (working : (state.threads thread).position = .working)
    (stage : next.stage = (state.threads thread).stage) (position : next.position = .working) :
    grid.Met after := by
  have past (stage : Nat) : next.past stage = (state.threads thread).past stage := by
    unfold Thread.past
    rw [working, position, ‹next.stage = _›]
  have arrivals (stage : Nat) : grid.arrivals after stage = grid.arrivals state stage :=
    arrivals_same fun other _ => past_update_same moved (past stage) other
  constructor
  · exact placed_update met.placed moved placed
  · exact met.together.update inside moved (fun stage before => (past stage).trans before)
      fun stage below => Or.inl (‹next.stage = _› ▸ below)
  · intro some
    rw [arrivals] at some
    have counted := met.counted some
    constructor
    · intro stage below
      rw [counters, arrivals]
      exact counted.barrier stage below
    · rw [counters, arrivals]
      exact counted.tickets
    · refine returned_update counted.returned moved fun left clearing => ?_
      rw [position] at clearing
      exact nomatch clearing
  · intro all
    rw [arrivals] at all
    rcases Thread.past_iff.mp (arrivals_eq_threads.mp all thread inside) with ahead | arrived
    · exact absurd ahead (Nat.not_lt.mpr (met.placed thread inside).inStage)
    · rw [working] at arrived
      exact nomatch arrived.2

/-- A thread that is not past the last stage leaves tickets to take. -/
theorem arrivals_lt (inside : thread < grid.threads)
    (behind : (state.threads thread).past grid.lastStage = false) :
    grid.arrivals state grid.lastStage < grid.threads := by
  refine Nat.lt_of_le_of_ne (arrivals_le _) fun all => ?_
  rw [arrivals_eq_threads.mp all thread inside] at behind
  exact nomatch behind

theorem Met.arrive (met : grid.Met state) (inside : thread < grid.threads) {stage : Nat}
    {register : ρ} (below : stage < grid.lastStage)
    (here : state.threads thread = ⟨stage, .working, [], register⟩) :
    grid.Met { state.setThread thread ⟨stage, .waiting, [], register⟩ with
      counters := Function.update state.counters stage (grid.arrive (state.counters stage)) } := by
  let after : GridState ρ α := { state.setThread thread ⟨stage, .waiting, [], register⟩ with
    counters := Function.update state.counters stage (grid.arrive (state.counters stage)) }
  change grid.Met after
  have moved : after.threads = Function.update state.threads thread ⟨stage, .waiting, [], register⟩ :=
    rfl
  have behind (later : Nat) (above : stage ≤ later) : (state.threads thread).past later = false := by
    rw [here, ← Bool.not_eq_true, Thread.past_iff]
    rintro (ahead | arrived)
    · exact absurd ahead (Nat.not_lt.mpr above)
    · exact nomatch arrived.2
  have elsewhere (other : Nat) (different : other ≠ stage) :
      (⟨stage, .waiting, [], register⟩ : Thread ρ α).past other =
        (state.threads thread).past other := by
    rw [here]
    unfold Thread.past
    rw [decide_eq_false different.symm, Bool.false_and, Bool.false_and]
  have arrived : grid.arrivals after stage = grid.arrivals state stage + 1 := by
    refine arrivals_succ inside (behind stage le_rfl) ?_ fun other different => ?_
    · rw [moved, Function.update_self]
      exact Thread.past_iff.mpr (Or.inr ⟨rfl, rfl⟩)
    · rw [moved, Function.update_of_ne different]
  have same (other : Nat) (different : other ≠ stage) :
      grid.arrivals after other = grid.arrivals state other :=
    arrivals_same fun thread _ => past_update_same moved (elsewhere other different) thread
  constructor
  · exact placed_update met.placed moved ⟨below.le, fun _ => rfl, fun _ => below, nofun⟩
  · refine met.together.update inside moved (fun other before => ?_) fun other ahead => Or.inl ?_
    · by_cases same : other = stage
      · rw [same]
        exact Thread.past_iff.mpr (Or.inr ⟨rfl, rfl⟩)
      · rw [elsewhere other same]
        exact before
    · rw [here]
      exact ahead
  · intro some
    rw [same _ below.ne'] at some
    have counted := met.counted some
    constructor
    · intro other other_below
      by_cases here : other = stage
      · rw [here, arrived, Function.iterate_succ_apply', ← counted.barrier stage below]
        exact Function.update_self _ _ _
      · rw [same other here, ← counted.barrier other other_below]
        exact Function.update_of_ne here _ _
    · rw [same _ below.ne', ← counted.tickets]
      exact Function.update_of_ne below.ne' _ _
    · exact returned_update counted.returned moved nofun
  · intro all
    rw [same _ below.ne'] at all
    exact absurd all (arrivals_lt inside (behind _ below.le)).ne

theorem Met.leave (met : grid.Met state) (barrier : grid.BarrierHolds)
    (inside : thread < grid.threads) {stage : Nat} {register : ρ}
    (passes : grid.passes (state.counters stage))
    (here : state.threads thread = ⟨stage, .waiting, [], register⟩) :
    grid.Met (state.setThread thread
      ⟨stage + 1, .working, grid.code (stage + 1) thread, grid.register⟩) := by
  let next : Thread ρ α := ⟨stage + 1, .working, grid.code (stage + 1) thread, grid.register⟩
  let after : GridState ρ α := state.setThread thread next
  change grid.Met after
  have moved : after.threads = Function.update state.threads thread next := rfl
  have placed := met.placed thread inside
  rw [here] at placed
  have below : stage < grid.lastStage := placed.waits rfl
  have past (other : Nat) : next.past other = (state.threads thread).past other := by
    rw [here, Bool.eq_iff_iff, Thread.past_iff, Thread.past_iff]
    constructor
    · rintro (ahead | arrived)
      · rcases Nat.lt_succ_iff_lt_or_eq.mp ahead with before | same
        · exact Or.inl before
        · exact Or.inr ⟨same.symm, rfl⟩
      · exact nomatch arrived.2
    · rintro (ahead | arrived)
      · exact Or.inl (Nat.lt_succ_of_lt ahead)
      · exact Or.inl (arrived.1 ▸ Nat.lt_succ_self stage)
  have behind : (state.threads thread).past grid.lastStage = false := by
    rw [here, ← Bool.not_eq_true, Thread.past_iff]
    rintro (ahead | arrived)
    · exact absurd ahead (Nat.not_lt.mpr below.le)
    · exact below.ne arrived.1
  have arrivals (other : Nat) : grid.arrivals after other = grid.arrivals state other :=
    arrivals_same fun thread _ => past_update_same moved (past other) thread
  have counted := met.counted (arrivals_lt inside behind)
  have all : grid.arrivals state stage = grid.threads :=
    (barrier _ (arrivals_le stage)).mp (counted.barrier stage below ▸ passes)
  constructor
  · exact placed_update met.placed moved ⟨below, nofun, nofun, nofun⟩
  · refine met.together.update inside moved (fun other before => (past other).trans before) ?_
    intro other ahead
    rcases Nat.lt_succ_iff_lt_or_eq.mp ahead with before | same
    · left
      rw [here]
      exact before
    · right
      rw [same]
      exact arrivals_eq_threads.mp all
  · intro _
    constructor
    · intro other other_below
      rw [arrivals]
      exact counted.barrier other other_below
    · rw [arrivals]
      exact counted.tickets
    · exact returned_update counted.returned moved nofun
  · intro complete
    rw [arrivals] at complete
    exact absurd complete (arrivals_lt inside behind).ne

theorem Met.ticket (met : grid.Met state) (inside : thread < grid.threads) {register : ρ}
    (here : state.threads thread = ⟨grid.lastStage, .working, [], register⟩) :
    grid.Met { state.setThread thread
        ⟨grid.lastStage, .clearing
          (if state.counters grid.lastStage = grid.threads - 1 then
            List.range (grid.lastStage + 1) else []), [], register⟩ with
      counters := Function.update state.counters grid.lastStage
        (state.counters grid.lastStage + 1) } := by
  let left := if state.counters grid.lastStage = grid.threads - 1 then
    List.range (grid.lastStage + 1) else []
  let next : Thread ρ α := ⟨grid.lastStage, .clearing left, [], register⟩
  let after : GridState ρ α := { state.setThread thread next with
    counters := Function.update state.counters grid.lastStage
      (state.counters grid.lastStage + 1) }
  change grid.Met after
  have moved : after.threads = Function.update state.threads thread next := rfl
  have behind : (state.threads thread).past grid.lastStage = false := by
    rw [here, ← Bool.not_eq_true, Thread.past_iff]
    rintro (ahead | arrived)
    · exact absurd ahead (Nat.lt_irrefl _)
    · exact nomatch arrived.2
  have elsewhere (stage : Nat) (below : stage < grid.lastStage) :
      next.past stage = (state.threads thread).past stage := by
    rw [here, Bool.eq_iff_iff, Thread.past_iff, Thread.past_iff]
    exact ⟨fun _ => Or.inl below, fun _ => Or.inl below⟩
  have counted := met.counted (arrivals_lt inside behind)
  have arrived : grid.arrivals after grid.lastStage = grid.arrivals state grid.lastStage + 1 := by
    refine arrivals_succ inside behind ?_ fun other different => ?_
    · rw [moved, Function.update_self]
      exact Thread.past_iff.mpr (Or.inr ⟨rfl, rfl⟩)
    · rw [moved, Function.update_of_ne different]
  have same (stage : Nat) (below : stage < grid.lastStage) :
      grid.arrivals after stage = grid.arrivals state stage :=
    arrivals_same fun thread _ => past_update_same moved (elsewhere stage below) thread
  constructor
  · exact placed_update met.placed moved ⟨le_rfl, fun _ => rfl, nofun, fun _ _ => rfl⟩
  · refine met.together.update inside moved (fun stage before => ?_) fun stage ahead => Or.inl ?_
    · rw [here] at before
      rcases Thread.past_iff.mp before with ahead | arrived
      · exact Thread.past_iff.mpr (Or.inl ahead)
      · exact nomatch arrived.2
    · rw [here]
      exact ahead
  · intro some
    rw [arrived] at some
    constructor
    · intro stage below
      rw [same stage below, ← counted.barrier stage below]
      exact Function.update_of_ne below.ne _ _
    · rw [arrived, Int.natCast_succ, ← counted.tickets]
      exact Function.update_self _ _ _
    · refine returned_update counted.returned moved fun cleared clearing => ?_
      have more : ¬ state.counters grid.lastStage = grid.threads - 1 := by
        rw [counted.tickets]
        omega
      rw [← Position.clearing.inj clearing]
      exact if_neg more
  · intro all _
    rw [arrived] at all
    have last : state.counters grid.lastStage = grid.threads - 1 := by
      rw [counted.tickets]
      omega
    refine ⟨thread, left, inside, ?_, ?_, ?_⟩
    · rw [moved, Function.update_self]
    · intro counter within cleared
      refine absurd ?_ cleared
      dsimp only [left]
      rw [if_pos last]
      exact List.mem_range.mpr (Nat.lt_succ_of_le within)
    · intro other other_inside different
      have past := arrivals_eq_threads.mp (arrived.trans all) other other_inside
      have placed := met.placed other other_inside
      rw [moved, Function.update_of_ne different] at past ⊢
      rcases Thread.past_iff.mp past with ahead | returned
      · exact absurd ahead (Nat.not_lt.mpr placed.inStage)
      · cases position : (state.threads other).position with
        | working =>
            rw [position] at returned
            exact nomatch returned.2
        | waiting => exact absurd returned.1 (placed.waits position).ne
        | clearing cleared => rw [counted.returned other other_inside cleared position]

theorem Met.clear (met : grid.Met state) (inside : thread < grid.threads) {stage counter : Nat}
    {counters : List Nat} {pending : List (Instruction ρ α)} {register : ρ}
    (here : state.threads thread = ⟨stage, .clearing (counter :: counters), pending, register⟩) :
    grid.Met { state.setThread thread ⟨stage, .clearing counters, pending, register⟩ with
      counters := Function.update state.counters counter 0 } := by
  let next : Thread ρ α := ⟨stage, .clearing counters, pending, register⟩
  let after : GridState ρ α := { state.setThread thread next with
    counters := Function.update state.counters counter 0 }
  change grid.Met after
  have moved : after.threads = Function.update state.threads thread next := rfl
  have past (stage : Nat) : next.past stage = (state.threads thread).past stage := by
    rw [here]
    rfl
  have arrivals (stage : Nat) : grid.arrivals after stage = grid.arrivals state stage :=
    arrivals_same fun other _ => past_update_same moved (past stage) other
  have placed := met.placed thread inside
  rw [here] at placed
  constructor
  · exact placed_update met.placed moved
      ⟨placed.inStage, placed.idle, nofun, fun _ _ => placed.clears _ rfl⟩
  · refine met.together.update inside moved (fun stage before => (past stage).trans before) ?_
    intro stage ahead
    left
    rw [here]
    exact ahead
  · intro some
    rw [arrivals] at some
    have none := (met.counted some).returned thread inside (counter :: counters) (by rw [here])
    exact nomatch none
  · intro all some
    rw [arrivals] at all
    rcases met.clearing all some with ⟨last, left, last_inside, clearing, cleared, others⟩
    have same : thread = last := by
      by_contra different
      have done := others thread inside different
      rw [here] at done
      exact nomatch done
    rw [← same, here] at clearing
    refine ⟨thread, counters, inside, ?_, ?_, ?_⟩
    · rw [moved, Function.update_self]
    · intro other within gone
      by_cases now : other = counter
      · rw [now]
        exact Function.update_self _ _ _
      · refine (Function.update_of_ne now _ _).trans (cleared other within ?_)
        rw [← Position.clearing.inj clearing]
        exact List.not_mem_cons_of_ne_of_not_mem now gone
    · intro other other_inside different
      rw [moved, Function.update_of_ne different]
      exact others other other_inside (same ▸ different)

/-- No step breaks what holds of the threads and the counters. -/
theorem Met.step (met : grid.Met state) (barrier : grid.BarrierHolds)
    (step : grid.Step state thread after) : grid.Met after := by
  cases step with
  | load inside here =>
      have placed := met.placed thread inside
      rw [here] at placed
      exact met.stay inside rfl rfl ⟨placed.inStage, nofun, nofun, nofun⟩ (by rw [here])
        (by rw [here]) rfl
  | store inside here =>
      have placed := met.placed thread inside
      rw [here] at placed
      exact met.stay inside rfl rfl ⟨placed.inStage, nofun, nofun, nofun⟩ (by rw [here])
        (by rw [here]) rfl
  | arrive inside below here => exact met.arrive inside below here
  | leave inside passes here => exact met.leave barrier inside passes here
  | ticket inside here => exact met.ticket inside here
  | clear inside here => exact met.clear inside here

end Barrier

/-- A launch with clear counters. -/
theorem met_start (buffers : Nat -> Memory α) {counters : Nat -> Int}
    (clear : forall counter, counter ≤ grid.lastStage -> counters counter = 0) :
    grid.Met (grid.start buffers counters) := by
  have behind (thread stage : Nat) :
      ((grid.start buffers counters).threads thread).past stage = false := by
    rw [← Bool.not_eq_true, Thread.past_iff]
    rintro (ahead | arrived)
    · exact absurd ahead (Nat.not_lt_zero _)
    · exact nomatch arrived.2
  have none (stage : Nat) : grid.arrivals (grid.start buffers counters) stage = 0 := by
    unfold arrivals
    refine Finset.card_eq_zero.mpr (Finset.filter_eq_empty_iff.mpr fun thread _ => ?_)
    rw [behind]
    decide
  constructor
  · exact fun thread _ => ⟨Nat.zero_le _, nofun, nofun, nofun⟩
  · exact fun thread _ other _ stage below => absurd below (Nat.not_lt_zero _)
  · intro _
    constructor
    · intro stage below
      rw [none]
      exact clear stage below.le
    · rw [none]
      exact clear grid.lastStage le_rfl
    · exact fun thread _ left clearing => nomatch clearing
  · intro all some
    rw [none] at all
    exact absurd all some.ne

end Grid

end Foundation
end QSAHiSparse

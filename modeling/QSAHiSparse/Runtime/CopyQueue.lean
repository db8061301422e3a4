import QSAHiSparse.Runtime.Release

namespace QSAHiSparse
namespace Runtime

open Foundation
open Ledger

/-!
# A machine whose calls fail

The copy stream is a queue of submitted copies of which a prefix has completed.
Before every call an arbitrary number of further copies completes, and the call
may raise, with or without having taken effect.  A plan says what happens at
each call; it is arbitrary.
-/

/-- An exception of a call, and whether the call took effect all the same. -/
structure Fault where
  cause : PyError
  took : Bool
deriving DecidableEq, Repr

/-- What happens at one call. -/
structure Reply where
  /-- How many copies complete before it. -/
  progress : Nat
  fault : Option Fault
  /-- The answer to a condition. -/
  answer : Bool
deriving DecidableEq, Repr

/-- What happens at the call with this number, if it is made at this site. -/
abbrev Plan := Nat -> Site -> Reply

structure CopyQueue where
  submitted : List Work
  completed : Nat
  calls : Nat
  /-- The number and the site of every call made so far. -/
  made : List (Nat × Site)
deriving DecidableEq, Repr

def CopyQueue.empty : CopyQueue := ⟨[], 0, 0, []⟩

/-- The queue at the next call, which is made at this site. -/
def CopyQueue.advance (queue : CopyQueue) (site : Site) (progress : Nat) : CopyQueue :=
  { queue with
    completed := max queue.completed (min queue.submitted.length (queue.completed + progress))
    calls := queue.calls + 1
    made := queue.made ++ [(queue.calls, site)] }

/-- Everything before the position has completed. -/
def CopyQueue.complete (position : Nat) (queue : CopyQueue) : CopyQueue :=
  { queue with completed := max queue.completed position }

/-- Only the copy stream is followed. -/
def CopyQueue.submit (stream : Stream) (work : Work) (queue : CopyQueue) : CopyQueue :=
  match stream with
  | .compute => queue
  | .copy => { queue with submitted := queue.submitted ++ [work] }

def CopyQueue.mark (stream : Stream) (queue : CopyQueue) : Mark :=
  match stream with
  | .compute => ⟨.compute, 0⟩
  | .copy => ⟨.copy, queue.submitted.length⟩

def CopyQueue.reach (mark : Mark) (queue : CopyQueue) : CopyQueue :=
  match mark.stream with
  | .compute => queue
  | .copy => queue.complete mark.position

section Calls

variable {α : Type} (plan : Plan) (site : Site) (effect : CopyQueue -> CopyQueue)
  (answer : Reply -> CopyQueue -> α)

/-- One call under the plan. -/
def deviceCall : Method CopyQueue α := fun queue =>
  let reply := plan queue.calls site
  let current := queue.advance site reply.progress
  match reply.fault with
  | none => .ok (answer reply current) (effect current)
  | some fault => .error fault.cause (if fault.took then effect current else current)

theorem deviceCall_leaves {post : α -> CopyQueue -> Prop} {raised : PyError -> CopyQueue -> Prop}
    (queue : CopyQueue) :
    Leaves post raised ((deviceCall plan site effect answer).run queue) <->
      ((plan queue.calls site).fault = none ->
        post (answer (plan queue.calls site) (queue.advance site (plan queue.calls site).progress))
          (effect (queue.advance site (plan queue.calls site).progress))) ∧
      forall fault, (plan queue.calls site).fault = some fault ->
        raised fault.cause
          (if fault.took then effect (queue.advance site (plan queue.calls site).progress)
            else queue.advance site (plan queue.calls site).progress) := by
  change Leaves post raised (deviceCall plan site effect answer queue) <-> _
  simp only [deviceCall]
  cases (plan queue.calls site).fault with
  | none =>
      constructor
      · exact fun holds => ⟨fun _ => holds, fun _ absent => nomatch absent⟩
      · exact fun both => both.1 rfl
  | some fault =>
      constructor
      · intro holds
        refine ⟨(fun absent => nomatch absent), ?_⟩
        intro other same
        cases same
        exact holds
      · exact fun both => both.2 fault rfl

end Calls

/-- The machine that follows a plan. -/
def queueMachine (plan : Plan) : Machine CopyQueue where
  submit site stream work :=
    deviceCall plan site (CopyQueue.submit stream work) fun _ _ => PUnit.unit
  record site stream := deviceCall plan site id fun _ queue => queue.mark stream
  waitEvent site _ _ := deviceCall plan site id fun _ _ => PUnit.unit
  synchronize site mark := deviceCall plan site (CopyQueue.reach mark) fun _ _ => PUnit.unit
  drain site stream :=
    deviceCall plan site (fun queue => queue.reach (queue.mark stream)) fun _ _ => PUnit.unit
  outside site := deviceCall plan site id fun _ _ => PUnit.unit
  ask site := deviceCall plan site id fun reply _ => reply.answer

/-- Only the call with this number raises. -/
def faultAt (call : Nat) : Plan := fun number _ =>
  ⟨0, if number = call then some ⟨.external true "No space left on device", false⟩ else none, true⟩

/-- Among the calls made none leaves a copy without an event that its release
waits for: an eager writeback does not raise once its copy is queued, and a
handoff that raises between the queueing of a chunk and its record raises an
`Exception` whose handler drains the copy stream. -/
structure Plan.Contained (plan : Plan) (made : List (Nat × Site)) : Prop where
  writeback : forall call fault, (call, .writeback) ∈ made ->
    (plan call .writeback).fault = some fault -> fault.took = false
  writebackDone : forall call, (call, .writebackDone) ∈ made ->
    (plan call .writebackDone).fault = none
  chunkCopy : forall call fault, (call, .chunkCopy) ∈ made ->
    (plan call .chunkCopy).fault = some fault -> fault.took = true ->
    fault.cause.isException = true ∧ (plan (call + 1) .handoffDrain).fault = none
  chunkDone : forall call fault, (call, .chunkDone) ∈ made ->
    (plan call .chunkDone).fault = some fault ->
    fault.cause.isException = true ∧ (plan (call + 1) .handoffDrain).fault = none

/-- What holds of more calls holds of fewer. -/
theorem Plan.Contained.earlier {plan : Plan} {made later : List (Nat × Site)}
    (contained : plan.Contained later) (grown : made ⊆ later) : plan.Contained made where
  writeback call fault asked := contained.writeback call fault (grown asked)
  writebackDone call asked := contained.writebackDone call (grown asked)
  chunkCopy call fault asked := contained.chunkCopy call fault (grown asked)
  chunkDone call fault asked := contained.chunkDone call fault (grown asked)

/-! ## Calls that submit no copy -/

/-- Only copies have completed and calls been made. -/
def Later (before after : QSAHiSparseRuntime CopyQueue) : Prop :=
  exists queue : CopyQueue, after = { before with device := queue } ∧
    queue.submitted = before.device.submitted ∧ before.device.completed ≤ queue.completed ∧
      before.device.made ⊆ queue.made

theorem Later.refl (runtime : QSAHiSparseRuntime CopyQueue) : Later runtime runtime :=
  ⟨runtime.device, rfl, rfl, Nat.le_refl _, List.Subset.refl _⟩

theorem Later.trans {first second third : QSAHiSparseRuntime CopyQueue}
    (left : Later first second) (right : Later second third) : Later first third := by
  rcases left with ⟨queue, rfl, submitted, completed, made⟩
  rcases right with ⟨last, rfl, submittedLast, completedLast, madeLast⟩
  exact ⟨last, rfl, submittedLast.trans submitted, Nat.le_trans completed completedLast,
    List.Subset.trans made madeLast⟩

/-- A program of device calls that submit no copy. -/
def Waits {α : Type} (program : Method (QSAHiSparseRuntime CopyQueue) α) : Prop :=
  Keeps Later program

/-- A call whose effect keeps the queue and completes more. -/
theorem deviceCall_waits {α : Type} (plan : Plan) (site : Site)
    (effect : CopyQueue -> CopyQueue) (answer : Reply -> CopyQueue -> α)
    (completes : forall queue : CopyQueue, (effect queue).submitted = queue.submitted ∧
      queue.completed ≤ (effect queue).completed ∧ (effect queue).made = queue.made) :
    Waits (device.zoom (deviceCall plan site effect answer)) := by
  have advanced (queue : CopyQueue) (progress : Nat) :
      (queue.advance site progress).submitted = queue.submitted ∧
        queue.completed ≤ (queue.advance site progress).completed ∧
        queue.made ⊆ (queue.advance site progress).made :=
    ⟨rfl, Nat.le_max_left _ _, List.subset_append_left _ _⟩
  apply Keeps.of_leaves
  intro runtime
  apply (device.leaves_zoom _ runtime).mpr
  apply (deviceCall_leaves plan site effect answer _).mpr
  have took (progress : Nat) :
      Later runtime (device.set (effect (runtime.device.advance site progress)) runtime) := by
    refine ⟨_, rfl, (completes _).1.trans (advanced _ progress).1,
      Nat.le_trans (advanced _ progress).2.1 (completes _).2.1, ?_⟩
    rw [(completes _).2.2]
    exact (advanced _ progress).2.2
  refine ⟨fun _ => took _, fun fault _ => ?_⟩
  cases fault.took with
  | true => exact took _
  | false => exact ⟨_, rfl, advanced _ _⟩

theorem reach_completes (mark : Mark) (queue : CopyQueue) :
    (queue.reach mark).submitted = queue.submitted ∧
      queue.completed ≤ (queue.reach mark).completed ∧
      (queue.reach mark).made = queue.made := by
  unfold CopyQueue.reach
  cases mark.stream with
  | compute => exact ⟨rfl, Nat.le_refl _, rfl⟩
  | copy => exact ⟨rfl, Nat.le_max_left _ _, rfl⟩

section Waits

variable (plan : Plan) (site : Site)

theorem submit_compute_waits (work : Work) :
    Waits (device.zoom ((queueMachine plan).submit site .compute work)) := by
  simp only [queueMachine]
  exact deviceCall_waits plan site (CopyQueue.submit .compute work) _ fun _ =>
    ⟨rfl, Nat.le_refl _, rfl⟩

theorem record_waits (stream : Stream) :
    Waits (device.zoom ((queueMachine plan).record site stream)) := by
  simp only [queueMachine]
  exact deviceCall_waits plan site id _ fun _ => ⟨rfl, Nat.le_refl _, rfl⟩

theorem waitEvent_waits (stream : Stream) (mark : Mark) :
    Waits (device.zoom ((queueMachine plan).waitEvent site stream mark)) := by
  simp only [queueMachine]
  exact deviceCall_waits plan site id _ fun _ => ⟨rfl, Nat.le_refl _, rfl⟩

theorem synchronize_waits (mark : Mark) :
    Waits (device.zoom ((queueMachine plan).synchronize site mark)) := by
  simp only [queueMachine]
  exact deviceCall_waits plan site (CopyQueue.reach mark) _ (reach_completes mark)

theorem drain_waits (stream : Stream) :
    Waits (device.zoom ((queueMachine plan).drain site stream)) := by
  simp only [queueMachine]
  exact deviceCall_waits plan site (fun queue => queue.reach (queue.mark stream)) _ fun queue =>
    reach_completes _ queue

theorem outside_waits : Waits (device.zoom ((queueMachine plan).outside site)) := by
  simp only [queueMachine]
  exact deviceCall_waits plan site id _ fun _ => ⟨rfl, Nat.le_refl _, rfl⟩

theorem ask_waits : Waits (device.zoom ((queueMachine plan).ask site)) := by
  simp only [queueMachine]
  exact deviceCall_waits plan site id _ fun _ => ⟨rfl, Nat.le_refl _, rfl⟩

end Waits

/-! ## What a call can do -/

section Outcomes

variable (plan : Plan) (site : Site) {runtime : QSAHiSparseRuntime CopyQueue}
  {raised : PyError -> QSAHiSparseRuntime CopyQueue -> Prop}

/-- One more call has been made, at this site. -/
structure NextCall (site : Site) (before after : QSAHiSparseRuntime CopyQueue) : Prop where
  later : Later before after
  calls : after.device.calls = before.device.calls + 1
  made : (before.device.calls, site) ∈ after.device.made

theorem advance_next (progress : Nat) :
    NextCall site runtime { runtime with device := runtime.device.advance site progress } where
  later := ⟨_, rfl, rfl, Nat.le_max_left _ _, List.subset_append_left _ _⟩
  calls := rfl
  made := List.mem_append_right _ (List.mem_singleton_self _)

theorem reach_later (mark : Mark) :
    Later runtime { runtime with device := runtime.device.reach mark } := by
  rcases reach_completes mark runtime.device with ⟨submitted, completed, made⟩
  refine ⟨_, rfl, submitted, completed, ?_⟩
  rw [made]
  exact List.Subset.refl _

/-- A submitted copy is queued, and may be when the call raises. -/
theorem submit_copy_leaves (work : Work)
    {post : PUnit -> QSAHiSparseRuntime CopyQueue -> Prop}
    (returns : forall after, NextCall site runtime after ->
      post ⟨⟩ { after with device := after.device.submit .copy work })
    (raises : forall fault after, (plan runtime.device.calls site).fault = some fault ->
      NextCall site runtime after ->
      raised fault.cause
        (if fault.took then { after with device := after.device.submit .copy work } else after)) :
    Leaves post raised ((device.zoom ((queueMachine plan).submit site .copy work)).run runtime) := by
  simp only [queueMachine]
  apply (device.leaves_zoom _ runtime).mpr
  apply (deviceCall_leaves plan site _ _ _).mpr
  refine ⟨fun _ => returns _ (advance_next site _), fun fault faults => ?_⟩
  have outcome := raises fault _ faults
    (advance_next site (plan runtime.device.calls site).progress)
  cases took : fault.took with
  | true =>
      rw [took] at outcome
      exact outcome
  | false =>
      rw [took] at outcome
      exact outcome

/-- A recorded event stands for everything submitted to its stream. -/
theorem record_leaves (stream : Stream)
    {post : Mark -> QSAHiSparseRuntime CopyQueue -> Prop}
    (returns : forall after, NextCall site runtime after -> post (after.device.mark stream) after)
    (raises : forall fault after, (plan runtime.device.calls site).fault = some fault ->
      NextCall site runtime after -> raised fault.cause after) :
    Leaves post raised ((device.zoom ((queueMachine plan).record site stream)).run runtime) := by
  simp only [queueMachine]
  apply (device.leaves_zoom _ runtime).mpr
  apply (deviceCall_leaves plan site _ _ _).mpr
  refine ⟨fun _ => returns _ (advance_next site _), fun fault faults => ?_⟩
  have outcome := raises fault _ faults
    (advance_next site (plan runtime.device.calls site).progress)
  cases fault.took <;> exact outcome

/-- A wait that returns has seen its event complete. -/
theorem synchronize_leaves (mark : Mark)
    {post : PUnit -> QSAHiSparseRuntime CopyQueue -> Prop}
    (returns : forall after, Later runtime after ->
      (mark.stream = .copy -> mark.position ≤ after.device.completed) -> post ⟨⟩ after)
    (raises : forall cause after, Later runtime after -> raised cause after) :
    Leaves post raised
      ((device.zoom ((queueMachine plan).synchronize site mark)).run runtime) := by
  have advanced := (@advance_next site runtime
    (plan runtime.device.calls site).progress).later
  have reached (queue : CopyQueue) (later : Later runtime { runtime with device := queue }) :
      Later runtime { runtime with device := queue.reach mark } :=
    later.trans (reach_later mark)
  simp only [queueMachine]
  apply (device.leaves_zoom _ runtime).mpr
  apply (deviceCall_leaves plan site _ _ _).mpr
  constructor
  · intro _
    apply returns _ (reached _ advanced)
    intro onCopy
    change mark.position ≤ (CopyQueue.reach mark _).completed
    unfold CopyQueue.reach
    rw [onCopy]
    exact Nat.le_max_right _ _
  · intro fault _
    apply raises
    cases fault.took with
    | true => exact reached _ advanced
    | false => exact advanced

/-- A drain of the copy stream that returns has seen every copy complete. -/
theorem drain_leaves (stream : Stream)
    {post : PUnit -> QSAHiSparseRuntime CopyQueue -> Prop}
    (returns : forall after, Later runtime after ->
      (stream = .copy -> after.device.submitted.length ≤ after.device.completed) -> post ⟨⟩ after)
    (raises : forall cause after, (plan runtime.device.calls site).fault ≠ none ->
      Later runtime after -> raised cause after) :
    Leaves post raised ((device.zoom ((queueMachine plan).drain site stream)).run runtime) := by
  have advanced := (@advance_next site runtime
    (plan runtime.device.calls site).progress).later
  have reached (queue : CopyQueue) (later : Later runtime { runtime with device := queue }) :
      Later runtime { runtime with device := queue.reach (queue.mark stream) } :=
    later.trans (reach_later _)
  simp only [queueMachine]
  apply (device.leaves_zoom _ runtime).mpr
  apply (deviceCall_leaves plan site _ _ _).mpr
  constructor
  · intro _
    apply returns _ (reached _ advanced)
    rintro rfl
    exact Nat.le_max_right _ _
  · intro fault faults
    apply raises
    · intro none
      exact absurd (faults.symm.trans none) (Option.some_ne_none fault)
    · cases fault.took with
      | true => exact reached _ advanced
      | false => exact advanced

end Outcomes

/-- What survives the passing of time is preserved by a program that waits. -/
theorem Waits.preserves {α : Type} {program : Method (QSAHiSparseRuntime CopyQueue) α}
    (waits : Waits program) {invariant : QSAHiSparseRuntime CopyQueue -> Prop}
    (lasting : forall before after, invariant before -> Later before after -> invariant after) :
    Preserves invariant program := by
  intro runtime holds
  exact (waits.leaves runtime).mono (fun _ after later => lasting runtime after holds later)
    (fun _ after later => lasting runtime after holds later)

end Runtime
end QSAHiSparse

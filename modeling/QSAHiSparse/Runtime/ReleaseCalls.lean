import QSAHiSparse.Runtime.NoReuse
import QSAHiSparse.Runtime.Reliable

namespace QSAHiSparse
namespace Runtime

open Foundation
open Ledger

/-!
# The calls of one release

A release makes its device calls in a fixed order: both drains when the replay
of the lease failed, a ledger record, the terminal event and the wait for it,
one wait for each copy event, and a last ledger record.  Which of them raises
decides the phase that is left: the last one comes after the phase has become
`drained`.
-/

/-! ## Calls in a row -/

/-- None of the calls made at these sites, the first being the call with this
number, raises. -/
def Plan.Passes (plan : Plan) : Nat -> List Site -> Prop
  | _, [] => True
  | calls, site :: sites => (plan calls site).fault = none ∧ plan.Passes (calls + 1) sites

instance Plan.passesDecidable (plan : Plan) :
    forall (calls : Nat) (sites : List Site), Decidable (plan.Passes calls sites)
  | _, [] => .isTrue trivial
  | calls, _ :: sites =>
      haveI := plan.passesDecidable (calls + 1) sites
      inferInstanceAs (Decidable (_ ∧ _))

/-- No call raises. -/
def Plan.Quiet (plan : Plan) : Prop :=
  forall calls site, (plan calls site).fault = none

theorem Plan.Quiet.passes {plan : Plan} (quiet : plan.Quiet) (sites : List Site) (calls : Nat) :
    plan.Passes calls sites := by
  induction sites generalizing calls with
  | nil => exact trivial
  | cons site sites previous => exact ⟨quiet calls site, previous (calls + 1)⟩

theorem Plan.passes_append (plan : Plan) (first second : List Site) (calls : Nat) :
    plan.Passes calls (first ++ second) <->
      plan.Passes calls first ∧ plan.Passes (calls + first.length) second := by
  induction first generalizing calls with
  | nil => exact ⟨fun passes => ⟨trivial, passes⟩, fun both => both.2⟩
  | cons site first previous =>
      change _ ∧ plan.Passes (calls + 1) (first ++ second) <->
        (_ ∧ plan.Passes (calls + 1) first) ∧
          plan.Passes (calls + (first.length + 1)) second
      rw [previous, and_assoc, Nat.add_assoc, Nat.add_comm 1]

/-- This many calls have been made, and nothing but the device has changed. -/
def Made (count : Nat) (before after : QSAHiSparseRuntime CopyQueue) : Prop :=
  exists queue : CopyQueue, after = { before with device := queue } ∧
    queue.calls = before.device.calls + count

theorem Made.trans {first second third : QSAHiSparseRuntime CopyQueue} {count others : Nat}
    (left : Made count first second) (right : Made others second third) :
    Made (count + others) first third := by
  rcases left with ⟨queue, rfl, calls⟩
  rcases right with ⟨last, rfl, lastCalls⟩
  refine ⟨last, rfl, ?_⟩
  change last.calls = queue.calls + others at lastCalls
  omega

theorem Made.beside {before after : QSAHiSparseRuntime CopyQueue} {count : Nat}
    (made : Made count before after) : Beside before after := by
  rcases made with ⟨queue, rfl, _⟩
  exact ⟨queue, rfl⟩

section Scripts

variable {plan : Plan} {α β : Type}

/-- The program only makes the calls at these sites, in order, and raises when one
of them does. -/
def Scripted (plan : Plan) (sites : List Site) (program : Method (QSAHiSparseRuntime CopyQueue) α) :
    Prop :=
  forall runtime, Leaves
    (fun _ after => Made sites.length runtime after ∧ plan.Passes runtime.device.calls sites)
    (fun _ after => Beside runtime after ∧ ¬ plan.Passes runtime.device.calls sites)
    (program.run runtime)

theorem scripted_pure (value : α) : Scripted plan [] (pure value) :=
  fun runtime => ⟨⟨runtime.device, rfl, rfl⟩, trivial⟩

theorem Scripted.bind {first second : List Site}
    {program : Method (QSAHiSparseRuntime CopyQueue) α}
    {next : α -> Method (QSAHiSparseRuntime CopyQueue) β}
    (starts : Scripted plan first program) (goes : forall value, Scripted plan second (next value)) :
    Scripted plan (first ++ second) (program >>= next) := by
  intro runtime
  apply (Leaves.bind_iff _ _ _).mpr
  apply (starts runtime).mono
  · rintro value middle ⟨made, passes⟩
    have calls : middle.device.calls = runtime.device.calls + first.length := by
      rcases made with ⟨queue, rfl, same⟩
      exact same
    apply (goes value middle).mono
    · rintro _ after ⟨more, rest⟩
      rw [calls] at rest
      rw [List.length_append]
      exact ⟨made.trans more, (plan.passes_append first second _).mpr ⟨passes, rest⟩⟩
    · rintro _ after ⟨beside, stops⟩
      rw [calls] at stops
      exact ⟨made.beside.trans beside, fun both =>
        stops ((plan.passes_append first second _).mp both).2⟩
  · rintro _ after ⟨beside, stops⟩
    exact ⟨beside, fun both => stops ((plan.passes_append first second _).mp both).1⟩

theorem scripted_call (site : Site) (effect : CopyQueue -> CopyQueue)
    (answer : Reply -> CopyQueue -> α)
    (counts : forall queue, (effect queue).calls = queue.calls) :
    Scripted plan [site] (device.zoom (deviceCall plan site effect answer)) := by
  intro runtime
  apply (device.leaves_zoom _ runtime).mpr
  apply (deviceCall_leaves plan site effect answer _).mpr
  constructor
  · intro passes
    refine ⟨⟨_, rfl, ?_⟩, passes, trivial⟩
    rw [counts]
    rfl
  · intro fault faults
    refine ⟨⟨_, rfl⟩, fun passes => ?_⟩
    have none : (plan runtime.device.calls site).fault = none := passes.1
    change (plan runtime.device.calls site).fault = some fault at faults
    rw [none] at faults
    cases faults

theorem reach_calls (mark : Mark) (queue : CopyQueue) :
    (queue.reach mark).calls = queue.calls := by
  unfold CopyQueue.reach
  cases mark.stream <;> rfl

theorem outside_scripted (site : Site) :
    Scripted plan [site] (device.zoom ((queueMachine plan).outside site)) := by
  simp only [queueMachine]
  exact scripted_call site id _ fun _ => rfl

theorem record_scripted (site : Site) (stream : Stream) :
    Scripted plan [site] (device.zoom ((queueMachine plan).record site stream)) := by
  simp only [queueMachine]
  exact scripted_call site id _ fun _ => rfl

theorem synchronize_scripted (site : Site) (mark : Mark) :
    Scripted plan [site] (device.zoom ((queueMachine plan).synchronize site mark)) := by
  simp only [queueMachine]
  exact scripted_call site (CopyQueue.reach mark) _ (reach_calls mark)

theorem drain_scripted (site : Site) (stream : Stream) :
    Scripted plan [site] (device.zoom ((queueMachine plan).drain site stream)) := by
  simp only [queueMachine]
  exact scripted_call site (fun queue => queue.reach (queue.mark stream)) _ fun queue =>
    reach_calls _ queue

/-- Both drains are attempted before either error is raised. -/
theorem drainGraphStreams_scripted :
    Scripted plan [.drainProducer, .drainCopy] (drainGraphStreams (queueMachine plan)) := by
  have attempted {sites : List Site} {program : Method (QSAHiSparseRuntime CopyQueue) PUnit}
      (scripted : Scripted plan sites program) (runtime : QSAHiSparseRuntime CopyQueue) :
      Leaves
        (fun error after => Beside runtime after ∧
          (error = none -> Made sites.length runtime after) ∧
          (error = none <-> plan.Passes runtime.device.calls sites))
        (fun _ _ => False) ((attempt program).run runtime) := by
    unfold attempt
    apply (Leaves.tryCatch_iff _ _ _).mpr
    apply (Leaves.bind_iff _ _ _).mpr
    apply (scripted runtime).mono
    · rintro _ after ⟨made, passes⟩
      exact ⟨made.beside, fun _ => made, fun _ => passes, fun _ => rfl⟩
    · rintro cause after ⟨beside, stops⟩
      exact ⟨beside, fun absent => absurd absent (Option.some_ne_none cause),
        fun absent => absurd absent (Option.some_ne_none cause), fun passes => absurd passes stops⟩
  intro runtime
  have both := plan.passes_append [.drainProducer] [.drainCopy] runtime.device.calls
  unfold drainGraphStreams
  apply (Leaves.bind_iff _ _ _).mpr
  apply (attempted (drain_scripted .drainProducer .compute) runtime).mono
  · rintro first middle ⟨besideFirst, madeFirst, firstPasses⟩
    apply (Leaves.bind_iff _ _ _).mpr
    apply (attempted (drain_scripted .drainCopy .copy) middle).mono
    · rintro second after ⟨besideSecond, madeSecond, secondPasses⟩
      cases first with
      | some error =>
          refine ⟨besideFirst.trans besideSecond, fun passes => ?_⟩
          cases firstPasses.mpr (both.mp passes).1
      | none =>
          have calls : middle.device.calls = runtime.device.calls + 1 := by
            rcases madeFirst rfl with ⟨queue, rfl, same⟩
            exact same
          rw [calls] at secondPasses
          cases second with
          | some error =>
              refine ⟨besideFirst.trans besideSecond, fun passes => ?_⟩
              cases secondPasses.mpr (both.mp passes).2
          | none =>
              exact ⟨(madeFirst rfl).trans (madeSecond rfl),
                both.mpr ⟨firstPasses.mp rfl, secondPasses.mp rfl⟩⟩
    · exact fun _ _ impossible => absurd impossible id
  · exact fun _ _ impossible => absurd impossible id

/-- One wait for each completion event that was recorded. -/
theorem synchronizeAll_scripted (plan : Plan) (self : QSAHiSparseRuntime CopyQueue) (terminal : Mark)
    (events : List Event) :
    Scripted plan
      (.terminalSynchronize :: (events.filterMap self.markOf).map fun _ => .copySynchronize)
      (synchronizeAll
        (device.zoom ((queueMachine plan).synchronize .terminalSynchronize terminal))
        (events.map fun event => some (synchronizeEvent (queueMachine plan) self event))) := by
  unfold synchronizeAll
  refine Scripted.bind (synchronize_scripted .terminalSynchronize terminal) fun _ => ?_
  induction events with
  | nil => exact scripted_pure PUnit.unit
  | cons event events previous =>
      rw [List.map_cons, List.forM_cons]
      have waits : Scripted plan (((self.markOf event).map fun _ => Site.copySynchronize).toList)
          (synchronizeEvent (queueMachine plan) self event) := by
        unfold synchronizeEvent
        cases self.markOf event with
        | none => exact scripted_pure PUnit.unit
        | some mark => exact synchronize_scripted .copySynchronize mark
      have sites : ((event :: events).filterMap self.markOf).map (fun _ => Site.copySynchronize) =
          ((self.markOf event).map fun _ => Site.copySynchronize).toList ++
            (events.filterMap self.markOf).map fun _ => Site.copySynchronize := by
        rw [List.filterMap_cons]
        cases self.markOf event <;> rfl
      rw [sites]
      exact Scripted.bind waits fun _ => previous

theorem deviceCall_returns (quiet : plan.Quiet) (site : Site) (effect : CopyQueue -> CopyQueue)
    (answer : Reply -> CopyQueue -> α) : Returns (deviceCall plan site effect answer) := by
  intro queue
  apply (deviceCall_leaves plan site effect answer queue).mpr
  refine ⟨fun _ => trivial, fun fault faults => ?_⟩
  rw [quiet] at faults
  cases faults

theorem queueMachine_reliable (quiet : plan.Quiet) : (queueMachine plan).Reliable where
  submit site stream work := by
    simp only [queueMachine]
    exact deviceCall_returns quiet site _ _
  record site stream := by
    simp only [queueMachine]
    exact deviceCall_returns quiet site _ _
  waitEvent site stream mark := by
    simp only [queueMachine]
    exact deviceCall_returns quiet site _ _
  synchronize site mark := by
    simp only [queueMachine]
    exact deviceCall_returns quiet site _ _
  drain site stream := by
    simp only [queueMachine]
    exact deviceCall_returns quiet site _ _
  outside site := by
    simp only [queueMachine]
    exact deviceCall_returns quiet site _ _
  ask site := by
    simp only [queueMachine]
    exact deviceCall_returns quiet site _ _

end Scripts

/-! ## One release -/

section Release

variable (plan : Plan) {config : Config} {lease : QSAHiSparseLease}

/-- The row holds this request, and its lease is this one. -/
structure Requested (runtime : QSAHiSparseRuntime CopyQueue) (reqIdx : Int) (rid : String)
    (lease : QSAHiSparseLease) : Prop where
  found : runtime.requests.get? reqIdx = some lease
  named : lease.rid = rid
  current : lease.generation = runtime.reqGeneration reqIdx

/-- The drains of a lease whose replay failed. -/
def failedSites (runtime : QSAHiSparseRuntime CopyQueue) (lease : QSAHiSparseLease) : List Site :=
  if lease ∈ runtime.graphFailedLeases then [.drainProducer, .drainCopy] else []

/-- The terminal event, the wait for it and the waits for the copies. -/
def drainSites (runtime : QSAHiSparseRuntime CopyQueue) (lease : QSAHiSparseLease) : List Site :=
  .terminal :: .terminalSynchronize ::
    ((runtime.caches lease).events.filterMap runtime.markOf).map fun _ => .copySynchronize

/-- The calls of a release before the phase becomes `drained`. -/
def releaseSites (runtime : QSAHiSparseRuntime CopyQueue) (lease : QSAHiSparseLease) :
    List Site :=
  failedSites runtime lease ++ (.eventLog :: drainSites runtime lease)

/-- One of these calls raises. -/
def Plan.StopsShort (plan : Plan) (runtime : QSAHiSparseRuntime CopyQueue)
    (lease : QSAHiSparseLease) : Prop :=
  ¬ plan.Passes runtime.device.calls (releaseSites runtime lease)

/-- The lease has been drained, and with that its failed replay is settled. -/
def Drained (lease : QSAHiSparseLease) (before after : QSAHiSparseRuntime CopyQueue) : Prop :=
  exists queue : CopyQueue, after =
    { before with
      slots := ((before.slots.setPhase lease .releasing).leaveLane lease).setPhase lease .drained
      graphFailedLeases := before.graphFailedLeases.filter (· ≠ lease)
      device := queue }

/-- The lease has kept its phase, or failed. -/
def Stopped (lease : QSAHiSparseLease) (before after : QSAHiSparseRuntime CopyQueue) : Prop :=
  exists (queue : CopyQueue) (slots : QSAHiSparseSlots) (failed : List QSAHiSparseLease),
    after = { before with slots, graphFailedLeases := failed, device := queue } ∧
    (slots = before.slots ∨
      slots = (before.slots.setPhase lease .releasing).setPhase lease .failed) ∧
    (failed = before.graphFailedLeases ∨ failed = before.graphFailedLeases.filter (· ≠ lease))

theorem drainFailedLease_leaves (lease : QSAHiSparseLease)
    (runtime : QSAHiSparseRuntime CopyQueue) :
    Leaves
      (fun _ after => plan.Passes runtime.device.calls (failedSites runtime lease) ∧
        exists queue : CopyQueue, queue.calls =
            runtime.device.calls + (failedSites runtime lease).length ∧
          after =
            { runtime with
              graphFailedLeases := runtime.graphFailedLeases.filter (· ≠ lease)
              device := queue })
      (fun _ after => Beside runtime after ∧
        ¬ plan.Passes runtime.device.calls (failedSites runtime lease))
      ((drainFailedLease (queueMachine plan) lease).run runtime) := by
  unfold drainFailedLease failedSites
  apply (Leaves.bind_iff _ _ _).mpr
  apply (Leaves.get_iff _).mpr
  by_cases marked : lease ∈ runtime.graphFailedLeases
  · rw [if_pos marked, if_pos marked]
    apply (Leaves.bind_iff _ _ _).mpr
    apply (drainGraphStreams_scripted runtime).mono
    · rintro _ after ⟨⟨queue, rfl, calls⟩, passes⟩
      exact ⟨passes, queue, calls, rfl⟩
    · exact fun _ _ both => both
  · rw [if_neg marked, if_neg marked]
    refine ⟨trivial, runtime.device, rfl, ?_⟩
    have same : runtime.graphFailedLeases.filter (· ≠ lease) = runtime.graphFailedLeases := by
      apply List.filter_eq_self.mpr
      intro other member
      exact decide_eq_true fun equal => marked (equal ▸ member)
    rw [same]

theorem drainLease_leaves (producer : config.producerStream = true)
    (runtime : QSAHiSparseRuntime CopyQueue)
    (permits : runtime.slots.Permits lease drainPhases) :
    Leaves
      (fun _ after => plan.Passes runtime.device.calls (drainSites runtime lease) ∧
        exists queue : CopyQueue, after =
          { runtime with
            slots := ((runtime.slots.setPhase lease .releasing).leaveLane lease).setPhase lease
              .drained
            device := queue })
      (fun cause after => ¬ plan.Passes runtime.device.calls (drainSites runtime lease) ∧
        (cause.isException = true ->
          exists (queue : CopyQueue) (slots : QSAHiSparseSlots),
            after = { runtime with slots, device := queue } ∧
            (slots = runtime.slots ∨
              slots = (runtime.slots.setPhase lease .releasing).setPhase lease .failed)))
      ((drainLease (queueMachine plan) config lease).run runtime) := by
  have sites : drainSites runtime lease = [.terminal] ++ (.terminalSynchronize ::
      ((runtime.caches lease).events.filterMap runtime.markOf).map fun _ => .copySynchronize) :=
    rfl
  rw [sites, plan.passes_append]
  unfold drainLease
  apply (Leaves.bind_iff _ _ _).mpr
  apply (Leaves.raiseIf_iff _ _ _).mpr
  constructor
  · intro missing
    rw [producer] at missing
    cases missing
  intro _
  apply (Leaves.bind_iff _ _ _).mpr
  apply (record_scripted .terminal .compute runtime).mono
  · rintro terminal after ⟨⟨queue, rfl, calls⟩, recorded⟩
    apply (Leaves.bind_iff _ _ _).mpr
    apply (Leaves.get_iff _).mpr
    apply Ledger.drain_leaves
    · intro refused
      refine absurd ⟨permits, by simp, ?_⟩ refused
      exact fun member => by simp at member
    intro _
    have waits := synchronizeAll_scripted plan { runtime with device := queue } terminal
      (runtime.caches lease).events
      { runtime with
        slots := runtime.slots.setPhase lease .releasing
        device := queue }
    change queue.calls = runtime.device.calls + 1 at calls
    have same : [Site.terminal].length = 1 := rfl
    rw [same, <- calls]
    apply waits.mono
    · rintro _ last ⟨⟨final, rfl, _⟩, passes⟩
      exact ⟨⟨recorded, passes⟩, final, rfl⟩
    · rintro cause last ⟨⟨final, rfl⟩, stops⟩
      refine ⟨fun caught => ⟨fun both => stops both.2, fun _ => ?_⟩, fun passed => ?_⟩
      · exact ⟨final, _, rfl, Or.inr rfl⟩
      · refine ⟨fun both => stops both.2, fun caught => ?_⟩
        rw [passed] at caught
        cases caught
  · rintro cause after ⟨⟨queue, rfl⟩, stops⟩
    exact ⟨fun both => stops both.1, fun _ => ⟨queue, runtime.slots, rfl, Or.inl rfl⟩⟩

/-- A release of a lease in a phase that `drain` accepts drains it, unless a
call before the last ledger record raises. -/
theorem release_leaves (producer : config.producerStream = true)
    {runtime : QSAHiSparseRuntime CopyQueue} {reqIdx : Int} {rid : String}
    (requested : Requested runtime reqIdx rid lease)
    (permits : runtime.slots.Permits lease drainPhases) :
    Leaves
      (fun value after => value = some lease ∧ ¬ plan.StopsShort runtime lease ∧
        Drained lease runtime after)
      (fun cause after =>
        (plan.StopsShort runtime lease ∧
          (cause.isException = true -> Stopped lease runtime after)) ∨
        (¬ plan.StopsShort runtime lease ∧ ¬ plan.Quiet ∧ Drained lease runtime after))
      ((release (queueMachine plan) config reqIdx rid).run runtime) := by
  have listed : runtime.requests.contains reqIdx ≠ false := by
    have member := Dict.mem_keys_iff.mpr ⟨lease, requested.found⟩
    rw [Dict.contains, ne_eq, decide_eq_false_iff_not, not_not]
    exact member
  unfold release
  apply (Leaves.bind_iff _ _ _).mpr
  apply (Leaves.get_iff _).mpr
  rw [if_neg listed]
  unfold releaseHeld Plan.StopsShort releaseSites
  rw [plan.passes_append, Classical.not_not]
  apply (Leaves.bind_iff _ _ _).mpr
  apply (request_returns requested.found requested.named requested.current permits.1).mono
  · rintro value here ⟨rfl, rfl⟩
    apply (Leaves.bind_iff _ _ _).mpr
    apply (drainFailedLease_leaves plan value here).mono
    · rintro _ middle ⟨settled, queue, calls, rfl⟩
      rw [<- calls]
      apply (Leaves.bind_iff _ _ _).mpr
      apply (outside_scripted .eventLog _).mono
      · rintro _ begun ⟨⟨next, rfl, nextCalls⟩, noted, _⟩
        change next.calls = queue.calls + 1 at nextCalls
        apply (Leaves.bind_iff _ _ _).mpr
        apply (drainLease_leaves plan producer
          { here with
            graphFailedLeases := here.graphFailedLeases.filter (· ≠ value)
            device := next } permits).mono
        · rintro _ drained ⟨waited, last, rfl⟩
          change plan.Passes next.calls _ at waited
          rw [nextCalls] at waited
          apply (Leaves.bind_iff _ _ _).mpr
          apply (outside_scripted .eventLog _).mono
          · rintro _ after ⟨⟨final, rfl, _⟩, _⟩
            exact ⟨rfl, ⟨settled, noted, waited⟩, final, rfl⟩
          · rintro cause after ⟨⟨final, rfl⟩, stops⟩
            exact Or.inr ⟨⟨settled, noted, waited⟩, fun quiet => stops (quiet.passes _ _),
              final, rfl⟩
        · rintro cause after ⟨stops, phases⟩
          change ¬ plan.Passes next.calls _ at stops
          rw [nextCalls] at stops
          refine Or.inl ⟨fun passes => stops passes.2.2, fun caught => ?_⟩
          rcases phases caught with ⟨last, slots, rfl, either⟩
          exact ⟨last, slots, _, rfl, either, Or.inr rfl⟩
      · rintro cause after ⟨⟨next, rfl⟩, stops⟩
        refine Or.inl ⟨fun passes => stops ⟨passes.2.1, trivial⟩, fun _ => ?_⟩
        exact ⟨next, _, _, rfl, Or.inl rfl, Or.inr rfl⟩
    · rintro cause after ⟨⟨next, rfl⟩, stops⟩
      refine Or.inl ⟨fun passes => stops passes.1, fun _ => ?_⟩
      exact ⟨next, _, _, rfl, Or.inl rfl, Or.inl rfl⟩
  · exact fun _ _ impossible => absurd impossible id

/-- A lease that `drain` does not accept is never released, and neither is any
without a producer stream. -/
theorem release_refused {runtime : QSAHiSparseRuntime CopyQueue} {reqIdx : Int} (rid : String)
    (found : runtime.requests.get? reqIdx = some lease)
    (refused : ¬ (config.producerStream = true ∧ runtime.slots.Permits lease drainPhases)) :
    Leaves (fun _ _ => False) (fun _ after => after.slots = runtime.slots)
      ((release (queueMachine plan) config reqIdx rid).run runtime) := by
  have listed : runtime.requests.contains reqIdx ≠ false := by
    have member := Dict.mem_keys_iff.mpr ⟨lease, found⟩
    rw [Dict.contains, ne_eq, decide_eq_false_iff_not, not_not]
    exact member
  have hostOnly : HostOnly fun after : QSAHiSparseRuntime CopyQueue =>
      after.slots = runtime.slots := fun _ _ same => same
  have steady := hostOnly.steady (queueMachine plan)
  have drains : Ensures (fun after : QSAHiSparseRuntime CopyQueue => after.slots = runtime.slots)
      (drainLease (queueMachine plan) config lease) (fun _ _ => False)
      (fun _ after => after.slots = runtime.slots) := by
    intro here same
    unfold drainLease
    apply (Leaves.bind_iff _ _ _).mpr
    apply (Leaves.raiseIf_iff _ _ _).mpr
    refine ⟨fun _ => same, fun producer => ?_⟩
    rw [Bool.not_eq_false] at producer
    apply (Leaves.bind_iff _ _ _).mpr
    apply (steady.record .terminal .compute here same).mono
    · intro terminal after same
      apply (Leaves.bind_iff _ _ _).mpr
      apply (Leaves.get_iff _).mpr
      apply Ledger.drain_leaves
      · exact fun _ _ => same
      · intro starts
        have permits : after.slots.Permits lease drainPhases := starts.1
        rw [same] at permits
        exact absurd ⟨producer, permits⟩ refused
    · exact fun _ _ same => same
  have rest : Ensures (fun after : QSAHiSparseRuntime CopyQueue => after.slots = runtime.slots)
      (do
        drainFailedLease (queueMachine plan) lease
        device.zoom ((queueMachine plan).outside .eventLog)
        drainLease (queueMachine plan) config lease
        device.zoom ((queueMachine plan).outside .eventLog)
        return some lease) (fun _ _ => False) (fun _ after => after.slots = runtime.slots) := by
    refine Ensures.bind (?_ : Preserves _ _) fun _ => ?_
    · unfold drainFailedLease
      refine Preserves.get_bind fun self => ?_
      refine Preserves.ite (fun _ => ?_) (fun _ => Preserves.pure PUnit.unit)
      exact Preserves.bind steady.drainGraphStreams fun _ => Preserves.modify fun _ same => same
    refine Ensures.bind (steady.outside .eventLog) fun _ => ?_
    exact Ensures.bind drains fun _ _ impossible => absurd impossible id
  unfold release
  apply (Leaves.bind_iff _ _ _).mpr
  apply (Leaves.get_iff _).mpr
  rw [if_neg listed]
  unfold releaseHeld
  apply (Leaves.bind_iff _ _ _).mpr
  apply (request_leaves reqIdx rid runtime).mono
  · rintro other here ⟨rfl, again, _⟩
    rw [found] at again
    cases again
    exact rest here rfl
  · rintro cause here rfl
    rfl

/-- A release for another request does nothing. -/
theorem release_foreign {runtime : QSAHiSparseRuntime CopyQueue} {reqIdx : Int} {rid : String}
    (found : runtime.requests.get? reqIdx = some lease)
    (foreign : ¬ Requested runtime reqIdx rid lease) :
    Leaves (fun _ _ => False) (fun _ after => after = runtime)
      ((release (queueMachine plan) config reqIdx rid).run runtime) := by
  have listed : runtime.requests.contains reqIdx ≠ false := by
    have member := Dict.mem_keys_iff.mpr ⟨lease, found⟩
    rw [Dict.contains, ne_eq, decide_eq_false_iff_not, not_not]
    exact member
  unfold release
  apply (Leaves.bind_iff _ _ _).mpr
  apply (Leaves.get_iff _).mpr
  rw [if_neg listed]
  unfold releaseHeld
  apply (Leaves.bind_iff _ _ _).mpr
  apply (request_matches reqIdx rid runtime).mono
  · rintro other here ⟨again, named, current⟩
    rw [found] at again
    cases again
    exact absurd ⟨found, named, current⟩ foreign
  · rintro cause here rfl
    rfl

end Release

end Runtime
end QSAHiSparse

import QSAHiSparse.Runtime.ReleaseCalls

namespace QSAHiSparse
namespace Runtime

open Foundation
open Ledger

/-!
# Releases that raise and are called again

When a release raises an `Exception` before its last ledger record the lease is
left in a phase that `drain` accepts again, and whatever happens to other rows
in between, a later release of the row can still return it.  When it is the last
record that raises, the phase is `drained`, which `drain` does not accept.
-/

section Runs

variable {plan : Plan} {config : Config} {lease : QSAHiSparseLease} {reqIdx : Int}

/-- Every release of the row among these calls raises an `Exception` and stops
short. -/
def Spared (plan : Plan) (config : Config) (reqIdx : Int) (lease : QSAHiSparseLease) :
    QSAHiSparseRuntime CopyQueue -> List Call -> Prop
  | _, [] => True
  | runtime, call :: calls =>
      (forall rid, call = .release reqIdx rid ->
        plan.StopsShort runtime lease ∧ exists cause after,
          (release (queueMachine plan) config reqIdx rid).run runtime = .error cause after ∧
            cause.isException = true) ∧
      Spared plan config reqIdx lease
        (finalState ((perform (queueMachine plan) config call).run runtime)) calls

/-- The lease is active on the row, its slot is taken and nothing else has
changed; and after any calls that spare it, once the row still belongs to the
request, a release in which nothing fails returns the lease, which
`after_release` then gives back. -/
structure Retryable (plan : Plan) (config : Config) (runtime after : QSAHiSparseRuntime CopyQueue)
    (reqIdx : Int) (rid : String) (lease : QSAHiSparseLease) : Prop where
  held : after.slots.Holds lease ∧ lease.slot ∉ after.slots.freeSlots
  ledger : after.slots = { runtime.slots with phases := after.slots.phases }
  phases : forall row, row ≠ lease.reqPoolIdx ->
    after.slots.phases.get? row = runtime.slots.phases.get? row
  marks : forall other, other ≠ lease ->
    (other ∈ after.graphFailedLeases <-> other ∈ runtime.graphFailedLeases)
  rest : after =
    { runtime with
      slots := after.slots
      graphFailedLeases := after.graphFailedLeases
      device := after.device }
  retried : forall calls, Spared plan config reqIdx lease after calls ->
    forall later, later = callAll (perform (queueMachine plan) config) after calls ->
    lease.generation = later.reqGeneration reqIdx -> forall quiet : Plan, quiet.Quiet ->
    exists released,
      (release (queueMachine quiet) config reqIdx rid).run later = .ok (some lease) released ∧
      (released.freeGroupOpen = false -> exists final,
        (afterRelease (queueMachine quiet) lease).run released = .ok ⟨⟩ final ∧
          GivenBack lease released final)

/-- The changes that leave a lease in a phase that `drain` accepts. -/
def sparing (lease : QSAHiSparseLease) (change : Change) : Prop :=
  change ≠ .interrupted lease ∧ change ≠ .drained lease

/-- The row has this lease, in a phase that `drain` accepts. -/
def Drainable (reqIdx : Int) (lease : QSAHiSparseLease) (state : Tenancy) : Prop :=
  state.Valid ∧ state.requests.get? reqIdx = some lease ∧ state.slots.Permits lease drainPhases

theorem setPhase_drainable {slots : QSAHiSparseSlots} {other : QSAHiSparseLease} {phase : Phase}
    (held : slots.Holds other) (accepted : phase ∈ drainPhases)
    (permits : slots.Permits lease drainPhases) :
    (slots.setPhase other phase).Permits lease drainPhases := by
  by_cases same : lease = other
  · rw [same]
    rcases held.setPhase_permits phase with ⟨heldHere, found, present, member⟩
    rw [List.mem_singleton] at member
    exact ⟨heldHere, found, present, member ▸ accepted⟩
  · exact setPhase_other held same permits

theorem drainable_closed (reqIdx : Int) (lease : QSAHiSparseLease) :
    Closed (sparing lease) (Drainable reqIdx lease) := by
  rintro change before after ⟨continued, undrained⟩ ⟨valid, found, permits⟩ step
  refine ⟨valid.step step, ?_⟩
  have settled {other : QSAHiSparseLease} {phase : Phase} (outside : phase ∉ drainPhases)
      (others : before.slots.Permits other [phase]) : lease ≠ other := by
    rintro rfl
    refine permits_disjoint permits others fun current inside isPhase => ?_
    rw [List.mem_singleton] at isPhase
    exact outside (isPhase ▸ inside)
  cases step with
  | granted other rest real positive named free newer unowned slots =>
      exact ⟨found, grant_permits free permits⟩
  | enlisted other held =>
      refine ⟨?_, permits⟩
      change (before.requests.set other.reqPoolIdx other).get? reqIdx = some lease
      rw [Dict.get?_set]
      by_cases same : reqIdx = other.reqPoolIdx
      · rw [if_pos same]
        have row : lease.reqPoolIdx = reqIdx := (valid.owned reqIdx lease found).1
        rw [held_unique held permits.1 (row.trans same)]
      · rw [if_neg same]
        exact found
  | copying other ready owner => exact ⟨found, setPhase_drainable ready.1 (by decide) permits⟩
  | staged other ready owner => exact ⟨found, setPhase_drainable ready.1 (by decide) permits⟩
  | admitted other ready => exact ⟨found, setPhase_drainable ready.1 (by decide) permits⟩
  | handoffFailed other held => exact ⟨found, setPhase_drainable held (by decide) permits⟩
  | replayFailed other ready => exact ⟨found, setPhase_drainable ready.1 (by decide) permits⟩
  | marked leases failed => exact ⟨found, permits⟩
  | settled leases => exact ⟨found, permits⟩
  | interrupted other ready =>
      have different : lease ≠ other := fun same => continued (same ▸ rfl)
      exact ⟨found, setPhase_other ready.1 different permits⟩
  | drainFailed other ready =>
      refine ⟨found, ?_⟩
      by_cases same : lease = other
      · rw [same]
        have held : (before.slots.setPhase other .releasing).Holds other := ready.1
        rcases held.setPhase_permits .failed with ⟨heldHere, phase, present, member⟩
        rw [List.mem_singleton] at member
        exact ⟨heldHere, phase, present, member ▸ by decide⟩
      · have held : (before.slots.setPhase other .releasing).Holds other := ready.1
        exact setPhase_other held same (setPhase_other ready.1 same permits)
  | drained other ready listed unmarked =>
      have different : lease ≠ other := fun same => undrained (same ▸ rfl)
      have held : (before.slots.setPhase other .releasing).Holds other := ready.1
      refine ⟨found, setPhase_other (leaveLane_holds.mpr held) different ?_⟩
      exact leaveLane_permits.mpr (setPhase_other ready.1 different permits)
  | flushed other ready closed =>
      exact ⟨found, setPhase_other ready.1 (settled (by decide) ready) permits⟩
  | committed other ready closed =>
      have different := settled (by decide) ready
      refine ⟨?_, giveBack_permits ready.1 different permits⟩
      change (before.requests.erase other.reqPoolIdx).get? reqIdx = some lease
      have row : lease.reqPoolIdx = reqIdx := (valid.owned reqIdx lease found).1
      rw [Dict.get?_erase_of_ne, found]
      rintro same
      exact different (held_unique ready.1 permits.1 (row.trans same))
  | deferred other ready opened fresh => exact ⟨found, permits⟩
  | popped other rest listed inactive => exact ⟨found, permits⟩
  | grouped isOpen => exact ⟨found, permits⟩

/-- A call of anything but a release of the row spares the lease. -/
theorem may_sparing {state : Tenancy} (valid : state.Valid)
    (found : state.requests.get? reqIdx = some lease) {call : Call}
    (other : forall rid, call ≠ .release reqIdx rid) {change : Change}
    (may : Call.May state call change) : sparing lease change := by
  cases may with
  | granted batch granted => exact ⟨nofun, nofun⟩
  | enlisted batch granted => exact ⟨nofun, nofun⟩
  | handoff row rid handed change listed allowed =>
      rcases allowed with rfl | rfl | rfl <;> exact ⟨nofun, nofun⟩
  | admitted admitted => exact ⟨nofun, nofun⟩
  | replay batch count change allowed =>
      rcases allowed with ⟨failed, _, rfl⟩ | ⟨leases, _, rfl | rfl⟩ <;> exact ⟨nofun, nofun⟩
  | release row rid released change listed allowed =>
      have different : released ≠ lease := by
        rintro rfl
        have rows : row = reqIdx := (valid.owned _ _ listed).1.symm.trans (valid.owned _ _ found).1
        exact other rid (rows ▸ rfl)
      rcases allowed with rfl | rfl | rfl | rfl
      · exact ⟨nofun, nofun⟩
      · exact ⟨fun same => different (Change.interrupted.inj same), nofun⟩
      · exact ⟨nofun, nofun⟩
      · exact ⟨nofun, fun same => different (Change.drained.inj same)⟩
  | afterRelease committed change allowed =>
      rcases allowed with rfl | rfl | rfl <;> exact ⟨nofun, nofun⟩
  | opened => exact ⟨nofun, nofun⟩
  | closed => exact ⟨nofun, nofun⟩
  | flush change allowed =>
      rcases allowed with ⟨flushed, member, rfl | rfl | rfl⟩ <;> exact ⟨nofun, nofun⟩
  | logicalFlush change allowed =>
      rcases allowed with ⟨flushed, member, rfl | rfl | rfl⟩ <;> exact ⟨nofun, nofun⟩

/-- A release that stops short leaves a phase that `drain` accepts. -/
theorem Stopped.permits {before after : QSAHiSparseRuntime CopyQueue}
    (stopped : Stopped lease before after) (permits : before.slots.Permits lease drainPhases) :
    after.slots.Permits lease drainPhases := by
  rcases stopped with ⟨queue, slots, failed, rfl, rfl | rfl, _⟩
  · exact permits
  · have held : (before.slots.setPhase lease .releasing).Holds lease := permits.1
    rcases held.setPhase_permits .failed with ⟨heldHere, phase, present, member⟩
    rw [List.mem_singleton] at member
    exact ⟨heldHere, phase, present, member ▸ by decide⟩

theorem Stopped.requests {before after : QSAHiSparseRuntime CopyQueue}
    (stopped : Stopped lease before after) : after.requests = before.requests := by
  rcases stopped with ⟨queue, slots, failed, rfl, _⟩
  rfl

/-- One call that spares the lease. -/
theorem perform_drainable (producer : config.producerStream = true)
    {runtime : QSAHiSparseRuntime CopyQueue} (call : Call)
    (spares : forall rid, call = .release reqIdx rid ->
      plan.StopsShort runtime lease ∧ exists cause after,
        (release (queueMachine plan) config reqIdx rid).run runtime = .error cause after ∧
          cause.isException = true)
    (idle : Idle (Drainable reqIdx lease) runtime) :
    Idle (Drainable reqIdx lease)
      (finalState ((perform (queueMachine plan) config call).run runtime)) := by
  rcases idle with ⟨⟨valid, found, permits⟩, none⟩
  by_cases released : exists rid, call = .release reqIdx rid
  · rcases released with ⟨rid, rfl⟩
    rcases spares rid rfl with ⟨short, cause, after, raised, caught⟩
    have kept : Idle Tenancy.Valid (finalState ((perform (queueMachine plan) config
        (.release reqIdx rid)).run runtime)) :=
      perform_idle (queueMachine plan) config valid (.release reqIdx rid)
        (fun _ _ _ _ valid step => valid.step step) ⟨valid, none⟩
    have final : finalState ((perform (queueMachine plan) config (.release reqIdx rid)).run
        runtime) = after := by
      unfold perform
      rw [EStateM.run_bind, raised]
      rfl
    rw [final] at kept ⊢
    by_cases requested : Requested runtime reqIdx rid lease
    · have outcome := release_leaves plan producer requested permits
      rw [raised] at outcome
      rcases outcome with ⟨_, stops⟩ | ⟨passes, _⟩
      · have stopped := stops caught
        refine ⟨⟨kept.1, ?_, stopped.permits permits⟩, kept.2⟩
        change after.requests.get? reqIdx = some lease
        rw [stopped.requests]
        exact found
      · exact absurd short passes
    · have outcome := @release_foreign plan config _ _ _ _ found requested
      rw [raised] at outcome
      have same : after = runtime := outcome
      rw [same]
      exact ⟨⟨valid, found, permits⟩, none⟩
  · push Not at released
    refine perform_idle (queueMachine plan) config valid call ?_ ⟨⟨valid, found, permits⟩, none⟩
    exact (drainable_closed reqIdx lease).weaken fun change may =>
      may_sparing valid found released may

theorem spared_drainable (producer : config.producerStream = true) (calls : List Call)
    {runtime : QSAHiSparseRuntime CopyQueue} (idle : Idle (Drainable reqIdx lease) runtime)
    (spared : Spared plan config reqIdx lease runtime calls) :
    Idle (Drainable reqIdx lease) (callAll (perform (queueMachine plan) config) runtime calls) := by
  induction calls generalizing runtime with
  | nil => exact idle
  | cons call calls previous =>
      rw [callAll_cons]
      exact previous (perform_drainable producer call spared.1 idle) spared.2

theorem Drained.permits {before after : QSAHiSparseRuntime CopyQueue}
    (drained : Drained lease before after) (held : before.slots.Holds lease) :
    after.slots.Permits lease [.drained] := by
  rcases drained with ⟨queue, rfl⟩
  have releasing : (before.slots.setPhase lease .releasing).Holds lease := held
  exact (leaveLane_holds.mpr releasing).setPhase_permits .drained

/-- Where nothing fails, a lease that `drain` accepts is released and given
back. -/
theorem drainable_retried (producer : config.producerStream = true)
    {later : QSAHiSparseRuntime CopyQueue} {rid : String} (named : lease.rid = rid)
    (idle : Idle (Drainable reqIdx lease) later)
    (current : lease.generation = later.reqGeneration reqIdx) {quiet : Plan}
    (silent : quiet.Quiet) :
    exists released,
      (release (queueMachine quiet) config reqIdx rid).run later = .ok (some lease) released ∧
      (released.freeGroupOpen = false -> exists final,
        (afterRelease (queueMachine quiet) lease).run released = .ok ⟨⟩ final ∧
          GivenBack lease released final) := by
  rcases idle with ⟨⟨valid, found, permits⟩, _⟩
  have outcome := release_leaves quiet producer ⟨found, named, current⟩ permits
  cases ran : (release (queueMachine quiet) config reqIdx rid).run later with
  | error cause after =>
      rw [ran] at outcome
      rcases outcome with ⟨short, _⟩ | ⟨_, loud, _⟩
      · exact absurd (silent.passes _ _) short
      · exact absurd silent loud
  | ok value released =>
      rw [ran] at outcome
      rcases outcome with ⟨rfl, _, drained⟩
      refine ⟨released, rfl, fun closed => ?_⟩
      have row : lease.reqPoolIdx = reqIdx := (valid.owned reqIdx lease found).1
      have listed : released.requests.get? lease.reqPoolIdx = some lease := by
        rcases drained with ⟨queue, rfl⟩
        rw [row]
        exact found
      rcases drained.permits permits.1 with ⟨held, phase, present, member⟩
      have free : released.slots.Permits lease releasedPhases :=
        ⟨held, phase, present, List.mem_cons.mpr (Or.inl (List.mem_singleton.mp member))⟩
      have given := afterRelease_leaves (queueMachine quiet) free listed closed
      cases gave : (afterRelease (queueMachine quiet) lease).run released with
      | ok _ final =>
          rw [gave] at given
          exact ⟨final, rfl, given⟩
      | error cause final =>
          rw [gave] at given
          exact absurd (queueMachine_reliable silent) given

/-- A release that raises an `Exception` can be retried, and its lease given
back, if and only if there is a producer stream, `drain` accepts the phase of
the lease, and it was not the last ledger record that raised. -/
theorem release_retryable (plan : Plan) (config : Config) (geometry : Geometry) (start : CopyQueue)
    (calls : List Call) {runtime after : QSAHiSparseRuntime CopyQueue}
    (reached : runtime = callAll (perform (queueMachine plan) config)
      (.initial config geometry start) calls)
    {reqIdx : Int} {rid : String} {lease : QSAHiSparseLease}
    (requested : Requested runtime reqIdx rid lease) {cause : PyError}
    (raised : (release (queueMachine plan) config reqIdx rid).run runtime = .error cause after)
    (caught : cause.isException = true) :
    Retryable plan config runtime after reqIdx rid lease <->
      config.producerStream = true ∧ runtime.slots.Permits lease drainPhases ∧
        plan.StopsShort runtime lease := by
  have reachable := callAll_reachable (queueMachine plan) config geometry start calls
  rw [<- reached] at reachable
  have valid := tenancies_valid reachable.1
  have found : runtime.tenancy.requests.get? reqIdx = some lease := requested.found
  constructor
  · intro retryable
    have silent : (lostRecord false).Quiet := fun _ _ => rfl
    have generations : after.reqGeneration = runtime.reqGeneration := by
      rw [retryable.rest]
    rcases retryable.retried [] trivial after rfl (by rw [generations]; exact requested.current)
      _ silent with ⟨released, returned, _⟩
    have listed : after.requests.get? reqIdx = some lease := by
      rw [retryable.rest]
      exact found
    -- The retry that returns shows that the failed release left the lease acceptable.
    have accepted : config.producerStream = true ∧ after.slots.Permits lease drainPhases := by
      apply Classical.byContradiction
      intro refused
      have outcome := release_refused (lostRecord false) rid listed refused
      rw [returned] at outcome
      exact outcome
    have before : config.producerStream = true ∧ runtime.slots.Permits lease drainPhases := by
      apply Classical.byContradiction
      intro refused
      have outcome := release_refused plan rid requested.found refused
      rw [raised] at outcome
      have same : after.slots = runtime.slots := outcome
      exact refused (same ▸ accepted)
    refine ⟨before.1, before.2, ?_⟩
    have outcome := release_leaves plan before.1 requested before.2
    rw [raised] at outcome
    rcases outcome with ⟨short, _⟩ | ⟨_, _, drained⟩
    · exact short
    · refine absurd (drained.permits before.2.1) fun isDrained => ?_
      exact permits_disjoint accepted.2 isDrained (by decide)
  · rintro ⟨producer, permits, short⟩
    have outcome := release_leaves plan producer requested permits
    rw [raised] at outcome
    have stopped : Stopped lease runtime after := by
      rcases outcome with ⟨_, stops⟩ | ⟨passes, _⟩
      · exact stops caught
      · exact absurd short passes
    have idle : Idle (Drainable reqIdx lease) after := by
      have spares := @perform_drainable _ _ _ _ producer runtime (.release reqIdx rid)
        (fun other same => by
          cases same
          exact ⟨short, cause, after, raised, caught⟩)
        ⟨⟨valid, found, permits⟩, reachable.2⟩
      have final : finalState ((perform (queueMachine plan) config (.release reqIdx rid)).run
          runtime) = after := by
        unfold perform
        rw [EStateM.run_bind, raised]
        rfl
      exact final ▸ spares
    have active : after.slots.Holds lease := idle.1.2.2.1
    rcases stopped with ⟨queue, slots, failed, rfl, phases, marks⟩
    exact
      { held := ⟨active, idle.1.1.ledger.slot_taken active⟩
        ledger := by
          rcases phases with rfl | rfl
          · rfl
          · rfl
        phases := by
          intro row other
          rcases phases with rfl | rfl
          · rfl
          · change ((runtime.slots.phases.set lease.reqPoolIdx _).set lease.reqPoolIdx _).get? row = _
            rw [Dict.get?_set_of_ne _ _ other, Dict.get?_set_of_ne _ _ other]
        marks := by
          intro other different
          rcases marks with rfl | rfl
          · exact Iff.rfl
          · change other ∈ runtime.graphFailedLeases.filter (· ≠ lease) <-> _
            rw [List.mem_filter, decide_eq_true_eq]
            exact ⟨fun both => both.1, fun member => ⟨member, different⟩⟩
        rest := rfl
        retried := by
          rintro more spared later rfl current quiet silent
          exact drainable_retried producer requested.named (spared_drainable producer more idle spared)
            current silent }

end Runs

/-! ## The call that raises -/

/-- A request is extended by three tokens under that plan. -/
def extended (call : Nat) : QSAHiSparseRuntime CopyQueue :=
  callAll (perform (queueMachine (faultAt call)) offloading)
    (.initial offloading oneLane CopyQueue.empty) (oneDecode.take 2)

/-- The runtime after its release. -/
def extendedReleased (call : Nat) : QSAHiSparseRuntime CopyQueue :=
  finalState ((release (queueMachine (faultAt call)) offloading 1 "a").run (extended call))

theorem extended_requested : Requested (extended 5) 1 "a" onlyLease where
  found := by decide +kernel
  named := rfl
  current := by decide +kernel

theorem extended_raises : (release (queueMachine (faultAt 5)) offloading 1 "a").run (extended 5) =
    .error (.external true "No space left on device") (extendedReleased 5) :=
  eq_error_of_outcome (by decide +kernel)

/-- A wait that raises leaves a release that can be retried. -/
theorem release_retryable_wait :
    Retryable (faultAt 5) offloading (extended 5) (extendedReleased 5) 1 "a" onlyLease := by
  have permits : (extended 5).slots.Permits onlyLease drainPhases :=
    ⟨by decide +kernel, .prefill, by decide +kernel, by decide⟩
  have short : (faultAt 5).StopsShort (extended 5) onlyLease := by
    unfold Plan.StopsShort
    decide +kernel
  exact (release_retryable (faultAt 5) offloading oneLane CopyQueue.empty (oneDecode.take 2) rfl
    extended_requested extended_raises rfl).mpr ⟨rfl, permits, short⟩

/-- A last ledger record that raises leaves a lease that no release returns any
more. -/
theorem release_stranded :
    Requested (extended 6) 1 "a" onlyLease ∧
    (release (queueMachine (faultAt 6)) offloading 1 "a").run (extended 6) =
      .error (.external true "No space left on device") (extendedReleased 6) ∧
    ¬ Retryable (faultAt 6) offloading (extended 6) (extendedReleased 6) 1 "a" onlyLease := by
  refine ⟨⟨by decide +kernel, rfl, by decide +kernel⟩, eq_error_of_outcome (by decide +kernel), ?_⟩
  intro retryable
  rcases retryable.retried [] trivial _ rfl (by decide +kernel) (lostRecord false) (fun _ _ => rfl)
    with ⟨released, returned, _⟩
  have refused : outcome ((release (queueMachine (lostRecord false)) offloading 1 "a").run
      (extendedReleased 6)) =
        .error (.runtimeError "QSA lease phase does not permit this operation") := by
    decide +kernel
  rw [callAll_nil] at returned
  rw [returned] at refused
  cases refused

end Runtime
end QSAHiSparse

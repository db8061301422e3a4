import QSAHiSparse.Runtime.CallChanges
import QSAHiSparse.Runtime.NoReuse

namespace QSAHiSparse
namespace Runtime

open Foundation
open Ledger

/-!
# Failures of a replay

A replay is followed once without its handlers, to see where it fails and with
which error, and once with them, to see what they leave.  The leases of the batch
have failed then, and one whose streams could not be drained stays marked until
a release has drained both.
-/

section Streams

variable {δ : Type} (machine : Machine δ)

/-- Both streams are synchronized without an error. -/
def Machine.BothDrain (before : δ) : Prop :=
  exists middle after, (machine.drain .drainProducer .compute).run before = .ok ⟨⟩ middle ∧
    (machine.drain .drainCopy .copy).run middle = .ok ⟨⟩ after

/-- An attempt keeps the error of a device call. -/
theorem attempt_device (program : Method δ PUnit) (runtime : QSAHiSparseRuntime δ) :
    Leaves
      (fun error after => exists next, after = { runtime with device := next } ∧
        ((error = none ∧ program.run runtime.device = .ok ⟨⟩ next) ∨
          exists cause, error = some cause ∧ program.run runtime.device = .error cause next))
      (fun _ _ => False) ((attempt (device.zoom program)).run runtime) := by
  unfold attempt
  apply (Leaves.tryCatch_iff _ _ _).mpr
  apply (Leaves.bind_iff _ _ _).mpr
  apply (device.leaves_zoom program runtime).mpr
  change Leaves _ _ (program.run runtime.device)
  cases ran : program.run runtime.device with
  | ok value next => exact ⟨next, rfl, Or.inl ⟨rfl, rfl⟩⟩
  | error cause next => exact ⟨next, rfl, Or.inr ⟨cause, rfl, rfl⟩⟩

theorem drainGraphStreams_both (runtime : QSAHiSparseRuntime δ) :
    Leaves (fun _ after => Beside runtime after ∧ machine.BothDrain runtime.device)
      (fun _ after => Beside runtime after ∧ ¬ machine.BothDrain runtime.device)
      ((drainGraphStreams machine).run runtime) := by
  unfold drainGraphStreams
  apply (Leaves.bind_iff _ _ _).mpr
  apply (attempt_device (machine.drain .drainProducer .compute) runtime).mono
  · rintro first _ ⟨middle, rfl, producer⟩
    apply (Leaves.bind_iff _ _ _).mpr
    apply (attempt_device (machine.drain .drainCopy .copy) { runtime with device := middle }).mono
    · rintro second _ ⟨after, rfl, copy⟩
      rcases producer with ⟨rfl, producer⟩ | ⟨cause, rfl, producer⟩
      · rcases copy with ⟨rfl, copy⟩ | ⟨cause, rfl, copy⟩
        · exact ⟨⟨after, rfl⟩, middle, after, producer, copy⟩
        · refine ⟨⟨after, rfl⟩, ?_⟩
          rintro ⟨found, last, returned, drained⟩
          rw [producer] at returned
          cases returned
          rw [copy] at drained
          cases drained
      · refine ⟨⟨after, rfl⟩, ?_⟩
        rintro ⟨found, last, returned, drained⟩
        rw [producer] at returned
        cases returned
    · exact fun _ _ impossible => absurd impossible id
  · exact fun _ _ impossible => absurd impossible id

end Streams

/-! ## What the handler does -/

section Handler

variable {δ : Type} (machine : Machine δ)

/-- Failing leases writes nothing but phases. -/
theorem failLeases_ledger (leases : List QSAHiSparseLease) (slots : QSAHiSparseSlots) :
    failLeases leases slots = { slots with phases := (failLeases leases slots).phases } := by
  induction leases generalizing slots with
  | nil => rfl
  | cons lease leases previous => exact previous (slots.setPhase lease .failed)

theorem failLeases_other {leases : List QSAHiSparseLease} {slots : QSAHiSparseSlots} {row : Int}
    (apart : forall lease, lease ∈ leases -> lease.reqPoolIdx ≠ row) :
    (failLeases leases slots).phases.get? row = slots.phases.get? row := by
  induction leases generalizing slots with
  | nil => rfl
  | cons lease leases previous =>
      have others := @previous (slots.setPhase lease .failed)
        fun other member => apart other (List.mem_cons_of_mem _ member)
      refine others.trans ?_
      exact Dict.get?_set_of_ne _ _ (Ne.symm (apart lease List.mem_cons_self))

/-- The handler never raises, and unmarks the leases only when both streams
drained. -/
theorem failGraphReplay_contains (cause : PyError) {failing : QSAHiSparseRuntime δ}
    {saved : List (QSAHiSparseLease × Int)} (recorded : failing.graphBatch = some saved)
    (held : forall lease, lease ∈ saved.map Prod.fst -> failing.slots.Holds lease) :
    Leaves
      (fun _ after => exists next marks, after =
          { failing with
            slots := failLeases (saved.map Prod.fst) failing.slots
            graphFailedLeases := marks
            graphBatch := none
            device := next } ∧
        (machine.BothDrain failing.device -> marks =
          (failing.graphFailedLeases ∪ saved.map Prod.fst).filter (· ∉ saved.map Prod.fst)) ∧
        (¬ machine.BothDrain failing.device ->
          marks = failing.graphFailedLeases ∪ saved.map Prod.fst))
      (fun _ _ => False) ((failGraphReplay machine (some cause)).run failing) := by
  have active : ((saved.map Prod.fst).filter fun lease =>
      failing.slots.active.get? lease.reqPoolIdx = some lease) = saved.map Prod.fst :=
    List.filter_eq_self.mpr fun lease member => decide_eq_true (held lease member)
  unfold failGraphReplay
  apply (Leaves.bind_iff _ _ _).mpr
  apply (Leaves.get_iff _).mpr
  rw [recorded]
  simp only
  rw [active]
  apply (Leaves.bind_iff _ _ _).mpr
  apply (Leaves.modify_iff _ _).mpr
  apply (Leaves.tryFinally_iff _ _ _).mpr
  unfold drainFailed attempt
  apply (Leaves.bind_iff _ _ _).mpr
  apply (Leaves.tryCatch_iff _ _ _).mpr
  apply (Leaves.bind_iff _ _ _).mpr
  apply (drainGraphStreams_both machine _).mono
  · rintro _ after ⟨⟨next, rfl⟩, drained⟩
    exact ⟨next, _, rfl, fun _ => rfl, fun blocked => absurd drained blocked⟩
  · rintro error after ⟨⟨next, rfl⟩, blocked⟩
    exact ⟨next, _, rfl, fun drained => absurd drained blocked, fun _ => rfl⟩

end Handler

/-! ## Where a replay fails -/

section Unguarded

variable {δ : Type} (machine : Machine δ) (config : Config)

/-- `finish_graph_replay` without its handler. -/
def finishUnguarded (count : Nat) : Method (QSAHiSparseRuntime δ) PUnit := do
  let self <- get
  match self.graphBatch with
  | none => throw (.runtimeError "QSA graph replay has no matching prepared batch")
  | some saved => do
      raiseIf (saved.length ≠ count)
        (.runtimeError "QSA graph replay has no matching prepared batch")
      finishSaved machine config saved
      modify fun self => { self with graphBatch := none }

/-- A replay without `graph_replay_scope`. -/
def replayUnguarded (batch : ForwardBatch) (count : Nat) : Method (QSAHiSparseRuntime δ) PUnit := do
  prepareGraphReplay machine config batch count
  replayGraph machine config
  finishUnguarded machine config count

variable {config}

/-- Since the call began only the device, the buffers and the caches of the
recorded rows have changed, and every recorded row decoded then. -/
structure Replaying (before : QSAHiSparseRuntime δ) (saved : List (QSAHiSparseLease × Int))
    (runtime : QSAHiSparseRuntime δ) : Prop where
  tenancy : runtime.tenancy = before.tenancy
  generations : runtime.reqGeneration = before.reqGeneration
  batch : runtime.graphBatch = some saved
  decodes : forall lease, lease ∈ saved.map Prod.fst -> decoding before lease
  caches : forall lease, lease ∉ saved.map Prod.fst -> runtime.caches lease = before.caches lease

theorem replaying_lasts (before : QSAHiSparseRuntime δ) (saved : List (QSAHiSparseLease × Int)) :
    Lasts (· ∈ saved.map Prod.fst) (Replaying before saved) := by
  intro runtime after replaying apart
  exact
    { tenancy := apart.tenancy.trans replaying.tenancy
      generations := apart.generations.trans replaying.generations
      batch := apart.batch.trans replaying.batch
      decodes := replaying.decodes
      caches := fun lease absent =>
        (apart.caches lease absent).trans (replaying.caches lease absent) }

/-- Whatever batch is recorded, it is being replayed. -/
def Replays (before runtime : QSAHiSparseRuntime δ) : Prop :=
  forall saved, runtime.graphBatch = some saved -> Replaying before saved runtime

theorem replays_lasts (before : QSAHiSparseRuntime δ) :
    Lasts (fun _ => False) (Replays before) := by
  intro runtime after replays apart saved recorded
  refine replaying_lasts before saved runtime after ?_ ?_
  · exact replays saved (apart.batch.symm.trans recorded)
  · exact ⟨apart.tenancy, apart.generations, apart.batch, fun lease _ => apart.caches lease id⟩

theorem begun_replays {batch : ForwardBatch} {states : List QSAHiSparseLease}
    {seqLens : List Int} {before here after : QSAHiSparseRuntime δ} (beside : Beside before here)
    (accepted : Accepted config batch before states seqLens)
    (routed : Routed (begun config true states seqLens here) after) : Replays before after := by
  rcases beside with ⟨next, rfl⟩
  rcases routed with ⟨last, _, _, _, _, rfl⟩
  intro saved recorded
  cases recorded
  refine ⟨rfl, rfl, rfl, fun lease member => ?_, fun lease absent => ?_⟩
  · rcases List.mem_map.mp member with ⟨row, present, rfl⟩
    exact (accepted.rows row present).2
  · exact advanceRows_other true _ _ absent

theorem prepareGraphReplay_replays (batch : ForwardBatch) (count : Nat)
    {before : QSAHiSparseRuntime δ} (unset : before.graphBatch = none) :
    Leaves (fun _ => Replays before) (fun _ => Replays before)
      ((prepareGraphReplay machine config batch count).run before) := by
  have lasts := replays_lasts before
  have steady := lasts.hostOnly.steady machine
  have unrecorded : Replays before before := by
    intro saved recorded
    rw [unset] at recorded
    cases recorded
  unfold prepareGraphReplay
  apply (Leaves.bind_iff _ _ _).mpr
  apply (Leaves.get_iff _).mpr
  apply (Leaves.bind_iff _ _ _).mpr
  apply (Leaves.raiseIf_iff _ _ _).mpr
  refine ⟨fun _ => unrecorded, fun exact => ?_⟩
  push Not at exact
  have rest : Preserves (Replays before) (do
      let self <- get
      waitFor machine .graphWait .compute
        (if self.graphCopyPending then some .graphCopyDone else none)
      device.zoom (machine.outside .graphLengths)
      modify fun self => { self with graphSeqLens := (batch.seqLens.getD []).take count }) := by
    refine Preserves.get_bind fun self => ?_
    refine Preserves.bind (steady.waitFor _ _ _) fun _ => ?_
    refine Preserves.bind (steady.outside _) fun _ => ?_
    exact Preserves.modify fun runtime kept =>
      lasts runtime _ kept ⟨rfl, rfl, rfl, fun _ _ => rfl⟩
  apply (Leaves.bind_iff _ _ _).mpr
  apply beginDecode_leaves machine exact.2.2.2.1 true before
  · rintro cause after ⟨next, rfl⟩
    exact lasts.hostOnly before next unrecorded
  · intro here states seqLens beside accepted
    rw [startDecode_run]
    apply (routeDecode_leaves machine states seqLens batch.extendSeqLens _).mono
    · exact fun _ after routed => rest after (begun_replays beside accepted routed.1)
    · exact fun _ after routed => begun_replays beside accepted routed.1

/-- Wherever a replay fails. -/
theorem replayUnguarded_replays (batch : ForwardBatch) (count : Nat)
    {before : QSAHiSparseRuntime δ} (unset : before.graphBatch = none) :
    Leaves (fun _ _ => True) (fun _ => Replays before)
      ((replayUnguarded machine config batch count).run before) := by
  have steady := (replays_lasts before).hostOnly.steady machine
  have finishes : Ensures (Replays before) (finishUnguarded machine config count)
      (fun _ _ => True) (fun _ => Replays before) := by
    intro runtime replays
    unfold finishUnguarded
    apply (Leaves.bind_iff _ _ _).mpr
    apply (Leaves.get_iff _).mpr
    cases batch : runtime.graphBatch with
    | none => exact replays
    | some saved =>
        apply (Leaves.bind_iff _ _ _).mpr
        apply (Leaves.raiseIf_iff _ _ _).mpr
        refine ⟨fun _ => replays, fun _ => ?_⟩
        have finished := @finishSaved_lasts _ machine config _ _
          (replaying_lasts before saved) _ fun row member => List.mem_map_of_mem member
        apply (Leaves.bind_iff _ _ _).mpr
        apply (finished runtime (replays saved batch)).mono
        · exact fun _ after _ => trivial
        · intro cause after replaying other recorded
          rw [replaying.batch] at recorded
          cases recorded
          exact replaying
  unfold replayUnguarded
  apply (Leaves.bind_iff _ _ _).mpr
  apply (prepareGraphReplay_replays machine batch count unset).mono
  · exact fun _ prepared replays =>
      Ensures.bind steady.replayGraph (fun _ => finishes) prepared replays
  · exact fun _ _ replays => replays

/-! ## With the handlers -/

/-- What the handler leaves. -/
def contain (cause : PyError) (failing : QSAHiSparseRuntime δ) : QSAHiSparseRuntime δ :=
  finalState ((failGraphReplay machine (some cause)).run failing)

/-- Without a recorded batch the handler does nothing. -/
theorem failGraphReplay_unset (cause : PyError) {failing : QSAHiSparseRuntime δ}
    (unset : failing.graphBatch = none) :
    (failGraphReplay machine (some cause)).run failing = .ok ⟨⟩ failing := by
  unfold failGraphReplay
  rw [EStateM.run_bind]
  change EStateM.run (match failing.graphBatch with
    | none => _
    | some saved => _) failing = _
  rw [unset]
  rfl

/-- With one it returns, and leaves none. -/
theorem failGraphReplay_run (cause : PyError) {before failing : QSAHiSparseRuntime δ}
    (replays : Replays before failing) :
    (failGraphReplay machine (some cause)).run failing = .ok ⟨⟩ (contain machine cause failing) ∧
      (contain machine cause failing).graphBatch = none := by
  unfold contain
  cases recorded : failing.graphBatch with
  | none =>
      rw [failGraphReplay_unset machine cause recorded]
      exact ⟨rfl, recorded⟩
  | some saved =>
      have replaying := replays saved recorded
      have slots : failing.slots = before.slots := congrArg Tenancy.slots replaying.tenancy
      have handled := failGraphReplay_contains machine cause recorded fun lease member => by
        rw [slots]
        exact (replaying.decodes lease member).1
      cases ran : (failGraphReplay machine (some cause)).run failing with
      | ok _ after =>
          rw [ran] at handled
          rcases handled with ⟨next, marks, rfl, _⟩
          exact ⟨rfl, rfl⟩
      | error other after =>
          rw [ran] at handled
          exact absurd handled id

/-- The handler of the scope, after the failure. -/
theorem guarded_run {program : Method (QSAHiSparseRuntime δ) PUnit} {cause : PyError}
    {before start failing : QSAHiSparseRuntime δ} (replays : Replays before failing)
    (raised : program.run start = .error cause failing) :
    (tryCatch program fun error => do
      failGraphReplay machine (some error)
      throw error : Method (QSAHiSparseRuntime δ) PUnit).run start =
        .error cause (contain machine cause failing) := by
  rw [run_tryCatch, raised]
  change EStateM.run (failGraphReplay machine (some cause) >>= fun _ => throw cause) failing = _
  rw [EStateM.run_bind, (failGraphReplay_run machine cause replays).1]
  rfl

/-- The handler of `finish_graph_replay` leaves nothing to that of the scope. -/
theorem finish_contained {cause : PyError} {count : Nat}
    {before start failing : QSAHiSparseRuntime δ} (replays : Replays before failing)
    (raised : (finishUnguarded machine config count).run start = .error cause failing) :
    exists last, (finishGraphReplay machine config count).run start = .error cause last ∧
      Replays before last ∧ contain machine cause last = contain machine cause failing := by
  unfold finishUnguarded at raised
  unfold finishGraphReplay
  rw [EStateM.run_bind] at raised ⊢
  change EStateM.run (match start.graphBatch with
    | none => _
    | some saved => _) start = _ at raised
  change exists last, EStateM.run (match start.graphBatch with
    | none => _
    | some saved => _) start = _ ∧ _
  cases recorded : start.graphBatch with
  | none =>
      rw [recorded] at raised
      cases raised
      exact ⟨start, rfl, replays, rfl⟩
  | some saved =>
      rw [recorded] at raised
      simp only at raised ⊢
      rw [EStateM.run_bind] at raised ⊢
      by_cases unequal : saved.length ≠ count
      · unfold raiseIf at raised ⊢
        rw [if_pos unequal] at raised ⊢
        cases raised
        exact ⟨start, rfl, replays, rfl⟩
      · unfold raiseIf at raised ⊢
        rw [if_neg unequal] at raised ⊢
        change EStateM.run (finishSaved machine config saved >>= _) start = _ at raised
        change exists last, EStateM.run (tryFinally _ _) start = _ ∧ _
        rw [EStateM.run_bind] at raised
        cases finished : (finishSaved machine config saved).run start with
        | ok _ after =>
            rw [finished] at raised
            cases raised
        | error other after =>
            rw [finished] at raised
            cases raised
            have handled := failGraphReplay_run machine cause replays
            rw [run_tryFinally, guarded_run machine replays finished]
            have cleared : { contain machine cause failing with graphBatch := none } =
                contain machine cause failing := by
              rw [<- handled.2]
            refine ⟨contain machine cause failing, ?_, ?_, ?_⟩
            · change EStateM.Result.error cause { contain machine cause failing with
                graphBatch := none } = _
              rw [cleared]
            · intro other recorded
              rw [handled.2] at recorded
              cases recorded
            · have idle := failGraphReplay_unset machine cause handled.2
              change finalState ((failGraphReplay machine (some cause)).run
                (contain machine cause failing)) = _
              rw [idle]
              rfl

/-- The error of a replay is the one it fails with first, and the handler has
run on the state in which it failed. -/
theorem graphForward_failing (batch : ForwardBatch) (count : Nat) {cause : PyError}
    {before failing : QSAHiSparseRuntime δ} (unset : before.graphBatch = none)
    (raised : (replayUnguarded machine config batch count).run before = .error cause failing) :
    (graphForward machine config batch count).run before =
      .error cause (contain machine cause failing) := by
  have replays : Replays before failing := by
    have outcome := @replayUnguarded_replays _ machine config batch count _ unset
    rw [raised] at outcome
    exact outcome
  unfold replayUnguarded at raised
  rw [EStateM.run_bind] at raised
  unfold graphForward
  cases prepared : (prepareGraphReplay machine config batch count).run before with
  | error other after =>
      rw [prepared] at raised
      cases raised
      apply guarded_run machine replays
      rw [EStateM.run_bind, prepared]
  | ok _ ready =>
      rw [prepared] at raised
      change EStateM.run (replayGraph machine config >>= _) ready = _ at raised
      rw [EStateM.run_bind] at raised
      cases replayed : (replayGraph machine config).run ready with
      | error other after =>
          rw [replayed] at raised
          cases raised
          apply guarded_run machine replays
          rw [EStateM.run_bind, prepared]
          change EStateM.run (replayGraph machine config >>= _) ready = _
          rw [EStateM.run_bind, replayed]
      | ok _ done =>
          rw [replayed] at raised
          rcases finish_contained machine replays raised with ⟨last, finished, lastReplays, same⟩
          rw [<- same]
          apply guarded_run machine lastReplays
          rw [EStateM.run_bind, prepared]
          change EStateM.run (replayGraph machine config >>= _) ready = _
          rw [EStateM.run_bind, replayed]
          exact finished

end Unguarded

/-! ## Marked leases -/

section Marked

variable {δ : Type} (machine : Machine δ) {config : Config} {lease : QSAHiSparseLease}

/-- A release of a marked lease raises unless both streams drain. -/
theorem release_undrained {runtime : QSAHiSparseRuntime δ} {reqIdx : Int} (rid : String)
    (found : runtime.requests.get? reqIdx = some lease)
    (marked : lease ∈ runtime.graphFailedLeases)
    (blocked : ¬ machine.BothDrain runtime.device) :
    Leaves (fun _ _ => False) (fun _ after => Beside runtime after)
      ((release machine config reqIdx rid).run runtime) := by
  have listed : runtime.requests.contains reqIdx ≠ false := by
    have member := Dict.mem_keys_iff.mpr ⟨lease, found⟩
    rw [Dict.contains, ne_eq, decide_eq_false_iff_not, not_not]
    exact member
  unfold release
  apply (Leaves.bind_iff _ _ _).mpr
  apply (Leaves.get_iff _).mpr
  rw [if_neg listed]
  unfold releaseHeld
  apply (Leaves.bind_iff _ _ _).mpr
  apply (request_leaves reqIdx rid runtime).mono
  · rintro other here ⟨rfl, again, _⟩
    rw [found] at again
    cases again
    unfold drainFailedLease
    apply (Leaves.bind_iff _ _ _).mpr
    apply (Leaves.bind_iff _ _ _).mpr
    apply (Leaves.get_iff _).mpr
    rw [if_pos marked]
    apply (Leaves.bind_iff _ _ _).mpr
    apply (drainGraphStreams_both machine here).mono
    · exact fun _ _ both => absurd both.2 blocked
    · exact fun _ _ both => both.1
  · rintro cause here rfl
    exact Beside.refl here

/-- Only a release of its row unmarks a marked lease. -/
theorem may_settle {state : Tenancy} (valid : state.Valid) (marked : lease ∈ state.failed)
    {call : Call} {leases : List QSAHiSparseLease}
    (may : Call.May state call (.settled leases)) (member : lease ∈ leases) :
    exists rid, call = .release lease.reqPoolIdx rid ∧
      state.requests.get? lease.reqPoolIdx = some lease := by
  cases may with
  | handoff row rid handed change listed allowed =>
      rcases allowed with same | same | same <;> cases same
  | replay batch count change allowed =>
      rcases allowed with ⟨_, _, same⟩ | ⟨others, decodes, same | same⟩
      · cases same
      · cases same
      · cases same
        exact absurd marked (valid.unmarked (decodes lease member) (by decide))
  | release row rid released change listed allowed =>
      rcases allowed with same | same | same | same
      · cases same
        rw [List.mem_singleton] at member
        rw [member]
        have named : released.reqPoolIdx = row := (valid.owned row released listed).1
        exact ⟨rid, by rw [named], by rw [named]; exact listed⟩
      · cases same
      · cases same
      · cases same
  | afterRelease committed change allowed =>
      rcases allowed with same | same | same <;> cases same
  | flush change allowed =>
      rcases allowed with ⟨_, _, same | same | same⟩ <;> cases same
  | logicalFlush change allowed =>
      rcases allowed with ⟨_, _, same | same | same⟩ <;> cases same

/-- One call leaves a marked lease marked, or is a release of its row that
drained both streams. -/
theorem perform_marked {runtime : QSAHiSparseRuntime δ} (call : Call)
    (idle : Idle (fun state => state.Valid ∧ lease ∈ state.failed) runtime) :
    Idle (fun state => state.Valid ∧ lease ∈ state.failed)
        (finalState ((perform machine config call).run runtime)) ∨
      exists rid, call = .release lease.reqPoolIdx rid ∧ machine.BothDrain runtime.device := by
  rcases idle with ⟨⟨valid, marked⟩, unset⟩
  by_cases settles : exists rid, call = .release lease.reqPoolIdx rid ∧
      runtime.requests.get? lease.reqPoolIdx = some lease
  · rcases settles with ⟨rid, rfl, found⟩
    by_cases drains : machine.BothDrain runtime.device
    · exact Or.inr ⟨rid, rfl, drains⟩
    · apply Or.inl
      apply Leaves.finalState_iff.mp
      apply (Leaves.bind_iff _ _ _).mpr
      apply (release_undrained machine rid found marked drains).mono
      · exact fun _ _ impossible => absurd impossible id
      · rintro _ after ⟨next, rfl⟩
        exact ⟨⟨valid, marked⟩, unset⟩
  · apply Or.inl
    refine perform_idle machine config valid call ?_ ⟨⟨valid, marked⟩, unset⟩
    rintro change before after may ⟨kept, stays⟩ step
    refine ⟨kept.step step, ?_⟩
    cases step with
    | marked leases failed => exact List.mem_union_iff.mpr (Or.inl stays)
    | settled leases =>
        refine List.mem_filter.mpr ⟨stays, decide_eq_true fun member => ?_⟩
        exact settles (may_settle valid marked may member)
    | _ => exact stays

/-- A marked lease is held until a release of its row has drained both
streams. -/
theorem marked_drained (calls : List Call) {runtime : QSAHiSparseRuntime δ}
    (idle : Idle (fun state => state.Valid ∧ lease ∈ state.failed) runtime)
    (gone : ¬ (callAll (perform machine config) runtime calls).slots.Holds lease) :
    exists first rid rest, calls = first ++ .release lease.reqPoolIdx rid :: rest ∧
      machine.BothDrain (callAll (perform machine config) runtime first).device := by
  induction calls generalizing runtime with
  | nil => exact absurd (idle.1.1.marked lease idle.1.2).1 gone
  | cons call calls previous =>
      rcases @perform_marked _ machine config _ _ call idle with kept | ⟨rid, rfl, drains⟩
      · rcases previous kept gone with ⟨first, rid, rest, rfl, drains⟩
        exact ⟨call :: first, rid, rest, rfl, drains⟩
      · exact ⟨[], rid, calls, rfl, drains⟩

end Marked

/-! ## The containment -/

section Contained

variable {δ : Type} (machine : Machine δ)

/-- After a failure of a replay exactly its leases have failed, and one whose
streams could not be drained is held until a release drains both. -/
structure Contained (config : Config) (before failing after : QSAHiSparseRuntime δ)
    (saved : List (QSAHiSparseLease × Int)) : Prop where
  decoded : forall lease, lease ∈ saved.map Prod.fst -> before.slots.Permits lease [.decode]
  failed : forall lease, lease ∈ saved.map Prod.fst -> after.slots.Permits lease [.failed]
  phases : forall row, (forall lease, lease ∈ saved.map Prod.fst -> lease.reqPoolIdx ≠ row) ->
    after.slots.phases.get? row = before.slots.phases.get? row
  slots : after.slots = { before.slots with phases := after.slots.phases }
  cleared : after.graphBatch = none
  tenancy : after.tenancy =
    { before.tenancy with slots := after.slots, failed := after.graphFailedLeases }
  generations : after.reqGeneration = before.reqGeneration
  caches : forall lease, lease ∉ saved.map Prod.fst -> after.caches lease = before.caches lease
  marks : forall lease, lease ∉ saved.map Prod.fst ->
    (lease ∈ after.graphFailedLeases <-> lease ∈ before.graphFailedLeases)
  marked : forall lease, lease ∈ saved.map Prod.fst ->
    (lease ∈ after.graphFailedLeases <-> ¬ machine.BothDrain failing.device)
  barred : forall lease, lease ∈ after.graphFailedLeases -> forall calls,
    ¬ (callAll (perform machine config) after calls).slots.Holds lease ->
    exists first rid rest, calls = first ++ .release lease.reqPoolIdx rid :: rest ∧
      machine.BothDrain (callAll (perform machine config) after first).device

/-- Wherever a replay fails once its batch is recorded, and whatever the streams
do then, the error is the one it failed with and its leases are contained. -/
theorem graphForward_contained (config : Config) (geometry : Geometry) (start : δ)
    (calls : List Call) {before failing : QSAHiSparseRuntime δ}
    (reached : before = callAll (perform machine config) (.initial config geometry start) calls)
    (batch : ForwardBatch) (count : Nat) {cause : PyError}
    (raised : (replayUnguarded machine config batch count).run before = .error cause failing)
    {saved : List (QSAHiSparseLease × Int)} (recorded : failing.graphBatch = some saved) :
    exists after, (graphForward machine config batch count).run before = .error cause after ∧
      Contained machine config before failing after saved := by
  have reachable := callAll_reachable machine config geometry start calls
  rw [<- reached] at reachable
  have ran := graphForward_failing machine batch count reachable.2 raised
  refine ⟨_, ran, ?_⟩
  have valid : Idle Tenancy.Valid (contain machine cause failing) := by
    have kept : Idle Tenancy.Valid (finalState ((perform machine config
        (.graphForward batch count)).run before)) :=
      perform_idle machine config (tenancies_valid reachable.1) (.graphForward batch count)
        (fun _ _ _ _ valid step => valid.step step) ⟨tenancies_valid reachable.1, reachable.2⟩
    change Idle Tenancy.Valid (finalState ((graphForward machine config batch count).run before))
      at kept
    rw [ran] at kept
    exact kept
  have replaying : Replaying before saved failing := by
    have outcome := @replayUnguarded_replays _ machine config batch count _ reachable.2
    rw [raised] at outcome
    exact outcome saved recorded
  have same : failing.slots = before.slots := congrArg Tenancy.slots replaying.tenancy
  have marks : failing.graphFailedLeases = before.graphFailedLeases :=
    congrArg Tenancy.failed replaying.tenancy
  have held (lease : QSAHiSparseLease) (member : lease ∈ saved.map Prod.fst) :
      failing.slots.Holds lease := by
    rw [same]
    exact (replaying.decodes lease member).1
  have handled := failGraphReplay_contains machine cause recorded held
  have handler := Leaves.finalState_iff.mp (handled.mono (fun _ _ known => known)
    fun _ _ impossible => absurd impossible id)
  change exists next marks, contain machine cause failing = _ ∧ _ at handler
  have barred : forall lease, lease ∈ (contain machine cause failing).graphFailedLeases ->
      forall calls,
      ¬ (callAll (perform machine config) (contain machine cause failing) calls).slots.Holds lease ->
      exists first rid rest, calls = first ++ .release lease.reqPoolIdx rid :: rest ∧
        machine.BothDrain (callAll (perform machine config) (contain machine cause failing)
          first).device := by
    intro lease member calls gone
    exact marked_drained machine calls ⟨⟨valid.1, member⟩, valid.2⟩ gone
  revert barred
  rcases handler with ⟨next, found, equal, drained, blocked⟩
  rw [equal]
  intro barred
  refine
    { decoded := replaying.decodes
      failed := fun lease member => failLeases_permits held member
      phases := fun row apart => ?_
      slots := ?_
      cleared := rfl
      tenancy := ?_
      generations := replaying.generations
      caches := replaying.caches
      marks := fun lease absent => ?_
      marked := fun lease member => ?_
      barred := barred }
  · rw [<- same]
    exact failLeases_other apart
  · rw [<- same]
    exact failLeases_ledger _ _
  · rw [<- replaying.tenancy]
    rfl
  · change lease ∈ found <-> _
    rw [<- marks]
    by_cases drains : machine.BothDrain failing.device
    · rw [drained drains, List.mem_filter, List.mem_union_iff, decide_eq_true_eq]
      exact ⟨fun both => both.1.resolve_right absent, fun old => ⟨Or.inl old, absent⟩⟩
    · rw [blocked drains, List.mem_union_iff]
      exact ⟨fun either => either.resolve_right absent, Or.inl⟩
  · change lease ∈ found <-> _
    by_cases drains : machine.BothDrain failing.device
    · rw [drained drains, List.mem_filter, decide_eq_true_eq]
      exact ⟨fun both => absurd member both.2, fun never => absurd drains never⟩
    · rw [blocked drains, List.mem_union_iff]
      exact ⟨fun _ => drains, fun _ => Or.inr member⟩

end Contained

/-- The record behind the graph copies raises, and so does the drain of their
stream. -/
def lostGraphCopy : Plan := fun _ site =>
  ⟨0, if site = .graphCopyDone ∨ site = .drainCopy then
    some ⟨.external true "CUDA error: an illegal memory access was encountered", false⟩
  else none, true⟩

def graphing : Config := ⟨1, 64, true, false, true, [1], true⟩

/-- A prompt of three tokens has been handed off. -/
def handedOff : QSAHiSparseRuntime CopyQueue :=
  callAll (perform (queueMachine lostGraphCopy) graphing)
    (.initial graphing oneLane CopyQueue.empty) (oneDecode.take 4)

/-- Its first token closes a block, whose copy is queued when the record
raises. -/
theorem graphForward_contained_lostCopy :
    exists after,
      (graphForward (queueMachine lostGraphCopy) graphing
        ⟨.decode, 1, some [1], some [4], ["a"], []⟩ 1).run handedOff =
          .error (.external true "CUDA error: an illegal memory access was encountered") after ∧
      Contained (queueMachine lostGraphCopy) graphing handedOff
        (finalState ((replayUnguarded (queueMachine lostGraphCopy) graphing
          ⟨.decode, 1, some [1], some [4], ["a"], []⟩ 1).run handedOff)) after
        [(onlyLease, 4)] :=
  graphForward_contained (queueMachine lostGraphCopy) graphing oneLane CopyQueue.empty
    (oneDecode.take 4) rfl ⟨.decode, 1, some [1], some [4], ["a"], []⟩ 1
    (eq_error_of_outcome (by decide +kernel)) (by decide +kernel)

end Runtime
end QSAHiSparse

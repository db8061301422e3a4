import Mathlib.Data.List.Induction
import QSAHiSparse.Foundation.Calls
import QSAHiSparse.Runtime.SecuredHandoff
import QSAHiSparse.Runtime.SecuredReplay

namespace QSAHiSparse
namespace Runtime

open Foundation
open Ledger

/-!
# No slot is reused before its copies are done

A release waits for every event of its lease, so a drained lease is settled; a
committed lease was drained.  Hence in every run whose plans are contained each
commit finds all copies of its lease complete.  A writeback that raises after
its copy was queued breaks this.
-/

section Release

variable (plan : Plan) {config : Config}

/-! ## The drain of a release -/

/-- All events have completed once their waits return. -/
theorem synchronizeEvents_leaves (self : QSAHiSparseRuntime CopyQueue) (events : List Event)
    (runtime : QSAHiSparseRuntime CopyQueue) :
    Leaves
      (fun _ after => Later runtime after ∧
        forall event, event ∈ events -> forall mark, self.markOf event = some mark ->
          mark.stream = .copy -> mark.position ≤ after.device.completed)
      (fun _ after => Later runtime after)
      ((forM (events.map fun event => some (synchronizeEvent (queueMachine plan) self event))
        synchronizeCopy : Method (QSAHiSparseRuntime CopyQueue) PUnit).run runtime) := by
  induction events generalizing runtime with
  | nil => exact ⟨Later.refl runtime, fun event member => absurd member List.not_mem_nil⟩
  | cons event events previous =>
      rw [List.map_cons, List.forM_cons]
      apply (Leaves.bind_iff _ _ _).mpr
      have first : Leaves
          (fun _ after => Later runtime after ∧ forall mark, self.markOf event = some mark ->
            mark.stream = .copy -> mark.position ≤ after.device.completed)
          (fun _ after => Later runtime after)
          ((synchronizeEvent (queueMachine plan) self event).run runtime) := by
        unfold synchronizeEvent
        cases self.markOf event with
        | none => exact ⟨Later.refl runtime, fun mark absent => nomatch absent⟩
        | some mark =>
            apply synchronize_leaves
            · intro after later completed
              refine ⟨later, fun other same => ?_⟩
              cases same
              exact completed
            · exact fun _ _ later => later
      apply first.mono
      · rintro _ after ⟨later, completed⟩
        apply (previous after).mono
        · rintro _ last ⟨laterLast, others⟩
          refine ⟨later.trans laterLast, ?_⟩
          intro other member mark recorded onCopy
          rcases List.mem_cons.mp member with rfl | rest
          · have reached := completed mark recorded onCopy
            rcases laterLast with ⟨queue, rfl, _, grows, _⟩
            exact Nat.le_trans reached grows
          · exact others other rest mark recorded onCopy
        · exact fun _ last laterLast => later.trans laterLast
      · exact fun _ _ later => later

/-- A lease that is not marked is settled once its events have completed. -/
theorem Secured.settledBy {runtime : QSAHiSparseRuntime CopyQueue}
    (secured : Secured noStray runtime) {lease : QSAHiSparseLease}
    (unmarked : lease ∉ runtime.graphFailedLeases)
    (completed : forall event, event ∈ (runtime.caches lease).events -> forall mark,
      runtime.markOf event = some mark -> mark.stream = .copy ->
        mark.position ≤ runtime.device.completed) : Settled runtime.device lease := by
  intro index pending
  rcases secured.awaited lease index pending with absurdity | marked | covered
  · exact absurdity
  · exact unmarked marked
  · rcases covered with ⟨event, mark, member, recorded, onCopy, before⟩
    have reached := completed event member mark recorded onCopy
    have waiting := pending.1
    omega

/-- A lease that is not marked for a drain of both streams. -/
def Unmarked (lease : QSAHiSparseLease) (runtime : QSAHiSparseRuntime CopyQueue) : Prop :=
  Secured noStray runtime ∧ lease ∉ runtime.graphFailedLeases

theorem unmarked_lasting (lease : QSAHiSparseLease) : Lasting (Unmarked lease) :=
  (secured_lasting noStray).and (Lasting.ofHost fun _ _ absent => absent)

theorem drainFailedLease_ensures (lease : QSAHiSparseLease) :
    Ensures (Secured noStray) (drainFailedLease (queueMachine plan) lease)
      (fun _ => Unmarked lease) (fun _ => Secured noStray) := by
  intro runtime secured
  unfold drainFailedLease
  apply (Leaves.bind_iff _ _ _).mpr
  apply (Leaves.get_iff _).mpr
  by_cases marked : lease ∈ runtime.graphFailedLeases
  · rw [if_pos marked]
    apply (Leaves.bind_iff _ _ _).mpr
    apply (drainGraphStreams_leaves plan runtime).mono
    · rintro _ after ⟨later, drained⟩
      refine ⟨(secured.later later).unmark drained _, fun member => ?_⟩
      exact absurd rfl (of_decide_eq_true (List.mem_filter.mp member).2)
    · exact fun _ after later => secured.later later
  · rw [if_neg marked]
    exact ⟨secured, marked⟩

theorem drainLease_ensures (lease : QSAHiSparseLease) :
    Ensures (Unmarked lease) (drainLease (queueMachine plan) config lease)
      (fun _ => Secured noStray) (fun _ => Secured noStray) := by
  have escape (_ : PyError) (after : QSAHiSparseRuntime CopyQueue)
      (unmarked : Unmarked lease after) : Secured noStray after := unmarked.1
  unfold drainLease
  refine Preserves.andThen (Preserves.raiseIf _ _) escape fun _ => ?_
  refine Preserves.andThen ((record_waits plan _ _).preserves (unmarked_lasting lease)) escape
    fun terminal => ?_
  rintro runtime ⟨secured, unmarked⟩
  apply (Leaves.bind_iff _ _ _).mpr
  apply (Leaves.get_iff _).mpr
  apply Ledger.drain_leaves
  · exact fun _ _ => secured
  intro starts
  have releasing : Secured noStray
      { runtime with slots := runtime.slots.setPhase lease .releasing } :=
    secured.withSlots (fun _ held => held) (fun _ _ permits => setPhase_live (by decide) permits)
  have waits : Leaves
      (fun _ after => Later { runtime with slots := runtime.slots.setPhase lease .releasing } after ∧
        forall event, event ∈ (runtime.caches lease).events -> forall mark,
          runtime.markOf event = some mark -> mark.stream = .copy ->
            mark.position ≤ after.device.completed)
      (fun _ after => Later { runtime with slots := runtime.slots.setPhase lease .releasing } after)
      ((synchronizeAll
        (device.zoom ((queueMachine plan).synchronize .terminalSynchronize terminal))
        ((runtime.caches lease).events.map fun event =>
          some (synchronizeEvent (queueMachine plan) runtime event))).run
        { runtime with slots := runtime.slots.setPhase lease .releasing }) := by
    unfold synchronizeAll
    apply (Leaves.bind_iff _ _ _).mpr
    apply ((synchronize_waits plan .terminalSynchronize terminal).leaves _).mono
    · intro _ after later
      apply (synchronizeEvents_leaves plan runtime _ after).mono
      · exact fun _ last both => ⟨later.trans both.1, both.2⟩
      · exact fun _ last laterLast => later.trans laterLast
    · exact fun _ _ later => later
  apply waits.mono
  · rintro _ last ⟨later, completed⟩
    have drained := releasing.later later
    rcases later with ⟨queue, rfl, _, _⟩
    have settled : Settled queue lease := drained.settledBy unmarked completed
    refine drained.withSlots (fun other held => leaveLane_holds.mpr held) ?_
    intro other unsettled permits
    have different : other ≠ lease := fun same => unsettled (same ▸ settled)
    have held : (runtime.slots.setPhase lease .releasing).Holds lease := starts.1.1
    exact setPhase_other (leaveLane_holds.mpr held) different (leaveLane_permits.mpr permits)
  · intro cause last later
    have waited := releasing.later later
    refine ⟨fun _ => ?_, fun _ => waited⟩
    exact waited.withSlots (fun _ held => held)
      (fun _ _ permits => @setPhase_live _ _ _ .failed (by decide) permits)

theorem release_preserves (reqIdx : Int) (rid : String) :
    Preserves (Secured noStray) (release (queueMachine plan) config reqIdx rid) := by
  have held : Preserves (Secured noStray)
      (releaseHeld (queueMachine plan) config reqIdx rid) := by
    unfold releaseHeld
    refine Preserves.bind (request_reads reqIdx rid).preserves fun lease => ?_
    refine Ensures.bind (drainFailedLease_ensures plan lease) fun _ => ?_
    refine Preserves.andThen ((outside_waits plan _).preserves (unmarked_lasting lease))
      (fun _ _ unmarked => unmarked.1) fun _ => ?_
    refine Ensures.bind (drainLease_ensures plan lease) fun _ => ?_
    exact Preserves.bind ((outside_waits plan _).preserves (secured_lasting noStray)) fun _ =>
      Preserves.pure (some lease)
  unfold release
  refine Preserves.get_bind fun self => ?_
  refine Preserves.ite (fun _ => ?_) (fun _ => held)
  exact Preserves.bind (Preserves.raiseIf _ _) fun _ => Preserves.pure none

/-! ## The commit -/

/-- A held lease all of whose copies have completed. -/
structure Released (lease : QSAHiSparseLease) (runtime : QSAHiSparseRuntime CopyQueue) :
    Prop where
  secured : Secured noStray runtime
  settled : Settled runtime.device lease
  held : runtime.slots.Holds lease

/-- A drained or flushed lease is released. -/
theorem Secured.released {runtime : QSAHiSparseRuntime CopyQueue}
    (secured : Secured noStray runtime) {lease : QSAHiSparseLease}
    (permits : runtime.slots.Permits lease [.drained, .logicalFlushed]) :
    Released lease runtime where
  secured := secured
  settled := fun index pending =>
    permits_disjoint permits (secured.live lease index pending) (by decide)
  held := permits.1

theorem released_lasting (lease : QSAHiSparseLease) : Lasting (Released lease) := by
  intro before after released later
  have secured := released.secured.later later
  have settled := released.settled.later later
  rcases later with ⟨queue, rfl, _, _⟩
  exact ⟨secured, settled, released.held⟩

theorem flushDrained_ensures (lease : QSAHiSparseLease) :
    Ensures (Released lease) (flushDrained (queueMachine plan) lease) (fun _ => Released lease)
      (fun _ => Secured noStray) := by
  intro runtime released
  unfold flushDrained
  apply (Leaves.bind_iff _ _ _).mpr
  apply (Leaves.get_iff _).mpr
  apply (Leaves.bind_iff _ _ _).mpr
  apply (Leaves.getItem_iff _ _ _).mpr
  refine ⟨fun _ => released.secured, fun phase _ => ?_⟩
  by_cases drained : phase = .drained
  · rw [if_pos drained]
    apply (Leaves.bind_iff _ _ _).mpr
    have checked := (outside_waits plan .flushCheck).preserves (released_lasting lease)
    apply (checked runtime released).mono
    · intro _ after here
      apply (ledger.leaves_zoom _ _).mpr
      apply Leaves.mono (logicalFlushed_outcome after.slots lease runtime.freeGroupOpen)
      · rintro _ slots ⟨_, rfl⟩
        refine ⟨here.secured.withSlots (fun _ held => held) ?_, here.settled, here.held⟩
        intro other unsettled permits
        exact setPhase_other here.held (fun same => unsettled (same ▸ here.settled)) permits
      · rintro _ slots ⟨_, rfl⟩
        exact here.secured
    · exact fun _ _ here => here.secured
  · rw [if_neg drained]
    exact released

/-- A committed lease leaves the maps together with its cache. -/
theorem Released.commit {lease : QSAHiSparseLease} {runtime : QSAHiSparseRuntime CopyQueue}
    (released : Released lease runtime) :
    Secured noStray
      { runtime with
        slots := runtime.slots.giveBack lease
        requests := runtime.requests.erase lease.reqPoolIdx
        commits := runtime.commits ++ [(lease, runtime.device)] } where
  awaited := released.secured.awaited
  live := by
    intro other index pending
    have different : other ≠ lease := by
      rintro rfl
      exact released.settled index pending
    exact giveBack_permits released.held different (released.secured.live other index pending)
  shared := released.secured.shared
  owned := by
    intro reqIdx other found
    change (runtime.requests.erase lease.reqPoolIdx).get? reqIdx = some other at found
    rw [Dict.get?_erase] at found
    by_cases same : reqIdx = lease.reqPoolIdx
    · rw [if_pos same] at found
      cases found
    · rw [if_neg same] at found
      rcases released.secured.owned reqIdx other found with ⟨row, held⟩
      exact ⟨row, giveBack_holds (row ▸ same) held⟩
  committed := by
    intro entry member
    rcases List.mem_append.mp member with old | new
    · exact released.secured.committed entry old
    · rw [List.mem_singleton.mp new]
      exact released.settled

theorem commitLease_ensures (lease : QSAHiSparseLease) :
    Ensures (Released lease) (commitLease (queueMachine plan) lease) (fun _ => Secured noStray)
      (fun _ => Secured noStray) := by
  intro runtime released
  unfold commitLease
  apply (Leaves.bind_iff _ _ _).mpr
  apply (Leaves.get_iff _).mpr
  apply (Leaves.bind_iff _ _ _).mpr
  apply (Leaves.getItem_iff _ _ _).mpr
  refine ⟨fun _ => released.secured, fun state found => ?_⟩
  -- The cache that is cleared is the one of this lease.
  have same : state = lease := by
    rcases released.secured.owned _ _ found with ⟨row, held⟩
    exact held_unique released.held held row
  rw [same]
  apply (Leaves.bind_iff _ _ _).mpr
  apply (Leaves.modify_iff _ _).mpr
  apply (Leaves.bind_iff _ _ _).mpr
  apply (Leaves.modify_iff _ _).mpr
  have cleared := released.secured.withCache lease
    (fun cache => { cache with states := [], host := false }) (Or.inl released.settled)
  have ready : Released lease
      { runtime.withCache lease fun cache => { cache with states := [], host := false } with
        batchRequests := runtime.batchRequests.filter (· ≠ lease) } :=
    ⟨{ cleared with }, released.settled, released.held⟩
  apply (Leaves.bind_iff _ _ _).mpr
  have checked := (outside_waits plan .commit).preserves (released_lasting lease)
  apply (checked _ ready).mono
  · intro _ here released
    apply (Leaves.bind_iff _ _ _).mpr
    apply (ledger.leaves_zoom _ _).mpr
    apply Leaves.mono (commitRelease_outcome here.slots lease)
    · rintro _ slots ⟨_, rfl⟩
      apply (Leaves.bind_iff _ _ _).mpr
      apply (Leaves.modify_iff _ _).mpr
      exact (outside_waits plan .eventLog).preserves (secured_lasting noStray) _ released.commit
    · rintro _ slots ⟨_, rfl⟩
      exact released.secured
  · exact fun _ _ released => released.secured

/-! ## The flush -/

theorem deferRelease_preserves (lease : QSAHiSparseLease) :
    Preserves (Secured noStray) (deferRelease (queueMachine plan) lease) := by
  unfold deferRelease
  refine Preserves.bind (Reads.zoom (require_reads lease _)).preserves fun _ => ?_
  refine Preserves.get_bind fun self => ?_
  refine Preserves.bind (Preserves.raiseIf _ _) fun _ => ?_
  refine Preserves.bind (Preserves.modify fun runtime secured => { secured with }) fun _ => ?_
  exact (outside_waits plan _).preserves (secured_lasting noStray)

theorem afterRelease_preserves (lease : QSAHiSparseLease) :
    Preserves (Secured noStray) (afterRelease (queueMachine plan) lease) := by
  unfold afterRelease
  refine Ensures.bind (zoom_require_ensures (by simp) lease) fun _ => ?_
  rintro runtime ⟨secured, permits⟩
  apply (Leaves.bind_iff _ _ _).mpr
  apply (Leaves.get_iff _).mpr
  by_cases grouped : runtime.freeGroupOpen = true
  · rw [if_pos grouped]
    exact deferRelease_preserves plan lease runtime secured
  · rw [if_neg grouped]
    have commits := Ensures.bind (flushDrained_ensures plan lease) fun _ =>
      commitLease_ensures plan lease
    exact commits runtime (secured.released permits)

theorem flushPending_preserves (turns : Nat) :
    Preserves (Secured noStray) (flushPending (queueMachine plan) turns) := by
  induction turns with
  | zero => exact Preserves.pure PUnit.unit
  | succ turns previous =>
      unfold flushPending
      refine Preserves.get_bind fun self => ?_
      cases self.pendingReleases with
      | nil => exact Preserves.pure PUnit.unit
      | cons lease rest =>
          refine Preserves.bind ?_ fun _ => previous
          refine Preserves.tryFinally (afterRelease_preserves plan lease) ?_
          refine Preserves.modify fun runtime secured => ?_
          by_cases active : runtime.slots.active.contains lease.reqPoolIdx = true
          · rw [if_pos active]
            exact secured
          · rw [if_neg active]
            exact { secured with }

/-! ## A whole run -/

theorem admitLease_preserves (lease : QSAHiSparseLease) :
    Preserves (Secured noStray) (admitLease (δ := CopyQueue) lease) := by
  intro runtime secured
  unfold admitLease
  apply (ledger.leaves_zoom _ _).mpr
  apply Leaves.mono (admitDecode_outcome runtime.slots lease)
  · rintro _ slots ⟨_, rfl⟩
    exact secured.withSlots (fun _ held => held) fun _ _ permits =>
      setPhase_live (by decide) permits
  · rintro _ slots ⟨_, rfl⟩
    exact secured

/-- From a state in which every copy is awaited, a call keeps them awaited or
raises after it has lost one. -/
theorem perform_ensures (call : Call) :
    Ensures (Secured noStray) (perform (queueMachine plan) config call)
      (fun _ => Secured noStray) (fun _ => Accounted plan) := by
  have awaits {α : Type} {program : Method (QSAHiSparseRuntime CopyQueue) α}
      (preserves : Preserves (Secured noStray) program) : Ensures (Secured noStray) program
        (fun _ => Secured noStray) (fun _ => Accounted plan) :=
    preserves.escaping fun _ _ => Or.inl
  cases call with
  | regenerate reqIdx generation =>
      exact awaits (Preserves.modify fun runtime secured => { secured with })
  | beginBatch batch => exact awaits (beginBatch_preserves plan batch false)
  | storeKv li => exact awaits (((secured_lasting noStray).steady plan).storeKv li)
  | afterStore li => exact afterStore_ensures plan li
  | selected li rows => exact awaits (((secured_lasting noStray).steady plan).selected li rows)
  | handoff reqIdx rid =>
      exact Ensures.bind (handoff_ensures plan reqIdx rid) fun _ => fun _ secured => secured
  | admitDecode lease => exact awaits (admitLease_preserves lease)
  | graphForward batch count => exact awaits (graphForward_preserves plan batch count)
  | release reqIdx rid =>
      exact awaits (Preserves.bind (release_preserves plan reqIdx rid) fun _ =>
        Preserves.pure PUnit.unit)
  | afterRelease lease =>
      cases lease with
      | none => exact awaits (Preserves.pure PUnit.unit)
      | some lease => exact awaits (afterRelease_preserves plan lease)
  | freeGroupBegin => exact awaits (Preserves.modify fun runtime secured => { secured with })
  | freeGroupEnd =>
      refine awaits (Preserves.bind (Preserves.modify fun runtime secured => { secured with })
        fun _ => ?_)
      exact Preserves.get_bind fun self => flushPending_preserves plan _
  | logicalFlush => exact awaits (Preserves.get_bind fun self => flushPending_preserves plan _)

end Release

theorem initial_secured (config : Config) (geometry : Geometry) :
    Secured noStray (.initial config geometry CopyQueue.empty) where
  awaited := fun _ index pending => absurd pending.index_lt (Nat.not_lt_zero index)
  live := fun _ index pending => absurd pending.index_lt (Nat.not_lt_zero index)
  shared := fun _ recorded => nomatch recorded
  owned := fun _ _ found => nomatch found
  committed := fun _ member => absurd member List.not_mem_nil

/-- At every commit of the run all copies of the committed lease are done. -/
def CommitsSettled (plan : Plan) (config : Config) (geometry : Geometry) (calls : List Call) :
    Prop :=
  forall entry,
    entry ∈ (callAll (perform (queueMachine plan) config)
      (.initial config geometry CopyQueue.empty) calls).commits ->
    Settled entry.2 entry.1

/-- No call of the run loses a copy. -/
def ContainedRun (plan : Plan) (config : Config) (geometry : Geometry) (calls : List Call) : Prop :=
  forall first rest, calls = first ++ rest ->
    plan.Contained (callAll (perform (queueMachine plan) config)
      (.initial config geometry CopyQueue.empty) first).device.made

theorem callAll_secured (plan : Plan) (config : Config) (geometry : Geometry) (calls : List Call)
    (contained : ContainedRun plan config geometry calls) :
    Secured noStray (callAll (perform (queueMachine plan) config)
      (.initial config geometry CopyQueue.empty) calls) := by
  induction calls using List.reverseRecOn with
  | nil => exact initial_secured config geometry
  | append_singleton calls call previous =>
      have secured := previous fun first rest split =>
        contained first (rest ++ [call]) (by rw [split, List.append_assoc])
      have kept := contained (calls ++ [call]) [] (List.append_nil _).symm
      rw [callAll_append] at kept ⊢
      have accounted := Leaves.finalState_iff.mp
        ((@perform_ensures plan config call _ secured).mono (fun _ _ => Or.inl) fun _ _ => id)
      exact accounted.resolve_right fun lost => lost kept

/-- No slot is given back before the copies of its lease are done, in any run
whose writebacks and handoffs leave no copy without an event. -/
theorem commits_settled (plan : Plan) (config : Config) (geometry : Geometry) (calls : List Call)
    (contained : ContainedRun plan config geometry calls) :
    CommitsSettled plan config geometry calls :=
  (callAll_secured plan config geometry calls contained).committed

/-! ## The record that fails -/

/-- Nothing completes by itself, and every record of an eager writeback raises
when `fails`. -/
def lostRecord (fails : Bool) : Plan := fun _ site =>
  ⟨0, if fails = true ∧ site = .writebackDone then
    some ⟨.runtimeError "CUDA error: out of memory", false⟩ else none, true⟩

def oneLane : Geometry := .onePage

def offloading : Config := ⟨12, 64, true, false, false, [], true⟩

def onlyLease : QSAHiSparseLease := ⟨1, 1, "a", 0⟩

/-- A request of three tokens decodes one, which closes the first block, and is
released. -/
def oneDecode : List Call :=
  [ .regenerate 1 1,
    .beginBatch ⟨.extend, 1, some [1], some [3], ["a"], [3]⟩,
    .handoff 1 "a",
    .admitDecode onlyLease,
    .beginBatch ⟨.decode, 1, some [1], some [4], ["a"], []⟩,
    .storeKv 0,
    .afterStore 0,
    .release 1 "a",
    .afterRelease (some onlyLease) ]

/-- The record of a chunk raises, and that of an eager writeback would. -/
def lostChunk : Plan := fun _ site =>
  ⟨0, if site = .chunkDone ∨ site = .writebackDone then
    some ⟨.runtimeError "CUDA error: out of memory", false⟩ else none, true⟩

/-- A request of four tokens whose handoff fails is released. -/
def oneHandoff : List Call :=
  [ .regenerate 1 1,
    .beginBatch ⟨.extend, 1, some [1], some [4], ["a"], [4]⟩,
    .handoff 1 "a",
    .release 1 "a",
    .afterRelease (some onlyLease) ]

/-- The run makes no eager writeback, and the handler of its handoff drains the
copy stream. -/
theorem oneHandoff_contained : ContainedRun lostChunk offloading oneLane oneHandoff := by
  intro first rest split
  have unmade : forall turns, turns < 6 -> Site.writebackDone ∉
      ((callAll (perform (queueMachine lostChunk) offloading)
        (.initial offloading oneLane CopyQueue.empty)
        (oneHandoff.take turns)).device.made.map Prod.snd) := by
    decide +kernel
  have taken : oneHandoff.take first.length = first := by rw [split, List.take_left]
  have few : first.length < 6 := by
    have lengths : 5 = first.length + rest.length := by
      rw [<- List.length_append, <- split]
      rfl
    omega
  have absent := unmade first.length few
  rw [taken] at absent
  constructor
  · exact fun _ _ _ faults => nomatch faults
  · exact fun _ made => absurd (List.mem_map_of_mem made) absent
  · exact fun _ _ _ faults => nomatch faults
  · rintro _ _ _ ⟨⟩
    exact ⟨rfl, rfl⟩

/-- The handoff fails with its chunk queued, and the copy is done at the
commit. -/
theorem oneHandoff_settled :
    ((callAll (perform (queueMachine lostChunk) offloading)
        (.initial offloading oneLane CopyQueue.empty) oneHandoff).commits.map Prod.fst =
      [onlyLease]) ∧
    ContainedRun lostChunk offloading oneLane oneHandoff ∧
    CommitsSettled lostChunk offloading oneLane oneHandoff :=
  ⟨by decide +kernel, oneHandoff_contained, commits_settled _ _ _ _ oneHandoff_contained⟩

/-- With a record that raises the slot is given back while its copy is pending. -/
theorem oneDecode_reused : ¬ CommitsSettled (lostRecord true) offloading oneLane oneDecode := by
  intro settled
  have committed : (callAll (perform (queueMachine (lostRecord true)) offloading)
      (.initial offloading oneLane CopyQueue.empty) oneDecode).commits.map
        (fun entry => (entry.1, entry.2.submitted, entry.2.completed)) =
        [(onlyLease, [.writeBack onlyLease 0 0], 0)] := by
    decide +kernel
  rcases List.mem_map.mp (committed ▸ List.mem_singleton_self _) with ⟨⟨lease, queue⟩, member, same⟩
  simp only [Prod.mk.injEq] at same
  rcases same with ⟨rfl, submitted, completed⟩
  refine settled _ member 0 ⟨?_, .writeBack onlyLease 0 0, ?_, rfl⟩
  · exact Nat.le_of_eq completed
  · exact congrArg (fun works : List Work => works[0]?) submitted

end Runtime
end QSAHiSparse

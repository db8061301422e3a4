import QSAHiSparse.Runtime.Release
import QSAHiSparse.Writeback.Forward

namespace QSAHiSparse
namespace Writeback

open Foundation
open Ledger
open QSAHiSparse.Runtime

/-!
# Releases

A release waits for the completion event of every layer, and these cover every
copy of the lease.  So none is pending when the lease leaves the phases in which
its copies are waited for, nor when its slot is given back.
-/

section Release

variable {config : Config} {resolver : Resolver} {pace : Pace} {graph : Bool} {stages : Stages}
  {lease : QSAHiSparseLease} {runtime : QSAHiSparseRuntime Lagging}

/-! ## A change of phase -/

/-- A held lease changes its phase, and is not kept or was. -/
theorem Core.setPhase (core : Core config resolver graph stages noneLoose runtime)
    (held : runtime.slots.Holds lease) (phase : Phase) {slots : QSAHiSparseSlots}
    (same : forall other phases, slots.Permits other phases <->
      (runtime.slots.setPhase lease phase).Permits other phases)
    (active : slots.active = runtime.slots.active) (ledger : LedgerInvariant slots)
    (undone : Undone runtime lease -> phase ∈ [Phase.decode, Phase.releasing])
    (unstaged : phase ≠ .prefill)
    (kept : phase ∈ keptPhases -> runtime.slots.Permits lease keptPhases) :
    Core config resolver graph stages noneLoose { runtime with slots := slots } := by
  refine core.rewrite rfl rfl rfl rfl ledger ?_ ?_ ?_ ?_
  · intro row other found
    have before := core.owned row other found
    refine ⟨before.1, ?_⟩
    unfold QSAHiSparseSlots.Holds
    rw [active]
    exact before.2
  · intro other copies permits
    refine (same other _).mpr ?_
    by_cases here : other = lease
    · rw [here]
      rw [here] at copies
      exact ⟨held, phase, Dict.get?_set_self _ _ _, undone copies⟩
    · exact setPhase_other held here permits
  · intro other prefilling
    rcases setPhase_cases held ((same other _).mp prefilling) with ⟨_, never⟩ | ⟨_, before⟩
    · exact absurd (List.mem_singleton.mp never) unstaged
    · exact before
  · intro other permits
    rcases setPhase_cases held ((same other _).mp permits) with ⟨rfl, inside⟩ | ⟨_, before⟩
    · exact kept inside
    · exact before

/-- The coordinator admits a lease whose prompt is kept. -/
theorem admitLease_core (lease : QSAHiSparseLease) :
    Returns (Core config resolver graph stages noneLoose)
      (admitLease lease : Method (QSAHiSparseRuntime Lagging) PUnit)
      fun _ => Core config resolver graph stages noneLoose := by
  intro runtime core
  apply (ledger.leaves_zoom _ _).mpr
  refine (admitDecode_outcome runtime.slots lease).mono ?_ fun _ _ _ => trivial
  rintro _ slots ⟨⟨permits, _⟩, rfl⟩
  refine core.setPhase permits.1 .decode (fun _ _ => Iff.rfl) rfl
    (core.ledger.move (.decode lease permits)) (fun _ => by decide) (by decide) fun _ => ?_
  rcases permits with ⟨held, phase, present, member⟩
  exact ⟨held, phase, present, by
    rw [List.mem_singleton.mp member]
    exact List.mem_cons_self⟩

/-! ## The drain -/

/-- The events that were waited for are complete. -/
def Complete (self runtime : QSAHiSparseRuntime Lagging) (events : List Event) : Prop :=
  forall event mark, event ∈ events -> self.markOf event = some mark ->
    mark.position ≤ runtime.device.device.log.length ->
      mark.position ≤ runtime.device.device.reached mark.stream

theorem complete_lasting (self : QSAHiSparseRuntime Lagging) (events : List Event) :
    Lasting resolver fun runtime => Complete self runtime events := by
  rintro runtime now complete ⟨progressed, _⟩ event mark member recorded inside
  change mark.position ≤ now.device.log.length at inside
  rw [progressed.1] at inside
  exact Nat.le_trans (complete event mark member recorded inside) (progressed.2 mark.stream)

/-- A lease whose events are complete has no pending copy. -/
theorem Core.complete (core : Core config resolver graph stages noneLoose runtime)
    (complete : Complete runtime runtime (runtime.caches lease).events) :
    ¬ Undone runtime lease := by
  rintro ⟨index, li, block, found, pending⟩
  rcases core.guarded.awaited index _ found with done | awaited | never
  · exact pending done
  · rcases awaited with
      ⟨other, layer, closed, state, event, mark, same, _, listed, recorded, marked, copies, inside⟩
    cases same
    have member : event ∈ (runtime.caches lease).events :=
      List.mem_append_left _ (List.mem_filterMap.mpr ⟨state, List.mem_of_getElem? listed, recorded⟩)
    have reached := complete event mark member marked
      (core.guarded.told lease li state event mark listed recorded marked)
    rw [copies] at reached
    exact pending (Nat.lt_of_lt_of_le inside reached)
  · exact never

/-- What does not change while the events are waited for. -/
structure Draining (config : Config) (resolver : Resolver) (graph : Bool) (stages : Stages)
    (slots : QSAHiSparseSlots) (start runtime : QSAHiSparseRuntime Lagging) : Prop where
  core : Core config resolver graph stages noneLoose runtime
  ledger : runtime.slots = slots
  caches : runtime.caches = start.caches
  shared : runtime.graphCopyDone = start.graphCopyDone

theorem draining_lasting (slots : QSAHiSparseSlots) (self : QSAHiSparseRuntime Lagging) :
    Lasting resolver (Draining config resolver graph stages slots self) :=
  fun runtime now draining later =>
    ⟨core_lasting config graph stages noneLoose runtime now draining.core later,
      draining.ledger, draining.caches, draining.shared⟩

/-- The waits for the events of a cache, in order. -/
theorem synchronizeAll_draining (slots : QSAHiSparseSlots) (self : QSAHiSparseRuntime Lagging)
    (terminal : Mark) (events : List Event) :
    Returns (Draining config resolver graph stages slots self)
      (synchronizeAll
        (device.zoom ((streamMachine resolver pace).synchronize .terminalSynchronize terminal))
        (events.map fun event => some (synchronizeEvent (streamMachine resolver pace) self event)))
      fun _ runtime => Draining config resolver graph stages slots self runtime ∧
        Complete self runtime events := by
  unfold synchronizeAll
  refine Ensures.bind (((draining_lasting slots self).steady pace).synchronize
    .terminalSynchronize terminal).returns fun _ => ?_
  rw [List.forM_map]
  refine Returns.weaken (Returns.forEach (fun done runtime =>
    Draining config resolver graph stages slots self runtime ∧ Complete self runtime done) ?_)
    (fun runtime draining => ⟨draining, fun _ _ member => absurd member List.not_mem_nil⟩)
    fun _ _ => id
  intro done event rest split
  have lasting := (@draining_lasting config resolver graph stages slots self).and
    (complete_lasting self done)
  have extend (runtime : QSAHiSparseRuntime Lagging) (complete : Complete self runtime done)
      (last : forall mark, self.markOf event = some mark ->
        mark.position ≤ runtime.device.device.log.length ->
          mark.position ≤ runtime.device.device.reached mark.stream) :
      Complete self runtime (done ++ [event]) := by
    intro other mark member recorded inside
    rcases List.mem_append.mp member with before | single
    · exact complete other mark before recorded inside
    · rw [List.mem_singleton.mp single] at recorded
      exact last mark recorded inside
  change Returns _ (synchronizeEvent (streamMachine resolver pace) self event) _
  unfold synchronizeEvent
  cases recorded : self.markOf event with
  | none =>
      rintro runtime ⟨draining, complete⟩
      refine ⟨draining, extend runtime complete fun mark absent => ?_⟩
      rw [recorded] at absent
      cases absent
  | some mark =>
      refine Returns.weaken (lasting.synchronize
        (fun runtime both => both.1.core.guarded.sound.timely) .copySynchronize mark)
        (fun _ => id) fun _ runtime both => ⟨both.1.1, extend runtime both.1.2 fun other same => ?_⟩
      rw [recorded] at same
      cases same
      exact both.2

theorem drainLease_core (lease : QSAHiSparseLease) :
    Returns (Core config resolver graph stages noneLoose)
      (drainLease (streamMachine resolver pace) config lease)
      fun _ => Core config resolver graph stages noneLoose := by
  unfold drainLease
  refine Returns.raiseIf_bind _ fun _ => ?_
  refine Ensures.bind ((core_steady config resolver pace graph stages noneLoose).record .terminal
    .compute).returns fun terminal => ?_
  refine Returns.get_bind fun self => ?_
  rintro runtime ⟨core, rfl⟩
  refine drain_leaves lease ledger _ _ runtime (fun _ _ => trivial) fun starts => ?_
  have permits := starts.1
  have releasing : Core config resolver graph stages noneLoose
      { runtime with slots := runtime.slots.setPhase lease .releasing } :=
    core.setPhase permits.1 .releasing (fun _ _ => Iff.rfl) rfl
      (core.ledger.move (.drainInterrupted lease permits)) (fun _ => by decide) (by decide)
      fun never => absurd never (by decide)
  have waits : Returns
      (Draining config resolver graph stages (runtime.slots.setPhase lease .releasing) runtime)
      (synchronizeAll
        (device.zoom ((streamMachine resolver pace).synchronize .terminalSynchronize terminal))
        ((runtime.caches lease).events.map fun event =>
          some (synchronizeEvent (streamMachine resolver pace) runtime event))) _ :=
    synchronizeAll_draining _ runtime terminal (runtime.caches lease).events
  refine (waits _ ⟨releasing, rfl, rfl, rfl⟩).mono ?_
    fun _ _ _ => ⟨fun _ => trivial, fun _ => trivial⟩
  rintro _ last ⟨draining, complete⟩
  have done : ¬ Undone last lease := by
    apply draining.core.complete
    rw [draining.caches]
    intro event mark member recorded
    refine complete event mark member ?_
    cases event with
    | own own => exact recorded
    | graphCopyDone => exact draining.shared.symm.trans recorded
  have held : last.slots.Holds lease := by
    rw [draining.ledger]
    exact permits.1
  change Core config resolver graph stages noneLoose
    { last with slots := (last.slots.leaveLane lease).setPhase lease .drained }
  refine draining.core.setPhase held .drained (fun other phases => ?_) ?_ ?_
    (fun copies => absurd copies done) (by decide) fun never => absurd never (by decide)
  · unfold QSAHiSparseSlots.leaveLane
    split <;> exact Iff.rfl
  · unfold QSAHiSparseSlots.leaveLane
    split <;> rfl
  · rw [draining.ledger]
    exact core.ledger.move (.drained lease permits)

theorem release_core (reqIdx : Int) (rid : String) :
    Returns (Core config resolver graph stages noneLoose)
      (release (streamMachine resolver pace) config reqIdx rid)
      fun _ => Core config resolver graph stages noneLoose := by
  have steady := core_steady config resolver pace graph stages noneLoose
  unfold release
  refine Returns.get_known fun self _ => ?_
  refine Returns.ite (fun _ => Returns.raiseIf_bind _ fun _ _ core => core) fun _ => ?_
  unfold releaseHeld
  refine Ensures.bind (request_reads _ _).preserves.returns fun lease => ?_
  have failed : Returns (Core config resolver graph stages noneLoose)
      (drainFailedLease (streamMachine resolver pace) lease)
      fun _ => Core config resolver graph stages noneLoose := by
    have drains : Preserves (Core config resolver graph stages noneLoose)
        (drainGraphStreams (streamMachine resolver pace)) :=
      @Steady.drainGraphStreams _ (quiet (streamMachine resolver pace)) _ steady
    unfold drainFailedLease
    refine Returns.get_known fun self _ => ?_
    refine Returns.ite (fun _ => Ensures.bind drains.returns fun _ => ?_) fun _ _ core => core
    exact Returns.modify _ fun runtime core => core.apart rfl rfl rfl rfl rfl rfl
  refine Ensures.bind failed fun _ => ?_
  refine Ensures.bind (steady.outside .eventLog).returns fun _ => ?_
  refine Ensures.bind (drainLease_core lease) fun _ => ?_
  exact Ensures.bind (steady.outside .eventLog).returns fun _ runtime core => core

/-! ## The commit -/

/-- The cache of a drained lease lets go of its layers. -/
theorem Core.letGo (core : Core config resolver graph stages noneLoose runtime)
    (permits : runtime.slots.Permits lease [.drained, .logicalFlushed]) :
    Core config resolver graph stages noneLoose
      (runtime.withCache lease fun cache => { cache with states := [], host := false }) := by
  have different {other : QSAHiSparseLease} {phases : List Phase}
      (others : runtime.slots.Permits other phases)
      (outside : forall phase, phase ∈ [Phase.drained, Phase.logicalFlushed] -> phase ∉ phases) :
      other ≠ lease := by
    rintro rfl
    exact permits_disjoint permits others outside
  have kept {other : QSAHiSparseLease} (apart : other ≠ lease) :
      (runtime.withCache lease fun cache =>
        { cache with states := [], host := false }).caches other = runtime.caches other :=
    Function.update_of_ne apart _ _
  have seqLen := @withCache_same runtime lease _ (fun cache =>
    { cache with states := [], host := false }) RequestCache.seqLen rfl
  have written : Written runtime (runtime.withCache lease fun cache =>
      { cache with states := [], host := false }) := by
    refine ⟨rfl, rfl, rfl, fun other => ?_, fun other undone => core.guarded.undone undone⟩
    by_cases same : other = lease
    · rw [same, withCache_self]
      exact Or.inr ⟨fun undone => different (core.guarded.undone undone) (by decide) rfl,
        fun _ member => absurd member List.not_mem_nil⟩
    · exact Or.inl (congrArg RequestCache.states (kept same))
  refine core.write written core.ledger core.owned ?_ ?_ ?_ ?_
  · intro other
    rw [seqLen]
    exact core.lengths other
  · intro other prefilling
    rw [kept (different prefilling (by decide))]
    exact core.unstaged other prefilling
  · intro other keeps
    rw [kept (different keeps (by decide))]
    exact core.offloaded other keeps
  · intro other keeps li inside
    rw [kept (different keeps (by decide))]
    exact core.contents other keeps li inside

/-- The slot is given back and the row leaves the table. -/
theorem Core.giveBack (core : Core config resolver graph stages noneLoose runtime)
    (permits : runtime.slots.Permits lease [.logicalFlushed]) {after : QSAHiSparseRuntime Lagging}
    (device : after.device = runtime.device) (caches : after.caches = runtime.caches)
    (shared : after.graphCopyDone = runtime.graphCopyDone)
    (pending : after.graphCopyPending = runtime.graphCopyPending)
    (slots : after.slots = runtime.slots.giveBack lease)
    (requests : after.requests = runtime.requests.erase lease.reqPoolIdx) :
    Core config resolver graph stages noneLoose after := by
  apply core.rewrite device caches shared pending <;> rw [slots]
  · exact core.ledger.move (.giveBack lease permits)
  · intro row other found
    rw [requests, Dict.get?_erase] at found
    by_cases same : row = lease.reqPoolIdx
    · rw [if_pos same] at found
      cases found
    · rw [if_neg same] at found
      have before := core.owned row other found
      exact ⟨before.1, giveBack_holds (before.1.trans_ne same) before.2⟩
  · intro other _ decodes
    refine giveBack_permits permits.1 ?_ decodes
    rintro rfl
    exact permits_disjoint permits decodes (by decide)
  · exact fun other prefilling => (giveBack_cases prefilling).2
  · exact fun other keeps => (giveBack_cases keeps).2

theorem commitLease_core (lease : QSAHiSparseLease) :
    Returns
      (fun runtime => Core config resolver graph stages noneLoose runtime ∧
        runtime.slots.Permits lease [.drained, .logicalFlushed])
      (commitLease (streamMachine resolver pace) lease)
      fun _ => Core config resolver graph stages noneLoose := by
  have steady := core_steady config resolver pace graph stages noneLoose
  unfold commitLease
  refine Returns.get_bind fun self => ?_
  rintro runtime ⟨⟨core, permits⟩, rfl⟩
  apply (Leaves.bind_iff _ _ _).mpr
  apply (Leaves.getItem_iff _ _ _).mpr
  refine ⟨fun _ => trivial, fun found listed => ?_⟩
  have owner := core.owned lease.reqPoolIdx found listed
  rcases held_unique permits.1 owner.2 owner.1 with rfl
  apply (Leaves.bind_iff _ _ _).mpr
  apply (Leaves.modify_iff _ _).mpr
  apply (Leaves.bind_iff _ _ _).mpr
  apply (Leaves.modify_iff _ _).mpr
  have gone : Core config resolver graph stages noneLoose
      { runtime.withCache found fun cache => { cache with states := [], host := false } with
        batchRequests := runtime.batchRequests.filter (· ≠ found) } :=
    (core.letGo permits).apart rfl rfl rfl rfl rfl rfl
  refine Ensures.bind (steady.outside .commit).returns (fun _ => ?_) _ gone
  intro runtime core
  apply (Leaves.bind_iff _ _ _).mpr
  apply (ledger.leaves_zoom _ _).mpr
  refine (commitRelease_outcome runtime.slots found).mono ?_ fun _ _ _ => trivial
  rintro _ slots ⟨⟨permits, _⟩, rfl⟩
  apply (Leaves.bind_iff _ _ _).mpr
  apply (Leaves.modify_iff _ _).mpr
  exact (steady.outside .eventLog).returns _ (core.giveBack permits rfl rfl rfl rfl rfl rfl)

theorem required_core {phases : List Phase} (asked : phases ≠ []) (lease : QSAHiSparseLease) :
    Returns (Core config resolver graph stages noneLoose) (ledger.zoom (require lease phases))
      fun _ runtime => Core config resolver graph stages noneLoose runtime ∧
        runtime.slots.Permits lease phases :=
  fun runtime core => (zoom_require_ensures asked lease runtime core).mono (fun _ _ => id)
    fun _ _ _ => trivial

/-- A drained lease is flushed. -/
theorem flushDrained_core (lease : QSAHiSparseLease) :
    Returns
      (fun runtime => Core config resolver graph stages noneLoose runtime ∧
        runtime.slots.Permits lease [.drained, .logicalFlushed])
      (flushDrained (streamMachine resolver pace) lease)
      fun _ runtime => Core config resolver graph stages noneLoose runtime ∧
        runtime.slots.Permits lease [.drained, .logicalFlushed] := by
  have lasting : Lasting resolver fun runtime =>
      Core config resolver graph stages noneLoose runtime ∧
        runtime.slots.Permits lease [.drained, .logicalFlushed] :=
    (core_lasting config graph stages noneLoose).and (Lasting.of_host fun _ _ permits => permits)
  unfold flushDrained
  refine Returns.get_known fun self _ => ?_
  refine Ensures.bind (Preserves.getItem self.slots.phases lease.reqPoolIdx).returns fun phase => ?_
  refine Returns.ite (fun _ => ?_) fun _ _ both => both
  refine Ensures.bind ((lasting.steady pace).outside .flushCheck).returns fun _ => ?_
  rintro runtime ⟨core, _⟩
  apply (ledger.leaves_zoom _ _).mpr
  refine (logicalFlushed_outcome runtime.slots lease self.freeGroupOpen).mono ?_
    fun _ _ _ => trivial
  rintro _ slots ⟨⟨permits, _, _⟩, rfl⟩
  have flushed := permits.1.setPhase_permits .logicalFlushed
  refine ⟨core.setPhase permits.1 .logicalFlushed (fun _ _ => Iff.rfl) rfl
    (core.ledger.move (.flushed lease permits)) (fun undone => ?_) (by decide) fun never =>
      absurd never (by decide), ?_⟩
  · exact absurd (permits_disjoint permits (core.guarded.undone undone) (by decide)) id
  · rcases flushed with ⟨held, phase, present, member⟩
    exact ⟨held, phase, present, List.mem_cons_of_mem _ member⟩

/-- `after_release` defers the lease or gives its slot back. -/
theorem afterRelease_core (lease : QSAHiSparseLease) :
    Returns (Core config resolver graph stages noneLoose)
      (afterRelease (streamMachine resolver pace) lease)
      fun _ => Core config resolver graph stages noneLoose := by
  have steady := core_steady config resolver pace graph stages noneLoose
  unfold afterRelease
  refine Ensures.bind (required_core (by simp) lease) fun _ => ?_
  refine Returns.get_known fun self _ => ?_
  refine Returns.ite (fun _ => ?_) fun _ => ?_
  · refine Returns.weaken ?_ (fun _ both => both.1) fun _ _ => id
    unfold deferRelease
    refine Ensures.bind (Reads.zoom (require_reads lease _)).preserves.returns fun _ => ?_
    refine Returns.get_known fun self _ => ?_
    refine Returns.raiseIf_bind _ fun _ => ?_
    refine Ensures.bind (Returns.modify (Core config resolver graph stages noneLoose)
      fun runtime core => core.apart rfl rfl rfl rfl rfl rfl) fun _ => ?_
    exact (steady.outside .eventLog).returns
  · exact Ensures.bind (flushDrained_core lease) fun _ => commitLease_core lease

theorem flushPending_core (turns : Nat) :
    Returns (Core config resolver graph stages noneLoose)
      (flushPending (streamMachine resolver pace) turns)
      fun _ => Core config resolver graph stages noneLoose := by
  induction turns with
  | zero => exact fun _ core => core
  | succ turns previous =>
      unfold flushPending
      refine Returns.get_known fun self _ => ?_
      cases self.pendingReleases with
      | nil => exact fun _ core => core
      | cons lease _ =>
          refine Ensures.bind (Returns.tryFinally (afterRelease_core lease) fun _ => ?_)
            fun _ => previous
          refine Returns.modify _ fun runtime core => ?_
          split
          · exact core
          · exact core.apart rfl rfl rfl rfl rfl rfl

theorem afterLogicalFlush_core :
    Returns (Core config resolver graph stages noneLoose)
      (afterLogicalFlush (streamMachine resolver pace))
      fun _ => Core config resolver graph stages noneLoose := by
  unfold afterLogicalFlush
  exact Returns.get_known fun self _ => flushPending_core self.pendingReleases.length

end Release

end Writeback
end QSAHiSparse

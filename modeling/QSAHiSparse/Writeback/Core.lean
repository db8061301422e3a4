import QSAHiSparse.Ledger.Holders
import QSAHiSparse.Ledger.Invariant
import QSAHiSparse.Writeback.Guards

namespace QSAHiSparse
namespace Writeback

open Foundation
open Ledger
open QSAHiSparse.Runtime

/-!
# The invariant of a run

Every decoding lease has its tokens where its length says, in every layer.  In
the middle of a forward the layers of a lease are at different stages, and one
submission moves one layer of one lease on.
-/

/-! ## Stages -/

/-- What a layer of a lease of a given length holds.  Only its own ring, hot rows
and host records matter. -/
structure Stage where
  holds : (Place -> List Token) -> QSAHiSparseLease -> Nat -> Int -> Prop
  congr : forall memory other lease li n, AgreeAt lease.slot li memory other ->
    holds other lease li n -> holds memory lease li n

/-- The whole length is kept. -/
def Stage.settled : Stage where
  holds := Represents
  congr _ _ _ _ _ agree represents := represents.congr agree

/-- The forward has begun, and the last token is not there yet. -/
def Stage.owed : Stage where
  holds memory lease li n := Represents memory lease li (n - 1)
  congr _ _ _ _ _ agree represents := represents.congr agree

def Stage.stored : Stage where
  holds := Stored
  congr _ _ _ _ _ agree stored := stored.congr agree

/-- A completed block is closed. -/
def Stage.closed : Stage where
  holds := Current
  congr _ _ _ _ _ agree current := current.congr agree

/-- A completed block is closed and written back. -/
def Stage.written : Stage where
  holds memory lease li n := Represents memory lease li n ∧ Current memory lease li n
  congr _ _ _ _ _ agree both := ⟨both.1.congr agree, both.2.congr agree⟩

/-- The stages of all leases and layers. -/
abbrev Stages := QSAHiSparseLease -> Nat -> Stage

/-- The layer of these leases moves on. -/
def moveAll (stages : Stages) (leases : List QSAHiSparseLease) (li : Nat) (next : Stage) :
    Stages :=
  fun lease layer => if lease ∈ leases ∧ layer = li then next else stages lease layer

/-- The layer of one lease moves on. -/
def move (stages : Stages) (lease : QSAHiSparseLease) (li : Nat) (next : Stage) : Stages :=
  moveAll stages [lease] li next

section Moves

variable {stages : Stages} {lease other : QSAHiSparseLease} {li layer : Nat} {next : Stage}

theorem move_self : move stages lease li next lease li = next :=
  if_pos ⟨List.mem_singleton_self _, rfl⟩

theorem move_other (apart : ¬ (other = lease ∧ layer = li)) :
    move stages lease li next other layer = stages other layer :=
  if_neg fun both => apart ⟨List.mem_singleton.mp both.1, both.2⟩

theorem moveAll_nil : moveAll stages [] li next = stages := by
  funext other layer
  exact if_neg fun both => absurd both.1 List.not_mem_nil

theorem moveAll_self {leases : List QSAHiSparseLease} (member : lease ∈ leases) :
    moveAll stages leases li next lease li = next :=
  if_pos ⟨member, rfl⟩

theorem moveAll_other {leases : List QSAHiSparseLease} (apart : ¬ (other ∈ leases ∧ layer = li)) :
    moveAll stages leases li next other layer = stages other layer :=
  if_neg apart

theorem moveAll_moveAll {leases : List QSAHiSparseLease} {last : Stage} :
    moveAll (moveAll stages leases li next) leases li last = moveAll stages leases li last := by
  funext other layer
  by_cases here : other ∈ leases ∧ layer = li
  · exact (if_pos here).trans (if_pos here).symm
  · rw [moveAll_other here, moveAll_other here, moveAll_other here]

theorem move_moveAll (leases : List QSAHiSparseLease) :
    move (moveAll stages leases li next) lease li next =
      moveAll stages (leases ++ [lease]) li next := by
  funext other layer
  by_cases last : other = lease ∧ layer = li
  · rcases last with ⟨rfl, rfl⟩
    rw [move_self, moveAll_self (List.mem_append_right _ List.mem_cons_self)]
  · rw [move_other last]
    by_cases earlier : other ∈ leases ∧ layer = li
    · rcases earlier with ⟨member, rfl⟩
      rw [moveAll_self member, moveAll_self (List.mem_append_left _ member)]
    · rw [moveAll_other earlier, moveAll_other]
      rintro ⟨member, same⟩
      rcases List.mem_append.mp member with before | single
      · exact earlier ⟨before, same⟩
      · exact last ⟨List.mem_singleton.mp single, same⟩

end Moves

/-! ## The invariant -/

/-- Two held leases of one slot are the same lease. -/
theorem slot_unique {slots : QSAHiSparseSlots} (valid : LedgerInvariant slots)
    {lease other : QSAHiSparseLease} (held : slots.Holds lease) (heldOther : slots.Holds other)
    (same : other.slot = lease.slot) : other = lease := by
  have nodup := valid.partition.nodup_iff.mpr List.nodup_range
  have slots_nodup := (List.nodup_append.mp nodup).2.1
  exact List.inj_on_of_nodup_map slots_nodup (Dict.mem_values_iff.mpr ⟨_, heldOther⟩)
    (Dict.mem_values_iff.mpr ⟨_, held⟩) same

/-- The phases of a lease whose tokens have left staging. -/
def keptPhases : List Phase := [.hostReady, .decode]

/-- The events of layer states: their own where decode runs eagerly, the shared
one, recorded and pending, where it runs by replays. -/
def Recorded (graph : Bool) (runtime : QSAHiSparseRuntime Lagging) : Event -> Prop
  | .own mark => graph = false ∧ mark.stream = .copy
  | .graphCopyDone => graph = true ∧ runtime.graphCopyPending = true ∧
      exists mark, runtime.graphCopyDone = some mark

structure Core (config : Config) (resolver : Resolver) (graph : Bool) (stages : Stages)
    (loose : Nat -> Work -> Prop) (runtime : QSAHiSparseRuntime Lagging) : Prop where
  guarded : Guarded resolver loose runtime
  ledger : LedgerInvariant runtime.slots
  owned : forall row lease, runtime.requests.get? row = some lease ->
    lease.reqPoolIdx = row ∧ runtime.slots.Holds lease
  lengths : forall lease, 0 ≤ (runtime.caches lease).seqLen
  recorded : forall (lease : QSAHiSparseLease) (li : Nat) (state : LayerState) (event : Event),
    (runtime.caches lease).states[li]? = some state -> state.done = some event ->
      Recorded graph runtime event
  unstaged : forall lease, runtime.slots.Permits lease [.prefill] ->
    (runtime.caches lease).states = []
  offloaded : forall lease, runtime.slots.Permits lease keptPhases ->
    (runtime.caches lease).offloaded = true ∧
      (runtime.caches lease).states.length = config.layers
  contents : forall lease, runtime.slots.Permits lease keptPhases ->
    forall li, li < config.layers ->
      (stages lease li).holds (replayed resolver runtime) lease li (runtime.caches lease).seqLen

section Core

variable {config : Config} {resolver : Resolver} {graph : Bool} {stages : Stages}
  {loose wider : Nat -> Work -> Prop} {runtime after : QSAHiSparseRuntime Lagging}
  {lease : QSAHiSparseLease} {li : Nat}

theorem core_lasting (config : Config) (graph : Bool) (stages : Stages)
    (loose : Nat -> Work -> Prop) : Lasting resolver (Core config resolver graph stages loose) := by
  intro runtime now core later
  refine ⟨guarded_lasting loose runtime now core.guarded later, core.ledger, core.owned,
    core.lengths, core.recorded, core.unstaged, core.offloaded, fun lease permits li inside => ?_⟩
  exact replayed_lasting (fun memory =>
    (stages lease li).holds memory lease li (runtime.caches lease).seqLen)
    runtime now (core.contents lease permits li inside) later

theorem core_steady (config : Config) (resolver : Resolver) (pace : Pace) (graph : Bool)
    (stages : Stages) (loose : Nat -> Work -> Prop) :
    Steady (quiet (streamMachine resolver pace)) (Core config resolver graph stages loose) :=
  (core_lasting config graph stages loose).steady pace

/-- Stages may be given by other names. -/
theorem Core.restage {others : Stages} (core : Core config resolver graph stages loose runtime)
    (implies : forall lease, runtime.slots.Permits lease keptPhases -> forall li,
      li < config.layers -> forall memory n, n = (runtime.caches lease).seqLen ->
        (stages lease li).holds memory lease li n -> (others lease li).holds memory lease li n) :
    Core config resolver graph others loose runtime :=
  { core with
    contents := fun lease permits li inside =>
      implies lease permits li inside _ _ rfl (core.contents lease permits li inside) }

theorem Core.loosen (core : Core config resolver graph stages loose runtime)
    (widens : forall index work, loose index work -> wider index work) :
    Core config resolver graph stages wider runtime :=
  { core with guarded := core.guarded.loosen widens }

/-- A stage of one layer of one lease that needs no work to be left. -/
theorem Core.skip (core : Core config resolver graph stages loose runtime) {next : Stage}
    (implies : forall memory n, n = (runtime.caches lease).seqLen ->
      (stages lease li).holds memory lease li n -> next.holds memory lease li n) :
    Core config resolver graph (move stages lease li next) loose runtime := by
  apply core.restage
  intro other _ layer _ memory n same holds
  by_cases here : other = lease ∧ layer = li
  · rcases here with ⟨rfl, rfl⟩
    rw [move_self]
    exact implies memory n same holds
  · rw [move_other here]
    exact holds

/-! ## Submissions -/

section Submissions

variable {stream : Stream} {work : Work}

theorem Core.wait (core : Core config resolver graph stages loose runtime) {other : Stream}
    {position : Nat} (earlier : position ≤ runtime.device.device.log.length) :
    Core config resolver graph stages loose (submitted runtime stream (.wait other position)) := by
  refine ⟨core.guarded.wait earlier, core.ledger, core.owned, core.lengths, core.recorded,
    core.unstaged, core.offloaded, fun lease permits li inside => ?_⟩
  rw [replayed_wait]
  exact core.contents lease permits li inside

/-- Work that leaves every kept lease as it is. -/
theorem Core.elsewhere (core : Core config resolver graph stages loose runtime)
    (guarded : Guarded resolver wider (submitted runtime stream (.perform work)))
    (agree : forall lease, runtime.slots.Permits lease keptPhases -> forall li,
      AgreeAt lease.slot li ((operations resolver).apply work (replayed resolver runtime))
        (replayed resolver runtime)) :
    Core config resolver graph stages wider (submitted runtime stream (.perform work)) := by
  refine ⟨guarded, core.ledger, core.owned, core.lengths, core.recorded, core.unstaged,
    core.offloaded, fun lease permits li inside => ?_⟩
  rw [replayed_perform]
  exact (stages lease li).congr _ _ _ _ _ (agree lease permits li)
    (core.contents lease permits li inside)

/-- Work that moves one layer of one lease on. -/
theorem Core.step (core : Core config resolver graph stages loose runtime)
    (guarded : Guarded resolver wider (submitted runtime stream (.perform work)))
    (held : runtime.slots.Holds lease)
    (about : forall slot layer, Touches slot layer work -> slot = lease.slot ∧ layer = li)
    {next : Stage}
    (advances : (stages lease li).holds (replayed resolver runtime) lease li
        (runtime.caches lease).seqLen ->
      next.holds ((operations resolver).apply work (replayed resolver runtime)) lease li
        (runtime.caches lease).seqLen) :
    Core config resolver graph (move stages lease li next) wider
      (submitted runtime stream (.perform work)) := by
  refine ⟨guarded, core.ledger, core.owned, core.lengths, core.recorded, core.unstaged,
    core.offloaded, fun other permits layer inside => ?_⟩
  rw [replayed_perform]
  have before := core.contents other permits layer inside
  by_cases here : other = lease ∧ layer = li
  · rcases here with ⟨rfl, rfl⟩
    rw [move_self]
    exact advances before
  · rw [move_other here]
    refine (stages other layer).congr _ _ _ _ _ (apply_agreeAt fun touches => ?_) before
    rcases about _ _ touches with ⟨slot, same⟩
    exact here ⟨slot_unique core.ledger held permits.1 slot, same⟩

end Submissions

/-! ## Writes of the runtime -/

theorem withCache_self (update : RequestCache -> RequestCache) :
    (runtime.withCache lease update).caches lease = update (runtime.caches lease) :=
  Function.update_self _ _ _

/-- A value that the update of one cache leaves as it is. -/
theorem withCache_same {β : Type} {update : RequestCache -> RequestCache}
    (value : RequestCache -> β)
    (same : value (update (runtime.caches lease)) = value (runtime.caches lease))
    (other : QSAHiSparseLease) :
    value ((runtime.withCache lease update).caches other) = value (runtime.caches other) := by
  by_cases here : other = lease
  · rw [here]
    exact (congrArg value (withCache_self update)).trans same
  · exact congrArg value (Function.update_of_ne here _ _)

/-- A copy of the lease is not done. -/
def Undone (runtime : QSAHiSparseRuntime Lagging) (lease : QSAHiSparseLease) : Prop :=
  exists (index li : Nat) (block : Int),
    runtime.device.device.log[index]? = some ⟨.copy, .perform (.writeBack lease li block)⟩ ∧
    ¬ index < runtime.device.device.reached .copy

/-- A lease with an undone copy is held and decodes. -/
theorem Guarded.undone (guarded : Guarded resolver noneLoose runtime)
    (undone : Undone runtime lease) : runtime.slots.Permits lease [.decode, .releasing] := by
  rcases undone with ⟨index, li, block, found, pending⟩
  rcases guarded.awaited index _ found with done | awaited | never
  · exact absurd done pending
  · rcases awaited with ⟨other, layer, closed, state, event, mark, same, decodes, _⟩
    cases same
    exact decodes
  · exact absurd never id

/-- What a write to the ledger, the tables and the caches leaves to the device. -/
structure Written (runtime after : QSAHiSparseRuntime Lagging) : Prop where
  device : after.device = runtime.device
  shared : after.graphCopyDone = runtime.graphCopyDone
  pending : after.graphCopyPending = runtime.graphCopyPending
  states : forall lease, (after.caches lease).states = (runtime.caches lease).states ∨
    ¬ Undone runtime lease ∧ forall state : LayerState, state ∈ (after.caches lease).states ->
      state.done = none ∨ state ∈ (runtime.caches lease).states
  undone : forall lease, Undone runtime lease ->
    after.slots.Permits lease [.decode, .releasing]

/-- The events after the write were there before. -/
theorem Written.before (written : Written runtime after) {state : LayerState} {event : Event}
    (listed : (after.caches lease).states[li]? = some state) (done : state.done = some event) :
    exists place : Nat, (runtime.caches lease).states[place]? = some state := by
  rcases written.states lease with same | ⟨_, others⟩
  · rw [same] at listed
    exact ⟨li, listed⟩
  · rcases others state (List.mem_of_getElem? listed) with none | member
    · rw [none] at done
      cases done
    · exact List.getElem?_of_mem member

/-- A write that keeps the events of the leases with undone copies. -/
theorem Guarded.write (guarded : Guarded resolver noneLoose runtime)
    (written : Written runtime after) : Guarded resolver noneLoose after := by
  have marks (event : Event) : after.markOf event = runtime.markOf event := by
    cases event with
    | own mark => rfl
    | graphCopyDone => exact written.shared
  refine
    { sound := by rw [written.device]; exact guarded.sound
      sided := by rw [written.device]; exact guarded.sided
      awaited := ?_
      told := ?_
      shared := by rw [written.device, written.shared]; exact guarded.shared
      exactly := by rw [written.device]; exact guarded.exactly }
  · rw [written.device]
    intro index work found
    rcases guarded.awaited index work found with done | awaited | never
    · exact Or.inl done
    · by_cases done : index < runtime.device.device.reached .copy
      · exact Or.inl done
      rcases awaited with
        ⟨lease, li, block, state, event, mark, rfl, _, listed, recorded, marked, rest⟩
      have undone : Undone runtime lease := ⟨index, li, block, found, done⟩
      refine Or.inr (Or.inl ⟨lease, li, block, state, event, mark, rfl,
        written.undone lease undone, ?_, recorded, (marks event).trans marked, rest⟩)
      rcases written.states lease with same | ⟨none, _⟩
      · rw [same]
        exact listed
      · exact absurd undone none
    · exact absurd never id
  · intro lease li state event mark listed recorded marked
    rw [written.device]
    rw [marks] at marked
    rcases written.before listed recorded with ⟨place, found⟩
    exact guarded.told lease place state event mark found recorded marked

/-- The write keeps the invariant when it keeps what the invariant says of the
ledger and of the leases whose tokens are kept. -/
theorem Core.write {others : Stages} (core : Core config resolver graph stages noneLoose runtime)
    (written : Written runtime after) (ledger : LedgerInvariant after.slots)
    (owned : forall row lease, after.requests.get? row = some lease ->
      lease.reqPoolIdx = row ∧ after.slots.Holds lease)
    (lengths : forall lease, 0 ≤ (after.caches lease).seqLen)
    (unstaged : forall lease, after.slots.Permits lease [.prefill] ->
      (after.caches lease).states = [])
    (offloaded : forall lease, after.slots.Permits lease keptPhases ->
      (after.caches lease).offloaded = true ∧
        (after.caches lease).states.length = config.layers)
    (contents : forall lease, after.slots.Permits lease keptPhases ->
      forall li, li < config.layers -> (others lease li).holds (replayed resolver runtime) lease li
        (after.caches lease).seqLen) :
    Core config resolver graph others noneLoose after where
  guarded := core.guarded.write written
  ledger := ledger
  owned := owned
  lengths := lengths
  recorded lease li state event listed done := by
    have before : Recorded graph runtime event := by
      rcases written.before listed done with ⟨place, found⟩
      exact core.recorded lease place state event found done
    cases event with
    | own mark => exact before
    | graphCopyDone =>
        rcases before with ⟨replays, pending, mark, shared⟩
        exact ⟨replays, written.pending.trans pending, mark, written.shared.trans shared⟩
  unstaged := unstaged
  offloaded := offloaded
  contents lease permits li inside := by
    rw [replayed, written.device]
    exact contents lease permits li inside

/-- The event covers everything that the copies were given so far. -/
def Latest (graph : Bool) (runtime : QSAHiSparseRuntime Lagging) (done : Option Event) : Prop :=
  exists event, done = some event ∧ Recorded graph runtime event ∧
    runtime.markOf event = some (runtime.device.mark .copy)

theorem Latest.recorded {event : Event} (latest : Latest graph runtime (some event)) :
    Recorded graph runtime event ∧ runtime.markOf event = some (runtime.device.mark .copy) := by
  rcases latest with ⟨other, same, both⟩
  rw [Option.some.inj same]
  exact both

/-- Copies that were loose are covered by events recorded last. -/
structure Covered (graph : Bool) (loose narrower : Nat -> Work -> Prop)
    (runtime after : QSAHiSparseRuntime Lagging) : Prop where
  device : after.device = runtime.device
  slots : after.slots = runtime.slots
  requests : after.requests = runtime.requests
  seqLen : forall lease, (after.caches lease).seqLen = (runtime.caches lease).seqLen
  offloaded : forall lease, (after.caches lease).offloaded = (runtime.caches lease).offloaded
  length : forall lease, (after.caches lease).states.length = (runtime.caches lease).states.length
  pending : runtime.graphCopyPending = true -> after.graphCopyPending = true
  marks : forall event, after.markOf event = runtime.markOf event ∨
    Latest graph after (some event)
  states : forall (lease : QSAHiSparseLease) (li : Nat) (state : LayerState),
    (runtime.caches lease).states[li]? = some state -> exists next : LayerState,
      (after.caches lease).states[li]? = some next ∧
        (next.done = state.done ∨ Latest graph after next.done)
  covers : forall (index : Nat) (work : Work),
    runtime.device.device.log[index]? = some ⟨.copy, .perform work⟩ -> loose index work ->
      narrower index work ∨ exists lease li block state, work = .writeBack lease li block ∧
        runtime.slots.Permits lease [.decode, .releasing] ∧
        (after.caches lease).states[li]? = some state ∧ Latest graph after state.done

section Covered

variable (covered : Covered graph loose wider runtime after)

include covered

/-- A layer state after the write was there before. -/
theorem Covered.before {state : LayerState}
    (listed : (after.caches lease).states[li]? = some state) :
    exists found : LayerState, (runtime.caches lease).states[li]? = some found ∧
      (state.done = found.done ∨ Latest graph after state.done) := by
  have inside : li < (runtime.caches lease).states.length := by
    rw [<- covered.length lease]
    exact (List.getElem?_eq_some_iff.mp listed).1
  rcases covered.states lease li _ (List.getElem?_eq_getElem inside) with ⟨next, there, either⟩
  rw [listed] at there
  cases there
  exact ⟨_, List.getElem?_eq_getElem inside, either⟩

theorem Latest.awaited {index : Nat} {work : Work} {done : Option Event}
    (latest : Latest graph after done) (found : runtime.device.device.log[index]? =
      some ⟨.copy, .perform work⟩) :
    exists event mark, done = some event ∧ after.markOf event = some mark ∧ mark.stream = .copy ∧
      index < mark.position := by
  rcases latest with ⟨event, same, _, marked⟩
  refine ⟨event, _, same, marked, rfl, ?_⟩
  rw [covered.device]
  exact Device.index_lt found

theorem Guarded.cover (guarded : Guarded resolver loose runtime) :
    Guarded resolver wider after := by
  have told (event : Event) (mark : Mark) (recorded : after.markOf event = some mark)
      (before : runtime.markOf event = some mark ->
        mark.position ≤ runtime.device.device.log.length) :
      mark.position ≤ after.device.device.log.length := by
    rcases covered.marks event with same | latest
    · rw [covered.device]
      exact before (same.symm.trans recorded)
    · rw [Option.some.inj (recorded.symm.trans latest.recorded.2)]
      exact Nat.le_refl _
  refine
    { sound := by rw [covered.device]; exact guarded.sound
      sided := by rw [covered.device]; exact guarded.sided
      awaited := ?_
      told := ?_
      shared := fun mark recorded => told .graphCopyDone mark recorded (guarded.shared mark)
      exactly := by rw [covered.device]; exact guarded.exactly }
  · rw [covered.device]
    intro index work found
    rcases guarded.awaited index work found with done | awaited | free
    · exact Or.inl done
    · rcases awaited with
        ⟨lease, li, block, state, event, mark, same, decodes, listed, recorded, marked, rest⟩
      rcases covered.states lease li state listed with ⟨next, there, kept | latest⟩
      · rcases covered.marks event with equal | latest
        · refine Or.inr (Or.inl ⟨lease, li, block, next, event, mark, same, ?_, there,
            kept.trans recorded, equal.trans marked, rest⟩)
          rw [covered.slots]
          exact decodes
        · rcases latest.awaited covered found with ⟨other, later, equal, others⟩
          refine Or.inr (Or.inl ⟨lease, li, block, next, other, later, same, ?_, there,
            (kept.trans recorded).trans equal, others⟩)
          rw [covered.slots]
          exact decodes
      · rcases latest.awaited covered found with ⟨other, later, done, others⟩
        refine Or.inr (Or.inl ⟨lease, li, block, next, other, later, same, ?_, there, done,
          others⟩)
        rw [covered.slots]
        exact decodes
    · rcases covered.covers index work found free with
        still | ⟨lease, li, block, state, same, decodes, listed, latest⟩
      · exact Or.inr (Or.inr still)
      · rcases latest.awaited covered found with ⟨event, mark, done, others⟩
        refine Or.inr (Or.inl ⟨lease, li, block, state, event, mark, same, ?_, listed, done,
          others⟩)
        rw [covered.slots]
        exact decodes
  · intro lease li state event mark listed recorded marked
    rcases covered.before listed with ⟨found, there, kept | latest⟩
    · exact told event mark marked fun before =>
        guarded.told lease li found event mark there (kept.symm.trans recorded) before
    · rw [recorded] at latest
      rw [Option.some.inj (marked.symm.trans latest.recorded.2)]
      exact Nat.le_refl _

theorem Core.cover (core : Core config resolver graph stages loose runtime) :
    Core config resolver graph stages wider after where
  guarded := core.guarded.cover covered
  ledger := by
    rw [covered.slots]
    exact core.ledger
  owned := by
    rw [covered.slots, covered.requests]
    exact core.owned
  lengths lease := by
    rw [covered.seqLen]
    exact core.lengths lease
  recorded lease li state event listed recorded := by
    rcases covered.before listed with ⟨found, there, kept | latest⟩
    · have before := core.recorded lease li found event there (kept.symm.trans recorded)
      cases event with
      | own mark => exact before
      | graphCopyDone =>
          rcases before with ⟨replays, pending, mark, shared⟩
          refine ⟨replays, covered.pending pending, ?_⟩
          rcases covered.marks .graphCopyDone with equal | latest
          · exact ⟨mark, equal.trans shared⟩
          · exact ⟨_, latest.recorded.2⟩
    · rw [recorded] at latest
      exact latest.recorded.1
  unstaged lease permits := by
    rw [covered.slots] at permits
    rw [<- List.length_eq_zero_iff, covered.length, core.unstaged lease permits]
    rfl
  offloaded lease permits := by
    rw [covered.slots] at permits
    rw [covered.offloaded, covered.length]
    exact core.offloaded lease permits
  contents lease permits li inside := by
    rw [covered.slots] at permits
    rw [replayed, covered.device, covered.seqLen]
    exact core.contents lease permits li inside

end Covered

/-- A write to the ledger and the tables that moves no cache. -/
theorem Core.rewrite (core : Core config resolver graph stages noneLoose runtime)
    (device : after.device = runtime.device) (caches : after.caches = runtime.caches)
    (shared : after.graphCopyDone = runtime.graphCopyDone)
    (pending : after.graphCopyPending = runtime.graphCopyPending)
    (ledger : LedgerInvariant after.slots)
    (owned : forall row lease, after.requests.get? row = some lease ->
      lease.reqPoolIdx = row ∧ after.slots.Holds lease)
    (undone : forall lease, Undone runtime lease ->
      runtime.slots.Permits lease [.decode, .releasing] ->
      after.slots.Permits lease [.decode, .releasing])
    (unstaged : forall lease, after.slots.Permits lease [.prefill] ->
      runtime.slots.Permits lease [.prefill])
    (kept : forall lease, after.slots.Permits lease keptPhases ->
      runtime.slots.Permits lease keptPhases) :
    Core config resolver graph stages noneLoose after := by
  have written : Written runtime after :=
    ⟨device, shared, pending, fun lease => Or.inl (by rw [caches]),
      fun lease copies => undone lease copies (core.guarded.undone copies)⟩
  apply core.write written ledger owned <;> intro lease <;> rw [caches]
  · exact core.lengths lease
  · exact fun permits => core.unstaged lease (unstaged lease permits)
  · exact fun permits => core.offloaded lease (kept lease permits)
  · exact fun permits => core.contents lease (kept lease permits)

/-- A write to what the invariant does not look at. -/
theorem Core.apart (core : Core config resolver graph stages noneLoose runtime)
    (device : after.device = runtime.device) (caches : after.caches = runtime.caches)
    (slots : after.slots = runtime.slots) (requests : after.requests = runtime.requests)
    (shared : after.graphCopyDone = runtime.graphCopyDone)
    (pending : after.graphCopyPending = runtime.graphCopyPending) :
    Core config resolver graph stages noneLoose after := by
  apply core.rewrite device caches shared pending <;> rw [slots]
  · exact core.ledger
  · rw [requests]
    exact core.owned
  · exact fun _ _ => id
  · exact fun _ => id
  · exact fun _ => id

end Core

end Writeback
end QSAHiSparse

import QSAHiSparse.Runtime.Changes
import QSAHiSparse.Writeback.Batches

namespace QSAHiSparse
namespace Writeback

open Foundation
open Ledger
open QSAHiSparse.Runtime

/-!
# Graph replays

A replay begins behind the shared event of all earlier copies.  Its captured
kernels close blocks without copying them, and the copies of the whole replay
are submitted after them, behind one record of that event.
-/

section Replay

variable {config : Config} {resolver : Resolver} {pace : Pace} {states : List QSAHiSparseLease}
  {lengths : QSAHiSparseLease -> Int} {stages : Stages} {runtime : QSAHiSparseRuntime Lagging}
  {lease : QSAHiSparseLease} {li : Nat}

/-- Everything is cleared. -/
abbrev allClear : QSAHiSparseLease -> Nat -> Prop := fun _ _ => True

/-- The rows that the replay saved. -/
def Saved (states : List QSAHiSparseLease) (lengths : QSAHiSparseLease -> Int)
    (runtime : QSAHiSparseRuntime Lagging) : Prop :=
  runtime.graphBatch = some (states.map fun lease => (lease, lengths lease))

/-! ## The captured kernels -/

theorem prepareGraphReplay_running (offload : config.offload = true) (batch : ForwardBatch)
    (count : Nat) :
    Returns
      (fun runtime => Core config resolver true resting noneLoose runtime ∧
        Advances runtime batch)
      (prepareGraphReplay (streamMachine resolver pace) config batch count)
      fun _ after => exists states lengths, states.Nodup ∧
        Running config resolver true states lengths (below .closed states 0) allClear after ∧
          Saved states lengths after := by
  unfold prepareGraphReplay
  refine Returns.get_known fun self _ => ?_
  refine Returns.raiseIf_bind _ fun refused => ?_
  push Not at refused
  refine Ensures.bind (beginDecode_running .closed offload true refused.2.2.2.1) fun _ => ?_
  refine Returns.get_bind fun self => ?_
  rintro runtime ⟨⟨states, lengths, distinct, saved, running⟩, rfl⟩
  have waits : Returns
      (fun after => Running config resolver true states lengths (below .closed states 0) noneClear
        after ∧ (after.graphCopyPending = runtime.graphCopyPending ∧ Saved states lengths after))
      (waitFor (streamMachine resolver pace) .graphWait .compute
        (if runtime.graphCopyPending then some .graphCopyDone else none))
      fun _ after => Running config resolver true states lengths (below .closed states 0)
        (fun lease li => noneClear lease li ∨ allClear lease li) after ∧
          (after.graphCopyPending = runtime.graphCopyPending ∧ Saved states lengths after) := by
    refine waitFor_running allClear (fun after =>
      after.graphCopyPending = runtime.graphCopyPending ∧ Saved states lengths after)
      (fun _ _ both => both) .graphWait _ ?_ ?_
    · intro after running both lease li _
      rw [<- both.1]
      exact running.covers_shared rfl lease.slot li
    · intro after running both mark recorded
      cases pending : runtime.graphCopyPending with
      | false =>
          rw [pending] at recorded
          cases recorded
      | true =>
          rw [pending] at recorded
          exact running.core.guarded.shared mark recorded
  have lasting : Lasting resolver fun after =>
      Running config resolver true states lengths (below .closed states 0) allClear after ∧
        Saved states lengths after :=
    (running_lasting _ allClear).and (Lasting.of_host fun _ _ saved => saved)
  refine Ensures.bind waits (fun _ => ?_) runtime ⟨running, rfl, saved rfl⟩
  refine Ensures.bind (Returns.weaken (((lasting).steady pace).outside .graphLengths).returns
    (fun after both => ?_) fun _ _ => id) fun _ => ?_
  · exact ⟨⟨both.1.core, both.1.forwarding, fun lease li _ =>
      both.1.cleared lease li (Or.inr trivial)⟩, both.2.2⟩
  · refine Returns.modify _ fun after both => ⟨states, lengths, distinct,
      ⟨both.1.core.apart rfl rfl rfl rfl rfl rfl, ?_, both.1.cleared⟩, both.2⟩
    exact ⟨both.1.forwarding.batch, both.1.forwarding.offloaded, both.1.forwarding.decodes,
      both.1.forwarding.advanced⟩

/-- The kernels of one row in one layer. -/
theorem replayRow_running (member : lease ∈ states) (owed : stages lease li = .owed)
    (inside : li < config.layers) :
    Returns (Running config resolver true states lengths stages allClear)
      (replayRow (streamMachine resolver pace) li (lease, lengths lease))
      fun _ => Running config resolver true states lengths (move stages lease li .closed)
        allClear := by
  unfold replayRow
  refine Ensures.bind (storeRow_running member owed .storeRow) fun _ => ?_
  have closes : Returns
      (Running config resolver true states lengths (move stages lease li .stored) allClear)
      (forM (if lengths lease % 4 = 0 then [lengths lease / 4 - 1] else []) fun block =>
        device.zoom ((streamMachine resolver pace).submit .closeBlock .compute
          (.closeBlock lease li block)))
      fun _ => Running config resolver true states lengths (move stages lease li .closed)
        allClear := by
    by_cases complete : lengths lease % 4 = 0
    · rw [if_pos complete]
      refine Returns.weaken (Ensures.bind (closeBlock_running member move_self trivial complete
        .closeBlock) fun _ _ running => running) (fun _ => id) fun _ runtime running => ?_
      unfold move at running ⊢
      rwa [moveAll_moveAll] at running
    · rw [if_neg complete]
      intro runtime running
      have skipped := @Core.skip _ _ _ _ _ _ lease li running.core .closed
        fun memory n same holds => by
          rw [move_self] at holds
          rw [<- running.forwarding.advanced lease member, <- same] at complete
          exact Stored.current holds complete
      unfold move at skipped
      rw [moveAll_moveAll] at skipped
      exact ⟨skipped, running.forwarding, running.cleared⟩
  refine Ensures.bind closes fun _ => ?_
  refine resolve_running member inside ?_ trivial .resolve
  rw [move_self]
  exact Stage.closed_selectable

/-- The captured kernels, layer by layer. -/
theorem replayGraph_running (distinct : states.Nodup) :
    Returns
      (fun runtime => Running config resolver true states lengths (below .closed states 0) allClear
        runtime ∧ Saved states lengths runtime)
      (replayGraph (streamMachine resolver pace) config)
      fun _ => Running config resolver true states lengths (below .closed states config.layers)
        allClear := by
  unfold replayGraph
  refine Returns.get_known fun self both => ?_
  rw [both.2, Option.getD_some]
  refine Returns.weaken (Returns.forRange (fun count =>
    Running config resolver true states lengths (below .closed states count) allClear)
    fun li inside => ?_) (fun _ both => both.1) fun _ _ => id
  rw [<- below_succ, List.forM_map]
  exact rows_running distinct (fun lease member => below_owed member (Nat.le_refl li))
    fun stages lease member owed => replayRow_running member owed inside

/-! ## The copies of a replay -/

/-- The rows that complete a block. -/
def completing (states : List QSAHiSparseLease) (lengths : QSAHiSparseLease -> Int) :
    List QSAHiSparseLease :=
  states.filter fun lease => lengths lease % 4 = 0

theorem closingRows_map (states : List QSAHiSparseLease) (lengths : QSAHiSparseLease -> Int) :
    closingRows (states.map fun lease => (lease, lengths lease)) =
      (completing states lengths).map fun lease => (lease, lengths lease / 4 - 1) := by
  unfold closingRows completing
  rw [List.filter_map, List.map_map]
  rfl

/-- These layers of these rows are written back. -/
def copied (stages : Stages) (done : List QSAHiSparseLease) (count : Nat) : Stages :=
  fun lease li => if lease ∈ done ∧ li < count then .written else stages lease li

theorem copied_none (stages : Stages) (done : List QSAHiSparseLease) :
    copied stages done 0 = stages := by
  funext lease li
  exact if_neg fun both => absurd both.2 (Nat.not_lt_zero li)

theorem copied_nil (stages : Stages) (count : Nat) : copied stages [] count = stages := by
  funext lease li
  exact if_neg fun both => absurd both.1 List.not_mem_nil

theorem copied_succ (stages : Stages) (lease : QSAHiSparseLease) (count : Nat) :
    move (copied stages [lease] count) lease count .written =
      copied stages [lease] (count + 1) := by
  funext other li
  simp only [move, moveAll, copied, List.mem_singleton]
  by_cases here : other = lease
  · by_cases last : li = count
    · rw [if_pos ⟨here, last⟩, if_pos ⟨here, by omega⟩]
    · rw [if_neg fun both => last both.2]
      by_cases done : li < count
      · rw [if_pos ⟨here, done⟩, if_pos ⟨here, by omega⟩]
      · rw [if_neg fun both => done both.2, if_neg fun both => done (by omega)]
  · rw [if_neg fun both => here both.1, if_neg fun both => here both.1,
      if_neg fun both => here both.1]

theorem copied_copied (stages : Stages) (done : List QSAHiSparseLease) (lease : QSAHiSparseLease)
    (count : Nat) :
    copied (copied stages done count) [lease] count = copied stages (done ++ [lease]) count := by
  funext other li
  simp only [copied, List.mem_append, List.mem_singleton]
  by_cases inside : li < count
  · by_cases here : other = lease
    · rw [if_pos ⟨here, inside⟩, if_pos ⟨Or.inr here, inside⟩]
    · rw [if_neg fun both => here both.1]
      by_cases before : other ∈ done
      · rw [if_pos ⟨before, inside⟩, if_pos ⟨Or.inl before, inside⟩]
      · rw [if_neg fun both => before both.1, if_neg fun both => both.1.elim before here]
  · rw [if_neg fun both => inside both.2, if_neg fun both => inside both.2,
      if_neg fun both => inside both.2]

/-- The copies of these leases. -/
def copiesOf (config : Config) (among : QSAHiSparseLease -> Prop) : Nat -> Work -> Prop :=
  fun _ work => exists lease li block, among lease ∧ li < config.layers ∧
    work = .writeBack lease li block

/-- The host copies of one closing row. -/
theorem copyClosing_ensures {among : QSAHiSparseLease -> Prop} (member : lease ∈ states)
    (chosen : among lease) (complete : lengths lease % 4 = 0)
    (closed : forall li, li < config.layers -> stages lease li = .closed) :
    Returns
      (fun runtime => (Core config resolver true stages (copiesOf config among) runtime ∧
        Forwarding states lengths runtime) ∧ Followed runtime)
      (copyClosing (streamMachine resolver pace) (lease, lengths lease / 4 - 1))
      fun _ runtime => (Core config resolver true (copied stages [lease] config.layers)
        (copiesOf config among) runtime ∧ Forwarding states lengths runtime) ∧
          Followed runtime := by
  unfold copyClosing
  refine Returns.get_known fun self both => ?_
  rcases both with ⟨⟨core, forwarding⟩, _⟩
  have kept : self.slots.Permits lease keptPhases := by
    rcases forwarding.decodes lease member with ⟨held, phase, present, decodes⟩
    exact ⟨held, phase, present, List.mem_cons_of_mem _ decodes⟩
  rw [(core.offloaded lease kept).2]
  refine Returns.weaken (Returns.forRange (fun count runtime =>
    (Core config resolver true (copied stages [lease] count) (copiesOf config among) runtime ∧
      Forwarding states lengths runtime) ∧ Followed runtime) fun li inside => ?_)
    (fun runtime both => by rw [copied_none]; exact both) fun _ _ => id
  rw [<- copied_succ]
  refine writeBack_ensures _ member ?_ complete inside (fun _ _ => id) (fun _ =>
    ⟨lease, li, _, chosen, inside, rfl⟩) .graphCopy
  rw [<- closed li inside]
  exact if_neg fun both => Nat.lt_irrefl li both.2

/-- The shared event is recorded behind the copies. -/
theorem recordShared_covered (among : QSAHiSparseLease -> Prop) :
    Covered true (copiesOf config among) (copiesOf config among) runtime
      { runtime with
        graphCopyDone := some (runtime.device.mark .copy), graphCopyPending := true } where
  device := rfl
  slots := rfl
  requests := rfl
  seqLen _ := rfl
  offloaded _ := rfl
  length _ := rfl
  pending _ := rfl
  marks event := by
    cases event with
    | own mark => exact Or.inl rfl
    | graphCopyDone => exact Or.inr ⟨_, rfl, ⟨rfl, rfl, _, rfl⟩, rfl⟩
  states _ _ state listed := ⟨state, listed, Or.inl rfl⟩
  covers _ _ _ := Or.inl

/-- The layers of a closing row wait for the shared event. -/
theorem sharedDone_covered {among rest : QSAHiSparseLease -> Prop}
    (splits : forall other, among other -> other = lease ∨ rest other)
    (permits : runtime.slots.Permits lease [.decode])
    (layers : (runtime.caches lease).states.length = config.layers)
    (shared : runtime.graphCopyDone = some (runtime.device.mark .copy))
    (pending : runtime.graphCopyPending = true) :
    Covered true (copiesOf config among) (copiesOf config rest) runtime
      (runtime.withCache lease RequestCache.sharedDone) := by
  have latest : Latest true (runtime.withCache lease RequestCache.sharedDone)
      (some .graphCopyDone) :=
    ⟨_, rfl, ⟨rfl, pending, _, shared⟩, shared⟩
  have states : ((runtime.withCache lease RequestCache.sharedDone).caches lease).states =
      (runtime.caches lease).states.map
        fun state => { state with done := some .graphCopyDone } := by
    rw [withCache_self]
    rfl
  refine
    { device := rfl
      slots := rfl
      requests := rfl
      seqLen := withCache_same RequestCache.seqLen rfl
      offloaded := withCache_same RequestCache.offloaded rfl
      length := withCache_same (fun cache => cache.states.length) (List.length_map _)
      pending := id
      marks := fun event => Or.inl (by cases event <;> rfl)
      states := ?_
      covers := ?_ }
  · intro other layer state listed
    by_cases here : other = lease
    · rw [here] at listed ⊢
      rw [states, List.getElem?_map, listed]
      exact ⟨_, rfl, Or.inr latest⟩
    · refine ⟨state, ?_, Or.inl rfl⟩
      rw [<- listed]
      exact congrArg (fun cache : RequestCache => cache.states[layer]?)
        (Function.update_of_ne here _ _)
  · rintro index work _ ⟨other, layer, block, chosen, inside, rfl⟩
    rcases splits other chosen with rfl | later
    · rw [<- layers] at inside
      refine Or.inr ⟨other, layer, block,
        ⟨some .graphCopyDone, (runtime.caches other).states[layer].generation⟩, rfl, ?_, ?_, latest⟩
      · rcases permits with ⟨held, phase, present, decodes⟩
        exact ⟨held, phase, present, List.mem_cons.mpr (Or.inl (List.mem_singleton.mp decodes))⟩
      · rw [states, List.getElem?_map, List.getElem?_eq_getElem inside]
        rfl
    · exact Or.inl ⟨other, layer, block, later, inside, rfl⟩

/-- The shared event has been recorded and covers what was copied. -/
structure Shared (config : Config) (resolver : Resolver) (states : List QSAHiSparseLease)
    (lengths : QSAHiSparseLease -> Int) (stages : Stages) (among : QSAHiSparseLease -> Prop)
    (runtime : QSAHiSparseRuntime Lagging) : Prop where
  core : Core config resolver true stages (copiesOf config among) runtime
  forwarding : Forwarding states lengths runtime
  recorded : runtime.graphCopyDone = some (runtime.device.mark .copy)
  pending : runtime.graphCopyPending = true

/-- Every closing row is covered in turn. -/
theorem sharedDone_ensures {rows : List QSAHiSparseLease}
    (among : forall lease, lease ∈ rows -> lease ∈ states) :
    Returns (Shared config resolver states lengths stages (· ∈ rows))
      (forM rows fun lease => modify fun self : QSAHiSparseRuntime Lagging =>
        self.withCache lease RequestCache.sharedDone)
      fun _ runtime => Core config resolver true stages noneLoose runtime ∧
        Forwarding states lengths runtime := by
  refine Returns.weaken (Returns.forEach (fun done =>
    Shared config resolver states lengths stages fun lease => lease ∈ rows ∧ lease ∉ done) ?_)
    (fun runtime shared => ?_) fun _ runtime shared => ⟨?_, shared.forwarding⟩
  · intro done lease rest split
    refine Returns.modify _ fun runtime shared => ?_
    have member : lease ∈ states := among lease (split ▸ List.mem_append_right _ List.mem_cons_self)
    have permits := shared.forwarding.decodes lease member
    have kept : runtime.slots.Permits lease keptPhases := by
      rcases permits with ⟨held, phase, present, decodes⟩
      exact ⟨held, phase, present, List.mem_cons_of_mem _ decodes⟩
    have covered := @sharedDone_covered config runtime lease
      (fun other => other ∈ rows ∧ other ∉ done)
      (fun other => other ∈ rows ∧ other ∉ done ++ [lease])
      (fun other both => by
        by_cases here : other = lease
        · exact Or.inl here
        · exact Or.inr ⟨both.1, fun again => (List.mem_append.mp again).elim both.2 fun single =>
            here (List.mem_singleton.mp single)⟩)
      permits (shared.core.offloaded lease kept).2 shared.recorded shared.pending
    refine ⟨shared.core.cover covered, ⟨shared.forwarding.batch, shared.forwarding.offloaded,
      shared.forwarding.decodes, fun other present => ?_⟩, shared.recorded, shared.pending⟩
    exact (covered.seqLen other).trans (shared.forwarding.advanced other present)
  · exact ⟨shared.core.loosen fun _ _ copies => by
      rcases copies with ⟨other, li, block, chosen, rest⟩
      exact ⟨other, li, block, ⟨chosen, List.not_mem_nil⟩, rest⟩,
      shared.forwarding, shared.recorded, shared.pending⟩
  · refine shared.core.loosen fun _ _ copies => ?_
    rcases copies with ⟨other, _, _, chosen, _⟩
    exact chosen.2 chosen.1

/-- The copies of all closing rows. -/
theorem copyClosings_ensures (distinct : states.Nodup) (producer : Mark) :
    Returns
      (fun runtime => (Core config resolver true (below .closed states config.layers) noneLoose
        runtime ∧ Forwarding states lengths runtime) ∧ producer = runtime.device.mark .compute)
      (copyClosings (streamMachine resolver pace) producer
        ((completing states lengths).map fun lease => (lease, lengths lease / 4 - 1)))
      fun _ runtime => Core config resolver true
          (copied (below .closed states config.layers) (completing states lengths) config.layers)
          noneLoose runtime ∧ Forwarding states lengths runtime := by
  have among (lease : QSAHiSparseLease) (member : lease ∈ completing states lengths) :
      lease ∈ states ∧ lengths lease % 4 = 0 := by
    rcases List.mem_filter.mp member with ⟨present, complete⟩
    exact ⟨present, of_decide_eq_true complete⟩
  unfold copyClosings
  refine Returns.ite (fun none => ?_) fun _ => ?_
  · rintro runtime ⟨both, _⟩
    rw [List.map_eq_nil_iff] at none
    rw [none, copied_nil]
    exact both
  refine Ensures.bind (Returns.modify (fun runtime => (Core config resolver true
    (below .closed states config.layers) noneLoose runtime ∧ Forwarding states lengths runtime) ∧
      producer = runtime.device.mark .compute) fun runtime both => ?_) fun _ => ?_
  · exact ⟨⟨both.1.1.apart rfl rfl rfl rfl rfl rfl, both.1.2.batch, both.1.2.offloaded,
      both.1.2.decodes, both.1.2.advanced⟩, both.2⟩
  have lasting (loose : Nat -> Work -> Prop) (stages : Stages) : Lasting resolver fun runtime =>
      Core config resolver true stages loose runtime ∧ Forwarding states lengths runtime :=
    (core_lasting config true stages loose).and
      (Lasting.of_host (forwarding_hostOnly states lengths))
  refine Ensures.bind (follow_ensures (lasting noneLoose _) (fun runtime both =>
    ⟨both.1.wait (Nat.le_refl _), forwarding_hostOnly states lengths runtime _ both.2⟩)
    .graphCopyWait producer) fun _ => ?_
  rw [List.forM_map]
  refine Ensures.bind (Returns.weaken (Returns.forEach (fun done runtime =>
    (Core config resolver true (copied (below .closed states config.layers) done config.layers)
      (copiesOf config (· ∈ completing states lengths)) runtime ∧
        Forwarding states lengths runtime) ∧ Followed runtime) ?_)
    (fun runtime both => ?_) fun _ _ => And.left) fun _ => ?_
  · intro done lease rest split
    have member : lease ∈ completing states lengths :=
      split ▸ List.mem_append_right _ List.mem_cons_self
    rw [<- copied_copied]
    refine copyClosing_ensures (among lease member).1 member (among lease member).2
      fun li inside => ?_
    have fresh : lease ∉ done := by
      have nodup : (completing states lengths).Nodup := distinct.filter _
      rw [split] at nodup
      exact fun again => (List.nodup_append.mp nodup).2.2 lease again lease List.mem_cons_self rfl
    refine (if_neg fun both => fresh both.1).trans ?_
    unfold below
    rw [if_pos (among lease member).1, if_pos inside]
  · rw [copied_nil]
    exact ⟨⟨both.1.1.loosen fun _ _ never => absurd never id, both.1.2⟩, both.2⟩
  refine Ensures.bind ((lasting _ _).record .graphCopyDone .copy) fun done => ?_
  refine Ensures.bind (Returns.modify (Shared config resolver states lengths
    (copied (below .closed states config.layers) (completing states lengths) config.layers)
    (· ∈ completing states lengths)) fun runtime both => ?_) fun _ => ?_
  · rcases both with ⟨⟨core, forwarding⟩, rfl⟩
    exact ⟨core.cover (recordShared_covered _), ⟨forwarding.batch, forwarding.offloaded,
      forwarding.decodes, forwarding.advanced⟩, rfl, rfl⟩
  rw [List.forM_map]
  refine Ensures.bind (sharedDone_ensures fun lease member => (among lease member).1) fun _ => ?_
  exact (((lasting noneLoose _).steady pace).outside .eventLog).returns

/-! ## The end of a replay -/

/-- After the copies every kept lease is whole. -/
theorem copied_resting
    (core : Core config resolver true
      (copied (below .closed states config.layers) (completing states lengths) config.layers)
      noneLoose runtime) (forwarding : Forwarding states lengths runtime) :
    Core config resolver true resting noneLoose runtime := by
  refine core.restage fun lease _ li inside memory n same holds => ?_
  unfold copied below at holds
  by_cases member : lease ∈ states
  · by_cases complete : lengths lease % 4 = 0
    · have closing : lease ∈ completing states lengths :=
        List.mem_filter.mpr ⟨member, decide_eq_true complete⟩
      rw [if_pos ⟨closing, inside⟩] at holds
      exact holds.1
    · have open_ : lease ∉ completing states lengths := fun closing =>
        complete (of_decide_eq_true (List.mem_filter.mp closing).2)
      rw [if_neg fun both => open_ both.1, if_pos member, if_pos inside] at holds
      rw [<- forwarding.advanced lease member, <- same] at complete
      exact holds.toStored.represents complete
  · have outside : lease ∉ completing states lengths := fun closing =>
      member (List.mem_filter.mp closing).1
    rw [if_neg fun both => outside both.1, if_neg member] at holds
    exact holds

theorem finishSaved_core (distinct : states.Nodup) :
    Returns
      (Running config resolver true states lengths (below .closed states config.layers) allClear)
      (finishSaved (streamMachine resolver pace) config
        (states.map fun lease => (lease, lengths lease)))
      fun _ => Core config resolver true resting noneLoose := by
  have lasting : Lasting resolver fun runtime =>
      Core config resolver true (below .closed states config.layers) noneLoose runtime ∧
        Forwarding states lengths runtime :=
    (core_lasting config true _ noneLoose).and
      (Lasting.of_host (forwarding_hostOnly states lengths))
  have steady := lasting.steady pace
  unfold finishSaved
  refine Ensures.bind (Returns.weaken (steady.ask .nativeKey).returns
    (fun runtime running => ⟨running.core, running.forwarding⟩) fun _ _ => id) fun known => ?_
  refine Returns.raiseIf_bind _ fun _ => ?_
  refine Ensures.bind (Preserves.forEach _ fun row _ => (checkSaved_reads row).preserves).returns
    fun _ => ?_
  refine Ensures.bind (lasting.record .graphProducer .compute) fun producer => ?_
  rw [closingRows_map]
  have produced := (lasting.and (mark_lasting .compute producer)).steady pace
  have checked : Preserves
      (fun runtime => (Core config resolver true (below .closed states config.layers) noneLoose
        runtime ∧ Forwarding states lengths runtime) ∧ producer = runtime.device.mark .compute)
      (strictly config do
        device.zoom ((streamMachine resolver pace).synchronize .graphProducerSynchronize producer)
        checkBytes (streamMachine resolver pace) .graphCloseBytes
          "QSA graph closed C4 differs from raw K/V ring: host=False") :=
    strictly_preserves (Preserves.bind (produced.synchronize .graphProducerSynchronize producer)
      fun _ => produced.checkBytes .graphCloseBytes _)
  refine Ensures.bind checked.returns fun _ => ?_
  refine Ensures.bind (Returns.weaken (copyClosings_ensures distinct producer) (fun _ => id)
    fun _ _ both => copied_resting both.1 both.2) fun _ => ?_
  have kept := core_steady config resolver pace true resting noneLoose
  have copies : Preserves (Core config resolver true resting noneLoose)
      (strictly config (checkCopied (streamMachine resolver pace)
        ((completing states lengths).map fun lease => (lease, lengths lease / 4 - 1)))) :=
    strictly_preserves (kept.checkCopied _)
  refine Ensures.bind copies.returns fun _ => ?_
  exact (kept.outside .eventLog).returns

/-- A replay that returns leaves every kept lease whole. -/
theorem graphForward_core (offload : config.offload = true) (batch : ForwardBatch) (count : Nat) :
    Returns
      (fun runtime => Core config resolver true resting noneLoose runtime ∧
        Advances runtime batch)
      (graphForward (streamMachine resolver pace) config batch count)
      fun _ => Core config resolver true resting noneLoose := by
  unfold graphForward
  refine Returns.tryCatch ?_ fun cause => Returns.bind_throw
  refine Ensures.bind (prepareGraphReplay_running offload batch count) fun _ => ?_
  rintro runtime ⟨states, lengths, distinct, running, saved⟩
  have replays : Returns
      (fun runtime => Running config resolver true states lengths (below .closed states 0) allClear
        runtime ∧ Saved states lengths runtime)
      (replayGraph (streamMachine resolver pace) config)
      fun _ runtime => Running config resolver true states lengths
        (below .closed states config.layers) allClear runtime ∧ Saved states lengths runtime := by
    have hostOnly : HostOnly (Saved states lengths) := fun _ _ saved => saved
    have kept := @Steady.replayGraph _ _ config _ (hostOnly.steady (streamMachine resolver pace))
    exact fun runtime both =>
      ((replayGraph_running distinct runtime both).and (kept runtime both.2)).mono (fun _ _ => id)
        fun _ _ _ => trivial
  refine Ensures.bind replays (fun _ => ?_) runtime ⟨running, saved⟩
  unfold finishGraphReplay
  refine Returns.get_known fun self both => ?_
  rw [both.2]
  refine Returns.raiseIf_bind _ fun _ => ?_
  refine Returns.tryFinally (Returns.tryCatch (Returns.weaken (finishSaved_core distinct)
    (fun _ => And.left) fun _ _ => id) fun cause => Returns.bind_throw) fun _ => ?_
  exact Returns.modify _ fun runtime core => core.apart rfl rfl rfl rfl rfl rfl

end Replay

end Writeback
end QSAHiSparse

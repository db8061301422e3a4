import QSAHiSparse.Writeback.Batches

namespace QSAHiSparse
namespace Writeback

open Foundation
open Ledger
open QSAHiSparse.Runtime

/-!
# Eager forwards

Layer by layer an eager forward stores the tokens of its rows, closes and writes
back the blocks they complete, and selects.  The event of a writeback is recorded
before anything else can be submitted for the layer.
-/

section Eager

variable {config : Config} {resolver : Resolver} {pace : Pace} {states : List QSAHiSparseLease}
  {lengths : QSAHiSparseLease -> Int} {stages : Stages} {runtime : QSAHiSparseRuntime Lagging}
  {lease : QSAHiSparseLease} {li : Nat}

/-! ## The store of a layer -/

theorem storeKv_running {clear : QSAHiSparseLease -> Nat -> Prop} {graph : Bool}
    (distinct : states.Nodup) (owed : forall lease, lease ∈ states -> stages lease li = .owed) :
    Returns (Running config resolver graph states lengths stages clear)
      (storeKv (streamMachine resolver pace) config li)
      fun _ => Running config resolver graph states lengths (moveAll stages states li .stored)
        clear := by
  unfold storeKv
  refine Returns.get_known fun self running => ?_
  refine Returns.raiseIf_bind _ fun _ => ?_
  rw [running.forwarding.batch]
  refine rows_running distinct owed fun stages lease member owed => ?_
  rw [running.forwarding.advanced lease member]
  exact storeRow_running member owed .storeRow

/-! ## The writeback of a layer -/

/-- The writebacks of one block. -/
def writebackOf (lease : QSAHiSparseLease) (li : Nat) (block : Int) : Nat -> Work -> Prop :=
  fun _ work => work = .writeBack lease li block

/-- The event recorded last covers the writeback. -/
theorem setDone_covered {graph : Bool} (eager : graph = false) {block : Int}
    (permits : runtime.slots.Permits lease [.decode])
    (inside : li < (runtime.caches lease).states.length) :
    Covered graph (writebackOf lease li block) noneLoose runtime
      (runtime.withCache lease (RequestCache.setDone li (.own (runtime.device.mark .copy)))) := by
  have states : ((runtime.withCache lease (RequestCache.setDone li
      (.own (runtime.device.mark .copy)))).caches lease).states =
      (runtime.caches lease).states.modify li fun state =>
        { state with done := some (.own (runtime.device.mark .copy)) } := by
    rw [withCache_self]
    rfl
  have latest : Latest graph (runtime.withCache lease (RequestCache.setDone li
      (.own (runtime.device.mark .copy)))) (some (.own (runtime.device.mark .copy))) :=
    ⟨_, rfl, ⟨eager, rfl⟩, rfl⟩
  refine
    { device := rfl
      slots := rfl
      requests := rfl
      seqLen := withCache_same RequestCache.seqLen rfl
      offloaded := withCache_same RequestCache.offloaded rfl
      length := withCache_same (fun cache => cache.states.length) (List.length_modify _ _ _)
      pending := id
      marks := fun event => Or.inl (by cases event <;> rfl)
      states := ?_
      covers := ?_ }
  · intro other layer state listed
    by_cases here : other = lease
    · rw [here] at listed ⊢
      rw [states, List.getElem?_modify, listed]
      by_cases same : li = layer
      · exact ⟨_, congrArg some (if_pos same), Or.inr latest⟩
      · exact ⟨_, congrArg some (if_neg same), Or.inl rfl⟩
    · refine ⟨state, ?_, Or.inl rfl⟩
      rw [<- listed]
      exact congrArg (fun cache : RequestCache => cache.states[layer]?)
        (Function.update_of_ne here _ _)
  · rintro index work found rfl
    refine Or.inr ⟨lease, li, block,
      ⟨some (.own (runtime.device.mark .copy)), (runtime.caches lease).states[li].generation⟩,
      rfl, ?_, ?_, latest⟩
    · rcases permits with ⟨held, phase, present, decodes⟩
      exact ⟨held, phase, present, List.mem_cons.mpr (Or.inl (List.mem_singleton.mp decodes))⟩
    · rw [states, List.getElem?_modify, List.getElem?_eq_getElem inside]
      exact congrArg some (if_pos rfl)

/-- A block is written back, and the event of its layer covers the copy. -/
theorem writeBackBlock_running (member : lease ∈ states) (closed : stages lease li = .closed)
    (complete : lengths lease % 4 = 0) (inside : li < config.layers) :
    Returns
      (fun runtime => Running config resolver false states lengths stages noneClear runtime ∧
        Followed runtime)
      (writeBackBlock (streamMachine resolver pace) lease li (lengths lease / 4 - 1))
      fun _ => Running config resolver false states lengths (move stages lease li .written)
        noneClear := by
  unfold writeBackBlock
  refine Ensures.bind (Returns.weaken (writeBack_ensures
    (writebackOf lease li (lengths lease / 4 - 1)) member closed complete inside
    (fun _ _ never => absurd never id) (fun _ => rfl) .writeback)
    (fun runtime both => ⟨⟨both.1.core, both.1.forwarding⟩, both.2⟩) fun _ _ both => both.1)
    fun _ => ?_
  have lasting : Lasting resolver fun runtime =>
      Core config resolver false (move stages lease li .written)
          (writebackOf lease li (lengths lease / 4 - 1)) runtime ∧
        Forwarding states lengths runtime :=
    (core_lasting config false _ _).and (Lasting.of_host (forwarding_hostOnly states lengths))
  refine Ensures.bind (lasting.record .writebackDone .copy) fun done => ?_
  rintro runtime ⟨⟨core, forwarding⟩, rfl⟩
  have permits := forwarding.decodes lease member
  have kept : runtime.slots.Permits lease keptPhases := by
    rcases permits with ⟨held, phase, present, decodes⟩
    exact ⟨held, phase, present, List.mem_cons_of_mem _ decodes⟩
  have covered := @setDone_covered _ _ li false rfl (lengths lease / 4 - 1) permits
    ((core.offloaded lease kept).2 ▸ inside)
  refine ⟨core.cover covered, ⟨forwarding.batch, forwarding.offloaded, forwarding.decodes,
    fun other among => ?_⟩, fun _ _ never => absurd never id⟩
  exact (covered.seqLen other).trans (forwarding.advanced other among)

/-- A close of a complete block. -/
theorem closeLayer_running (member : lease ∈ states) (stored : stages lease li = .stored)
    (complete : lengths lease % 4 = 0) (inside : li < config.layers) (state : LayerState) :
    Returns
      (fun runtime => Running config resolver false states lengths stages noneClear runtime ∧
        (runtime.caches lease).states[li]? = some state)
      (closeLayer (streamMachine resolver pace) config lease li (lengths lease / 4 - 1) state)
      fun _ => Running config resolver false states lengths (move stages lease li .written)
        noneClear := by
  unfold closeLayer
  refine Returns.raiseIf_bind _ fun _ => ?_
  refine Ensures.bind (waitLayer_running member state .closeWait) fun _ => ?_
  refine Ensures.bind (closeBlock_running member stored (Or.inr ⟨rfl, rfl⟩) complete .closeBlock)
    fun _ => ?_
  have unclear (stages : Stages) (clear : QSAHiSparseLease -> Nat -> Prop)
      (runtime : QSAHiSparseRuntime Lagging)
      (running : Running config resolver false states lengths stages clear runtime) :
      Running config resolver false states lengths stages noneClear runtime :=
    ⟨running.core, running.forwarding, fun _ _ never => absurd never id⟩
  refine Ensures.bind (Returns.weaken ((running_lasting _ noneClear).record .closeProducer .compute)
    (unclear _ _) fun _ _ => id) fun producer => ?_
  refine Ensures.bind (follow_ensures (running_lasting _ noneClear) (fun runtime running =>
    ⟨running.core.wait (Nat.le_refl _),
      forwarding_hostOnly states lengths runtime _ running.forwarding,
      fun _ _ never => absurd never id⟩) .writebackWait producer) fun _ => ?_
  have lasting := (@running_lasting config resolver false states lengths
    (move stages lease li .closed) noneClear).and followed_lasting
  refine Ensures.bind (@Steady.recordBegin _ _ config _ (lasting.steady pace)).returns fun _ => ?_
  refine Returns.weaken (writeBackBlock_running member move_self complete inside)
    (fun _ => id) fun _ runtime running => ?_
  unfold move at running ⊢
  rwa [moveAll_moveAll] at running

theorem afterStoreRow_running (member : lease ∈ states) (stored : stages lease li = .stored)
    (inside : li < config.layers) :
    Returns (Running config resolver false states lengths stages noneClear)
      (afterStoreRow (streamMachine resolver pace) config li lease)
      fun _ => Running config resolver false states lengths (move stages lease li .written)
        noneClear := by
  unfold afterStoreRow
  refine Ensures.bind (Reads.zoom (require_reads lease _)).preserves.returns fun _ => ?_
  refine Returns.get_bind fun self => ?_
  rintro runtime ⟨running, rfl⟩
  have permits := running.permits member
  have kept : runtime.slots.Permits lease keptPhases := by
    rcases permits with ⟨held, phase, present, decodes⟩
    exact ⟨held, phase, present, List.mem_cons_of_mem _ decodes⟩
  have offloaded := (running.core.offloaded lease kept).1
  have advanced := running.forwarding.advanced lease member
  by_cases complete : lengths lease % 4 = 0
  · have closes : ¬ ((runtime.caches lease).offloaded = false ∨
        (runtime.caches lease).seqLen % 4 ≠ 0) := by
      rw [offloaded, advanced, complete]
      exact fun either => either.elim nofun fun never => absurd rfl never
    simp only [if_neg closes]
    cases listed : (runtime.caches lease).states[li]? with
    | none => exact trivial
    | some state =>
        simp only [advanced]
        exact closeLayer_running member stored complete inside state runtime ⟨running, listed⟩
  · have open_ : (runtime.caches lease).offloaded = false ∨
        (runtime.caches lease).seqLen % 4 ≠ 0 := Or.inr (by rwa [advanced])
    simp only [if_pos open_]
    refine ⟨running.core.skip fun memory n same holds => ?_, running.forwarding, running.cleared⟩
    rw [stored] at holds
    rw [<- advanced, <- same] at complete
    exact ⟨Stored.represents holds complete, Stored.current holds complete⟩

theorem afterStore_running (distinct : states.Nodup)
    (stored : forall lease, lease ∈ states -> stages lease li = .stored)
    (inside : li < config.layers) :
    Returns (Running config resolver false states lengths stages noneClear)
      (afterStore (streamMachine resolver pace) config li)
      fun _ => Running config resolver false states lengths (moveAll stages states li .written)
        noneClear := by
  unfold afterStore
  refine Returns.get_known fun self running => ?_
  rw [if_pos running.forwarding.offloaded, running.forwarding.batch]
  exact rows_running distinct stored fun stages lease member stored =>
    afterStoreRow_running member stored inside

/-! ## The selection of a layer -/

theorem checkSelected_preserves {invariant : QSAHiSparseRuntime Lagging -> Prop} (li : Nat)
    (lease : QSAHiSparseLease) :
    Preserves invariant (checkSelected li lease : Method (QSAHiSparseRuntime Lagging) PUnit) := by
  unfold checkSelected
  refine Preserves.bind (request_reads _ _).preserves fun _ => ?_
  refine Preserves.bind (Reads.zoom (require_reads lease _)).preserves fun _ => ?_
  refine Preserves.get_bind fun self => ?_
  split
  · exact Preserves.throw _
  · exact Preserves.raiseIf _ _

/-- The rows waited for so far are cleared in this layer. -/
theorem waitSelected_running {done : List QSAHiSparseLease} (member : lease ∈ states) :
    Returns
      (Running config resolver false states lengths stages fun other layer =>
        other ∈ done ∧ layer = li)
      (waitSelected (streamMachine resolver pace) li lease)
      fun _ => Running config resolver false states lengths stages fun other layer =>
        other ∈ done ++ [lease] ∧ layer = li := by
  unfold waitSelected
  refine Returns.get_bind fun self => ?_
  cases listed : (self.caches lease).states[li]? with
  | none => exact Returns.throw _
  | some state =>
      refine Returns.weaken (waitLayer_running member state .selectWait)
        (fun runtime both => ⟨both.1, by rw [both.2]; exact listed⟩) fun _ runtime running =>
          ⟨running.core, running.forwarding, fun other layer both => ?_⟩
      apply running.cleared other layer
      rcases both with ⟨among, same⟩
      rcases List.mem_append.mp among with before | last
      · exact Or.inl ⟨before, same⟩
      · exact Or.inr ⟨List.mem_singleton.mp last, same⟩

theorem selected_running (written : forall lease, lease ∈ states ->
      (stages lease li).Selectable) (inside : li < config.layers) (rows : Nat) :
    Returns (Running config resolver false states lengths stages noneClear)
      (selected (streamMachine resolver pace) li rows)
      fun _ => Running config resolver false states lengths stages noneClear := by
  unfold selected
  refine Returns.get_known fun self running => ?_
  refine Returns.raiseIf_bind _ fun _ => ?_
  rw [running.forwarding.batch]
  refine Ensures.bind (Preserves.forEach _ fun lease _ => checkSelected_preserves li lease).returns
    fun _ => ?_
  refine Ensures.bind (Returns.weaken (Returns.forEach (fun done =>
    Running config resolver false states lengths stages fun other layer =>
      other ∈ done ∧ layer = li) ?_) ?_ fun _ _ => id) fun _ => ?_
  · intro done lease rest split
    exact waitSelected_running (split ▸ List.mem_append_right _ List.mem_cons_self)
  · exact fun runtime running => ⟨running.core, running.forwarding, fun _ _ both =>
      absurd both.1 List.not_mem_nil⟩
  refine Returns.weaken (Ensures.forEach states fun lease member => ?_) (fun _ => id)
    fun _ runtime running => ⟨running.core, running.forwarding, fun _ _ never => absurd never id⟩
  rw [running.forwarding.advanced lease member]
  exact resolve_running member inside (written lease member) ⟨member, rfl⟩ .resolve

/-! ## A whole forward -/

/-- One layer of `forward_decode`: the store, `after_store`, the selection of
the paged attention. -/
def eagerLayer {δ : Type} (machine : Machine δ) (config : Config) (rows li : Nat) :
    Method (QSAHiSparseRuntime δ) PUnit := do
  storeKv machine config li
  afterStore machine config li
  selected machine li rows

theorem eagerLayer_running (distinct : states.Nodup)
    (owed : forall lease, lease ∈ states -> stages lease li = .owed)
    (inside : li < config.layers) (rows : Nat) :
    Returns (Running config resolver false states lengths stages noneClear)
      (eagerLayer (streamMachine resolver pace) config rows li)
      fun _ => Running config resolver false states lengths (moveAll stages states li .written)
        noneClear := by
  unfold eagerLayer
  refine Ensures.bind (storeKv_running distinct owed) fun _ => ?_
  refine Ensures.bind (afterStore_running distinct (fun lease member => moveAll_self member) inside)
    fun _ => ?_
  rw [moveAll_moveAll]
  apply selected_running _ inside
  intro lease member
  rw [moveAll_self member]
  exact Stage.written_selectable

/-- The layers of an eager forward. -/
theorem layers_running (distinct : states.Nodup) (rows : Nat) :
    Returns
      (Running config resolver false states lengths (below .written states 0) noneClear)
      (forM (List.range config.layers)
        (eagerLayer (streamMachine resolver pace) config rows))
      fun _ => Running config resolver false states lengths
        (below .written states config.layers) noneClear := by
  refine Returns.forRange (fun count =>
    Running config resolver false states lengths (below .written states count) noneClear)
    fun li inside => ?_
  rw [<- below_succ]
  apply eagerLayer_running distinct _ inside
  exact fun lease member => below_owed member (Nat.le_refl li)

/-- A decode forward through the backend: `begin_batch`, then every layer. -/
def eagerForward {δ : Type} (machine : Machine δ) (config : Config) (batch : ForwardBatch) :
    Method (QSAHiSparseRuntime δ) PUnit := do
  beginBatch machine config batch false
  forM (List.range config.layers) (eagerLayer machine config batch.batchSize)

/-- An eager forward leaves every kept lease whole. -/
theorem eagerForward_core (offload : config.offload = true) {batch : ForwardBatch}
    (decodes : batch.mode = .decode) :
    Returns
      (fun runtime => Core config resolver false resting noneLoose runtime ∧
        Advances runtime batch)
      (eagerForward (streamMachine resolver pace) config batch)
      fun _ => Core config resolver false resting noneLoose := by
  unfold eagerForward
  refine Ensures.bind (beginDecode_running .written offload false decodes) fun _ => ?_
  rintro runtime ⟨states, lengths, distinct, _, running⟩
  refine (layers_running distinct batch.batchSize runtime running).mono ?_ fun _ _ => id
  intro _ after running
  refine running.core.restage fun lease _ li inside memory n _ holds => ?_
  unfold below at holds
  by_cases member : lease ∈ states
  · rw [if_pos member, if_pos inside] at holds
    exact holds.1
  · rw [if_neg member] at holds
    exact holds

end Eager

end Writeback
end QSAHiSparse

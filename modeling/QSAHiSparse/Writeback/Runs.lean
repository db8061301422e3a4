import QSAHiSparse.Foundation.Transitions
import QSAHiSparse.Runtime.NoReuse
import QSAHiSparse.Writeback.Eager
import QSAHiSparse.Writeback.Handoff
import QSAHiSparse.Writeback.Release
import QSAHiSparse.Writeback.Replay

namespace QSAHiSparse
namespace Writeback

open Foundation
open Ledger
open QSAHiSparse.Runtime

/-!
# Asynchronous writeback is ordered

A run consists of turns at whose ends no forward is under way: prefill chunks,
handoffs, decode forwards and the calls of a release, for any requests in any
order.  In one run every decode forward is eager, or every one is a replay.
Whatever the streams do meanwhile, no copy meets work that it must not meet.
-/

section Runs

/-- What is done from one point at which no forward is under way to the next. -/
inductive Turn where
  | call (made : Call)
  | forward (batch : ForwardBatch)
  | replay (batch : ForwardBatch) (count : Nat)

def Turn.perform {δ : Type} (machine : Machine δ) (config : Config) :
    Turn -> Method (QSAHiSparseRuntime δ) PUnit
  | .call made => Runtime.perform machine config made
  | .forward batch => eagerForward machine config batch
  | .replay batch count => graphForward machine config batch count

/-- The calls that are not a part of a decode forward. -/
def Between : Call -> Prop
  | .beginBatch batch => batch.mode ≠ .decode
  | .storeKv _ => False
  | .afterStore _ => False
  | .selected _ _ => False
  | .graphForward _ _ => False
  | _ => True

/-- The decode forwards of a run are all of one kind, and each brings its rows
one token further. -/
def Turn.Allowed (graph : Bool) (runtime : QSAHiSparseRuntime Lagging) : Turn -> Prop
  | .call made => Between made
  | .forward batch => graph = false ∧ batch.mode = .decode ∧ Advances runtime batch
  | .replay batch _ => graph = true ∧ Advances runtime batch

/-- The runs of a runtime whose calls all return. -/
def writebacks (config : Config) (resolver : Resolver) (pace : Pace) (graph : Bool) :
    System (QSAHiSparseRuntime Lagging) Turn where
  initial runtime := exists geometry, runtime = .initial config geometry .empty
  step before turn after := turn.Allowed graph before ∧
    (turn.perform (streamMachine resolver pace) config).run before = .ok ⟨⟩ after

variable {config : Config} {resolver : Resolver} {pace : Pace} {graph : Bool}

/-! ## The invariant of a run -/

theorem Core.initial (config : Config) (resolver : Resolver) (graph : Bool) (geometry : Geometry) :
    Core config resolver graph resting noneLoose (.initial config geometry .empty) where
  guarded :=
    { sound := Device.Sound.empty
      sided := fun _ _ _ found => nomatch found
      awaited := fun _ _ found => nomatch found
      told := fun _ _ _ _ _ listed => nomatch listed
      shared := fun _ recorded => nomatch recorded
      exactly := fun _ _ _ found => nomatch found }
  ledger := .initial geometry
  owned _ _ found := nomatch found
  lengths _ := Int.le_refl 0
  recorded _ _ _ _ listed := nomatch listed
  unstaged _ _ := rfl
  offloaded _ permits := nomatch permits.1
  contents _ permits := nomatch permits.1

/-- Any call between the decode forwards. -/
theorem call_core (offload : config.offload = true) {call : Call} (between : Between call) :
    Returns (Core config resolver graph resting noneLoose)
      (Runtime.perform (streamMachine resolver pace) config call)
      fun _ => Core config resolver graph resting noneLoose := by
  cases call with
  | regenerate reqIdx generation =>
      exact Returns.modify _ fun runtime core => core.apart rfl rfl rfl rfl rfl rfl
  | beginBatch batch => exact beginOther_core between
  | storeKv li => exact absurd between id
  | afterStore li => exact absurd between id
  | selected li rows => exact absurd between id
  | handoff reqIdx rid =>
      exact Ensures.bind (handoff_core offload reqIdx rid) fun _ _ core => core
  | admitDecode lease => exact admitLease_core lease
  | graphForward batch count => exact absurd between id
  | release reqIdx rid => exact Ensures.bind (release_core reqIdx rid) fun _ _ core => core
  | afterRelease lease =>
      cases lease with
      | none => exact fun _ core => core
      | some lease => exact afterRelease_core lease
  | freeGroupBegin =>
      exact Returns.modify _ fun runtime core => core.apart rfl rfl rfl rfl rfl rfl
  | freeGroupEnd =>
      exact Ensures.bind (Returns.modify (Core config resolver graph resting noneLoose)
        fun runtime core => core.apart rfl rfl rfl rfl rfl rfl) fun _ => afterLogicalFlush_core
  | logicalFlush => exact afterLogicalFlush_core

/-- A turn that returns keeps the invariant. -/
theorem turn_core (offload : config.offload = true) {before after : QSAHiSparseRuntime Lagging}
    {turn : Turn} (core : Core config resolver graph resting noneLoose before)
    (step : (writebacks config resolver pace graph).step before turn after) :
    Core config resolver graph resting noneLoose after := by
  rcases step with ⟨allowed, ran⟩
  cases turn with
  | call made => exact (call_core offload allowed).ok core ran
  | forward batch =>
      rcases allowed with ⟨rfl, decodes, advances⟩
      exact (eagerForward_core offload decodes).ok ⟨core, advances⟩ ran
  | replay batch count =>
      rcases allowed with ⟨rfl, advances⟩
      exact (graphForward_core offload batch count).ok ⟨core, advances⟩ ran

theorem reachable_core (offload : config.offload = true) {runtime : QSAHiSparseRuntime Lagging}
    (reachable : (writebacks config resolver pace graph).Reachable runtime) :
    Core config resolver graph resting noneLoose runtime :=
  reachable.invariant
    (fun _ initial => by
      rcases initial with ⟨geometry, rfl⟩
      exact .initial config resolver graph geometry)
    fun _ _ _ => turn_core offload

/-! ## What the device has done -/

/-- Everything performed met what it was meant to meet.  A block is closed, a
selection resolved and a layer staged only after every earlier writeback of the
slot and the layer; a copy leaves exactly the tokens of its blocks; a selection
finds the whole length. -/
structure WritebackOrdered (config : Config) (resolver : Resolver)
    (runtime : QSAHiSparseRuntime Lagging) : Prop where
  performed : forall moment, moment ∈ runtime.device.device.history -> exists stream work,
    runtime.device.device.log[moment.index]? = some ⟨stream, .perform work⟩ ∧
    Exact moment.memory work ∧
    forall (slot li : Nat) (first : Nat) (lease : QSAHiSparseLease) (block : Int),
      Crosses slot li work -> first < moment.index -> lease.slot = slot ->
        runtime.device.device.log[first]? = some ⟨.copy, .perform (.writeBack lease li block)⟩ ->
          first < moment.reached .copy
  /-- Every block of a kept lease gets to its host record. -/
  arrives : forall lease, runtime.slots.Permits lease keptPhases ->
    forall li, li < config.layers -> forall block : Int, 0 ≤ block ->
      block < (runtime.caches lease).seqLen / 4 ->
        (forall (index : Nat) (work : Work),
          runtime.device.device.log[index]? = some ⟨.copy, .perform work⟩ ->
          (operations resolver).Writes work (.host lease.slot li block) ->
            index < runtime.device.device.reached .copy) ->
        runtime.device.device.memory (.host lease.slot li block) = blockTokens lease block

/-- A new layer state has a newest row. -/
theorem stageHot_writes {lease : QSAHiSparseLease} {li : Nat} {blocks : Int} :
    (operations resolver).Writes (.stageHot lease li blocks) (.hot lease.slot li 2048) := by
  by_cases none : blocks = 0
  · refine ⟨known [], ?_⟩
    change hotSource resolver lease.slot li 2048 (.stageHot lease li blocks) = _
    simp [hotSource, none]
  · refine ⟨joined [.host lease.slot li (blocks - 1)], ?_⟩
    change hotSource resolver lease.slot li 2048 (.stageHot lease li blocks) = _
    simp [hotSource, none]

/-- A writeback conflicts with work that must wait for it. -/
theorem writeBack_conflicts {slot li : Nat} {work : Work} {lease : QSAHiSparseLease} {block : Int}
    (crosses : Crosses slot li work) (same : lease.slot = slot) :
    (operations resolver).Conflicts (.writeBack lease li block) work := by
  have reads : (operations resolver).Reads (.writeBack lease li block) (.hot slot li 2048) :=
    Or.inr ⟨.host slot li block, joined [.hot slot li 2048], if_pos ⟨⟨same.symm, rfl⟩, rfl⟩,
      List.mem_singleton_self _⟩
  cases work with
  | closeBlock other layer closed =>
      exact ⟨_, Or.inr ⟨reads, _, if_pos ⟨crosses, Or.inl rfl⟩⟩⟩
  | stageHot other layer blocks =>
      rcases crosses with ⟨rfl, rfl⟩
      exact ⟨_, Or.inr ⟨reads, stageHot_writes⟩⟩
  | resolve other layer n =>
      refine ⟨.host slot li block, Or.inl ⟨⟨_, if_pos ⟨⟨same.symm, rfl⟩, rfl⟩⟩, Or.inl (Or.inl ?_)⟩⟩
      exact crosses
  | _ => exact absurd crosses id

/-- Asynchronous writeback is ordered in every run. -/
theorem writebacks_ordered (offload : config.offload = true)
    {runtime : QSAHiSparseRuntime Lagging}
    (reachable : (writebacks config resolver pace graph).Reachable runtime) :
    WritebackOrdered config resolver runtime := by
  have core := reachable_core offload reachable
  have consistent := core.guarded.sound.consistent
  constructor
  · intro moment member
    rcases consistent.moments moment member with ⟨stream, work, found, agrees, waited⟩
    refine ⟨stream, work, found, ?_, ?_⟩
    · exact (core.guarded.exactly moment.index stream work found).congr agrees
    · intro slot li first lease block crosses earlier same copied
      exact waited first earlier .copy _ copied (writeBack_conflicts crosses same)
  · intro lease permits li inside block lower upper done
    have represents := core.contents lease permits li inside
    refine (consistent.memory (.host lease.slot li block) runtime.device.device.log.length
      (Nat.le_refl _) ?_ ?_).trans ?_
    · intro index _ stream work found writes
      have copies := writes_host resolver writes
      rcases (core.guarded.sided index stream work found).mpr copies with rfl
      exact done index work found writes
    · intro index beyond stream work found
      exact absurd (Device.index_lt found) (Nat.not_lt.mpr beyond)
    · rw [List.take_length]
      exact represents.records block lower upper

/-! ## A prompt and five tokens -/

/-- Both streams take a step before each call. -/
def evenPace : Pace := ⟨fun _ => [.compute, .copy], fun _ => true⟩

def twoLayers : Config := { offloading with layers := 2 }

def decodeStep (seq : Int) : Turn := .forward ⟨.decode, 1, some [1], some [seq], ["a"], []⟩

/-- A request of three tokens decodes five, which closes two blocks. -/
def twoBlocks : List Turn :=
  [ .call (.regenerate 1 1),
    .call (.beginBatch ⟨.extend, 1, some [1], some [3], ["a"], [3]⟩),
    .call (.handoff 1 "a"),
    .call (.admitDecode onlyLease),
    decodeStep 4, decodeStep 5, decodeStep 6, decodeStep 7, decodeStep 8 ]

def turns (list : List Turn) : QSAHiSparseRuntime Lagging :=
  callAll (fun turn : Turn => turn.perform (streamMachine loading evenPace) twoLayers)
    (.initial twoLayers oneLane .empty) list

/-- One more turn that returns. -/
theorem turns_reachable {list : List Turn} (turn : Turn)
    (reachable : (writebacks twoLayers loading evenPace false).Reachable (turns list))
    (allowed : turn.Allowed false (turns list))
    (returned : outcome ((turn.perform (streamMachine loading evenPace) twoLayers).run
      (turns list)) = .ok ⟨⟩) :
    (writebacks twoLayers loading evenPace false).Reachable (turns (list ++ [turn])) := by
  have last := reachable.step ⟨allowed, eq_ok_of_outcome returned⟩
  unfold turns callAll at last ⊢
  rw [List.foldl_append]
  exact last

theorem decodeStep_allowed {before : QSAHiSparseRuntime Lagging} {seq : Int}
    (found : before.requests.get? 1 = some onlyLease)
    (next : seq = (before.caches onlyLease).seqLen + 1) :
    (decodeStep seq).Allowed false before := by
  refine ⟨rfl, rfl, ?_⟩
  rintro reqIndices seqLens ⟨⟩ ⟨⟩ row member lease listed
  rw [List.mem_singleton.mp member] at listed ⊢
  rw [Option.some.inj (found.symm.trans listed)] at next
  exact next

/-- The second block is closed after the first one is at the host. -/
theorem writebacks_ordered_twice :
    WritebackOrdered twoLayers loading (turns twoBlocks) := by
  have start : (writebacks twoLayers loading evenPace false).Reachable (turns []) :=
    ⟨_, [], ⟨oneLane, rfl⟩, .nil _⟩
  have known := turns_reachable (.call (.regenerate 1 1)) start trivial (by decide +kernel)
  have prefilled := turns_reachable
    (.call (.beginBatch ⟨.extend, 1, some [1], some [3], ["a"], [3]⟩)) known
    (fun same => nomatch same) (by decide +kernel)
  have staged := turns_reachable (.call (.handoff 1 "a")) prefilled trivial (by decide +kernel)
  have admitted := turns_reachable (.call (.admitDecode onlyLease)) staged trivial
    (by decide +kernel)
  have fourth := turns_reachable (decodeStep 4) admitted
    (decodeStep_allowed (by decide +kernel) (by decide +kernel)) (by decide +kernel)
  have fifth := turns_reachable (decodeStep 5) fourth
    (decodeStep_allowed (by decide +kernel) (by decide +kernel)) (by decide +kernel)
  have sixth := turns_reachable (decodeStep 6) fifth
    (decodeStep_allowed (by decide +kernel) (by decide +kernel)) (by decide +kernel)
  have seventh := turns_reachable (decodeStep 7) sixth
    (decodeStep_allowed (by decide +kernel) (by decide +kernel)) (by decide +kernel)
  have eighth := turns_reachable (decodeStep 8) seventh
    (decodeStep_allowed (by decide +kernel) (by decide +kernel)) (by decide +kernel)
  exact writebacks_ordered rfl eighth

end Runs

end Writeback
end QSAHiSparse

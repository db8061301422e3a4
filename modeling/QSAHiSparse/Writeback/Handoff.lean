import QSAHiSparse.Runtime.Handoff
import QSAHiSparse.Writeback.Batches

namespace QSAHiSparse
namespace Writeback

open Foundation
open Ledger
open QSAHiSparse.Runtime
open Decode (chunkOffsets)

/-!
# Handoffs

A handoff fills the host records of a prompt chunk by chunk, waiting for each
copy before it packs the next chunk into the same memory, and then the ring.  No
copy of the slot is pending when the hot rows of a layer are made.
-/

section Handoff

variable {config : Config} {resolver : Resolver} {pace : Pace} {graph : Bool} {stages : Stages}
  {lease : QSAHiSparseLease} {promptLen : Int} {loose : Nat -> Work -> Prop}
  {runtime : QSAHiSparseRuntime Lagging} {layers offset : Nat}

/-! ## Copies that are done -/

section Done

variable (core : Core config resolver graph stages noneLoose runtime)

include core

/-- A chunk is waited for where it is submitted. -/
theorem Core.chunk_done {index : Nat} {work : Work}
    (found : runtime.device.device.log[index]? = some ⟨.copy, .perform work⟩)
    (chunk : forall lease li block, work ≠ .writeBack lease li block) :
    index < runtime.device.device.reached .copy := by
  rcases core.guarded.awaited index work found with done | awaited | never
  · exact done
  · rcases awaited with ⟨lease, li, block, _, _, _, same, _⟩
    exact absurd same (chunk lease li block)
  · exact absurd never id

/-- No copy of the slot of a lease that is still staged is pending. -/
theorem Core.staged_cleared (copying : runtime.slots.Permits lease [.copying]) (li : Nat) :
    Cleared runtime lease.slot li := by
  intro index work found touches submission placed
  rw [found] at placed
  cases placed
  rcases core.guarded.awaited index work found with done | awaited | never
  · exact Or.inl done
  · rcases awaited with ⟨other, layer, block, _, _, _, rfl, decodes, _⟩
    rcases slot_unique core.ledger copying.1 decodes.1 touches.1.symm with rfl
    exact absurd (permits_disjoint copying decodes (by decide)) id
  · exact absurd never id

end Done

/-- A program's wait that has covered the loose copies. -/
theorem Core.tighten (core : Core config resolver graph stages loose runtime)
    (done : forall (index : Nat) (work : Work),
      runtime.device.device.log[index]? = some ⟨.copy, .perform work⟩ -> loose index work ->
        index < runtime.device.device.reached .copy) :
    Core config resolver graph stages noneLoose runtime :=
  { core with
    guarded :=
      { core.guarded with
        awaited := fun index work found => by
          rcases core.guarded.awaited index work found with finished | awaited | free
          · exact Or.inl finished
          · exact Or.inr (Or.inl awaited)
          · exact Or.inl (done index work found free) } }

/-! ## A lease that is copied -/

variable (config resolver graph lease promptLen)

/-- The first layers of the prompt are finished, and the records of the next one
up to the offset. -/
structure Staging (loose : Nat -> Work -> Prop) (layers offset : Nat)
    (runtime : QSAHiSparseRuntime Lagging) : Prop where
  core : Core config resolver graph resting loose runtime
  copying : runtime.slots.Permits lease [.copying]
  length : (runtime.caches lease).seqLen = promptLen
  states : (runtime.caches lease).states.length = layers
  finished : forall li, li < layers ->
    Represents (replayed resolver runtime) lease li promptLen
  records : Records (replayed resolver runtime) lease layers (offset / 4 : Nat)

variable {config resolver graph lease promptLen}

theorem staging_lasting (loose : Nat -> Work -> Prop) (layers offset : Nat) :
    Lasting resolver (Staging config resolver graph lease promptLen loose layers offset) := by
  intro runtime now staging later
  refine ⟨core_lasting config graph resting loose runtime now staging.core later,
    staging.copying, staging.length, staging.states, fun li inside => ?_, ?_⟩
  · exact replayed_lasting (fun memory => Represents memory lease li promptLen) runtime now
      (staging.finished li inside) later
  · exact replayed_lasting (fun memory => Records memory lease layers (offset / 4 : Nat)) runtime
      now staging.records later

namespace Staging

/-- No kept lease has the slot. -/
theorem apart (staging : Staging config resolver graph lease promptLen loose layers offset runtime)
    {work : Work} (about : forall slot li, Touches slot li work -> slot = lease.slot)
    {other : QSAHiSparseLease} (kept : runtime.slots.Permits other keptPhases) (li : Nat) :
    ¬ Touches other.slot li work := by
  intro touches
  rcases slot_unique staging.core.ledger staging.copying.1 kept.1 (about _ _ touches) with rfl
  exact permits_disjoint staging.copying kept (by decide)

/-- Work on the next layer of the lease. -/
theorem submit {wider : Nat -> Work -> Prop} {next : Nat} {stream : Stream} {work : Work}
    (staging : Staging config resolver graph lease promptLen loose layers offset runtime)
    (guarded : Guarded resolver wider (submitted runtime stream (.perform work)))
    (about : forall slot li, Touches slot li work -> slot = lease.slot ∧ li = layers)
    (records : Records ((operations resolver).apply work (replayed resolver runtime)) lease layers
      (next / 4 : Nat)) :
    Staging config resolver graph lease promptLen wider layers next
      (submitted runtime stream (.perform work)) where
  core := staging.core.elsewhere guarded fun _ kept li =>
    apply_agreeAt (staging.apart (fun slot li touches => (about slot li touches).1) kept li)
  copying := staging.copying
  length := staging.length
  states := staging.states
  finished li inside := by
    rw [replayed_perform]
    exact (staging.finished li inside).congr
      (apply_agreeAt fun touches => absurd (about _ _ touches).2 (Nat.ne_of_lt inside))
  records := by
    rw [replayed_perform]
    exact records

end Staging

/-! ## A chunk -/

/-- The chunk is packed into memory that no pending copy reads. -/
theorem packChunk_staging (site : Site) (last : Nat) :
    Returns (Staging config resolver graph lease promptLen noneLoose layers offset)
      (device.zoom ((streamMachine resolver pace).submit site .compute
        (.packChunk lease layers offset last)))
      fun _ runtime => Staging config resolver graph lease promptLen noneLoose layers offset
        runtime ∧ Packed (replayed resolver runtime) lease offset last := by
  apply (staging_lasting noneLoose layers offset).submit site
  intro runtime staging
  have guarded : Guarded resolver noneLoose
      (submitted runtime .compute (.perform (.packChunk lease layers offset last))) := by
    refine staging.core.guarded.compute id (fun index earlier found conflict => ?_) trivial
    have copies := (staging.core.guarded.sided index .copy earlier found).mp rfl
    rcases conflicts_crosses resolver copies id conflict with ⟨_, _, _, crosses⟩ | ⟨_, chunk⟩
    · exact absurd crosses id
    · intro submission placed
      rw [found] at placed
      cases placed
      exact Or.inl (staging.core.chunk_done found chunk)
  refine ⟨staging.submit guarded (fun _ _ => id) ?_, ?_⟩
  · exact staging.records.congr fun _ => Operations.apply_of_none rfl _
  · change Packed (replayed resolver
      (submitted runtime .compute (.perform (.packChunk lease layers offset last)))) lease offset
      last
    rw [replayed_perform]
    exact pack_packed lease layers offset last

/-- The copies of chunks. -/
def chunksOnly : Nat -> Work -> Prop :=
  fun _ work => forall lease li block, work ≠ .writeBack lease li block

/-- The copy stream waits for the packed chunk and copies it. -/
theorem copyChunk_staging (site : Site) (last : Nat) :
    Returns
      (fun runtime => (Staging config resolver graph lease promptLen noneLoose layers offset
        runtime ∧ Packed (replayed resolver runtime) lease offset last) ∧ Followed runtime)
      (device.zoom ((streamMachine resolver pace).submit site .copy
        (.copyChunk lease layers offset last)))
      fun _ => Staging config resolver graph lease promptLen chunksOnly layers last := by
  have lasting := ((@staging_lasting config resolver graph lease promptLen noneLoose layers
    offset).and (replayed_lasting fun memory => Packed memory lease offset last)).and
    followed_lasting
  apply lasting.submit site
  rintro runtime ⟨⟨staging, packed⟩, followed⟩
  have copied : Guarded resolver _
      (submitted runtime .copy (.perform (.copyChunk lease layers offset last))) :=
    staging.core.guarded.copy followed trivial (copyChunk_exact packed)
  have guarded : Guarded resolver chunksOnly
      (submitted runtime .copy (.perform (.copyChunk lease layers offset last))) :=
    copied.loosen fun _ _ free => free.elim (fun never => absurd never id) fun same => by
      rw [same.2]
      exact fun _ _ _ => nofun
  exact staging.submit guarded (fun _ _ => id) (staging.records.copyChunk packed)

/-- A write to the cache of the lease that says nothing of its layers. -/
theorem Staging.write {update : RequestCache -> RequestCache}
    (staging : Staging config resolver graph lease promptLen loose layers offset runtime)
    (seqLen : forall cache, (update cache).seqLen = cache.seqLen)
    (offloaded : forall cache, (update cache).offloaded = cache.offloaded)
    (states : forall cache, (update cache).states = cache.states) :
    Staging config resolver graph lease promptLen loose layers offset
      (runtime.withCache lease update) := by
  have same := @withCache_same runtime lease _ update RequestCache.states (states _)
  have covered : Covered graph loose loose runtime (runtime.withCache lease update) :=
    { device := rfl
      slots := rfl
      requests := rfl
      seqLen := withCache_same RequestCache.seqLen (seqLen _)
      offloaded := withCache_same RequestCache.offloaded (offloaded _)
      length := fun other => congrArg List.length (same other)
      pending := id
      marks := fun event => Or.inl (by cases event <;> rfl)
      states := fun other li state listed => ⟨state, by rw [same]; exact listed, Or.inl rfl⟩
      covers := fun _ _ _ => Or.inl }
  refine ⟨staging.core.cover covered, staging.copying, ?_, ?_, staging.finished, staging.records⟩
  · exact (covered.seqLen lease).trans staging.length
  · exact (covered.length lease).trans staging.states

theorem submitChunk_staging (last : Nat) :
    Returns
      (fun runtime => (Staging config resolver graph lease promptLen noneLoose layers offset
        runtime ∧ Packed (replayed resolver runtime) lease offset last) ∧ Followed runtime)
      (submitChunk (streamMachine resolver pace) lease layers offset last)
      fun done runtime => Staging config resolver graph lease promptLen chunksOnly layers last
        runtime ∧ done = runtime.device.mark .copy := by
  unfold submitChunk
  refine Ensures.bind (copyChunk_staging .chunkCopy last) fun _ => ?_
  refine Ensures.bind ((staging_lasting chunksOnly layers last).record .chunkDone .copy)
    fun done => ?_
  refine Ensures.bind (Returns.modify (fun runtime =>
    Staging config resolver graph lease promptLen chunksOnly layers last runtime ∧
      done = runtime.device.mark .copy) fun runtime both => ?_) fun _ _ both => both
  exact ⟨both.1.write (fun _ => rfl) (fun _ => rfl) (fun _ => rfl), both.2⟩

/-- A chunk is on the host when its turn is over. -/
theorem handoffChunk_staging (stop : Nat) :
    Returns (Staging config resolver graph lease promptLen noneLoose layers offset)
      (handoffChunk (streamMachine resolver pace) config lease layers stop offset)
      fun _ => Staging config resolver graph lease promptLen noneLoose layers
        (min (offset + 4096) stop) := by
  unfold handoffChunk
  refine Ensures.bind (Reads.zoom (stagingSlice_reads lease _ _)).preserves.returns fun _ => ?_
  refine Ensures.bind (packChunk_staging .packChunk (min (offset + 4096) stop)) fun _ => ?_
  have packed := (@staging_lasting config resolver graph lease promptLen noneLoose layers
    offset).and (replayed_lasting fun memory =>
      Packed memory lease offset (min (offset + 4096) stop))
  refine Ensures.bind (packed.record .chunkProducer .compute) fun producer => ?_
  refine Ensures.bind (follow_ensures packed (fun runtime both => ?_) .chunkWait producer)
    fun _ => ?_
  · have waits : replayed resolver (submitted runtime .copy
        (.wait .compute runtime.device.device.log.length)) = replayed resolver runtime :=
      replayed_wait
    refine ⟨⟨both.1.core.wait (Nat.le_refl _), both.1.copying, both.1.length, both.1.states, ?_,
      ?_⟩, ?_⟩
    · rw [waits]
      exact both.1.finished
    · rw [waits]
      exact both.1.records
    · rw [waits]
      exact both.2
  refine Ensures.bind (submitChunk_staging (min (offset + 4096) stop)) fun done => ?_
  have copied := (@staging_lasting config resolver graph lease promptLen chunksOnly layers
    (min (offset + 4096) stop)).and (mark_lasting .copy done)
  refine Ensures.bind (copied.synchronize (fun runtime both => both.1.core.guarded.sound.timely)
    .chunkSynchronize done) fun _ => ?_
  have checks : Returns
      (Staging config resolver graph lease promptLen noneLoose layers (min (offset + 4096) stop))
      (checkChunk (streamMachine resolver pace) config)
      fun _ => Staging config resolver graph lease promptLen noneLoose layers
        (min (offset + 4096) stop) :=
    (@Steady.checkChunk _ (quiet (streamMachine resolver pace)) config _
      ((staging_lasting _ _ _).steady pace)).returns
  refine Returns.weaken checks ?_ fun _ _ => id
  rintro runtime ⟨⟨staging, rfl⟩, reaches⟩
  refine ⟨staging.core.tighten fun index work found _ => ?_, staging.copying, staging.length,
    staging.states, staging.finished, staging.records⟩
  exact Nat.lt_of_lt_of_le (Device.index_lt found) (reaches (Nat.le_refl _))

/-- The chunk loop covers the complete blocks. -/
theorem handoffChunks_staging (stop : Nat) :
    Returns (Staging config resolver graph lease promptLen noneLoose layers 0)
      (forM (chunkOffsets stop)
        (handoffChunk (streamMachine resolver pace) config lease layers stop))
      fun _ => Staging config resolver graph lease promptLen noneLoose layers stop := by
  unfold chunkOffsets
  rw [List.forM_map]
  refine Returns.weaken (Returns.forRange (fun index =>
    Staging config resolver graph lease promptLen noneLoose layers (min (index * 4096) stop))
    fun index inside => ?_) (fun runtime staging => ?_) fun _ runtime staging => ?_
  · have starts : min (index * 4096) stop = index * 4096 := by omega
    have ends : min ((index + 1) * 4096) stop = min (index * 4096 + 4096) stop := by
      rw [Nat.add_mul, Nat.one_mul]
    rw [starts, ends]
    exact handoffChunk_staging stop
  · rwa [Nat.zero_mul, Nat.zero_min]
  · have ends : min ((stop + 4095) / 4096 * 4096) stop = stop := by omega
    rwa [ends] at staging

/-! ## A layer -/

/-- The open tail of the prompt goes to the ring. -/
theorem handoffTail_staging (positive : 0 ≤ promptLen) :
    Returns
      (Staging config resolver graph lease promptLen noneLoose layers (promptLen.toNat / 4 * 4))
      (handoffTail (streamMachine resolver pace) lease layers promptLen)
      fun _ runtime => Staging config resolver graph lease promptLen noneLoose layers
        (promptLen.toNat / 4 * 4) runtime ∧
          Represents (replayed resolver runtime) lease layers promptLen := by
  have blocks : ((promptLen.toNat / 4 * 4 / 4 : Nat) : Int) = promptLen / 4 := by omega
  unfold handoffTail
  refine Returns.ite (fun partial_ => ?_) fun whole => ?_
  · refine Ensures.bind (Reads.zoom (stagingSlice_reads lease _ _)).preserves.returns fun _ => ?_
    apply (staging_lasting noneLoose layers _).submit .stageTail
    intro runtime staging
    have guarded : Guarded resolver noneLoose
        (submitted runtime .compute (.perform (.stageTail lease layers promptLen))) :=
      staging.core.guarded.plain id (fun _ _ => id) id trivial
    have records := staging.records
    rw [blocks] at records
    refine ⟨staging.submit guarded (fun _ _ => id) ?_, ?_⟩
    · exact staging.records.congr fun _ => Operations.apply_of_none rfl _
    · change Represents (replayed resolver
        (submitted runtime .compute (.perform (.stageTail lease layers promptLen)))) lease layers
        promptLen
      rw [replayed_perform]
      exact records.stageTail
  · intro runtime staging
    have records := staging.records
    rw [blocks] at records
    exact ⟨staging, records.represents (Decidable.not_not.mp whole)⟩

/-- The layer state of a finished layer. -/
theorem Staging.append (generation : Int)
    (staging : Staging config resolver graph lease promptLen noneLoose layers offset runtime)
    (represents : Represents (replayed resolver runtime) lease layers promptLen) :
    Staging config resolver graph lease promptLen noneLoose (layers + 1) 0
      (runtime.withCache lease fun cache =>
        { cache with states := cache.states ++ [⟨none, generation⟩] }) := by
  have different {other : QSAHiSparseLease} {phases : List Phase}
      (permits : runtime.slots.Permits other phases)
      (outside : forall phase, phase ∈ [Phase.copying] -> phase ∉ phases) : other ≠ lease := by
    rintro rfl
    exact permits_disjoint staging.copying permits outside
  have kept {other : QSAHiSparseLease} (apart : other ≠ lease) :
      (runtime.withCache lease fun cache =>
        { cache with states := cache.states ++ [⟨none, generation⟩] }).caches other =
        runtime.caches other := Function.update_of_ne apart _ _
  have seqLen := @withCache_same runtime lease _ (fun cache =>
    { cache with states := cache.states ++ [⟨none, generation⟩] }) RequestCache.seqLen rfl
  have own : ((runtime.withCache lease fun cache =>
      { cache with states := cache.states ++ [⟨none, generation⟩] }).caches lease).states =
      (runtime.caches lease).states ++ [⟨none, generation⟩] := by
    rw [withCache_self]
  have written : Written runtime (runtime.withCache lease fun cache =>
      { cache with states := cache.states ++ [⟨none, generation⟩] }) := by
    refine ⟨rfl, rfl, rfl, fun other => ?_, fun other undone =>
      staging.core.guarded.undone undone⟩
    by_cases same : other = lease
    · rw [same]
      refine Or.inr ⟨fun undone => different (staging.core.guarded.undone undone) (by decide) rfl,
        fun state member => ?_⟩
      rw [own] at member
      rcases List.mem_append.mp member with before | last
      · exact Or.inr before
      · exact Or.inl (by rw [List.mem_singleton.mp last])
    · exact Or.inl (congrArg RequestCache.states (kept same))
  refine ⟨staging.core.write written staging.core.ledger staging.core.owned ?_ ?_ ?_ ?_,
    staging.copying, (seqLen lease).trans staging.length, ?_, ?_, ?_⟩
  · intro other
    rw [seqLen]
    exact staging.core.lengths other
  · intro other permits
    rw [kept (different permits (by decide))]
    exact staging.core.unstaged other permits
  · intro other permits
    rw [kept (different permits (by decide))]
    exact staging.core.offloaded other permits
  · intro other permits li inside
    rw [kept (different permits (by decide))]
    exact staging.core.contents other permits li inside
  · rw [own, List.length_append, staging.states]
    rfl
  · intro li inside
    rcases Nat.lt_or_eq_of_le (Nat.le_of_lt_succ inside) with earlier | last
    · exact staging.finished li earlier
    · rw [last]
      exact represents
  · exact fun block lower upper => absurd lower (Int.not_le.mpr upper)

/-- `make_state` works on hot rows that no pending copy reads. -/
theorem makeState_staging :
    Returns
      (fun runtime => Staging config resolver graph lease promptLen noneLoose layers offset
        runtime ∧ Represents (replayed resolver runtime) lease layers promptLen)
      (makeState (streamMachine resolver pace) config lease layers (promptLen / 4))
      fun _ => Staging config resolver graph lease promptLen noneLoose (layers + 1) 0 := by
  unfold makeState
  refine Ensures.bind (Reads.zoom (require_reads lease _)).preserves.returns fun _ => ?_
  refine Ensures.bind (request_reads _ _).preserves.returns fun _ => ?_
  refine Returns.get_known fun self _ => ?_
  refine Returns.raiseIf_bind _ fun _ => ?_
  have lasting := (@staging_lasting config resolver graph lease promptLen noneLoose layers
    offset).and (replayed_lasting fun memory => Represents memory lease layers promptLen)
  refine Ensures.bind ?_ fun _ => Returns.modify _ fun runtime
      (both : Staging config resolver graph lease promptLen noneLoose layers offset runtime ∧
        Represents (replayed resolver runtime) lease layers promptLen) =>
    Staging.append lease.generation both.1 both.2
  apply lasting.submit .stageHot
  rintro runtime ⟨staging, represents⟩
  have guarded : Guarded resolver noneLoose
      (submitted runtime .compute (.perform (.stageHot lease layers (promptLen / 4)))) :=
    staging.core.guarded.crossing (staging.core.staged_cleared staging.copying layers) id
      (fun _ _ => id) id trivial
  refine ⟨staging.submit guarded (fun _ _ => id) ?_, ?_⟩
  · exact staging.records.congr fun _ => Operations.apply_of_none rfl _
  · change Represents (replayed resolver
      (submitted runtime .compute (.perform (.stageHot lease layers (promptLen / 4))))) lease layers
      promptLen
    rw [replayed_perform]
    exact ⟨represents.records.congr fun _ => Operations.apply_of_none rfl _,
      represents.tail.congr fun _ => Operations.apply_of_none rfl _⟩

/-- A layer of the prompt. -/
theorem handoffLayer_staging (positive : 0 ≤ promptLen) :
    Returns (Staging config resolver graph lease promptLen noneLoose layers 0)
      (handoffLayer (streamMachine resolver pace) config lease promptLen layers)
      fun _ => Staging config resolver graph lease promptLen noneLoose (layers + 1) 0 := by
  unfold handoffLayer
  refine Ensures.bind (handoffChunks_staging (promptLen.toNat / 4 * 4)) fun _ => ?_
  refine Ensures.bind (handoffTail_staging positive) fun _ => ?_
  refine Ensures.bind makeState_staging fun _ => ?_
  exact (((staging_lasting noneLoose (layers + 1) 0).steady pace).outside .eventLog).returns

/-! ## The end of a handoff -/

/-- All layers are finished, and the lease is offloaded. -/
structure Staged (config : Config) (resolver : Resolver) (graph : Bool) (lease : QSAHiSparseLease)
    (promptLen : Int) (runtime : QSAHiSparseRuntime Lagging) : Prop
    extends Staging config resolver graph lease promptLen noneLoose config.layers 0 runtime where
  offloads : (runtime.caches lease).offloaded = true

theorem staged_lasting : Lasting resolver (Staged config resolver graph lease promptLen) :=
  fun runtime now staged later =>
    ⟨staging_lasting noneLoose config.layers 0 runtime now staged.toStaging later, staged.offloads⟩

/-- The lease is marked as offloaded. -/
theorem Staging.offload
    (staging : Staging config resolver graph lease promptLen noneLoose config.layers 0 runtime) :
    Staged config resolver graph lease promptLen
      (runtime.withCache lease fun cache => { cache with offloaded := true }) := by
  have seqLen := @withCache_same runtime lease _ (fun cache => { cache with offloaded := true })
    RequestCache.seqLen rfl
  have states := @withCache_same runtime lease _ (fun cache => { cache with offloaded := true })
    RequestCache.states rfl
  have written : Written runtime
      (runtime.withCache lease fun cache => { cache with offloaded := true }) :=
    ⟨rfl, rfl, rfl, fun other => Or.inl (states other),
      fun other undone => staging.core.guarded.undone undone⟩
  have marked : ((runtime.withCache lease fun cache =>
      { cache with offloaded := true }).caches lease).offloaded = true := by
    rw [withCache_self]
  refine ⟨⟨staging.core.write written staging.core.ledger staging.core.owned ?_ ?_ ?_ ?_,
    staging.copying, (seqLen lease).trans staging.length,
    (congrArg List.length (states lease)).trans staging.states, staging.finished,
    staging.records⟩, marked⟩
  · intro other
    rw [seqLen]
    exact staging.core.lengths other
  · intro other permits
    rw [states]
    exact staging.core.unstaged other permits
  · intro other permits
    rw [states]
    refine ⟨?_, (staging.core.offloaded other permits).2⟩
    by_cases same : other = lease
    · rw [same]
      exact marked
    · exact (congrArg RequestCache.offloaded (Function.update_of_ne same _ _)).trans
        (staging.core.offloaded other permits).1
  · intro other permits li inside
    rw [seqLen]
    exact staging.core.contents other permits li inside

/-- The layers of a prompt. -/
theorem handoffLayers_staging (offload : config.offload = true) (positive : 0 ≤ promptLen) :
    Returns (Staging config resolver graph lease promptLen noneLoose 0 0)
      (handoffLayers (streamMachine resolver pace) config lease promptLen)
      fun _ => Staged config resolver graph lease promptLen := by
  unfold handoffLayers
  rw [if_pos offload]
  refine Ensures.bind (Returns.forRange (fun layers =>
    Staging config resolver graph lease promptLen noneLoose layers 0) fun layers _ =>
      handoffLayer_staging positive) fun _ => ?_
  exact Returns.modify _ fun runtime staging => staging.offload

/-- The prompt is kept, and the lane is free. -/
theorem Staged.finish (staged : Staged config resolver graph lease promptLen runtime)
    (owned : runtime.slots.prefillOwner = some lease) :
    Core config resolver graph resting noneLoose
      { runtime with slots := (runtime.slots.setPhase lease .hostReady).clearLane } := by
  have held := staged.copying.1
  have cases_ {other : QSAHiSparseLease} {phases : List Phase}
      (permits : ((runtime.slots.setPhase lease .hostReady).clearLane).Permits other phases) :
      (other = lease ∧ Phase.hostReady ∈ phases) ∨
        (other ≠ lease ∧ runtime.slots.Permits other phases) :=
    setPhase_cases held permits
  have written : Written runtime
      { runtime with slots := (runtime.slots.setPhase lease .hostReady).clearLane } := by
    refine ⟨rfl, rfl, rfl, fun _ => Or.inl rfl, fun other undone => ?_⟩
    have permits := staged.core.guarded.undone undone
    refine setPhase_other held ?_ permits
    rintro rfl
    exact permits_disjoint staged.copying permits (by decide)
  refine staged.core.write written (staged.core.ledger.move (.hostReady lease staged.copying owned))
    staged.core.owned staged.core.lengths ?_ ?_ ?_
  · intro other permits
    rcases cases_ permits with ⟨_, never⟩ | ⟨_, before⟩
    · exact absurd never (by decide)
    · exact staged.core.unstaged other before
  · intro other permits
    rcases cases_ permits with ⟨rfl, _⟩ | ⟨_, before⟩
    · exact ⟨staged.offloads, staged.states⟩
    · exact staged.core.offloaded other before
  · intro other permits li inside
    rcases cases_ permits with ⟨rfl, _⟩ | ⟨_, before⟩
    · change Represents _ other li (runtime.caches other).seqLen
      rw [staged.length]
      exact staged.finished li inside
    · exact staged.core.contents other before li inside

theorem finishStaging_core :
    Returns (Staged config resolver graph lease promptLen)
      (finishStaging (streamMachine resolver pace) lease)
      fun _ => Core config resolver graph resting noneLoose := by
  have steady := (@staged_lasting config resolver graph lease promptLen).steady pace
  unfold finishStaging
  refine Ensures.bind (steady.record .handoffDone .compute).returns fun done => ?_
  refine Ensures.bind (steady.synchronize .handoffSynchronize done).returns fun _ => ?_
  refine Ensures.bind (Returns.modify (Staged config resolver graph lease promptLen)
    fun runtime staged => ?_) fun _ => ?_
  · refine ⟨staged.toStaging.write (fun _ => rfl) (fun _ => rfl) (fun _ => rfl), ?_⟩
    rw [withCache_self]
    exact staged.offloads
  have finishes : Returns (Staged config resolver graph lease promptLen)
      (finishHandoff ledger lease
        (some (device.zoom ((streamMachine resolver pace).ask .handoffQuery))))
      fun _ => Core config resolver graph resting noneLoose := by
    unfold finishHandoff
    refine Ensures.bind (Reads.zoom (require_reads lease _)).preserves.returns fun _ => ?_
    refine Ensures.bind (steady.ask .handoffQuery).returns fun completed => ?_
    refine Returns.raiseIf_bind _ fun _ runtime staged => ?_
    apply (ledger.leaves_zoom _ _).mpr
    apply (Leaves.bind_iff _ _ _).mpr
    apply (Leaves.get_iff _).mpr
    apply (Leaves.bind_iff _ _ _).mpr
    apply (Leaves.raiseIf_iff _ _ _).mpr
    exact ⟨fun _ => trivial, fun owned => staged.finish (Decidable.not_not.mp owned)⟩
  exact Ensures.bind finishes fun _ runtime core => core

/-- A prefilled lease begins its handoff with no layer finished. -/
theorem Core.beginHandoff (core : Core config resolver graph resting noneLoose runtime)
    (permits : runtime.slots.Permits lease [.prefill])
    (owned : runtime.slots.prefillOwner = some lease)
    (length : (runtime.caches lease).seqLen = promptLen) :
    Staging config resolver graph lease promptLen noneLoose 0 0
      { runtime with slots := runtime.slots.setPhase lease .copying } := by
  have held := permits.1
  refine ⟨core.rewrite rfl rfl rfl rfl (core.ledger.move (.copying lease permits owned)) core.owned
    ?_ ?_ ?_, held.setPhase_permits .copying, length, ?_, fun li inside =>
      absurd inside (Nat.not_lt_zero li),
    fun block lower upper => absurd lower (Int.not_le.mpr upper)⟩
  · intro other _ decodes
    refine setPhase_other held ?_ decodes
    rintro rfl
    exact permits_disjoint permits decodes (by decide)
  · intro other prefilling
    rcases setPhase_cases held prefilling with ⟨_, never⟩ | ⟨_, before⟩
    · exact absurd never (by decide)
    · exact before
  · intro other kept
    rcases setPhase_cases held kept with ⟨_, never⟩ | ⟨_, before⟩
    · exact absurd never (by decide)
    · exact before
  · exact congrArg List.length (core.unstaged lease permits)

theorem handoffBody_core (offload : config.offload = true) (reqIdx : Int) (rid : String) :
    Returns (Core config resolver graph resting noneLoose)
      (handoffBody (streamMachine resolver pace) config reqIdx rid)
      fun _ => Core config resolver graph resting noneLoose := by
  unfold handoffBody
  refine Ensures.bind (request_reads _ _).preserves.returns fun lease => ?_
  refine Returns.get_bind fun self => ?_
  have named : Lasting resolver fun runtime =>
      Core config resolver graph resting noneLoose runtime ∧
        (runtime.caches lease).seqLen = (self.caches lease).seqLen :=
    (core_lasting config graph resting noneLoose).and (Lasting.of_host fun _ _ same => same)
  refine Ensures.bind (Returns.weaken (((named).steady pace).outside .availableSize).returns
    (fun runtime both => ⟨both.1, by rw [both.2]⟩) fun _ _ => id) fun _ => ?_
  have begins : Returns
      (fun runtime => Core config resolver graph resting noneLoose runtime ∧
        (runtime.caches lease).seqLen = (self.caches lease).seqLen)
      (ledger.zoom (beginHandoff lease))
      fun _ => Staging config resolver graph lease (self.caches lease).seqLen noneLoose 0 0 := by
    rintro runtime ⟨core, same⟩
    apply (ledger.leaves_zoom _ _).mpr
    refine (beginHandoff_outcome runtime.slots lease).mono ?_ fun _ _ _ => trivial
    rintro _ slots ⟨⟨permits, owned, _⟩, rfl⟩
    exact core.beginHandoff permits (Decidable.not_not.mp owned) same
  refine Ensures.bind begins fun _ => ?_
  have steady := (@staging_lasting config resolver graph lease (self.caches lease).seqLen noneLoose
    0 0).steady pace
  refine Ensures.bind (steady.outside .eventLog).returns fun _ => ?_
  have layers : Returns
      (Staging config resolver graph lease (self.caches lease).seqLen noneLoose 0 0)
      (handoffLayers (streamMachine resolver pace) config lease (self.caches lease).seqLen)
      fun _ => Staged config resolver graph lease (self.caches lease).seqLen :=
    fun runtime staging =>
      handoffLayers_staging offload (staging.length ▸ staging.core.lengths lease) runtime staging
  refine Ensures.bind layers fun _ => ?_
  refine Ensures.bind finishStaging_core fun done => ?_
  have kept := core_steady config resolver pace graph resting noneLoose
  have snapshot : Preserves (Core config resolver graph resting noneLoose)
      (snapshotLease (streamMachine resolver pace) config) :=
    @Steady.snapshotLease _ (quiet (streamMachine resolver pace)) config _ kept
  refine Ensures.bind snapshot.returns fun _ => ?_
  refine Ensures.bind (kept.ask .indexOwnership).returns fun same => ?_
  refine Returns.raiseIf_bind _ fun _ => ?_
  refine Ensures.bind (kept.outside .eventLog).returns fun _ runtime core => core

/-- A handoff that returns keeps the prompt of its lease. -/
theorem handoff_core (offload : config.offload = true) (reqIdx : Int) (rid : String) :
    Returns (Core config resolver graph resting noneLoose)
      (handoff (streamMachine resolver pace) config reqIdx rid)
      fun _ => Core config resolver graph resting noneLoose := by
  unfold handoff
  refine Ensures.bind (request_reads _ _).preserves.returns fun lease => ?_
  exact Returns.exceptException (handoffBody_core offload reqIdx rid) fun cause =>
    Returns.bind_throw

end Handoff

end Writeback
end QSAHiSparse

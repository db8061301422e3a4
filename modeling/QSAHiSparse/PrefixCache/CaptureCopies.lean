import QSAHiSparse.HostPrefix.Fitting
import QSAHiSparse.PrefixCache.Capture

namespace QSAHiSparse
namespace PrefixCache

open Foundation
open Ledger (QSAHiSparseLease)
open HostPrefix
open QSAHiSparse.Runtime (Machine)

/-!
# The bytes a capture copies

The size of a checkpoint is computed before any of its tensors exists, and its
segments are cut later in pieces of 4096 tokens.  Both come to the same bytes,
and the pieces tile what the basis does not cover.
-/

variable {δ υ Element : Type}

/-! ## New tensors -/

/-- A host tensor of the kind, in a storage of its own size. -/
structure TensorKind.Fits (kind : TensorKind) (tensor : Tensor Element) : Prop where
  onHost : tensor.onHost = true
  shape : tensor.shape = kind.shape
  nbytes : tensor.storage.nbytes = kind.nbytes

def tensorBytes (tensors : List (Tensor Element)) : Nat :=
  (tensors.map fun tensor => tensor.storage.nbytes).sum

theorem tensorBytes_append (first second : List (Tensor Element)) :
    tensorBytes (first ++ second) = tensorBytes first + tensorBytes second := by
  unfold tensorBytes
  rw [List.map_append, List.sum_append]

theorem tensorBytes_singleton (tensor : Tensor Element) :
    tensorBytes [tensor] = tensor.storage.nbytes := by
  unfold tensorBytes
  rw [List.map_singleton, List.sum_singleton]

/-- Tensors of the kinds of a list have the bytes of the kinds. -/
theorem fits_bytes {ι : Type} {kind : ι -> TensorKind} {items : List ι}
    {tensors : List (Tensor Element)}
    (fits : List.Forall₂ (fun item tensor => (kind item).Fits tensor) items tensors) :
    tensorBytes tensors = (items.map fun item => (kind item).nbytes).sum ∧
      forall tensor, tensor ∈ tensors -> tensor.onHost = true := by
  induction fits with
  | nil => exact ⟨rfl, fun _ member => absurd member List.not_mem_nil⟩
  | @cons item tensor items tensors first _ previous =>
      constructor
      · change tensorBytes ([tensor] ++ tensors) = _
        rw [tensorBytes_append, tensorBytes_singleton, first.nbytes, previous.1]
        rfl
      · intro other member
        rcases List.mem_cons.mp member with same | later
        · rw [same]
          exact first.onHost
        · exact previous.2 other later

/-! ## Chunks -/

/-- The tensors of segments, in the order of `tensors(snapshot)`. -/
def segmentTensors (segments : List (PrefixSegment Element)) : List (Tensor Element) :=
  segments.flatMap fun segment => [segment.raw, segment.index]

/-- What a chunk copies. -/
def rawKind (config : PrefixConfig) (tokens : Nat) : TensorKind :=
  ⟨[config.runtime.layers, 2, tokens, 1, 256], 1⟩

def indexKind (config : PrefixConfig) (tokens : Nat) : TensorKind :=
  ⟨[config.runtime.layers, tokens / 4] ++ config.geometry.indexRow.shape,
    config.geometry.indexRow.itemBytes⟩

/-- The segment of one chunk. -/
structure ChunkFits (config : PrefixConfig) (offset stop : Nat) (segment : PrefixSegment Element) :
    Prop where
  starts : segment.start = offset
  stops : segment.stop = stop
  raw : (rawKind config (stop - offset)).Fits segment.raw
  index : (indexKind config (stop - offset)).Fits segment.index

/-- The bytes of the segments of so many tokens. -/
def segmentBytes (config : PrefixConfig) (tokens : Nat) : Nat :=
  tokens * (config.runtime.layers * 2 * 256) +
    tokens / 4 * (config.runtime.layers * config.geometry.indexRow.nbytes)

theorem chunk_bytes (config : PrefixConfig) (tokens : Nat) :
    (rawKind config tokens).nbytes + (indexKind config tokens).nbytes =
      segmentBytes config tokens := by
  unfold rawKind indexKind segmentBytes TensorKind.nbytes
  simp only [List.prod_cons, List.prod_nil, List.cons_append, List.nil_append, Nat.mul_one,
    Nat.one_mul]
  congr 1
  · ring
  · ring

theorem segmentBytes_add (config : PrefixConfig) {first : Nat} (paged : first % 4 = 0)
    (second : Nat) :
    segmentBytes config (first + second) = segmentBytes config first + segmentBytes config second := by
  unfold segmentBytes
  have quarters : (first + second) / 4 = first / 4 + second / 4 := by omega
  rw [quarters, Nat.add_mul, Nat.add_mul]
  omega

theorem captureOffsets_self (length : Nat) : captureOffsets length length = [] := by
  unfold captureOffsets
  rw [Nat.sub_self]
  rfl

/-- The first chunk and the chunks from where it stops. -/
theorem captureOffsets_cons {start length : Nat} (more : start < length) :
    captureOffsets start length = start :: captureOffsets (min (start + 4096) length) length := by
  unfold captureOffsets
  have turns : (length - start + 4095) / 4096 =
      (length - min (start + 4096) length + 4095) / 4096 + 1 := by omega
  rw [turns, List.range_succ_eq_map, List.map_cons, List.map_map]
  congr 1
  apply List.map_congr_left
  intro index member
  have small := List.mem_range.mp member
  change start + 4096 * (index + 1) = min (start + 4096) length + 4096 * index
  omega

/-- Induction along the chunks, from the last one back. -/
theorem captureOffsets_induction {length : Nat} {motive : Nat -> Prop} (last : motive length)
    (chunk : forall start, start < length -> motive (min (start + 4096) length) -> motive start) :
    forall start, start ≤ length -> motive start := by
  intro start
  induction remaining : length - start using Nat.strongRecOn generalizing start with
  | ind remaining previous =>
      intro within
      rcases Nat.lt_or_ge start length with more | done
      · exact chunk start more (previous _ (by omega) _ rfl (Nat.min_le_right _ _))
      · rw [Nat.le_antisymm within done]
        exact last

/-- The chunks tile what is left of the prefix, and have its bytes. -/
theorem chunks_fit (config : PrefixConfig) {length : Nat} (paged : length % 64 = 0) :
    forall start, start ≤ length -> start % 64 = 0 ->
      forall segments : List (PrefixSegment Element),
        List.Forall₂ (fun offset => ChunkFits config offset (min (offset + 4096) length))
          (captureOffsets start length) segments ->
        tiling segments start = .ok length ∧
          tensorBytes (segmentTensors segments) = segmentBytes config (length - start) ∧
          forall tensor, tensor ∈ segmentTensors segments -> tensor.onHost = true := by
  apply captureOffsets_induction
  · intro _ segments fits
    rw [captureOffsets_self] at fits
    cases fits
    refine ⟨rfl, ?_, fun _ member => absurd member List.not_mem_nil⟩
    rw [Nat.sub_self]
    unfold segmentBytes
    rw [Nat.zero_div, Nat.zero_mul, Nat.zero_mul]
    rfl
  · intro start more previous aligned segments fits
    rw [captureOffsets_cons more] at fits
    cases fits with
    | @cons _ segment _ rest first others =>
        have stop := Nat.min_le_right (start + 4096) length
        have next : min (start + 4096) length % 64 = 0 := by omega
        have beyond : start < min (start + 4096) length := by omega
        rcases previous next rest others with ⟨tiled, bytes, resident⟩
        refine ⟨?_, ?_, ?_⟩
        · rw [← first.starts]
          rw [@tiling_cons _ segment rest _ (min (start + 4096) length - start)
            ((min (start + 4096) length - start) / 4) rfl]
          · rw [first.stops]
            exact tiled
          · rw [first.starts, first.stops]
            exact_mod_cast beyond
          · rw [first.stops]
            omega
          · rw [first.raw.shape]
            rfl
          · rw [first.starts, first.stops]
            omega
          · rw [first.index.shape]
            rfl
          · rw [first.starts, first.stops]
            omega
        · change tensorBytes ([segment.raw, segment.index] ++ segmentTensors rest) = _
          rw [tensorBytes_append, bytes]
          change tensorBytes ([segment.raw] ++ [segment.index]) + _ = _
          rw [tensorBytes_append, tensorBytes_singleton, tensorBytes_singleton, first.raw.nbytes,
            first.index.nbytes, chunk_bytes, ← segmentBytes_add config (by omega)]
          congr 1
          omega
        · intro tensor member
          change tensor ∈ [segment.raw, segment.index] ++ segmentTensors rest at member
          rcases List.mem_append.mp member with here | later
          · rcases List.mem_cons.mp here with same | last
            · rw [same]
              exact first.raw.onHost
            · rw [List.mem_singleton.mp last]
              exact first.index.onHost
          · exact resident tensor later

/-! ## The allocator -/

/-- What the allocators of storage and of `bytes` objects promise, given what is
in use.  Nothing that is in use is handed out, and none of it is freed while the
copies are made.  A new `bytes` object leaves the runtime and the requests alone. -/
structure Allocator (upstream : Upstream δ υ Element) (live : υ -> Finset Storage)
    (names : υ -> Finset Nat) : Prop where
  newStorage : forall count world, Leaves
    (fun storage after => storage.nbytes = count ∧
      (count = 0 ∨ storage ∉ live world.upstream) ∧ storage ∈ live after.upstream ∧
        live world.upstream ⊆ live after.upstream)
    (fun _ _ => True) ((upstream.newStorage count).run world)
  newBytes : forall world, Leaves
    (fun name after => name ∉ names world.upstream ∧ name ∈ names after.upstream ∧
      names world.upstream ⊆ names after.upstream ∧ live world.upstream ⊆ live after.upstream ∧
        after.runtime = world.runtime ∧ after.requests = world.requests)
    (fun _ _ => True) (upstream.newBytes.run world)
  currentStream : forall world, Leaves
    (fun _ after => live world.upstream ⊆ live after.upstream) (fun _ _ => True)
    (upstream.currentStream.run world)
  synchronizeStream : forall stream world, Leaves
    (fun _ after => live world.upstream ⊆ live after.upstream) (fun _ _ => True)
    ((upstream.synchronizeStream stream).run world)

/-- What a capture has been handed. -/
def Handed (live : υ -> Finset Storage) (start : Finset Storage) (new : List Storage)
    (world : World δ υ Element) : Prop :=
  Allocated Storage.nbytes (fun world : World δ υ Element => live world.upstream) start new world

def storagesOf (tensors : List (Tensor Element)) : List Storage :=
  tensors.map fun tensor => tensor.storage

section Copy

variable (machine : Machine δ) (config : PrefixConfig) {upstream : Upstream δ υ Element}
  {live : υ -> Finset Storage} {names : υ -> Finset Nat}
  (allocator : Allocator upstream live names) {start : Finset Storage}

/-- The runtime has no part in it. -/
theorem runtime_handed {α : Type} (program : Method (Runtime.QSAHiSparseRuntime δ) α)
    (new : List Storage) :
    Preserves (Handed live start new : World δ υ Element -> Prop) (runtimePart.zoom program) := by
  intro world handed
  apply (runtimePart.leaves_zoom _ _).mpr
  cases program.run (runtimePart.get world) <;> exact ⟨handed.fresh, handed.kept, handed.added⟩

theorem rowIndex_handed (req : Nat) (new : List Storage) :
    Preserves (Handed live start new : World δ υ Element -> Prop) (rowIndex req) := by
  refine Preserves.get_bind fun world => ?_
  split
  · exact Preserves.throw _
  · exact Preserves.pure _

theorem mambaSlot_handed (req : Nat) (new : List Storage) :
    Preserves (Handed live start new : World δ υ Element -> Prop) (mambaSlot req) := by
  refine Preserves.get_bind fun world => ?_
  split
  · exact Preserves.throw _
  · exact Preserves.pure _

include allocator in
theorem synchronizeCurrent_handed (new : List Storage) :
    Ensures (Handed live start new) (synchronizeCurrent upstream) (fun _ => Handed live start new)
      (fun _ _ => True) := by
  intro world handed
  apply (Leaves.bind_iff _ _ _).mpr
  apply (allocator.currentStream world).mono
  · intro stream after grows
    apply (allocator.synchronizeStream stream after).mono
    · exact fun _ last further => handed.mono (grows.trans further)
    · exact fun _ _ => id
  · exact fun _ _ => id

include allocator in
theorem newTensor_handed (kind : TensorKind) (element : List Nat -> Element) (new : List Storage) :
    Ensures (Handed live start new) (newTensor upstream kind element)
      (fun tensor after => kind.Fits tensor ∧ Handed live start (new ++ storagesOf [tensor]) after)
      (fun _ _ => True) := by
  intro world handed
  apply (Leaves.bind_iff _ _ _).mpr
  apply (allocator.newStorage kind.nbytes world).mono
  · rintro storage after ⟨size, apart, here, grows⟩
    refine ⟨⟨rfl, rfl, size⟩, ?_⟩
    apply handed.concat _ grows here
    exact apart.imp (fun empty => size.trans empty) id
  · exact fun _ _ => id

include allocator in
/-- A list of new tensors. -/
theorem newTensors_handed {ι : Type} (items : List ι) (kind : ι -> TensorKind)
    (element : ι -> List Nat -> Element) (new : List Storage) :
    Ensures (Handed live start new)
      (items.mapM fun item => newTensor upstream (kind item) (element item))
      (fun tensors after => List.Forall₂ (fun item tensor => (kind item).Fits tensor) items tensors ∧
        Handed live start (new ++ storagesOf tensors) after)
      (fun _ _ => True) := by
  intro world handed
  apply (Allocated.mapM items (fun item _ new =>
    newTensor_handed allocator (kind item) (element item) new) new world handed).mono
  · rintro tensors after ⟨fits, handedAfter⟩
    refine ⟨fits, ?_⟩
    unfold storagesOf at handedAfter ⊢
    rw [List.map_eq_flatMap]
    exact handedAfter
  · exact fun _ _ => id

include allocator in
theorem captureChunk_handed (lease : QSAHiSparseLease) (req offset stop : Nat)
    (new : List Storage) :
    Ensures (Handed live start new) (captureChunk machine config upstream lease req offset stop)
      (fun segment after => ChunkFits config offset stop segment ∧
        Handed live start (new ++ storagesOf [segment.raw, segment.index]) after)
      (fun _ _ => True) := by
  have escapes : forall (cause : PyError) (world : World δ υ Element),
      Handed live start new world -> True := fun _ _ _ => trivial
  refine Preserves.andThen (runtime_handed _ new) escapes fun physical => ?_
  refine Preserves.andThen (rowIndex_handed req new) escapes fun reqIdx => ?_
  refine Preserves.andThen (runtime_handed _ new) escapes fun _ => ?_
  intro world handed
  apply (Leaves.bind_iff _ _ _).mpr
  apply (Leaves.get_iff _).mpr
  apply (Leaves.bind_iff _ _ _).mpr
  apply (newTensor_handed allocator (rawKind config (stop - offset)) _ new world handed).mono
  · rintro raw between ⟨rawFits, rawHanded⟩
    apply (Leaves.bind_iff _ _ _).mpr
    apply (newTensor_handed allocator (indexKind config (stop - offset)) _ _ between rawHanded).mono
    · rintro index after ⟨indexFits, indexHanded⟩
      refine ⟨⟨rfl, rfl, rawFits, indexFits⟩, ?_⟩
      rw [List.append_assoc] at indexHanded
      exact indexHanded
    · exact fun _ _ => id
  · exact fun _ _ => id

include allocator in
theorem captureChunks_handed (lease : QSAHiSparseLease) (req first length : Nat)
    (new : List Storage) :
    Ensures (Handed live start new)
      ((captureOffsets first length).mapM fun offset =>
        captureChunk machine config upstream lease req offset (min (offset + 4096) length))
      (fun segments after =>
        List.Forall₂ (fun offset => ChunkFits config offset (min (offset + 4096) length))
          (captureOffsets first length) segments ∧
        Handed live start (new ++ storagesOf (segmentTensors segments)) after)
      (fun _ _ => True) := by
  intro world handed
  apply (Allocated.mapM (captureOffsets first length) (fun offset _ new =>
    captureChunk_handed machine config allocator lease req offset (min (offset + 4096) length) new)
    new world handed).mono
  · rintro segments after ⟨fits, handedAfter⟩
    refine ⟨fits, ?_⟩
    unfold segmentTensors storagesOf
    rw [List.map_flatMap]
    exact handedAfter
  · exact fun _ _ => id

/-- The bytes of the recurrent state. -/
def mambaBytes (config : PrefixConfig) : Nat :=
  (config.geometry.conv.map TensorKind.nbytes).sum + config.geometry.temporal.nbytes +
    (config.geometry.siblings.map fun sibling => sibling.1.nbytes).sum

def mambaTensors (mamba : MambaCapture Element) : List (Tensor Element) :=
  mamba.conv ++ [mamba.temporal] ++ mamba.siblings

/-- The kinds of an enumerated list are those of the list. -/
theorem zipIdx_bytes {ι : Type} (items : List ι) (bytes : ι -> Nat) :
    (items.zipIdx.map fun entry => bytes entry.1).sum = (items.map bytes).sum := by
  have same : items.zipIdx.map (fun entry => bytes entry.1) = items.map bytes := by
    rw [← List.zipIdx_map_fst 0 items, List.map_map]
    simp
  rw [same]

include allocator in
theorem captureMamba_handed (slot : Int) (new : List Storage) :
    Ensures (Handed live start new) (captureMamba machine config upstream slot)
      (fun mamba after => tensorBytes (mambaTensors mamba) = mambaBytes config ∧
        (forall tensor, tensor ∈ mambaTensors mamba -> tensor.onHost = true) ∧
        Handed live start (new ++ storagesOf (mambaTensors mamba)) after)
      (fun _ _ => True) := by
  refine Preserves.andThen (runtime_handed _ new) (fun _ _ _ => trivial) fun _ => ?_
  intro world handed
  apply (Leaves.bind_iff _ _ _).mpr
  apply (Leaves.get_iff _).mpr
  apply (Leaves.bind_iff _ _ _).mpr
  apply (newTensors_handed allocator config.geometry.conv.zipIdx (fun entry => entry.1) _ new world
    handed).mono
  · rintro conv second ⟨convFits, convHanded⟩
    apply (Leaves.bind_iff _ _ _).mpr
    apply (newTensor_handed allocator config.geometry.temporal _ _ second convHanded).mono
    · rintro temporal third ⟨temporalFits, temporalHanded⟩
      apply (Leaves.bind_iff _ _ _).mpr
      apply (newTensors_handed allocator config.geometry.siblings.zipIdx (fun entry => entry.1.1) _ _
        third temporalHanded).mono
      · rintro siblings last ⟨siblingsFit, siblingsHanded⟩
        have convBytes := fits_bytes convFits
        have siblingsBytes := fits_bytes siblingsFit
        refine ⟨?_, ?_, ?_⟩
        · unfold mambaTensors mambaBytes
          rw [tensorBytes_append, tensorBytes_append, tensorBytes_singleton, convBytes.1,
            siblingsBytes.1, temporalFits.nbytes, zipIdx_bytes config.geometry.conv TensorKind.nbytes,
            zipIdx_bytes config.geometry.siblings fun sibling => sibling.1.nbytes]
        · intro tensor member
          rcases List.mem_append.mp member with earlier | sibling
          · rcases List.mem_append.mp earlier with one | other
            · exact convBytes.2 tensor one
            · rw [List.mem_singleton.mp other]
              exact temporalFits.onHost
          · exact siblingsBytes.2 tensor sibling
        · unfold mambaTensors storagesOf
          unfold storagesOf at siblingsHanded
          rw [List.map_append, List.map_append, ← List.append_assoc, ← List.append_assoc]
          exact siblingsHanded
      · exact fun _ _ => id
    · exact fun _ _ => id
  · exact fun _ _ => id

/-! ## A checkpoint -/

/-- The bytes of what a capture copies itself. -/
def copiedBytes (config : PrefixConfig) (tokens : Nat) : Nat :=
  segmentBytes config tokens +
    ((config.geometry.keyState.map TensorKind.nbytes).sum + config.geometry.rope.nbytes) +
    mambaBytes config

/-- What a capture of a frame copied behind the segments it shares. -/
structure Copied (config : PrefixConfig) (frame : CaptureFrame Element) (first : Nat)
    (shared : List (PrefixSegment Element)) (own : List (Tensor Element))
    (snapshot : PrefixSnapshot PrefixNamespace Element) : Prop where
  tokens : snapshot.tokens = frame.tokens
  tensors : snapshot.tensors = segmentTensors shared ++ own
  bytes : tensorBytes own = copiedBytes config (frame.length - first)
  resident : forall tensor, tensor ∈ own -> tensor.onHost = true
  tiles : tiling shared 0 = .ok first -> tiling snapshot.segments 0 = .ok frame.length

include allocator in
/-- The copies take new storage only, and fit what the basis does not cover. -/
theorem copyCheckpoint_copies {frame : CaptureFrame Element} (paged : frame.length % 64 = 0)
    (identity : Option ImagePrefixIdentity) {first : Nat} (within : first ≤ frame.length)
    (aligned : first % 64 = 0) (shared : List (PrefixSegment Element)) (new : List Storage) :
    Ensures (Handed live start new)
      (copyCheckpoint machine config upstream frame identity first shared)
      (fun snapshot after => exists own, Copied config frame first shared own snapshot ∧
        Handed live start (new ++ storagesOf own) after)
      (fun _ _ => True) := by
  have escapes : forall (cause : PyError) (world : World δ υ Element),
      Handed live start new world -> True := fun _ _ _ => trivial
  refine Preserves.andThen (Preserves.raiseIf _ _) escapes fun _ => ?_
  refine Preserves.andThen (runtime_handed _ new) escapes fun _ => ?_
  refine Ensures.bind (synchronizeCurrent_handed allocator new) fun _ => ?_
  intro world handed
  apply (Leaves.bind_iff _ _ _).mpr
  apply (captureChunks_handed machine config allocator frame.lease frame.req first frame.length new
    world handed).mono
  · rintro segments second ⟨chunks, segmentsHanded⟩
    have fit := chunks_fit config paged first within aligned segments chunks
    apply (Leaves.bind_iff _ _ _).mpr
    apply (rowIndex_handed frame.req _ second segmentsHanded).mono
    · intro reqIdx third rowHanded
      apply (Leaves.bind_iff _ _ _).mpr
      apply (Leaves.get_iff _).mpr
      apply (Leaves.bind_iff _ _ _).mpr
      apply (newTensors_handed allocator config.geometry.keyState.zipIdx (fun entry => entry.1) _ _
        third rowHanded).mono
      · rintro pending fourth ⟨pendingFit, pendingHanded⟩
        have pendingBytes := fits_bytes pendingFit
        apply (Leaves.bind_iff _ _ _).mpr
        apply (newTensor_handed allocator config.geometry.rope _ _ fourth pendingHanded).mono
        · rintro rope fifth ⟨ropeFits, ropeHanded⟩
          apply (Leaves.bind_iff _ _ _).mpr
          apply (mambaSlot_handed frame.req _ fifth ropeHanded).mono
          · intro slot sixth slotHanded
            apply (Leaves.bind_iff _ _ _).mpr
            apply (captureMamba_handed machine config allocator slot _ sixth slotHanded).mono
            · rintro mamba last ⟨mambaFits, mambaResident, mambaHanded⟩
              cases imageKey identity frame.length with
              | error cause => exact trivial
              | ok key =>
                  refine ⟨segmentTensors segments ++ pending ++ [rope] ++ mambaTensors mamba,
                    ⟨rfl, ?_, ?_, ?_, ?_⟩, ?_⟩
                  · unfold PrefixSnapshot.tensors mambaTensors segmentTensors
                    simp only [List.flatMap_append, List.append_assoc]
                  · rw [tensorBytes_append, tensorBytes_append, tensorBytes_append,
                      tensorBytes_singleton, fit.2.1, pendingBytes.1, ropeFits.nbytes, mambaFits,
                      zipIdx_bytes config.geometry.keyState TensorKind.nbytes]
                    unfold copiedBytes
                    omega
                  · intro tensor member
                    rcases List.mem_append.mp member with earlier | recurrent
                    · rcases List.mem_append.mp earlier with early | position
                      · rcases List.mem_append.mp early with row | ring
                        · exact fit.2.2 tensor row
                        · exact pendingBytes.2 tensor ring
                      · rw [List.mem_singleton.mp position]
                        exact ropeFits.onHost
                    · exact mambaResident tensor recurrent
                  · intro tiled
                    exact (tiling_append tiled).trans fit.1
                  · unfold storagesOf at mambaHanded ⊢
                    simp only [List.map_append, List.append_assoc] at mambaHanded ⊢
                    exact mambaHanded
            · exact fun _ _ => id
          · exact fun _ _ _ => trivial
        · exact fun _ _ => id
      · exact fun _ _ => id
    · exact fun _ _ _ => trivial
  · exact fun _ _ => id

/-- The index pools hold rows of the kind a segment is allocated for, and the
transfer entries are the sibling tensors that are captured. -/
structure PrefixConfig.Uniform (config : PrefixConfig) : Prop where
  compressed : config.geometry.compressed =
    List.replicate config.runtime.layers config.geometry.indexRow
  siblings : config.geometry.transferBytes.sum =
    (config.geometry.siblings.map fun sibling => sibling.1.nbytes).sum

/-- The size that is reserved is the size of the copies and of the tokens. -/
theorem checkpointBytes_eq {config : PrefixConfig} (uniform : config.Uniform)
    (delta length : Nat) :
    config.checkpointBytes (delta : Int) length = ((copiedBytes config delta + length * 8 : Nat) : Int) := by
  have rows : (config.geometry.compressed.map TensorKind.nbytes).sum =
      config.runtime.layers * config.geometry.indexRow.nbytes := by
    rw [uniform.compressed, List.map_replicate, List.sum_replicate_nat]
  have quarter : (delta : Int) / 4 = ((delta / 4 : Nat) : Int) := by omega
  unfold PrefixConfig.checkpointBytes copiedBytes segmentBytes mambaBytes
  rw [rows, uniform.siblings, quarter]
  push_cast
  ring

end Copy

end PrefixCache
end QSAHiSparse

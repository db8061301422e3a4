import QSAHiSparse.PrefixCache.State

namespace QSAHiSparse
namespace PrefixCache

open Foundation
open Ledger (QSAHiSparseLease RowSlice stagingSlice)
open HostPrefix
open QSAHiSparse.Runtime (Machine acquireRequest device ledger)

/-!
# The copies of a capture and of a restore

A capture reads the staging lane, the compressed rows behind the page table, the
ring and the recurrent state of a slot into new host tensors.  A restore writes
them back for another request, on the pages that request was given.
-/

section Copies

variable {δ υ Element : Type} (machine : Machine δ) (config : PrefixConfig)
  (upstream : Upstream δ υ Element)

/-- Work on the device that may be refused. -/
def outside (site : Runtime.Site) : Method (World δ υ Element) PUnit :=
  runtimePart.zoom (device.zoom (machine.outside site))

/-- `req.kv.req_pool_idx` where an index is needed. -/
def rowIndex (req : Nat) : Method (World δ υ Element) Int := do
  let world <- get
  match (world.requests req).kv.reqPoolIdx with
  | none => throw (.typeError "unsupported operand type(s) for *: 'NoneType' and 'int'")
  | some reqIdx => return reqIdx

/-- `int(req.kv.mamba_pool_idx)`. -/
def mambaSlot (req : Nat) : Method (World δ υ Element) Int := do
  let world <- get
  match (world.requests req).kv.mambaPoolIdx with
  | none => throw (.typeError "int() argument must be a real number, not 'NoneType'")
  | some slot => return slot

/-- The wait for the stream of the caller. -/
def synchronizeCurrent : Method (World δ υ Element) PUnit := do
  let stream <- upstream.currentStream
  upstream.synchronizeStream stream

/-! ## Capture -/

/-- A new host tensor. -/
def newTensor (kind : TensorKind) (element : List Nat -> Element) :
    Method (World δ υ Element) (Tensor Element) := do
  let storage <- upstream.newStorage kind.nbytes
  return { onHost := true, storage, shape := kind.shape, element }

/-- Raw rows from a row of the pools on. -/
def Pools.rawRows (pools : Pools Element) (first : Int) : List Nat -> Element
  | li :: plane :: row :: rest => pools.full li plane (first + row) rest
  | _ => pools.full 0 0 first []

/-- The compressed row that the page table gives for a token. -/
def Pools.compressedRow (pools : Pools Element) (reqIdx token : Int) : Int :=
  pools.reqToToken reqIdx token / 4

/-- Compressed rows from a token on. -/
def Pools.indexRows (pools : Pools Element) (reqIdx offset : Int) : List Nat -> Element
  | li :: row :: rest => pools.compressed li (pools.compressedRow reqIdx (offset + 4 * row)) rest
  | _ => pools.compressed 0 0 []

/-- The four rows of a request. -/
def ringRows (pool : Int -> List Nat -> Element) (reqIdx : Int) : List Nat -> Element
  | row :: rest => pool (reqIdx * 4 + row) rest
  | [] => pool (reqIdx * 4) []

/-- `_capture_slot_tensor(layered=True)`. -/
def layeredSlot (pool : Nat -> Int -> List Nat -> Element) (slot : Int) : List Nat -> Element
  | li :: _ :: rest => pool li slot rest
  | _ => pool 0 slot []

/-- `_capture_slot_tensor(layered=False)`. -/
def plainSlot (pool : Nat -> Int -> List Nat -> Element) (slot : Int) : List Nat -> Element
  | _ :: rest => pool 0 slot rest
  | [] => pool 0 slot []

/-- `_capture_slot_tensor`. -/
def slotRows (layered : Bool) : (Nat -> Int -> List Nat -> Element) -> Int -> List Nat -> Element :=
  if layered then layeredSlot else plainSlot

/-- The turn of one chunk. -/
def captureChunk (lease : QSAHiSparseLease) (req : Nat) (offset stop : Nat) :
    Method (World δ υ Element) (PrefixSegment Element) := do
  let rawKind : TensorKind := ⟨[config.runtime.layers, 2, stop - offset, 1, 256], 1⟩
  let indexKind : TensorKind :=
    ⟨[config.runtime.layers, (stop - offset) / 4] ++ config.geometry.indexRow.shape,
      config.geometry.indexRow.itemBytes⟩
  let physical <- runtimePart.zoom (ledger.zoom (stagingSlice lease offset stop))
  let reqIdx <- rowIndex req
  outside machine .captureCopy
  let world <- get
  let raw <- newTensor upstream rawKind (world.pools.rawRows physical.start)
  let index <- newTensor upstream indexKind (world.pools.indexRows reqIdx offset)
  return { start := offset, stop, raw, index }

/-- `range(start, length, 4096)`. -/
def captureOffsets (start length : Nat) : List Nat :=
  (List.range ((length - start + 4095) / 4096)).map fun index => start + 4096 * index

/-- `_capture_mamba`. -/
def captureMamba (slot : Int) : Method (World δ υ Element) (MambaCapture Element) := do
  outside machine .captureCopy
  let world <- get
  let conv <- config.geometry.conv.zipIdx.mapM fun entry =>
    newTensor upstream entry.1 (layeredSlot (world.pools.conv entry.2) slot)
  let temporal <- newTensor upstream config.geometry.temporal
    (layeredSlot world.pools.temporal slot)
  let siblings <- config.geometry.siblings.zipIdx.mapM fun entry =>
    newTensor upstream entry.1.1 (slotRows entry.1.2 (world.pools.siblings entry.2) slot)
  return { conv, temporal, siblings }

/-- `capture_prefix` from the reservation on: the segments after the shared ones,
the ring and the recurrent state. -/
def copyCheckpoint (frame : CaptureFrame Element) (identity : Option ImagePrefixIdentity)
    (start : Nat) (shared : List (PrefixSegment Element)) :
    Method (World δ υ Element) (PrefixSnapshot PrefixNamespace Element) := do
  raiseIf (config.runtime.producerStream = false)
    (.runtimeError "QSA prefix capture has no registered model producer")
  outside machine .captureProducer
  synchronizeCurrent upstream
  let segments <- (captureOffsets start frame.length).mapM fun offset =>
    captureChunk machine config upstream frame.lease frame.req offset
      (min (offset + 4096) frame.length)
  let reqIdx <- rowIndex frame.req
  let world <- get
  let pending <- config.geometry.keyState.zipIdx.mapM fun entry =>
    newTensor upstream entry.1 (ringRows (world.pools.keyState entry.2) reqIdx)
  let rope <- newTensor upstream config.geometry.rope (ringRows world.pools.rope reqIdx)
  let slot <- mambaSlot frame.req
  let mamba <- captureMamba machine config upstream slot
  match imageKey identity frame.length with
  | .error cause => throw cause
  | .ok imageKey =>
      return {
        namespaceKey := frame.namespaceKey
        tokens := frame.tokens
        segments := shared ++ segments
        pending
        rope
        mamba
        imageKey }

/-! ## Restore -/

/-- The shapes that `validate_prefix_checkpoint` compares. -/
def validatePrefixCheckpoint (snapshot : PrefixSnapshot PrefixNamespace Element) :
    Method (World δ υ Element) PUnit := do
  forM snapshot.segments fun segment => do
    raiseIf (segment.raw.shape ≠
        [config.runtime.layers, 2, (segment.stop - segment.start).toNat, 1, 256])
      (.valueError "QSA prefix raw geometry differs")
    raiseIf (segment.index.shape ≠
        [config.runtime.layers, (segment.stop - segment.start).toNat / 4] ++
          config.geometry.indexRow.shape)
      (.valueError "QSA prefix compressed geometry differs")
  raiseIf (snapshot.pending.length ≠ config.geometry.keyState.length)
    (.valueError "QSA prefix checkpoint has missing pending layers")
  raiseIf (snapshot.pending.map Tensor.shape ≠ config.geometry.keyState.map TensorKind.shape ∨
      snapshot.rope.shape ≠ config.geometry.rope.shape)
    (.valueError "QSA prefix checkpoint pending/position geometry differs")
  raiseIf (snapshot.mamba.siblings = [] ∧ config.geometry.siblings ≠ [] ∨
      snapshot.mamba.siblings ≠ [] ∧ config.geometry.siblings = [])
    (.valueError "QSA prefix checkpoint has missing recurrent siblings")
  raiseIf (snapshot.mamba.conv.map Tensor.shape ≠ config.geometry.conv.map TensorKind.shape ∨
      snapshot.mamba.temporal.shape ≠ config.geometry.temporal.shape)
    (.valueError "QSA prefix recurrent geometry differs")
  raiseIf (snapshot.mamba.siblings.length ≠ config.geometry.siblings.length)
    (.valueError "QSA prefix checkpoint has missing PLE siblings")
  raiseIf (snapshot.mamba.siblings.map Tensor.shape ≠
      config.geometry.siblings.map fun sibling => sibling.1.shape)
    (.valueError "QSA prefix PLE geometry differs")

/-- Write rows of a pool in order. -/
def scatter (pool : Int -> List Nat -> Element) (rows : List (Int × (List Nat -> Element))) :
    Int -> List Nat -> Element :=
  rows.foldl (fun current row => Function.update current row.1 row.2) pool

/-- The raw rows of a segment go to a slice of the staging lane. -/
def Pools.writeRaw (pools : Pools Element) (layers : Nat) (physical : RowSlice)
    (segment : PrefixSegment Element) : Pools Element :=
  { pools with
    full := fun li plane row rest =>
      if li < layers ∧ plane < 2 ∧ (physical.start : Int) ≤ row ∧ row < physical.stop then
        segment.raw.element (li :: plane :: (row - physical.start).toNat :: rest)
      else
        pools.full li plane row rest }

/-- The index rows of a segment go to the rows the page table gives. -/
def Pools.writeIndex (pools : Pools Element) (layers : Nat) (reqIdx : Int)
    (segment : PrefixSegment Element) : Pools Element :=
  { pools with
    compressed := fun li =>
      if li < layers then
        scatter (pools.compressed li)
          ((List.range ((segment.stop - segment.start).toNat / 4)).map fun (row : Nat) =>
            (pools.compressedRow reqIdx (segment.start + 4 * row),
              fun rest => segment.index.element (li :: row :: rest)))
      else
        pools.compressed li }

/-- The rows of a ring. -/
def writeRing (pool : Int -> List Nat -> Element) (reqIdx : Int) (tensor : Tensor Element) :
    Int -> List Nat -> Element :=
  scatter pool ((List.range 4).map fun (row : Nat) =>
    (reqIdx * 4 + row, fun rest => tensor.element (row :: rest)))

/-- Pools that are written from a list of tensors, in order. -/
def writeEach {Pool : Type} (pools : Nat -> Pool) (tensors : List (Tensor Element))
    (write : Nat -> Pool -> Tensor Element -> Pool) : Nat -> Pool :=
  fun place =>
    match tensors[place]? with
    | none => pools place
    | some tensor => write place (pools place) tensor

/-- The pending keys and the positions. -/
def Pools.writePending (pools : Pools Element) (reqIdx : Int)
    (snapshot : PrefixSnapshot PrefixNamespace Element) : Pools Element :=
  { pools with
    keyState := writeEach pools.keyState snapshot.pending fun _ pool => writeRing pool reqIdx
    rope := writeRing pools.rope reqIdx snapshot.rope }

/-- `_restore_slot_tensor(layered=True)`. -/
def writeLayered (pool : Nat -> Int -> List Nat -> Element) (slot : Int)
    (tensor : Tensor Element) : Nat -> Int -> List Nat -> Element :=
  fun li => Function.update (pool li) slot fun rest => tensor.element (li :: 0 :: rest)

/-- `_restore_slot_tensor(layered=False)`. -/
def writePlain (pool : Nat -> Int -> List Nat -> Element) (slot : Int) (tensor : Tensor Element) :
    Nat -> Int -> List Nat -> Element :=
  Function.update pool 0 (Function.update (pool 0) slot fun rest => tensor.element (0 :: rest))

/-- `_restore_slot_tensor`. -/
def writeSlot (layered : Bool) :
    (Nat -> Int -> List Nat -> Element) -> Int -> Tensor Element -> Nat -> Int -> List Nat ->
      Element :=
  if layered then writeLayered else writePlain

/-- `_restore_mamba`. -/
def Pools.writeMamba (pools : Pools Element) (geometry : PoolGeometry) (slot : Int)
    (mamba : MambaCapture Element) : Pools Element :=
  { pools with
    conv := writeEach pools.conv mamba.conv fun _ pool => writeLayered pool slot
    temporal := writeLayered pools.temporal slot mamba.temporal
    siblings := writeEach pools.siblings mamba.siblings fun place pool =>
      writeSlot ((geometry.siblings.map Prod.snd).getD place false) pool slot }

/-- The comparison of the restored bytes. -/
def checkRestored (site : Runtime.Site) (message : String) : Method (World δ υ Element) PUnit :=
  if config.runtime.strict = true then do
    let same <- runtimePart.zoom (device.zoom (machine.ask site))
    raiseIf (same = false) (.assertionError message)
  else
    pure ⟨⟩

def writePools (update : Pools Element -> Pools Element) : Method (World δ υ Element) PUnit :=
  modify fun world => { world with pools := update world.pools }

def restoreSegment (lease : QSAHiSparseLease) (reqIdx : Int) (segment : PrefixSegment Element) :
    Method (World δ υ Element) PUnit := do
  let physical <- runtimePart.zoom (ledger.zoom (stagingSlice lease segment.start segment.stop))
  outside machine .restoreCopy
  writePools fun pools =>
    (pools.writeRaw config.runtime.layers physical segment).writeIndex config.runtime.layers
      reqIdx segment
  checkRestored machine config .restoreBytes "QSA restored prefix bytes/index differ"

/-- `restore_prefix`. -/
def restorePrefix (req : Nat) (snapshot : PrefixSnapshot PrefixNamespace Element) :
    Method (World δ υ Element) PUnit := do
  let world <- get
  let request := world.requests req
  raiseIf (request.kv.reqPoolIdx.any world.runtime.requests.contains = true)
    (.runtimeError "QSA prefix restore cannot mutate an existing lease")
  validatePrefixCheckpoint config snapshot
  let reqIdx <- rowIndex req
  runtimePart.zoom (acquireRequest machine config.runtime reqIdx request.rid)
  let world <- get
  let lease <- getItem world.runtime.requests reqIdx
  forM snapshot.segments (restoreSegment machine config lease reqIdx)
  outside machine .restoreCopy
  writePools fun pools => pools.writePending reqIdx snapshot
  let slot <- mambaSlot req
  outside machine .restoreCopy
  writePools fun pools => pools.writeMamba config.geometry slot snapshot.mamba
  synchronizeCurrent upstream
  checkRestored machine config .restoreState "QSA restored recurrent/pending state differs"
  modify fun world =>
    { world with
      runtime := world.runtime.withCache lease fun cache => { cache with seqLen := snapshot.length } }
  outside machine .eventLog

end Copies

end PrefixCache
end QSAHiSparse

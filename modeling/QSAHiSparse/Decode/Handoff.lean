import QSAHiSparse.Decode.EagerEffects

namespace QSAHiSparse
namespace Decode

open Foundation
open Ledger

/-!
# Handoff and decode forwards

`_handoff` packs the staged rows of a prompt into host records chunk by chunk,
keeps the open tail in the ring and stages a short prefix in the hot rows.  A
decode forward then writes one row of every layer at the ring write location
and closes a block when it is complete.  Every handoff copy is synchronized
before its source is used again, so here a copy is done when it is issued.
-/

/-- `pack_c4(k[segment], v[segment])`. -/
def packC4 (k v : Memory UInt8) (segment : RowSlice) : Except PyError (Memory UInt8) :=
  if (segment.stop - segment.start) * 256 % 1024 ≠ 0 then
    .error (.valueError "complete C4 K/V rows required")
  else
    .ok fun address =>
      recordByte k v (segment.start * 256 + address / 2048 * 1024) (address % 2048)

/-- `range(0, stop, 4096)`. -/
def chunkOffsets (stop : Nat) : List Nat :=
  (List.range ((stop + 4095) / 4096)).map fun index => index * 4096

section Handoff

variable (adapter : Adapter) (lease : QSAHiSparseLease) (li : Nat)

/-- One bounded copy of packed records to the host. -/
def copyChunk (stop : Nat) (buffers : DecodeBuffers) (offset : Nat) :
    Except PyError DecodeBuffers := do
  let last := min (offset + 4096) stop
  let segment <- adapter.ask (stagingSlice lease offset last)
  let packed <- packC4 (buffers.kBuffer li) (buffers.vBuffer li) segment
  pure { buffers with
    hostSlabs := blit buffers.hostSlabs
      ((hostView adapter.geometry lease.slot li).base + (offset / 4 : Nat) * 2048) packed 0
      ((last / 4 - offset / 4 : Nat) * 2048) }

/-- The open tail moves from staging to the ring. -/
def copyStagedTail (promptLen tail : Nat) (buffers : DecodeBuffers) :
    Except PyError DecodeBuffers :=
  if tail ≠ 0 then do
    let segment <- adapter.ask (stagingSlice lease (promptLen - tail : Nat) promptLen)
    let ring <- (ringView adapter.geometry lease.slot).row 1
    pure { buffers with
      kBuffer := Function.update buffers.kBuffer li
        (blit (buffers.kBuffer li) ring (buffers.kBuffer li) (segment.start * 256) (tail * 256))
      vBuffer := Function.update buffers.vBuffer li
        (blit (buffers.vBuffer li) ring (buffers.vBuffer li) (segment.start * 256) (tail * 256)) }
  else
    pure buffers

/-- `make_state`: the slot's part of the next layer state is reset. -/
def makeState (states : List Int) (buffers : DecodeBuffers) : Except PyError DecodeBuffers := do
  adapter.ask (require lease [.copying])
  adapter.ask (require lease [])
  if states.length < 12 then
    pure { buffers with
      hot := Function.update buffers.hot states.length
        (blit (buffers.hot states.length) (hotView lease.slot).base (fun _ => 0) 0 (2112 * 2048))
      tokens := Function.update buffers.tokens states.length
        (blit (buffers.tokens states.length) (tokensView lease.slot).base (fun _ => -1) 0 2112)
      lru := Function.update buffers.lru states.length
        (blit (buffers.lru states.length) (lease.slot * 2048) (fun index => index) 0 2048) }
  else
    .error (.indexError "list index out of range")

/-- `stage_short_prefix(hot, tokens, state.host[li, :blocks])`. -/
def stageShortPrefix (layer blocks : Nat) (buffers : DecodeBuffers) : DecodeBuffers :=
  if blocks ≤ 2048 then
    { buffers with
      hot := Function.update buffers.hot layer
        (blit (buffers.hot layer) (hotView lease.slot).base buffers.hostSlabs
          (hostView adapter.geometry lease.slot li).base (blocks * 2048))
      tokens := Function.update buffers.tokens layer
        (blit (buffers.tokens layer) (tokensView lease.slot).base (fun index => index) 0 blocks) }
  else
    buffers

/-- The newest hot row gets the last complete block. -/
def stageNewest (layer blocks : Nat) (buffers : DecodeBuffers) : Except PyError DecodeBuffers :=
  if blocks ≠ 0 then do
    let newest <- (hotView lease.slot).row 2048
    let record <- (hostView adapter.geometry lease.slot li).row (blocks - 1 : Nat)
    setToken layer lease.slot 2048 (blocks - 1 : Nat)
      { buffers with
        hot := Function.update buffers.hot layer
          (blit (buffers.hot layer) newest buffers.hostSlabs record 2048) }
  else
    pure buffers

/-- The body of the layer loop; the layer state's hot rows and tokens are those
of the layer that `make_state` counts. -/
def handoffLayer (promptLen : Nat) (entry : List Int × DecodeBuffers) (li : Nat) :
    Except PyError (List Int × DecodeBuffers) := do
  let blocks := promptLen / 4
  let buffers <- (chunkOffsets (blocks * 4)).foldlM (copyChunk adapter lease li (blocks * 4))
    entry.2
  let buffers <- copyStagedTail adapter lease li promptLen (promptLen % 4) buffers
  let buffers <- makeState adapter lease entry.1 buffers
  let buffers <- stageNewest adapter lease li entry.1.length blocks
    (stageShortPrefix adapter lease li entry.1.length blocks buffers)
  pure (entry.1 ++ [lease.generation], buffers)

/-- A ledger method that moves the lease on. -/
def Adapter.advance (method : Method QSAHiSparseSlots PUnit) : Except PyError Adapter :=
  match method.run adapter.slots with
  | .ok _ after => .ok { adapter with slots := after }
  | .error cause _ => .error cause

end Handoff

/-- `_handoff` of a request in offload mode, whose completion event was
synchronized. -/
def Adapter.handoff (adapter : Adapter) (state : RequestCache) (buffers : DecodeBuffers) :
    Except PyError (Adapter × RequestCache × DecodeBuffers) := do
  let copying <- adapter.advance (beginHandoff state.lease)
  let (states, buffers) <- (List.range 12).foldlM
    (handoffLayer copying state.lease state.seqLen.toNat) (state.states, buffers)
  let staged <- copying.advance (finishHandoff Field.whole state.lease (some (pure true)))
  pure (staged, { state with states, offloaded := true }, buffers)

/-! ## Decode forwards -/

/-- The K and V rows of a new token, for each layer. -/
structure TokenRows where
  k : Nat -> Memory UInt8
  v : Nat -> Memory UInt8

/-- The cache write of one layer at the raw write location. -/
def storeCache (location li : Nat) (token : TokenRows) (buffers : DecodeBuffers) : DecodeBuffers :=
  { buffers with
    kBuffer := Function.update buffers.kBuffer li
      (blit (buffers.kBuffer li) (location * 256) (token.k li) 0 256)
    vBuffer := Function.update buffers.vBuffer li
      (blit (buffers.vBuffer li) (location * 256) (token.v li) 0 256) }

/-- A decode forward of one request: its length advances, and each layer
stores its row and runs `after_store`. -/
def Adapter.forward (adapter : Adapter) (entry : RequestCache × DecodeBuffers)
    (token : TokenRows) : Except PyError (RequestCache × DecodeBuffers) := do
  let state := { entry.1 with seqLen := entry.1.seqLen + 1 }
  let location <- adapter.ask (ringWriteLocation state.lease state.seqLen)
  let batch : Adapter := { adapter with offloaded := true, batchRequests := [state] }
  let buffers <- (List.range 12).foldlM
    (fun buffers li => batch.afterStore li (storeCache location li token buffers)) entry.2
  pure (state, buffers)

/-- A handoff, the admission to decode, and one forward for each new token. -/
def Adapter.offload (adapter : Adapter) (state : RequestCache) (tokens : List TokenRows)
    (buffers : DecodeBuffers) : Except PyError (Adapter × RequestCache × DecodeBuffers) := do
  let (staged, state, buffers) <- adapter.handoff state buffers
  let decoding <- staged.advance (admitDecode state.lease)
  let (state, buffers) <- tokens.foldlM decoding.forward (state, buffers)
  pure (decoding, state, buffers)

end Decode
end QSAHiSparse

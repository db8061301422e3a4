import QSAHiSparse.Decode.Offloads
import QSAHiSparse.Decode.ShortPrefix

namespace QSAHiSparse
namespace Decode

open Foundation
open Ledger

/-!
# Runs of a short prefix

A layer of a sequence is handed off, and then closes its blocks by the eager
`after_store` or by the graph kernel, in any order.  Other requests, other
layers and the selection work between the closes.  As long as at most 2048
blocks are complete the resident prefix is kept.
-/

/-! ## A launch of the closing kernel -/

/-- A launch of `close_c4` on a batch; its stores land in any order. -/
structure GraphClose (batch : DecodeBatch) (routing : Routing) (count li : Nat)
    (before after : DecodeBuffers) : Prop where
  covered : batch.batchRequests.length ≤ count
  hot : Lands (before.hot li) (after.hot li)
    (closeC4Grid (before.kBuffer li) (before.vBuffer li) (routing.prepared batch.batchRequests)
      (ringBase batch.geometry) count).hot
  tokens : Lands (before.tokens li) (after.tokens li)
    (closeC4Grid (before.kBuffer li) (before.vBuffer li) (routing.prepared batch.batchRequests)
      (ringBase batch.geometry) count).tokens
  kBuffer : after.kBuffer = before.kBuffer
  vBuffer : after.vBuffer = before.vBuffer
  host : after.hostSlabs = before.hostSlabs

section Regions

variable {α : Type} {requests : List RequestCache} {stores : Nat -> List (Store α)}
  {turn : Memory α -> RequestCache × Nat -> Memory α} {region : RequestCache -> Int -> Prop}

/-- In the region of a request only its own turn counts. -/
theorem Serves.turn_at (serves : Serves requests stores turn region) (memory : Memory α)
    {entry : RequestCache × Nat} (member : entry ∈ requests.zipIdx) {address : Int}
    (inside : region entry.1 address) :
    requests.zipIdx.foldl turn memory address = turn memory entry address := by
  have whole := serves.explains (Nat.le_refl _) memory
  have own := serves.explained entry member memory
  have found : requests[entry.2]? = some entry.1 := List.mem_zipIdx_iff_getElem?.mp member
  rcases List.getElem?_eq_some_iff.mp found with ⟨listed, here⟩
  by_cases stored : exists store, store ∈ stores entry.2 ∧ store.address = address
  · rcases stored with ⟨store, issued, same⟩
    rw [← same, own.written store issued]
    exact whole.written store (List.mem_flatMap.mpr ⟨entry.2, List.mem_range.mpr listed, issued⟩)
  · rw [own.kept address fun store issued same => stored ⟨store, issued, same⟩]
    apply whole.kept
    intro store issued same
    rcases List.mem_flatMap.mp issued with ⟨row, in_range, in_row⟩
    have real := List.mem_range.mp in_range
    have other := serves.confined (requests[row], row)
      (List.mem_zipIdx_iff_getElem?.mpr (List.getElem?_eq_getElem real)) store in_row
    rw [same] at other
    rw [← here] at inside
    have apart := List.pairwise_iff_getElem.mp serves.apart
    rcases Nat.lt_trichotomy row entry.2 with before | equal | after
    · exact apart row entry.2 real listed before address other inside
    · rw [equal] at in_row
      exact stored ⟨store, in_row, same⟩
    · exact apart entry.2 row listed real after address inside other

end Regions

section Launch

variable {batch : DecodeBatch} {routing : Routing} {count li : Nat}
  {before after : DecodeBuffers} {request : RequestCache}

/-- A launch leaves in the slot of a request what the eager close leaves. -/
theorem GraphClose.at_request (closed : GraphClose batch routing count li before after)
    (listed : request ∈ batch.batchRequests) :
    (forall address, (hotView request.slot).Covers address ->
      after.hot li address = hotTurn (before.kBuffer li) (before.vBuffer li)
        (ringBase batch.geometry) (before.hot li) request address) ∧
    forall address, (tokensView request.slot).Covers address ->
      after.tokens li address = tokensTurn (before.tokens li) request address := by
  have hotServes := closeC4_serves_hot batch routing (before.kBuffer li) (before.vBuffer li)
  have tokensServes := closeC4_serves_tokens batch routing (before.kBuffer li) (before.vBuffer li)
  rcases List.mem_iff_getElem?.mp listed with ⟨row, found⟩
  have member : (request, row) ∈ batch.batchRequests.zipIdx :=
    List.mem_zipIdx_iff_getElem?.mpr found
  constructor
  · intro address inside
    rw [(hotServes.explains closed.covered (before.hot li)).lands_iff.mp closed.hot]
    exact hotServes.turn_at (before.hot li) member inside
  · intro address inside
    rw [(tokensServes.explains closed.covered (before.tokens li)).lands_iff.mp closed.tokens]
    exact tokensServes.turn_at (before.tokens li) member inside

end Launch

/-! ## Runs -/

section Runs

variable (geometry : Geometry) (slot li : Nat) (content : RawTokens)

/-- A handoff of a staged prompt that returned. -/
structure HandsOff (adapter : Adapter) (state : RequestCache) (before : DecodeBuffers)
    (result : Adapter × RequestCache × DecodeBuffers) : Prop where
  geometry : adapter.geometry = geometry
  slot : state.slot = slot
  permits : adapter.slots.Permits state.lease [.prefill]
  owner : adapter.slots.prefillOwner = some state.lease
  fresh : state.states = []
  nonneg : 0 ≤ state.seqLen
  fits : state.seqLen ≤ adapter.geometry.stagingTokens
  staged : forall li, li < 12 -> Staged adapter.geometry content li state.seqLen before
  returned : adapter.handoff state before = .ok result

/-- Work elsewhere: the ring and the host records of the slot are as they were,
and so are its tables while the prefix is short. -/
structure Undisturbed (length : Int) (before after : DecodeBuffers) : Prop where
  ring : forall address, (ringView geometry slot).Covers address ->
    after.kBuffer li address = before.kBuffer li address ∧
      after.vBuffer li address = before.vBuffer li address
  host : forall address, (hostView geometry slot li).Covers address ->
    after.hostSlabs address = before.hostSlabs address
  hot : length / 4 ≤ 2048 -> forall address, (hotView slot).Covers address ->
    after.hot li address = before.hot li address
  tokens : length / 4 ≤ 2048 -> forall address, (tokensView slot).Covers address ->
    after.tokens li address = before.tokens li address

/-- Runs of one layer of a sequence: its length, the blocks that are written back
to the host, and the buffers. -/
inductive PrefixRun : Int -> (Int -> Prop) -> DecodeBuffers -> Prop
  | handedOff {adapter : Adapter} {state : RequestCache} {before : DecodeBuffers}
      {result : Adapter × RequestCache × DecodeBuffers}
      (handsOff : HandsOff geometry slot content adapter state before result) :
      PrefixRun state.seqLen (fun block => 0 ≤ block ∧ block < state.seqLen / 4) result.2.2
  | eager {length : Int} {written : Int -> Prop} {before after : DecodeBuffers}
      {request : RequestCache} {token : TokenRows} (earlier : PrefixRun length written before)
      (carries : token.Carries content length) (decoding : request.Decoding geometry)
      (at_slot : request.slot = slot) (grown : request.seqLen = length + 1)
      (stored : request.afterStore geometry li
        (storeCache (writeRow geometry slot length) li token before) = .ok after) :
      PrefixRun (length + 1)
        (fun block => written block ∨ ((length + 1) % 4 = 0 ∧ block = (length + 1) / 4 - 1)) after
  | graph {length : Int} {written : Int -> Prop} {before after : DecodeBuffers}
      {batch : DecodeBatch} {routing : Routing} {count : Nat} {request : RequestCache}
      {token : TokenRows} (earlier : PrefixRun length written before)
      (carries : token.Carries content length) (listed : request ∈ batch.batchRequests)
      (same_geometry : batch.geometry = geometry) (at_slot : request.slot = slot)
      (grown : request.seqLen = length + 1)
      (closed : GraphClose batch routing count li
        (storeCache (writeRow geometry slot length) li token before) after) :
      PrefixRun (length + 1) written after
  | writeBack {length : Int} {written : Int -> Prop} {before after : DecodeBuffers}
      (earlier : PrefixRun length written before) (some : 0 < length / 4)
      (copied : writeBack geometry li slot (length / 4 - 1) before = .ok after) :
      PrefixRun length (fun block => written block ∨ block = length / 4 - 1) after
  | elsewhere {length : Int} {written : Int -> Prop} {before after : DecodeBuffers}
      (earlier : PrefixRun length written before)
      (undisturbed : Undisturbed geometry slot li length before after) :
      PrefixRun length written after

/-- The host records of the blocks that are written back. -/
def HostWritten (written : Int -> Prop) (length : Int) (buffers : DecodeBuffers) : Prop :=
  forall block : Int, written block -> 0 ≤ block ∧ block < length / 4 ∧
    forall byte : Int, 0 ≤ byte -> byte < 2048 ->
      buffers.hostSlabs ((hostView geometry slot li).base + block * 2048 + byte) =
        content.record li block byte

/-- What a run keeps. -/
structure PrefixKept (length : Int) (written : Int -> Prop) (buffers : DecodeBuffers) : Prop where
  nonneg : 0 ≤ length
  fits : length ≤ geometry.stagingTokens
  ring : RingTokens geometry slot content li length buffers
  short : length / 4 ≤ 2048 -> Resident slot content li length buffers ∧
    HostWritten geometry slot li content written length buffers

end Runs

/-! ## One close -/

section Close

variable {geometry : Geometry} {slot li : Nat} {content : RawTokens}

/-- The ring after the write of a closing token is the record of its block. -/
theorem storeCache_record {token : TokenRows} {length : Int} (nonneg : 0 ≤ length)
    (carries : token.Carries content length) (closes : (length + 1) % 4 = 0)
    {before : DecodeBuffers} (ring : RingTokens geometry slot content li length before)
    {byte : Int} (lower : 0 ≤ byte) (upper : byte < 2048) :
    recordByte ((storeCache (writeRow geometry slot length) li token before).kBuffer li)
        ((storeCache (writeRow geometry slot length) li token before).vBuffer li)
        ((ringBase geometry + slot * 5 + 1) * 256) byte =
      content.record li ((length + 1) / 4 - 1) byte := by
  apply recordByte_of_rows
  · intro member dim first last small large
    have rows := storeCache_ring nonneg carries (writeRow_eq geometry slot length) ring first
      (by omega) small large
    have token_index : length / 4 * 4 + member = 4 * ((length + 1) / 4 - 1) + member := by omega
    have address : (ringBase geometry + slot * 5 + 1) * 256 + member * 256 + dim =
        (ringBase geometry + slot * 5 + 1 + member) * 256 + dim := by omega
    rw [token_index] at rows
    rw [address]
    exact rows
  · exact lower
  · exact upper

/-- The ring after a write and a close. -/
theorem storeCache_ringTokens {token : TokenRows} {length : Int} (nonneg : 0 ≤ length)
    (carries : token.Carries content length) {before : DecodeBuffers}
    (ring : RingTokens geometry slot content li length before) :
    RingTokens geometry slot content li (length + 1)
      (storeCache (writeRow geometry slot length) li token before) := by
  intro member dim first pending lower upper
  have blocks : (length + 1) / 4 = length / 4 := by omega
  rw [blocks]
  exact storeCache_ring nonneg carries (writeRow_eq geometry slot length) ring first (by omega)
    lower upper

/-- A close extends the resident prefix by its block. -/
theorem Resident.turn {length : Int} (nonneg : 0 ≤ length) {k v : Memory UInt8}
    {before after : DecodeBuffers} {request : RequestCache}
    (resident : Resident slot content li length before) (at_slot : request.slot = slot)
    (grown : request.seqLen = length + 1) (short : (length + 1) / 4 ≤ 2048)
    (record : (length + 1) % 4 = 0 -> forall byte : Int, 0 ≤ byte -> byte < 2048 ->
      recordByte k v ((ringBase geometry + slot * 5 + 1) * 256) byte =
        content.record li ((length + 1) / 4 - 1) byte)
    (hot : forall address, (hotView slot).Covers address -> after.hot li address =
      hotTurn k v (ringBase geometry) (before.hot li) request address)
    (tokens : forall address, (tokensView slot).Covers address -> after.tokens li address =
      tokensTurn (before.tokens li) request address) :
    Resident slot content li (length + 1) after := by
  have hot_at {block byte : Int} (first : 0 ≤ block) (last : block < 2112) (lower : 0 ≤ byte)
      (upper : byte < 2048) := hot ((slot * 2112 + block) * 2048 + byte)
    ⟨by simp only [hotView]; omega, by simp only [hotView]; omega⟩
  have tokens_at {block : Int} (first : 0 ≤ block) (last : block < 2112) :=
    tokens (slot * 2112 + block)
      ⟨by simp only [tokensView]; omega, by simp only [tokensView]; omega⟩
  unfold hotTurn at hot_at
  unfold tokensTurn at tokens_at
  rw [grown, at_slot] at hot_at tokens_at
  by_cases closes : (length + 1) % 4 = 0
  · rw [if_neg (not_not.mpr closes)] at hot_at tokens_at
    have written := record closes
    simp only [closedHot] at hot_at
    simp only [closedTokens] at tokens_at
    constructor
    · intro block lower upper
      rw [tokens_at lower (by omega)]
      by_cases newest : block = (length + 1) / 4 - 1
      · rw [if_pos (Or.inr ⟨by omega, by omega⟩)]
        exact newest.symm
      · rw [if_neg (by omega)]
        exact resident.named block lower (by omega)
    · intro block byte lower upper first last
      rw [hot_at lower (by omega) first last, if_neg (by omega)]
      by_cases newest : block = (length + 1) / 4 - 1
      · rw [if_pos ⟨by omega, by omega, by omega⟩, newest, add_sub_cancel_left]
        exact written byte first last
      · rw [if_neg (by omega)]
        exact resident.held block byte lower (by omega) first last
    · intro _
      rw [tokens_at (by decide) (by decide), if_pos (Or.inl rfl)]
    · intro _ byte first last
      rw [hot_at (by decide) (by decide) first last, if_pos (by omega), add_sub_cancel_left]
      exact written byte first last
  · rw [if_pos closes] at hot_at tokens_at
    have blocks : (length + 1) / 4 = length / 4 := by omega
    constructor
    · intro block lower upper
      rw [tokens_at lower (by omega)]
      exact resident.named block lower (by omega)
    · intro block byte lower upper first last
      rw [hot_at lower (by omega) first last]
      exact resident.held block byte lower (by omega) first last
    · intro some
      rw [tokens_at (by decide) (by decide), blocks]
      exact resident.newestNamed (by omega)
    · intro some byte first last
      rw [hot_at (by decide) (by decide) first last, blocks]
      exact resident.newestHeld (by omega) byte first last

/-- What the eager close leaves of its own layer's raw rows and tables. -/
structure Turned (geometry : Geometry) (li : Nat) (request : RequestCache)
    (before after : DecodeBuffers) : Prop where
  kBuffer : after.kBuffer = before.kBuffer
  vBuffer : after.vBuffer = before.vBuffer
  hot : after.hot li = hotTurn (before.kBuffer li) (before.vBuffer li) (ringBase geometry)
    (before.hot li) request
  tokens : after.tokens li = tokensTurn (before.tokens li) request

theorem storedBuffers_turn (geometry : Geometry) (li : Nat) (request : RequestCache)
    (buffers : DecodeBuffers) :
    Turned geometry li request buffers (storedBuffers geometry li request buffers) := by
  unfold storedBuffers
  by_cases closes : request.seqLen % 4 ≠ 0
  · rw [if_pos closes]
    exact ⟨rfl, rfl, (if_pos closes).symm, (if_pos closes).symm⟩
  · rw [if_neg closes]
    refine ⟨rfl, rfl, ?_, ?_⟩
    · unfold hotTurn
      rw [if_neg closes]
      exact Function.update_self _ _ _
    · unfold tokensTurn
      rw [if_neg closes]
      exact Function.update_self _ _ _

/-- A close by the eager path. -/
theorem PrefixKept.eager {length : Int} {written : Int -> Prop} {before after : DecodeBuffers}
    {request : RequestCache} {token : TokenRows}
    (kept : PrefixKept geometry slot li content length written before)
    (carries : token.Carries content length) (decoding : request.Decoding geometry)
    (at_slot : request.slot = slot) (grown : request.seqLen = length + 1)
    (stored : request.afterStore geometry li
      (storeCache (writeRow geometry slot length) li token before) = .ok after) :
    PrefixKept geometry slot li content (length + 1)
      (fun block => written block ∨ ((length + 1) % 4 = 0 ∧ block = (length + 1) / 4 - 1))
      after := by
  have same := afterStore_ok decoding stored
  have ring := storeCache_ringTokens kept.nonneg carries kept.ring
  have record := fun closes byte (lower : 0 ≤ byte) upper =>
    storeCache_record kept.nonneg carries closes kept.ring lower upper
  have nonneg := kept.nonneg
  have host : (storeCache (writeRow geometry slot length) li token before).hostSlabs =
      before.hostSlabs := rfl
  have resident : length / 4 ≤ 2048 -> Resident slot content li length
      (storeCache (writeRow geometry slot length) li token before) :=
    fun short => ⟨(kept.short short).1.named, (kept.short short).1.held,
      (kept.short short).1.newestNamed, (kept.short short).1.newestHeld⟩
  generalize storeCache (writeRow geometry slot length) li token before = cached at *
  have turned : Turned geometry li request cached after := by
    rw [same]
    exact storedBuffers_turn geometry li request cached
  have fits := decoding.length_most
  refine ⟨by omega, by omega, ?_, fun short => ?_⟩
  · unfold RingTokens
    rw [turned.kBuffer, turned.vBuffer]
    exact ring
  · have before_short : length / 4 ≤ 2048 := by omega
    have now : Resident slot content li (length + 1) after :=
      (resident before_short).turn nonneg at_slot grown short record
        (fun address _ => by rw [turned.hot]) (fun address _ => by rw [turned.tokens])
    refine ⟨now, ?_⟩
    have earlier := (kept.short before_short).2
    intro block done
    by_cases closes : (length + 1) % 4 = 0
    · have slabs : after.hostSlabs = blit cached.hostSlabs
          ((hostView geometry slot li).base + ((length + 1) / 4 - 1) * 2048) (after.hot li)
          ((slot * 2112 + 2048) * 2048) 2048 := by
        rw [same]
        unfold storedBuffers
        rw [grown, at_slot, if_neg (not_not.mpr closes)]
        dsimp only
        rw [Function.update_self]
      rw [slabs]
      by_cases newest : block = (length + 1) / 4 - 1
      · refine ⟨by omega, by omega, fun byte first last => ?_⟩
        rw [newest, blit_inside _ _ _ (by omega) (by omega)]
        rw [← now.newestHeld (by omega) byte first last]
        congr 1
        omega
      · rcases done with done | ⟨_, again⟩
        · have old := earlier block done
          refine ⟨old.1, by omega, fun byte first last => ?_⟩
          rw [blit_outside _ _ _ (by omega), host]
          exact old.2.2 byte first last
        · exact absurd again newest
    · have slabs : after.hostSlabs = cached.hostSlabs := by
        rw [same]
        unfold storedBuffers
        rw [grown, if_pos closes]
      rcases done with done | ⟨again, _⟩
      · have old := earlier block done
        refine ⟨old.1, by omega, fun byte first last => ?_⟩
        rw [slabs, host]
        exact old.2.2 byte first last
      · exact absurd again closes

/-- A close by the graph kernel; its block is written back later. -/
theorem PrefixKept.graph {length : Int} {written : Int -> Prop} {before after : DecodeBuffers}
    {batch : DecodeBatch} {routing : Routing} {count : Nat} {request : RequestCache}
    {token : TokenRows} (kept : PrefixKept geometry slot li content length written before)
    (carries : token.Carries content length) (listed : request ∈ batch.batchRequests)
    (same_geometry : batch.geometry = geometry) (at_slot : request.slot = slot)
    (grown : request.seqLen = length + 1)
    (closed : GraphClose batch routing count li
      (storeCache (writeRow geometry slot length) li token before) after) :
    PrefixKept geometry slot li content (length + 1) written after := by
  have ring := storeCache_ringTokens kept.nonneg carries kept.ring
  have record := fun closes byte (lower : 0 ≤ byte) upper =>
    storeCache_record kept.nonneg carries closes kept.ring lower upper
  have nonneg := kept.nonneg
  have rows := closed.at_request listed
  rw [at_slot, same_geometry] at rows
  have fits : request.seqLen ≤ batch.geometry.stagingTokens :=
    (batch.decoding request listed).length_most
  rw [same_geometry] at fits
  refine ⟨by omega, by omega, ?_, fun short => ⟨?_, ?_⟩⟩
  · unfold RingTokens
    rw [closed.kBuffer, closed.vBuffer]
    exact ring
  · have resident := (kept.short (by omega)).1
    have cached : Resident slot content li length
        (storeCache (writeRow geometry slot length) li token before) :=
      ⟨resident.named, resident.held, resident.newestNamed, resident.newestHeld⟩
    exact cached.turn nonneg at_slot grown short record rows.1 rows.2
  · intro block done
    have old := (kept.short (by omega)).2 block done
    refine ⟨old.1, by omega, fun byte first last => ?_⟩
    rw [closed.host]
    exact old.2.2 byte first last

/-- The newest block is written back. -/
theorem PrefixKept.writeBack {length : Int} {written : Int -> Prop} {before after : DecodeBuffers}
    (kept : PrefixKept geometry slot li content length written before) (some : 0 < length / 4)
    (copied : writeBack geometry li slot (length / 4 - 1) before = .ok after) :
    PrefixKept geometry slot li content length
      (fun block => written block ∨ block = length / 4 - 1) after := by
  have fits := kept.fits
  rw [writeBack_eq geometry li slot (by omega) (by omega)] at copied
  cases copied
  refine ⟨kept.nonneg, fits, kept.ring, fun short => ?_⟩
  have resident := (kept.short short).1
  refine ⟨⟨resident.named, resident.held, resident.newestNamed, resident.newestHeld⟩, ?_⟩
  intro block done
  dsimp only
  by_cases newest : block = length / 4 - 1
  · refine ⟨by omega, by omega, fun byte first last => ?_⟩
    rw [newest, blit_inside _ _ _ (by omega) (by omega),
      ← resident.newestHeld some byte first last]
    congr 1
    omega
  · rcases done with done | again
    · have old := (kept.short short).2 block done
      refine ⟨old.1, old.2.1, fun byte first last => ?_⟩
      rw [blit_outside _ _ _ (by omega)]
      exact old.2.2 byte first last
    · exact absurd again newest

/-- A handoff establishes what a run keeps. -/
theorem HandsOff.kept {adapter : Adapter} {state : RequestCache} {before : DecodeBuffers}
    {result : Adapter × RequestCache × DecodeBuffers}
    (handsOff : HandsOff geometry slot content adapter state before result) (layer : li < 12) :
    PrefixKept geometry slot li content state.seqLen
      (fun block => 0 ≤ block ∧ block < state.seqLen / 4) result.2.2 := by
  have tables := handoff_tables handsOff.permits handsOff.owner handsOff.fresh handsOff.nonneg
    handsOff.fits handsOff.staged handsOff.returned layer
  have here := handoff_settles handsOff.permits handsOff.owner handsOff.fresh handsOff.nonneg
    handsOff.fits handsOff.staged handsOff.returned layer
  have fits := handsOff.fits
  rw [handsOff.slot] at tables
  rw [handsOff.geometry, handsOff.slot] at here
  rw [handsOff.geometry] at fits
  exact ⟨handsOff.nonneg, fits, here.ring, fun short => ⟨tables.resident short,
    fun block done => ⟨done.1, done.2, fun byte => here.host block byte done.1 done.2⟩⟩⟩

/-- Work elsewhere keeps it. -/
theorem PrefixKept.elsewhere {length : Int} {written : Int -> Prop} {before after : DecodeBuffers}
    (kept : PrefixKept geometry slot li content length written before)
    (undisturbed : Undisturbed geometry slot li length before after) :
    PrefixKept geometry slot li content length written after := by
  have fits := kept.fits
  refine ⟨kept.nonneg, fits, ?_, fun short => ⟨?_, ?_⟩⟩
  · intro member dim first pending lower upper
    have row := undisturbed.ring ((ringBase geometry + slot * 5 + 1 + member) * 256 + dim)
      ⟨by simp only [ringView, ringBase, Geometry.ringStart]; omega,
        by simp only [ringView, ringBase, Geometry.ringStart]; omega⟩
    rw [row.1, row.2]
    exact kept.ring member dim first pending lower upper
  · have resident := (kept.short short).1
    have hot {block byte : Int} (first : 0 ≤ block) (last : block < 2112) (lower : 0 ≤ byte)
        (upper : byte < 2048) := undisturbed.hot short ((slot * 2112 + block) * 2048 + byte)
      ⟨by simp only [hotView]; omega, by simp only [hotView]; omega⟩
    have tokens {block : Int} (first : 0 ≤ block) (last : block < 2112) :=
      undisturbed.tokens short (slot * 2112 + block)
        ⟨by simp only [tokensView]; omega, by simp only [tokensView]; omega⟩
    constructor
    · intro block lower upper
      rw [tokens lower (by omega)]
      exact resident.named block lower upper
    · intro block byte lower upper first last
      rw [hot lower (by omega) first last]
      exact resident.held block byte lower upper first last
    · intro some
      rw [tokens (by decide) (by decide)]
      exact resident.newestNamed some
    · intro some byte first last
      rw [hot (by decide) (by decide) first last]
      exact resident.newestHeld some byte first last
  · intro block done
    have old := (kept.short short).2 block done
    refine ⟨old.1, old.2.1, fun byte first last => ?_⟩
    have slab : block < (geometry.stagingTokens / 4 : Nat) := by omega
    rw [undisturbed.host _ ⟨by simp only [hostView]; omega, by simp only [hostView]; omega⟩]
    exact old.2.2 byte first last

/-- Every run keeps the resident prefix. -/
theorem PrefixRun.kept (layer : li < 12) {length : Int} {written : Int -> Prop}
    {buffers : DecodeBuffers} (run : PrefixRun geometry slot li content length written buffers) :
    PrefixKept geometry slot li content length written buffers := by
  induction run with
  | handedOff handsOff => exact handsOff.kept layer
  | eager _ carries decoding at_slot grown stored previous =>
      exact previous.eager carries decoding at_slot grown stored
  | graph _ carries listed same_geometry at_slot grown closed previous =>
      exact previous.graph carries listed same_geometry at_slot grown closed
  | writeBack _ some copied previous => exact previous.writeBack some copied
  | elsewhere _ undisturbed previous => exact previous.elsewhere undisturbed

/-- While at most 2048 blocks are complete, hot row `j` is block `j` by name and by
its bytes, a block that is written back has the same bytes on the host, and row
2048 is the newest block. -/
theorem short_prefix_resident (layer : li < 12) {length : Int} {written : Int -> Prop}
    {buffers : DecodeBuffers} (run : PrefixRun geometry slot li content length written buffers)
    (short : length / 4 ≤ 2048) :
    (forall block : Int, 0 ≤ block -> block < length / 4 ->
      buffers.tokens li (slot * 2112 + block) = block ∧
      forall byte : Int, 0 ≤ byte -> byte < 2048 ->
        buffers.hot li ((slot * 2112 + block) * 2048 + byte) = content.record li block byte ∧
        (written block ->
          buffers.hostSlabs ((hostView geometry slot li).base + block * 2048 + byte) =
            buffers.hot li ((slot * 2112 + block) * 2048 + byte))) ∧
    (0 < length / 4 ->
      buffers.tokens li (slot * 2112 + 2048) = length / 4 - 1 ∧
      forall byte : Int, 0 ≤ byte -> byte < 2048 ->
        buffers.hot li ((slot * 2112 + 2048) * 2048 + byte) =
          content.record li (length / 4 - 1) byte) := by
  have kept := (run.kept layer).short short
  have resident := kept.1
  constructor
  · intro block lower upper
    refine ⟨resident.named block lower upper, fun byte first last => ?_⟩
    have held := resident.held block byte lower upper first last
    refine ⟨held, fun done => ?_⟩
    rw [held]
    exact (kept.2 block done).2.2 byte first last
  · exact fun some => ⟨resident.newestNamed some, resident.newestHeld some⟩

end Close

/-! ## The eager forwards are such runs -/

section Forwards

variable {adapter : Adapter} {content : RawTokens}

/-- The close of another layer leaves the tables of a layer. -/
theorem storedBuffers_tables (geometry : Geometry) (state : RequestCache) {li other : Nat}
    (different : li ≠ other) (buffers : DecodeBuffers) :
    (storedBuffers geometry other state buffers).hot li = buffers.hot li ∧
      (storedBuffers geometry other state buffers).tokens li = buffers.tokens li := by
  unfold storedBuffers
  by_cases closes : state.seqLen % 4 ≠ 0
  · rw [if_pos closes]
    exact ⟨rfl, rfl⟩
  · rw [if_neg closes]
    exact ⟨Function.update_of_ne different _ _, Function.update_of_ne different _ _⟩

/-- The close of another layer leaves a layer undisturbed. -/
theorem storedBuffers_undisturbed {geometry : Geometry} {state : RequestCache}
    (decoding : state.Decoding geometry) {li other : Nat} (different : li ≠ other)
    (location : Nat) (token : TokenRows) (length : Int) (before : DecodeBuffers) :
    Undisturbed geometry state.slot li length before
      (storedBuffers geometry other state (storeCache location other token before)) := by
  have frame := (storeCache_frame geometry state.slot other location token before).trans
    (storedBuffers_frame decoding other (storeCache location other token before))
  have tables := storedBuffers_tables geometry state different
    (storeCache location other token before)
  constructor
  · intro address _
    rw [frame.kBuffer li different, frame.vBuffer li different]
    exact ⟨rfl, rfl⟩
  · exact fun address inside => frame.host address (hostView_disjoint different inside)
  · intro _ address _
    rw [tables.1]
    rfl
  · intro _ address _
    rw [tables.2]
    rfl

/-- The forwards continue the run of every layer. -/
theorem runs_kept (geometry : Geometry) (slot : Nat) (content : RawTokens) :
    KeptByForwards geometry slot content fun li length buffers =>
      exists written, PrefixRun geometry slot li content length written buffers where
  own := by
    rintro state token li buffers at_slot decoding current carries ⟨written, run⟩
    have grown : state.seqLen = state.seqLen - 1 + 1 := by omega
    have continued := run.eager carries decoding at_slot grown (afterStore_eq decoding current _)
    rw [← grown] at continued
    exact ⟨_, continued⟩
  other := by
    rintro state token li other length buffers rfl decoding different _ ⟨written, run⟩
    exact ⟨written, run.elsewhere (storedBuffers_undisturbed decoding different _ token length _)⟩

/-- A handoff, an admission and any number of forwards are a run of every layer. -/
theorem offload_runs {state : RequestCache} (tokens : List TokenRows)
    (before : DecodeBuffers) (permits : adapter.slots.Permits state.lease [.prefill])
    (owner : adapter.slots.prefillOwner = some state.lease) (fresh : state.states = [])
    (nonneg : 0 ≤ state.seqLen)
    (fits : state.seqLen + tokens.length ≤ adapter.geometry.stagingTokens) :
    exists decoding final after, adapter.offload state tokens before = .ok (decoding, final, after) ∧
      forall li, li < 12 -> exists written, PrefixRun adapter.geometry state.slot li
        (rawTokens adapter.geometry before state.seqLen tokens) (state.seqLen + tokens.length)
        written after := by
  rcases offload_keeps tokens before permits owner fresh nonneg fits
    (runs_kept adapter.geometry state.slot _)
    (fun result handed li _ => ⟨_, .handedOff ⟨rfl, rfl, permits, owner, fresh, nonneg, by omega,
      fun li _ => rawTokens_staged adapter.geometry before state.seqLen tokens li, handed⟩⟩) with
    ⟨decoding, final, after, ran, _, _, _, length, runs⟩
  rw [length] at runs
  exact ⟨decoding, final, after, ran, runs⟩

end Forwards

/-- Five staged tokens and three decoded ones: row one and the newest row both
name block one, whose first byte in a value row is that of the fifth token. -/
theorem short_prefix_resident_small : exists decoding final after,
    smallPrefill.offload ⟨firstLease, 5, false, []⟩
        [constantRows 60, constantRows 61, constantRows 62] smallBuffers =
      .ok (decoding, final, after) ∧
    after.tokens 0 (1 * 2112 + 1) = 1 ∧ after.tokens 0 (1 * 2112 + 2048) = 1 ∧
      after.hot 0 ((1 * 2112 + 1) * 2048 + 256) = 60 := by
  rcases @offload_runs smallPrefill ⟨firstLease, 5, false, []⟩
      [constantRows 60, constantRows 61, constantRows 62] smallBuffers
      ⟨by decide, .prefill, by decide, by decide⟩ rfl rfl (by decide) (by decide) with
    ⟨decoding, final, after, ran, runs⟩
  rcases runs 0 (by decide) with ⟨written, run⟩
  have resident := short_prefix_resident (by decide) run (by decide)
  have second := resident.1 1 (by decide) (by decide)
  exact ⟨decoding, final, after, ran, second.1, (resident.2 (by decide)).1,
    (second.2 256 (by decide) (by decide)).1⟩

end Decode
end QSAHiSparse

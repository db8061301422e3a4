import QSAHiSparse.Decode.SelectedReads
import QSAHiSparse.Decode.ShortPrefixRuns

namespace QSAHiSparse
namespace Decode

open Foundation
open Ledger

/-!
# Offload is transparent

Whatever the prompt, the staged bytes, the decoded tokens and the selection,
the compact rows that the compact table names hold the raw K and V rows of the
selected tokens.  The resolver is asked only of truthful tables, and those that
a handoff and its forwards leave are.
-/

/-! ## The tables stay truthful -/

section Tables

variable {geometry : Geometry} {slot li : Nat} {content : RawTokens}

/-- A close names its block in the rows that it writes, and no other row. -/
theorem TruthfulTable.turn {length : Int} (nonneg : 0 ≤ length) {k v : Memory UInt8}
    {before after : DecodeBuffers} {request : RequestCache}
    (truthful : TruthfulTable slot content li length before) (at_slot : request.slot = slot)
    (grown : request.seqLen = length + 1)
    (record : (length + 1) % 4 = 0 -> forall byte : Int, 0 ≤ byte -> byte < 2048 ->
      recordByte k v ((ringBase geometry + slot * 5 + 1) * 256) byte =
        content.record li ((length + 1) / 4 - 1) byte)
    (hot : after.hot li = hotTurn k v (ringBase geometry) (before.hot li) request)
    (tokens : after.tokens li = tokensTurn (before.tokens li) request) :
    TruthfulTable slot content li (length + 1) after := by
  unfold hotTurn at hot
  unfold tokensTurn at tokens
  rw [grown, at_slot] at hot tokens
  by_cases closes : (length + 1) % 4 = 0
  · rw [if_neg (not_not.mpr closes)] at hot tokens
    have written := record closes
    constructor
    · intro hotRow lower upper names
      rw [tokens] at names ⊢
      rw [hot]
      simp only [closedTokens] at names ⊢
      simp only [closedHot]
      by_cases newest : hotRow = 2048 ∨
          ((length + 1) / 4 - 1 < 2048 ∧ hotRow = (length + 1) / 4 - 1)
      · rw [if_pos (by omega)]
        refine ⟨by omega, fun byte first last => ?_⟩
        rcases newest with rfl | ⟨short, rfl⟩
        · rw [if_pos (by omega), add_sub_cancel_left]
          exact written byte first last
        · rw [if_neg (by omega), if_pos ⟨short, by omega, by omega⟩, add_sub_cancel_left]
          exact written byte first last
      · rw [if_neg (by omega)] at names ⊢
        have earlier := truthful.named hotRow lower upper names
        refine ⟨by omega, fun byte first last => ?_⟩
        rw [if_neg (by omega), if_neg (by omega)]
        exact earlier.2 byte first last
    · intro _
      rw [tokens]
      exact if_pos (Or.inl rfl)
  · rw [if_pos closes] at hot tokens
    have blocks : (length + 1) / 4 = length / 4 := by omega
    constructor
    · rw [hot, tokens, blocks]
      exact truthful.named
    · rw [tokens, blocks]
      exact truthful.newest

theorem TruthfulTable.congr {length : Int} {before after : DecodeBuffers}
    (truthful : TruthfulTable slot content li length before) (hot : after.hot li = before.hot li)
    (tokens : after.tokens li = before.tokens li) :
    TruthfulTable slot content li length after := by
  constructor
  · rw [hot, tokens]
    exact truthful.named
  · rw [tokens]
    exact truthful.newest

/-- Forwards keep the tables of settled layers truthful. -/
theorem truthful_kept (geometry : Geometry) (slot : Nat) (content : RawTokens) :
    KeptByForwards geometry slot content fun li length buffers =>
      Settled geometry slot content li length buffers ∧
        TruthfulTable slot content li length buffers where
  own := by
    rintro state token li buffers at_slot decoding current carries ⟨settled, truthful⟩
    have least := decoding.length_least
    have nonneg : 0 ≤ state.seqLen - 1 := by omega
    have grown : state.seqLen = state.seqLen - 1 + 1 := by omega
    have cached : TruthfulTable slot content li (state.seqLen - 1)
        (storeCache (writeRow geometry slot (state.seqLen - 1)) li token buffers) :=
      truthful.congr rfl rfl
    have turned := storedBuffers_turn geometry li state
      (storeCache (writeRow geometry slot (state.seqLen - 1)) li token buffers)
    have now := cached.turn nonneg at_slot grown
      (fun closes byte lower upper =>
        storeCache_record nonneg carries closes settled.ring lower upper) turned.hot turned.tokens
    rw [← grown] at now
    exact ⟨(settled_kept geometry slot content).own at_slot decoding current carries settled, now⟩
  other := by
    rintro state token li other length buffers at_slot decoding different fits ⟨settled, truthful⟩
    have tables := storedBuffers_tables geometry state different
      (storeCache (writeRow geometry slot (state.seqLen - 1)) other token buffers)
    exact ⟨(settled_kept geometry slot content).other at_slot decoding different fits settled,
      truthful.congr tables.1 tables.2⟩

end Tables

/-! ## The whole run -/

/-- A handoff, an admission and any number of forwards return, and leave every layer ready
for a selection. -/
theorem offload_selectable {adapter : Adapter} {state : RequestCache} (tokens : List TokenRows)
    (before : DecodeBuffers) (permits : adapter.slots.Permits state.lease [.prefill])
    (owner : adapter.slots.prefillOwner = some state.lease) (fresh : state.states = [])
    (nonneg : 0 ≤ state.seqLen)
    (fits : state.seqLen + tokens.length ≤ adapter.geometry.stagingTokens) :
    exists decoding final after,
      adapter.offload state tokens before = .ok (decoding, final, after) ∧
      decoding.geometry = adapter.geometry ∧ Decodes decoding final ∧
      final.lease = state.lease ∧ final.seqLen = state.seqLen + tokens.length ∧
      forall li, li < 12 -> Selectable adapter.geometry state.slot
        (rawTokens adapter.geometry before state.seqLen tokens) li final.seqLen after := by
  have staged := fun li (_ : li < 12) =>
    rawTokens_staged adapter.geometry before state.seqLen tokens li
  rcases offload_keeps tokens before permits owner fresh nonneg fits
    ((truthful_kept adapter.geometry state.slot _).and (runs_kept adapter.geometry state.slot _))
    (fun result handed li layer => ⟨⟨handoff_settles permits owner fresh nonneg (by omega) staged
        handed layer, (handoff_tables permits owner fresh nonneg (by omega) staged handed
        layer).truthful⟩,
      _, .handedOff ⟨rfl, rfl, permits, owner, fresh, nonneg, by omega, staged, handed⟩⟩) with
    ⟨decoding, final, after, ran, sameGeometry, decodes, sameLease, length, kept⟩
  refine ⟨decoding, final, after, ran, sameGeometry, decodes, sameLease, length, ?_⟩
  intro li layer
  rcases kept li layer with ⟨⟨settled, table⟩, written, run⟩
  exact ⟨settled, table, fun short => ((run.kept layer).short short).1⟩

/-- A selection on the slots of an offload returns, and reads its request. -/
theorem Selectable.reads {adapter decoding : Adapter} {state final : RequestCache}
    (sameGeometry : decoding.geometry = adapter.geometry) (sameLease : final.lease = state.lease)
    {content : RawTokens} {li : Nat} {after : DecodeBuffers}
    (selectable : Selectable adapter.geometry state.slot content li final.seqLen after)
    {resolver : Resolver} {batch : DecodeBatch} {raw : Memory Int} {row : Nat}
    (returns : resolver.ReturnsRecords) (sameSlots : batch.slots = decoding.slots)
    (listed : (final, row) ∈ batch.batchRequests.zipIdx) (selecting : Selecting batch li raw) :
    exists result, batch.toAdapter.selected li resolver raw after = .ok result ∧
      forall member : Int, 0 ≤ member ->
        member < selectedCount final.seqLen + final.seqLen % 4 ->
        CompactReads adapter.geometry state.slot content li (raw (row * 2051 + member)) result := by
  have batchGeometry : batch.geometry = adapter.geometry := by
    rw [← sameGeometry]
    unfold Adapter.geometry
    rw [sameSlots]
  have sameSlot : final.slot = state.slot := congrArg QSAHiSparseLease.slot sameLease
  rw [← batchGeometry, ← sameSlot] at selectable ⊢
  have returned := selected_returns resolver after returns selecting
  exact ⟨_, returned, fun member first last =>
    selected_reads resolver after returns selecting returned listed selectable first last⟩

/-- Offload is transparent: after a handoff and any number of decode forwards
the host records and the ring hold the raw tokens, and the compact row named by
the compact table at a selected token holds that token. -/
theorem offload_transparent (adapter : Adapter) (state : RequestCache) (tokens : List TokenRows)
    (before : DecodeBuffers) (permits : adapter.slots.Permits state.lease [.prefill])
    (owner : adapter.slots.prefillOwner = some state.lease) (fresh : state.states = [])
    (least : 1 ≤ state.seqLen)
    (fits : state.seqLen + tokens.length ≤ adapter.geometry.stagingTokens) :
    let content := rawTokens adapter.geometry before state.seqLen tokens
    exists decoding final after,
      adapter.offload state tokens before = .ok (decoding, final, after) ∧
      decoding.geometry = adapter.geometry ∧ Decodes decoding final ∧
      final.lease = state.lease ∧ final.seqLen = state.seqLen + tokens.length ∧
      forall li, li < 12 ->
        HostRecords adapter.geometry state.slot content li (final.seqLen / 4) after ∧
        RingTokens adapter.geometry state.slot content li final.seqLen after ∧
        forall (resolver : Resolver) (batch : DecodeBatch) (raw : Memory Int) (row : Nat),
          resolver.ReturnsRecords -> batch.slots = decoding.slots ->
          (final, row) ∈ batch.batchRequests.zipIdx -> Selecting batch li raw ->
          exists result, batch.toAdapter.selected li resolver raw after = .ok result ∧
            forall member : Int, 0 ≤ member ->
              member < selectedCount final.seqLen + final.seqLen % 4 ->
              CompactReads adapter.geometry state.slot content li
                (raw (row * 2051 + member)) result := by
  intro content
  rcases offload_selectable tokens before permits owner fresh (by omega) fits with
    ⟨decoding, final, after, ran, sameDecoding, decodes, sameLease, length, selectable⟩
  refine ⟨decoding, final, after, ran, sameDecoding, decodes, sameLease, length, ?_⟩
  intro li layer
  refine ⟨(selectable li layer).settled.host, (selectable li layer).settled.ring, ?_⟩
  intro resolver batch raw row returns sameSlots listed selecting
  exact (selectable li layer).reads sameDecoding sameLease returns sameSlots listed selecting

/-! ## A selection of eight tokens -/

/-- A request of the small geometry that decodes and has eight tokens. -/
structure EightTokens (decoding : Adapter) (final : RequestCache) : Prop where
  geometry : decoding.slots.geometry = smallGeometry
  decodes : Decodes decoding final
  length : final.seqLen = 8
  slot : final.slot = 1

section Eight

variable {decoding : Adapter} {final : RequestCache}

/-- The batch of that request alone. -/
def EightTokens.batch (eight : EightTokens decoding final) : DecodeBatch where
  slots := decoding.slots
  offloaded := true
  batchRequests := [final]
  decodes := rfl
  decoding := by
    intro request member
    have length := eight.length
    rw [List.mem_singleton.mp member, eight.geometry]
    exact ⟨eight.decodes.handed_off, by omega, by rw [length]; decide⟩
  held := by
    intro request member
    rw [List.mem_singleton.mp member, eight.geometry, eight.slot]
    decide
  distinct := List.nodup_singleton _

/-- It selects every token. -/
theorem EightTokens.selecting (eight : EightTokens decoding final) :
    Selecting eight.batch 0 fun address => address % 2051 where
  nonempty := List.cons_ne_nil _ _
  permits := fun request member => by
    rw [List.mem_singleton.mp member]
    exact eight.decodes.permits
  current := fun request member => by
    rw [List.mem_singleton.mp member, eight.decodes.states]
    rfl
  selects := fun entry member => by
    rw [List.mem_singleton.mp member]
    refine ⟨fun index => index, ?_, ?_, ?_, ?_⟩ <;> simp only [eight.length, selectedCount] <;>
      intros <;> omega

end Eight

/-- Five staged tokens and three decoded ones close two blocks; the selection
of all eight reads the seventh token's K row. -/
theorem offload_transparent_small : exists decoding final after result,
    smallPrefill.offload ⟨firstLease, 5, false, []⟩
        [constantRows 60, constantRows 61, constantRows 62] smallBuffers =
      .ok (decoding, final, after) ∧
    Adapter.selected { decoding with offloaded := true, batchRequests := [final] } 0
        loadingResolver (fun address => address % 2051) after = .ok result ∧
    result.compact ((0 * (2 * 2052) + result.compactTable (1 * 64 + 6)) * 256 + 0) = 61 := by
  rcases offload_transparent smallPrefill ⟨firstLease, 5, false, []⟩
      [constantRows 60, constantRows 61, constantRows 62] smallBuffers
      ⟨by decide, .prefill, by decide, by decide⟩ rfl rfl (by decide) (by decide) with
    ⟨decoding, final, after, ran, sameGeometry, decodes, sameLease, length, transparent⟩
  have eight : EightTokens decoding final :=
    ⟨sameGeometry, decodes, length, congrArg QSAHiSparseLease.slot sameLease⟩
  rcases (transparent 0 (by decide)).2.2 loadingResolver eight.batch _ 0 loadingResolver_returns rfl
    (List.mem_singleton_self _) eight.selecting with ⟨result, selected, reads⟩
  have read := (reads 6 (by decide) (by rw [eight.length]; decide) 0 (by decide) (by decide)).1
  exact ⟨decoding, final, after, result, ran, selected, read⟩

end Decode
end QSAHiSparse

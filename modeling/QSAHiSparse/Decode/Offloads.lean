import QSAHiSparse.Decode.Agreement
import QSAHiSparse.Decode.Forward

namespace QSAHiSparse
namespace Decode

open Foundation
open Ledger

/-!
# A handoff and its forwards

What a handoff establishes of every layer, and forwards keep, holds when an
offload returns: of the raw tokens of the request, staged and decoded.
-/

section Run

variable (geometry : Geometry) (before : DecodeBuffers) (promptLen : Int)
  (tokens : List TokenRows)

/-- The raw rows of a request: the staged prompt, then the decoded tokens. -/
def rawTokens : RawTokens where
  k := fun li token dim =>
    if token < promptLen then before.kBuffer li ((geometry.pageSize + token) * 256 + dim)
    else (tokens[(token - promptLen).toNat]?).elim 0 fun rows => rows.k li dim
  v := fun li token dim =>
    if token < promptLen then before.vBuffer li ((geometry.pageSize + token) * 256 + dim)
    else (tokens[(token - promptLen).toNat]?).elim 0 fun rows => rows.v li dim

theorem rawTokens_staged (li : Nat) :
    Staged geometry (rawTokens geometry before promptLen tokens) li promptLen before := by
  intro token dim _ staged _ _
  simp only [rawTokens]
  rw [if_pos staged, if_pos staged]
  exact ⟨rfl, rfl⟩

theorem rawTokens_carries {index : Nat} {token : TokenRows} (found : tokens[index]? = some token) :
    token.Carries (rawTokens geometry before promptLen tokens) (promptLen + index) := by
  intro li dim _ _
  have decoded : ¬ promptLen + index < promptLen := by omega
  have place : (promptLen + index - promptLen).toNat = index := by omega
  simp only [rawTokens]
  rw [if_neg decoded, if_neg decoded, place, found]
  exact ⟨rfl, rfl⟩

end Run

/-- A staged lease is admitted to decode. -/
theorem admits_decode {adapter : Adapter} {state : RequestCache}
    (ready : adapter.slots.Permits state.lease [.hostReady]) (handedOff : state.offloaded = true)
    (states : state.states = List.replicate 12 state.generation) :
    exists decoding, adapter.advance (admitDecode state.lease) = .ok decoding ∧
      decoding.geometry = adapter.geometry ∧ Decodes decoding state := by
  rcases advance_returned (admitDecode_outcome adapter.slots state.lease) ⟨ready, trivial⟩ with
    ⟨_, admitted, rfl⟩
  exact ⟨_, admitted, rfl, ready.1.setPhase_permits .decode, handedOff, states⟩

/-- A handoff, an admission and any number of forwards return, and leave of every layer
what the handoff established and forwards keep. -/
theorem offload_keeps {adapter : Adapter} {state : RequestCache} (tokens : List TokenRows)
    (before : DecodeBuffers) (permits : adapter.slots.Permits state.lease [.prefill])
    (owner : adapter.slots.prefillOwner = some state.lease) (fresh : state.states = [])
    (nonneg : 0 ≤ state.seqLen)
    (fits : state.seqLen + tokens.length ≤ adapter.geometry.stagingTokens)
    {holds : Nat -> Int -> DecodeBuffers -> Prop}
    (kept : KeptByForwards adapter.geometry state.slot
      (rawTokens adapter.geometry before state.seqLen tokens) holds)
    (established : forall result, adapter.handoff state before = .ok result ->
      forall li, li < 12 -> holds li state.seqLen result.2.2) :
    exists decoding final after,
      adapter.offload state tokens before = .ok (decoding, final, after) ∧
      decoding.geometry = adapter.geometry ∧ Decodes decoding final ∧
      final.lease = state.lease ∧ final.seqLen = state.seqLen + tokens.length ∧
      forall li, li < 12 -> holds li final.seqLen after := by
  rcases handoff_returns permits owner fresh nonneg (by omega)
    (fun li _ => rawTokens_staged adapter.geometry before state.seqLen tokens li) with
    ⟨slots, staged, handed, ready, sameSlots, _⟩
  have held := established _ handed
  have same : Adapter.geometry { adapter with slots } = adapter.geometry := sameSlots
  rcases @admits_decode { adapter with slots }
    { state with states := List.replicate 12 state.generation, offloaded := true }
    ready rfl rfl with ⟨decoding, admitted, sameDecoding, decodes⟩
  rw [same] at sameDecoding
  rw [<- sameDecoding] at fits kept ⊢
  rcases forwards_keep tokens decodes nonneg fits kept
    (fun index token found => rawTokens_carries _ before state.seqLen tokens found) held with
    ⟨after, ran, done⟩
  refine ⟨decoding,
    { state with
      states := List.replicate 12 state.generation
      offloaded := true
      seqLen := state.seqLen + tokens.length },
    after, ?_, rfl, ⟨decodes.permits, rfl, rfl⟩, rfl, rfl, done⟩
  unfold Adapter.offload
  rw [handed, Except.ok_bind]
  simp only
  rw [admitted, Except.ok_bind, ran]
  rfl

/-- A handoff leaves every token of every layer where decode looks for it. -/
theorem handoff_settles {adapter : Adapter} {state : RequestCache} {content : RawTokens}
    (permits : adapter.slots.Permits state.lease [.prefill])
    (owner : adapter.slots.prefillOwner = some state.lease) (fresh : state.states = [])
    (nonneg : 0 ≤ state.seqLen) (fits : state.seqLen ≤ adapter.geometry.stagingTokens)
    {before : DecodeBuffers}
    (staged : forall li, li < 12 -> Staged adapter.geometry content li state.seqLen before)
    {result : Adapter × RequestCache × DecodeBuffers}
    (handed : adapter.handoff state before = .ok result) {li : Nat} (layer : li < 12) :
    Settled adapter.geometry state.slot content li state.seqLen result.2.2 := by
  rcases handoff_returns permits owner fresh nonneg fits staged with
    ⟨slots, after, returned, _, _, settled⟩
  cases handed.symm.trans returned
  exact settled li layer

/-! ## A small run -/

/-- A lease that prefills. -/
def smallPrefill : Adapter where
  slots :=
    { geometry := smallGeometry
      active := Dict.empty.set 1 firstLease
      phases := Dict.empty.set 1 .prefill
      lastGeneration := Dict.empty.set 1 1
      freeSlots := [0]
      prefillOwner := some firstLease }
  offloaded := false
  batchRequests := []

/-- A token whose rows repeat one byte. -/
def constantRows (byte : UInt8) : TokenRows := ⟨fun _ _ => byte, fun _ _ => byte⟩

end Decode
end QSAHiSparse

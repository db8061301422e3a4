import QSAHiSparse.Backend.Descaled
import QSAHiSparse.Decode.Transparency

namespace QSAHiSparse
namespace Backend

open Foundation
open Kernels
open Decode
open Ledger (Geometry)
open Weights (TorchDtype)

/-!
# The offloaded view

`selected` answers with the compact rows, and with the compact table over the tokens
of a request.  The rows are bytes of the pool, so they are to be descaled as the pool
is.
-/

section View

variable {K : Type} (value : UInt8 -> K) (kvDtype : TorchDtype)

/-- A plane of bytes, viewed in the dtype of the pool. -/
def bytesView (rows : Nat) (bytes : Memory UInt8) : Tensor K where
  dtype := kvDtype
  isCuda := true
  rows := rows
  heads := 1
  dim := 256
  data := fun address => value (bytes address)

/-- What `selected` answers with, once the rows are in place. -/
def selectedView (geometry : Geometry) (rowSlots : Memory Int) (buffers : DecodeBuffers) :
    SelectedRows K where
  k := bytesView value kvDtype (geometry.maxRequests * 2052) buffers.compact
  v := bytesView value kvDtype (geometry.maxRequests * 2052) fun address =>
    buffers.compact (geometry.maxRequests * 2052 * 256 + address)
  reqTable := ⟨geometry.stagingTokens, buffers.compactTable⟩
  rowReqIndices := rowSlots

/-- The element of K that a gather reads for a token of a request. -/
def SelectedRows.keyAt (rows : SelectedRows K) (request token element : Int) : K :=
  rows.k.data (rows.reqTable.data (request * rows.reqTable.stride + token) *
    (rows.k.heads * rows.k.dim : Nat) + element)

def SelectedRows.valueAt (rows : SelectedRows K) (request token element : Int) : K :=
  rows.v.data (rows.reqTable.data (request * rows.reqTable.stride + token) *
    (rows.v.heads * rows.v.dim : Nat) + element)

end View

section Offloaded

variable {K : Type} [Field K] [LinearOrder K]

/-- The K and V of a request: what `_store_kv` was given for each layer and token. -/
structure LiveRows (K : Type) where
  k : Nat -> Int -> Memory K
  v : Nat -> Int -> Memory K

/-- The bytes that stand for the rows of a request: those of the prompt in the staging
lane, and those of each decoded token in what its forward stores. -/
structure LiveRows.Bytes (live : LiveRows K) (value : UInt8 -> K) (layerAt : Nat -> Layer K)
    (geometry : Geometry) (promptLen : Int) (before : DecodeBuffers) (tokens : List TokenRows) :
    Prop where
  staged : forall li : Nat, forall token dim : Int, 0 ≤ token -> token < promptLen ->
    0 ≤ dim -> dim < 256 ->
    value (before.kBuffer li ((geometry.pageSize + token) * 256 + dim)) =
      live.k li token dim / positiveScale (layerAt li).kScaleFloat ∧
    value (before.vBuffer li ((geometry.pageSize + token) * 256 + dim)) =
      live.v li token dim / positiveScale (layerAt li).vScaleFloat
  decoded : forall (li index : Nat) (rows : TokenRows), tokens[index]? = some rows ->
    forall dim : Int, 0 ≤ dim -> dim < 256 ->
    value (rows.k li dim) =
      live.k li (promptLen + index) dim / positiveScale (layerAt li).kScaleFloat ∧
    value (rows.v li dim) =
      live.v li (promptLen + index) dim / positiveScale (layerAt li).vScaleFloat

variable {value : UInt8 -> K} {layerAt : Nat -> Layer K} {geometry : Geometry} {promptLen : Int}
  {before : DecodeBuffers} {tokens : List TokenRows} {live : LiveRows K}

/-- The bytes of a token are the quotients of its rows. -/
theorem LiveRows.Bytes.quotient (bytes : live.Bytes value layerAt geometry promptLen before tokens)
    (li : Nat) {token dim : Int} (first : 0 ≤ token) (last : token < promptLen + tokens.length)
    (lower : 0 ≤ dim) (upper : dim < 256) :
    let content := rawTokens geometry before promptLen tokens
    value (content.k li token dim) =
        live.k li token dim / positiveScale (layerAt li).kScaleFloat ∧
      value (content.v li token dim) =
        live.v li token dim / positiveScale (layerAt li).vScaleFloat := by
  intro content
  change value (if _ then _ else _) = _ ∧ value (if _ then _ else _) = _
  by_cases prompt : token < promptLen
  · rw [if_pos prompt, if_pos prompt]
    exact bytes.staged li token dim first prompt lower upper
  · have inside : (token - promptLen).toNat < tokens.length := by omega
    have found := List.getElem?_eq_getElem inside
    have place : promptLen + (token - promptLen).toNat = token := by omega
    have stored := bytes.decoded li _ _ found dim lower upper
    rw [place] at stored
    rw [if_neg prompt, if_neg prompt, found]
    exact stored

/-- The rows that given bytes of a request stand for. -/
def LiveRows.ofBytes (value : UInt8 -> K) (layerAt : Nat -> Layer K) (content : RawTokens) :
    LiveRows K where
  k li token dim := value (content.k li token dim) * positiveScale (layerAt li).kScaleFloat
  v li token dim := value (content.v li token dim) * positiveScale (layerAt li).vScaleFloat

variable [IsStrictOrderedRing K]

theorem LiveRows.ofBytes_bytes (value : UInt8 -> K) (layerAt : Nat -> Layer K)
    (geometry : Geometry) {promptLen : Int} (before : DecodeBuffers) (tokens : List TokenRows) :
    (LiveRows.ofBytes value layerAt (rawTokens geometry before promptLen tokens)).Bytes value
      layerAt geometry promptLen before tokens where
  staged := by
    intro li token dim first staged lower upper
    have bytes := rawTokens_staged geometry before promptLen tokens li token dim first staged lower
      upper
    simp only [ofBytes]
    rw [mul_div_cancel_right₀ _ (positiveScale_ne_zero _),
      mul_div_cancel_right₀ _ (positiveScale_ne_zero _), bytes.1, bytes.2]
    exact ⟨rfl, rfl⟩
  decoded := by
    intro li index rows found dim lower upper
    have bytes := rawTokens_carries geometry before promptLen tokens found li dim lower upper
    simp only [ofBytes]
    rw [mul_div_cancel_right₀ _ (positiveScale_ne_zero _),
      mul_div_cancel_right₀ _ (positiveScale_ne_zero _), bytes.1, bytes.2]
    exact ⟨rfl, rfl⟩

/-- The originals of a view whose compact rows hold the bytes of a token are the rows
of the token. -/
theorem selectedView_originals
    (bytes : live.Bytes value layerAt geometry promptLen before tokens) {slot li : Nat}
    {token : Int} (first : 0 ≤ token) (last : token < promptLen + tokens.length)
    {buffers : DecodeBuffers}
    (reads : CompactReads geometry slot (rawTokens geometry before promptLen tokens) li token
      buffers) (kvDtype dtype : TorchDtype) (rowSlots : Memory Int) {dim : Int} (lower : 0 ≤ dim)
    (upper : dim < 256) :
    let view := (selectedView value kvDtype geometry rowSlots buffers).originals (layerAt li) dtype
    view.keyAt slot token dim = live.k li token dim ∧
      view.valueAt slot token dim = live.v li token dim := by
  intro view
  have quotient := bytes.quotient li first last lower upper
  rcases reads dim lower upper with ⟨keys, values⟩
  rw [zero_mul, zero_add] at keys
  rw [one_mul, add_mul, add_assoc] at values
  have width : ((1 * 256 : Nat) : Int) = 256 := rfl
  constructor
  · change value (buffers.compact (buffers.compactTable (slot * geometry.stagingTokens + token) *
      ((1 * 256 : Nat) : Int) + dim)) * _ = _
    rw [width, keys, quotient.1, div_mul_cancel₀ _ (positiveScale_ne_zero _)]
  · change value (buffers.compact (geometry.maxRequests * 2052 * 256 +
      (buffers.compactTable (slot * geometry.stagingTokens + token) * ((1 * 256 : Nat) : Int) +
        dim))) * _ = _
    rw [width, values, quotient.2, div_mul_cancel₀ _ (positiveScale_ne_zero _)]

/-- After any handoff and any number of forwards the offloaded view, descaled once, holds
the rows that were stored for every selected token. -/
def OffloadReadsLive (layerAt : Nat -> Layer K) (kvDtype dtype : TorchDtype) : Prop :=
  forall (value : UInt8 -> K) (live : LiveRows K) (adapter : Adapter) (state : RequestCache)
    (tokens : List TokenRows) (before : DecodeBuffers),
    adapter.slots.Permits state.lease [.prefill] ->
    adapter.slots.prefillOwner = some state.lease -> state.states = [] -> 1 ≤ state.seqLen ->
    state.seqLen + tokens.length ≤ adapter.geometry.stagingTokens ->
    live.Bytes value layerAt adapter.geometry state.seqLen before tokens ->
    exists decoding final after,
      adapter.offload state tokens before = .ok (decoding, final, after) ∧
      forall li, li < 12 ->
        forall (resolver : Resolver) (batch : DecodeBatch) (raw : Memory Int) (row : Nat),
          resolver.ReturnsRecords -> batch.slots = decoding.slots ->
          (final, row) ∈ batch.batchRequests.zipIdx -> Selecting batch li raw ->
          exists result, batch.toAdapter.selected li resolver raw after = .ok result ∧
            forall rowSlots : Memory Int, forall member dim : Int, 0 ≤ member ->
              member < selectedCount final.seqLen + final.seqLen % 4 -> 0 ≤ dim -> dim < 256 ->
              let view := (selectedView value kvDtype adapter.geometry rowSlots result).originals
                (layerAt li) dtype
              let token := raw (row * 2051 + member)
              view.keyAt state.slot token dim = live.k li token dim ∧
                view.valueAt state.slot token dim = live.v li token dim

theorem offload_reads_live (layerAt : Nat -> Layer K) (kvDtype dtype : TorchDtype) :
    OffloadReadsLive layerAt kvDtype dtype := by
  intro value live adapter state tokens before permits owner fresh least fits bytes
  rcases offload_selectable tokens before permits owner fresh (by omega) fits with
    ⟨decoding, final, after, ran, sameDecoding, _, sameLease, length, selectable⟩
  refine ⟨decoding, final, after, ran, ?_⟩
  intro li inLayers resolver batch raw row returns sameSlots listed selecting
  rcases (selectable li inLayers).reads sameDecoding sameLease returns sameSlots listed selecting
    with ⟨result, selected, reads⟩
  refine ⟨result, selected, ?_⟩
  intro rowSlots member dim first last lower upper view token
  rcases selecting.selects _ listed with ⟨blocks, selects⟩
  have bounds := selects.bounds (show 0 ≤ final.seqLen by omega) first last
  rw [length] at bounds
  exact selectedView_originals bytes bounds.1 bounds.2 (reads member first last) kvDtype dtype
    rowSlots lower upper

end Offloaded

end Backend
end QSAHiSparse

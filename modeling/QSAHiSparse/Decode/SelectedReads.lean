import QSAHiSparse.Decode.Forward
import QSAHiSparse.Decode.Selected
import QSAHiSparse.Decode.ShortPrefix

namespace QSAHiSparse
namespace Decode

open Foundation
open Ledger

/-!
# What a selection reads

After a selection the compact row that the compact table names at a selected
token holds the K and V rows of that token, when the layer has its tokens in
place and its residency table is truthful.
-/

/-! ## What the finished rows hold -/

/-- The compact row that the table names at a valid entry, byte by byte. -/
theorem finishedRows_member (batch : DecodeBatch) (li : Nat) {raw : Memory Int}
    (valid : ValidSelection batch.batchRequests raw)
    (below : forall entry, entry ∈ batch.batchRequests.zipIdx -> EntriesBelow raw (entry.2 * 2051)
      (validCount entry.1.seqLen) batch.geometry.stagingTokens)
    (unpacked : Memory UInt8) (before : DecodeBuffers) {request : RequestCache} {row : Nat}
    (listed : (request, row) ∈ batch.batchRequests.zipIdx) {member : Int} (first : 0 ≤ member)
    (last : member < selectedCount request.seqLen + request.seqLen % 4) :
    let after := batch.batchRequests.zipIdx.foldl
      (fun buffers entry => finishedBuffers batch.geometry li raw unpacked entry.2 entry.1 buffers)
      before
    let place := request.slot * 2052 + 1 + member
    let ring := (ringBase batch.geometry + request.slot * 5 + 1) * 256
    let selected := selectedCount request.seqLen
    after.compactTable
        (request.slot * batch.geometry.stagingTokens + raw (row * 2051 + member)) = place ∧
    forall dim : Int, 0 ≤ dim -> dim < 256 ->
      after.compact ((0 * (batch.geometry.maxRequests * 2052) + place) * 256 + dim) =
        compactByte unpacked ((row * 2 + 0) * 2048 * 256) (before.kBuffer li) ring selected
          (member * 256 + dim) ∧
      after.compact ((1 * (batch.geometry.maxRequests * 2052) + place) * 256 + dim) =
        compactByte unpacked ((row * 2 + 1) * 2048 * 256) (before.vBuffer li) ring selected
          (member * 256 + dim) := by
  intro after place ring selected
  have routing : Routing := ⟨fun _ => 0, fun _ => 0, 0⟩
  have routes := routes_prepared routing listed
  have inBatch : row < batch.batchRequests.length :=
    (List.getElem?_eq_some_iff.mp (List.mem_zipIdx_iff_getElem?.mp listed)).1
  have compactServes := finishCompact_serves_compact batch routing
    ⟨unpacked, before.kBuffer li, before.vBuffer li, raw⟩ batch.geometry.stagingTokens
  have tableServes := finishCompact_serves_table batch routing
    ⟨unpacked, before.kBuffer li, before.vBuffer li, raw⟩ valid below (ringBase batch.geometry)
    (batch.geometry.maxRequests * 2052)
  have folded := foldl_finishedBuffers batch.geometry li raw unpacked batch.batchRequests.zipIdx
    before
  constructor
  · change (batch.batchRequests.zipIdx.foldl _ before).compactTable _ = _
    rw [folded]
    refine (tableServes.explains (Nat.le_refl _) before.compactTable).written
      ⟨request.slot * batch.geometry.stagingTokens + raw (row * 2051 + member), place⟩
      (List.mem_flatMap.mpr ⟨row, List.mem_range.mpr inBatch, ?_⟩)
    rw [mem_finishCompactRow_table _ _ _ _ _ routes.real, routes.slot, routes.length]
    exact ⟨member, first, last, rfl⟩
  · intro dim lower upper
    have stored := (compactServes.explains (Nat.le_refl _) before.compact).written
    have here : forall plane : Int, plane = 0 ∨ plane = 1 ->
        (⟨(plane * (batch.geometry.maxRequests * 2052) + place) * 256 + dim,
          compactByte unpacked ((row * 2 + plane) * 2048 * 256)
            (CompactSources.ringMemory
              ⟨unpacked, before.kBuffer li, before.vBuffer li, raw⟩ plane) ring selected
            (member * 256 + dim)⟩ : Store UInt8) ∈
          (List.range batch.batchRequests.length).flatMap fun (row : Nat) =>
            (finishCompactRow ⟨unpacked, before.kBuffer li, before.vBuffer li, raw⟩
              (routing.prepared batch.batchRequests) batch.geometry.stagingTokens
              (ringBase batch.geometry) (batch.geometry.maxRequests * 2052) row).compact := by
      intro plane which
      refine List.mem_flatMap.mpr ⟨row, List.mem_range.mpr inBatch, ?_⟩
      rw [mem_finishCompactRow_compact _ _ _ _ _ routes.real, routes.slot, routes.length]
      refine ⟨plane, member * 256 + dim, which, by omega, by omega, ?_⟩
      congr 1
      simp only [place]
      ring
    change (batch.batchRequests.zipIdx.foldl _ before).compact _ = _ ∧
      (batch.batchRequests.zipIdx.foldl _ before).compact _ = _
    rw [folded]
    exact ⟨stored _ (here 0 (Or.inl rfl)), stored _ (here 1 (Or.inr rfl))⟩

/-! ## Unpacking -/

/-- A member of a plane is a quarter of a half of its gathered record. -/
theorem unpackRows_gatherRows (hot : Memory UInt8) (indices : Memory Int) (row : Nat)
    {plane member dim : Int} (which : plane = 0 ∨ plane = 1) (first : 0 ≤ member)
    (last : member < 2048) (lower : 0 ≤ dim) (upper : dim < 256) :
    unpackRows (gatherRows hot indices)
        ((row * 2 + plane) * 2048 * 256 + (member * 256 + dim)) =
      hot (indices (row * 512 + member / 4) * 2048 +
        ((member % 4 + 4 * plane) * 256 + dim)) := by
  have place : ((row * 2 + plane) * 2048 * 256 + (member * 256 + dim)) / 256 =
      row * 4096 + (plane * 2048 + member) := by omega
  have inRow : ((row : Int) * 4096 + (plane * 2048 + member)) % 4096 =
      plane * 2048 + member := by omega
  have batchRow : ((row : Int) * 4096 + (plane * 2048 + member)) / 4096 = row := by omega
  have byte : ((row * 2 + plane) * 2048 * 256 + (member * 256 + dim)) % 256 = dim := by omega
  have index : unpackIndex (plane * 2048 + member) =
      member / 4 * 8 + member % 4 + 4 * plane := by
    unfold unpackIndex
    rcases which with rfl | rfl
    · rw [if_pos (by omega)]
      omega
    · rw [if_neg (by omega)]
      omega
  simp only [unpackRows, gatherRows]
  rw [place, inRow, batchRow, byte, index]
  have gathered : ((member / 4 * 8 + member % 4 + 4 * plane + row * 4096) * 256 + dim) / 2048 =
      row * 512 + member / 4 := by omega
  have within : ((member / 4 * 8 + member % 4 + 4 * plane + row * 4096) * 256 + dim) % 2048 =
      (member % 4 + 4 * plane) * 256 + dim := by omega
  rw [gathered, within]

/-! ## Selections -/

/-- Row `row` of a selection: distinct complete blocks, each expanded to its
four tokens, then the tokens of the open tail. -/
structure Selects (raw : Memory Int) (row : Nat) (seqLen : Int) (blocks : Int -> Int) : Prop where
  complete : forall index, 0 ≤ index -> index < min (seqLen / 4) 512 ->
    0 ≤ blocks index ∧ blocks index < seqLen / 4
  distinct : forall first second, 0 ≤ first -> first < min (seqLen / 4) 512 ->
    0 ≤ second -> second < min (seqLen / 4) 512 -> blocks first = blocks second -> first = second
  expanded : forall index member, 0 ≤ index -> index < min (seqLen / 4) 512 ->
    0 ≤ member -> member < 4 ->
    raw (row * 2051 + (index * 4 + member)) = blocks index * 4 + member
  tail : forall member, 0 ≤ member -> member < seqLen % 4 ->
    raw (row * 2051 + (selectedCount seqLen + member)) = seqLen / 4 * 4 + member

section Selections

variable {raw : Memory Int} {row : Nat} {seqLen : Int} {blocks : Int -> Int}

/-- A selected entry is a token of its block. -/
theorem Selects.selected (selects : Selects raw row seqLen blocks) {member : Int}
    (first : 0 ≤ member) (last : member < selectedCount seqLen) :
    raw (row * 2051 + member) = blocks (member / 4) * 4 + member % 4 := by
  have inRange : member / 4 < min (seqLen / 4) 512 := by
    unfold selectedCount at last
    omega
  have whole : member / 4 * 4 + member % 4 = member := by omega
  have entry := selects.expanded (member / 4) (member % 4) (by omega) inRange (by omega) (by omega)
  rw [whole] at entry
  exact entry

/-- A pending entry is a token of the open tail. -/
theorem Selects.pending (selects : Selects raw row seqLen blocks) {member : Int}
    (first : selectedCount seqLen ≤ member) (last : member < selectedCount seqLen + seqLen % 4) :
    raw (row * 2051 + member) = seqLen / 4 * 4 + (member - selectedCount seqLen) := by
  have entry := selects.tail (member - selectedCount seqLen) (by omega) (by omega)
  have whole : selectedCount seqLen + (member - selectedCount seqLen) = member := by omega
  rw [whole] at entry
  exact entry

/-- Every valid entry is a token of the sequence. -/
theorem Selects.bounds (selects : Selects raw row seqLen blocks) (least : 0 ≤ seqLen)
    {member : Int} (first : 0 ≤ member) (last : member < selectedCount seqLen + seqLen % 4) :
    0 ≤ raw (row * 2051 + member) ∧ raw (row * 2051 + member) < seqLen := by
  by_cases chosen : member < selectedCount seqLen
  · have inRange : member / 4 < min (seqLen / 4) 512 := by
      unfold selectedCount at chosen
      omega
    have block := selects.complete (member / 4) (by omega) inRange
    rw [selects.selected first chosen]
    omega
  · rw [selects.pending (not_lt.mp chosen) last]
    omega

/-- Valid entries at different places are different tokens. -/
theorem Selects.injective (selects : Selects raw row seqLen blocks) {left right : Int}
    (leftFirst : 0 ≤ left) (leftLast : left < selectedCount seqLen + seqLen % 4)
    (rightFirst : 0 ≤ right) (rightLast : right < selectedCount seqLen + seqLen % 4)
    (same : raw (row * 2051 + left) = raw (row * 2051 + right)) : left = right := by
  have inRange : forall member, member < selectedCount seqLen ->
      member / 4 < min (seqLen / 4) 512 := by
    intro member chosen
    unfold selectedCount at chosen
    omega
  by_cases leftChosen : left < selectedCount seqLen
  · have leftBlock := selects.complete (left / 4) (by omega) (inRange left leftChosen)
    by_cases rightChosen : right < selectedCount seqLen
    · rw [selects.selected leftFirst leftChosen, selects.selected rightFirst rightChosen] at same
      have block := selects.distinct (left / 4) (right / 4) (by omega) (inRange left leftChosen)
        (by omega) (inRange right rightChosen) (by omega)
      omega
    · rw [selects.selected leftFirst leftChosen,
        selects.pending (not_lt.mp rightChosen) rightLast] at same
      omega
  · by_cases rightChosen : right < selectedCount seqLen
    · have rightBlock := selects.complete (right / 4) (by omega) (inRange right rightChosen)
      rw [selects.pending (not_lt.mp leftChosen) leftLast,
        selects.selected rightFirst rightChosen] at same
      omega
    · rw [selects.pending (not_lt.mp leftChosen) leftLast,
        selects.pending (not_lt.mp rightChosen) rightLast] at same
      omega

end Selections

/-! ## The selection of a batch -/

/-- A batch about to select in a layer: leases decode, layer states are
current, and every row of `raw` selects tokens of its request. -/
structure Selecting (batch : DecodeBatch) (li : Nat) (raw : Memory Int) : Prop where
  nonempty : batch.batchRequests ≠ []
  permits : forall request, request ∈ batch.batchRequests ->
    batch.slots.Permits request.lease [.decode]
  current : forall request, request ∈ batch.batchRequests ->
    request.states[li]? = some request.generation
  selects : forall entry, entry ∈ batch.batchRequests.zipIdx ->
    exists blocks, Selects raw entry.2 entry.1.seqLen blocks

section Batch

variable {batch : DecodeBatch} {li : Nat} {raw : Memory Int}

theorem Selecting.valid (selecting : Selecting batch li raw) :
    ValidSelection batch.batchRequests raw := by
  constructor
  · intro entry listed member small
    have least := (batch.decoding entry.1 (List.fst_mem_of_mem_zipIdx listed)).length_least
    rcases selecting.selects entry listed with ⟨blocks, selects⟩
    unfold validCount at small
    exact (selects.bounds (by omega) (by omega) (by omega)).1
  · intro entry listed first second inFirst inSecond same
    rcases selecting.selects entry listed with ⟨blocks, selects⟩
    unfold validCount at inFirst inSecond
    have equal := selects.injective (by omega) (by omega) (by omega) (by omega) same
    omega

theorem Selecting.below (selecting : Selecting batch li raw)
    {entry : RequestCache × Nat} (listed : entry ∈ batch.batchRequests.zipIdx) :
    EntriesBelow raw (entry.2 * 2051) (validCount entry.1.seqLen)
      batch.geometry.stagingTokens := by
  intro member small
  have decoding := batch.decoding entry.1 (List.fst_mem_of_mem_zipIdx listed)
  have least := decoding.length_least
  have most : entry.1.seqLen ≤ batch.geometry.stagingTokens := decoding.length_most
  rcases selecting.selects entry listed with ⟨blocks, selects⟩
  unfold validCount at small
  have bounds := selects.bounds (by omega) (show (0 : Int) ≤ member by omega) (by omega)
  omega

/-- A batch is no larger than the lease count. -/
theorem batch_length_le (batch : DecodeBatch) :
    batch.batchRequests.length ≤ batch.geometry.maxRequests := by
  have inside : batch.batchRequests.map RequestCache.slot ⊆
      List.range batch.geometry.maxRequests := by
    intro slot member
    rcases List.mem_map.mp member with ⟨request, inBatch, rfl⟩
    exact List.mem_range.mpr (batch.held request inBatch)
  have counted := (batch.distinct.subperm inside).length_le
  rwa [List.length_map, List.length_range] at counted

variable (resolver : Resolver) (buffers : DecodeBuffers)

/-- A row of the resolver's call has the slot and the blocks of its request. -/
theorem resolverCall_row (li : Nat) {request : RequestCache} {row : Nat}
    (listed : (request, row) ∈ batch.batchRequests.zipIdx) :
    let call := batch.toAdapter.resolverCall li raw buffers
    call.rowSlots row = request.slot ∧ call.batchLens row = request.seqLen / 4 := by
  have found : batch.batchRequests[((row : Nat) : Int).toNat]? = some request := by
    rw [Int.toNat_natCast]
    exact List.mem_zipIdx_iff_getElem?.mp listed
  simp only [Adapter.resolverCall, found]
  exact ⟨rfl, rfl⟩

/-- The resolver's call is proper at a row that selects. -/
theorem resolverCall_proper (li : Nat) {request : RequestCache} {row : Nat}
    (listed : (request, row) ∈ batch.batchRequests.zipIdx) {blocks : Int -> Int}
    (selects : Selects raw row request.seqLen blocks) :
    let call := batch.toAdapter.resolverCall li raw buffers
    call.Proper row ∧ call.rowSlots row = request.slot ∧ call.batchLens row = request.seqLen / 4 ∧
      forall index, 0 ≤ index -> index < min (request.seqLen / 4) 512 ->
        call.blocks (row * 512 + index) = blocks index := by
  intro call
  have found : batch.batchRequests[row]? = some request := List.mem_zipIdx_iff_getElem?.mp listed
  have inBatch : row < batch.batchRequests.length := (List.getElem?_eq_some_iff.mp found).1
  have slot : call.rowSlots row = request.slot := (resolverCall_row buffers li listed).1
  have length : call.batchLens row = request.seqLen / 4 := (resolverCall_row buffers li listed).2
  have named : forall index, 0 ≤ index -> index < min (request.seqLen / 4) 512 ->
      call.blocks (row * 512 + index) = blocks index := by
    intro index first last
    change raw ((row * 512 + index) / 512 * 2051 + (row * 512 + index) % 512 * 4) / 4 = _
    have place : (row * 512 + index) / 512 * 2051 + (row * 512 + index) % 512 * 4 =
        row * 2051 + (index * 4 + 0) := by omega
    rw [place, selects.expanded index 0 first last (by omega) (by omega)]
    omega
  refine ⟨⟨⟨by omega, Int.ofNat_lt.mpr inBatch⟩, ?_, ?_, ?_⟩, slot, length, named⟩
  · intro index first last
    rw [length] at last
    rw [named index first last, length]
    exact selects.complete index first last
  · intro left right leftFirst leftLast rightFirst rightLast same
    rw [length] at leftLast rightLast
    rw [named left leftFirst leftLast, named right rightFirst rightLast] at same
    exact selects.distinct left right leftFirst leftLast rightFirst rightLast same
  · intro other first last same
    have small : other.toNat < batch.batchRequests.length := by
      have real : call.real = batch.batchRequests.length := rfl
      omega
    have otherSlot : call.rowSlots other = (batch.batchRequests[other.toNat]).slot := by
      change (batch.batchRequests[other.toNat]?).elim 0 _ = _
      rw [List.getElem?_eq_getElem small]
      rfl
    have here : batch.batchRequests[row] = request := by
      have got := List.getElem?_eq_getElem inBatch
      rw [found] at got
      exact (Option.some.inj got).symm
    rw [slot, otherSlot, <- here] at same
    have otherPlace : other.toNat < (batch.batchRequests.map RequestCache.slot).length := by
      rwa [List.length_map]
    have rowPlace : row < (batch.batchRequests.map RequestCache.slot).length := by
      rwa [List.length_map]
    have slots : (batch.batchRequests.map RequestCache.slot)[other.toNat] =
        (batch.batchRequests.map RequestCache.slot)[row] := by
      simp only [List.getElem_map]
      exact_mod_cast same
    have places := (List.Nodup.getElem_inj_iff batch.distinct).mp slots
    omega

/-- Every gathered index is a hot row, so the gather returns. -/
theorem gathered_bounds (returns : resolver.ReturnsRecords)
    (selecting : Selecting batch li raw) {address : Nat}
    (inside : address < batch.batchRequests.length * 512) :
    0 ≤ batch.toAdapter.gathered li resolver raw buffers address ∧
      batch.toAdapter.gathered li resolver raw buffers address <
        batch.geometry.maxRequests * 2112 := by
  have row : address / 512 < batch.batchRequests.length := by omega
  have listed : (batch.batchRequests[address / 512], address / 512) ∈
      batch.batchRequests.zipIdx :=
    List.mem_zipIdx_iff_getElem?.mpr (List.getElem?_eq_getElem row)
  have slot := batch.held _ (List.getElem_mem row)
  have bound : batch.geometry.maxRequests = batch.slots.geometry.maxRequests := rfl
  have least := batch.geometry.lease_least
  rcases selecting.selects _ listed with ⟨blocks, selects⟩
  rcases resolverCall_proper buffers li listed selects with ⟨proper, rowSlot, rowLength, -⟩
  unfold Adapter.gathered gatherIndices
  generalize batch.toAdapter.resolverCall li raw buffers = call at *
  by_cases masked : (address : Int) % 512 ≥ call.batchLens ((address : Int) / 512)
  · rw [if_pos masked]
    omega
  · rw [if_neg masked]
    have place : ((address / 512 : Nat) : Int) * 512 + (address : Int) % 512 = address := by omega
    have whole : ((address / 512 : Nat) : Int) = (address : Int) / 512 := by omega
    rw [<- whole] at masked
    rcases returns.inside call _ proper ((address : Int) % 512) (by omega) (by omega) with
      ⟨hotRow, first, last, out⟩
    rw [place, rowSlot] at out
    rw [out]
    omega

/-- The compact row the compact table names at a token holds the token's K row
in the K plane and its V row in the V plane. -/
def CompactReads (geometry : Geometry) (slot : Nat) (content : RawTokens) (li : Nat)
    (token : Int) (buffers : DecodeBuffers) : Prop :=
  forall dim : Int, 0 ≤ dim -> dim < 256 ->
    buffers.compact ((0 * (geometry.maxRequests * 2052) +
      buffers.compactTable (slot * geometry.stagingTokens + token)) * 256 + dim) =
        content.k li token dim ∧
    buffers.compact ((1 * (geometry.maxRequests * 2052) +
      buffers.compactTable (slot * geometry.stagingTokens + token)) * 256 + dim) =
        content.v li token dim

/-- A layer that a selection can read: its tokens are in place, its table is truthful and
a short prefix is resident. -/
structure Selectable (geometry : Geometry) (slot : Nat) (content : RawTokens) (li : Nat)
    (length : Int) (buffers : DecodeBuffers) : Prop where
  settled : Settled geometry slot content li length buffers
  table : TruthfulTable slot content li length buffers
  short : length / 4 ≤ 2048 -> Resident slot content li length buffers

/-- The resolver's call is truthful at the row of such a layer. -/
theorem Selectable.call_truthful {request : RequestCache} {content : RawTokens}
    (selectable : Selectable batch.geometry request.slot content li request.seqLen buffers)
    {row : Nat} (listed : (request, row) ∈ batch.batchRequests.zipIdx) :
    (batch.toAdapter.resolverCall li raw buffers).Truthful row := by
  have slot : (batch.toAdapter.resolverCall li raw buffers).rowSlots row = request.slot :=
    (resolverCall_row buffers li listed).1
  have length : (batch.toAdapter.resolverCall li raw buffers).batchLens row =
      request.seqLen / 4 := (resolverCall_row buffers li listed).2
  constructor
  · intro hotRow lower upper names below byte first last
    rw [slot] at names ⊢
    change 0 ≤ buffers.tokens li (request.slot * 2112 + hotRow) at names
    have entry := selectable.table.named hotRow lower upper names
    have stored := selectable.settled.host _ byte names entry.1 first last
    change buffers.hot li _ = buffers.hostSlabs ((buffers.tokens li (request.slot * 2112 + hotRow) +
      ((request.slot : Int) * 12 + li) * (batch.geometry.stagingTokens / 4 : Nat)) * 2048 + byte)
    rw [entry.2 byte first last, <- stored]
    congr 1
    simp only [hostView]
    push_cast
    ring
  · intro some
    rw [slot, length]
    exact selectable.table.newest (length ▸ some)
  · intro few block lower upper
    rw [slot]
    rw [length] at few upper
    exact (selectable.short few).named block lower upper

/-- A gathered and unpacked member is a row of its selected token. -/
theorem unpacked_member (returns : resolver.ReturnsRecords) {request : RequestCache} {row : Nat}
    (listed : (request, row) ∈ batch.batchRequests.zipIdx) {blocks : Int -> Int}
    (selects : Selects raw row request.seqLen blocks) {content : RawTokens}
    (selectable : Selectable batch.geometry request.slot content li request.seqLen buffers)
    {plane member dim : Int} (which : plane = 0 ∨ plane = 1) (first : 0 ≤ member)
    (last : member < selectedCount request.seqLen) (lower : 0 ≤ dim) (upper : dim < 256) :
    batch.toAdapter.unpacked li resolver raw buffers
        ((row * 2 + plane) * 2048 * 256 + (member * 256 + dim)) =
      content.record li (blocks (member / 4)) ((member % 4 + 4 * plane) * 256 + dim) := by
  have inRange : member / 4 < min (request.seqLen / 4) 512 := by
    unfold selectedCount at last
    omega
  have fits : member < 2048 := by omega
  have block := selects.complete (member / 4) (by omega) inRange
  rcases resolverCall_proper buffers li listed selects with ⟨proper, rowSlot, rowLength, named⟩
  have bytes := returns.records _ row proper (selectable.call_truthful buffers listed) (member / 4)
    (by omega) (by rw [rowLength]; exact inRange)
  have index : batch.toAdapter.gathered li resolver raw buffers (row * 512 + member / 4) =
      (resolver (batch.toAdapter.resolverCall li raw buffers)).out (row * 512 + member / 4) := by
    have inRow : (row * 512 + member / 4) % 512 = member / 4 := by omega
    have batchRow : (row * 512 + member / 4) / 512 = row := by omega
    unfold Adapter.gathered gatherIndices
    rw [inRow, batchRow, if_neg (by omega)]
  have hot : (batch.toAdapter.resolved li resolver raw buffers).hot li =
      (resolver (batch.toAdapter.resolverCall li raw buffers)).hot := by
    unfold Adapter.resolved
    simp only [Function.update_self]
  unfold Adapter.unpacked
  rw [unpackRows_gatherRows _ _ row which first fits lower upper, index, hot,
    bytes ((member % 4 + 4 * plane) * 256 + dim) (by omega) (by omega),
    <- selectable.settled.host (blocks (member / 4)) ((member % 4 + 4 * plane) * 256 + dim) block.1 block.2
      (by omega) (by omega),
    rowSlot, named (member / 4) (by omega) inRange]
  change buffers.hostSlabs ((blocks (member / 4) + ((request.slot : Int) * 12 + li) *
    (batch.geometry.stagingTokens / 4 : Nat)) * 2048 + _) = _
  congr 1
  simp only [hostView]
  push_cast
  ring

/-- The selection of a selecting batch returns. -/
theorem selected_returns (returns : resolver.ReturnsRecords)
    (selecting : Selecting batch li raw) :
    batch.toAdapter.selected li resolver raw buffers = .ok (batch.batchRequests.zipIdx.foldl
      (fun buffers' entry => finishedBuffers batch.geometry li raw
        (batch.toAdapter.unpacked li resolver raw buffers) entry.2 entry.1 buffers')
      (batch.toAdapter.resolved li resolver raw buffers)) := by
  have checks : batch.batchRequests.forM (batch.toAdapter.checkRow li) = .ok () := by
    apply forM_succeeds
    intro request member
    have permits := selecting.permits request member
    unfold Adapter.checkRow
    have held : batch.toAdapter.ask (require request.lease []) = .ok ⟨⟩ := by
      rcases ask_returned batch.toAdapter (require_checks batch.slots request.lease [])
        ⟨permits.1, fun asked => absurd rfl asked⟩ with ⟨_, _, asked, _⟩
      exact asked
    rw [held, Except.ok_bind, ask_require batch.toAdapter permits, Except.ok_bind,
      selecting.current request member]
    simp only [ne_eq, not_true_eq_false, if_false]
  have bounds := fun (address : Nat) (inside : address < batch.batchRequests.length * 512) =>
    gathered_bounds resolver buffers returns selecting inside
  unfold Adapter.selected
  rw [if_neg]
  · rw [checks, Except.ok_bind, if_pos bounds]
    exact finishRows_returns batch li selecting.valid (fun _ => selecting.below) _ _
  · rintro (idle | empty | many)
    · rw [batch.decodes] at idle
      cases idle
    · exact selecting.nonempty empty
    · have few := batch_length_le batch
      omega

/-- A selection reads all tokens of the row. -/
theorem selected_reads (returns : resolver.ReturnsRecords) (selecting : Selecting batch li raw)
    {after : DecodeBuffers}
    (returned : batch.toAdapter.selected li resolver raw buffers = .ok after)
    {request : RequestCache} {row : Nat} {content : RawTokens}
    (listed : (request, row) ∈ batch.batchRequests.zipIdx)
    (selectable : Selectable batch.geometry request.slot content li request.seqLen buffers)
    {member : Int} (first : 0 ≤ member)
    (last : member < selectedCount request.seqLen + request.seqLen % 4) :
    CompactReads batch.geometry request.slot content li (raw (row * 2051 + member)) after := by
  rw [selected_returns resolver buffers returns selecting] at returned
  cases returned
  intro dim lower upper
  have least := (batch.decoding request (List.fst_mem_of_mem_zipIdx listed)).length_least
  rcases selecting.selects _ listed with ⟨blocks, selects⟩
  rcases finishedRows_member batch li selecting.valid (fun _ => selecting.below)
    (batch.toAdapter.unpacked li resolver raw buffers)
    (batch.toAdapter.resolved li resolver raw buffers) listed first last with ⟨place, bytes⟩
  rw [place, (bytes dim lower upper).1, (bytes dim lower upper).2]
  unfold compactByte
  by_cases chosen : member < selectedCount request.seqLen
  · have kMember := unpacked_member resolver buffers returns listed selects selectable
      (Or.inl rfl) first chosen lower upper
    have vMember := unpacked_member resolver buffers returns listed selects selectable
      (Or.inr rfl) first chosen lower upper
    have byteInK : (member % 4 + 4 * 0) * 256 + dim = member % 4 * 256 + dim := by omega
    have byteInV : (member % 4 + 4 * 1) * 256 + dim - 1024 = member % 4 * 256 + dim := by omega
    have token : (member % 4 * 256 + dim) / 256 = member % 4 := by omega
    have column : (member % 4 * 256 + dim) % 256 = dim := by omega
    have order : 4 * blocks (member / 4) + member % 4 = blocks (member / 4) * 4 + member % 4 := by
      omega
    rw [if_pos (by omega), if_pos (by omega), selects.selected first chosen, kMember, vMember]
    unfold RawTokens.record
    rw [if_pos (by omega), if_neg (by omega), byteInV, byteInK, token, column, order]
    exact ⟨rfl, rfl⟩
  · have pending := selectable.settled.ring (member - selectedCount request.seqLen) dim (by omega)
      (by omega) lower upper
    have address : (ringBase batch.geometry + request.slot * 5 + 1) * 256 +
        (member * 256 + dim - selectedCount request.seqLen * 256) =
        (ringBase batch.geometry + request.slot * 5 + 1 +
          (member - selectedCount request.seqLen)) * 256 + dim := by
      ring
    rw [if_neg (by omega), if_neg (by omega), selects.pending (not_lt.mp chosen) last, address]
    exact pending

end Batch

end Decode
end QSAHiSparse

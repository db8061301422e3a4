import QSAHiSparse.Decode.Eager
import QSAHiSparse.Foundation.Fallible

namespace QSAHiSparse
namespace Decode

open Foundation
open Ledger

/-!
# What the eager path leaves

Each operation of the eager path, when it returns, leaves buffers that are
described address by address.  The descriptions do not mention the order of
the copies.
-/

/-- A byte of the packed record whose K and V rows start at `start`. -/
def recordByte (k v : Memory UInt8) (start byte : Int) : UInt8 :=
  if byte < 1024 then k (start + byte) else v (start + (byte - 1024))

section Close

variable (k v : Memory UInt8) (ringBase slot block : Int)

/-- The hot rows after a close: the newest row and the block's own row hold
the record of the ring. -/
def closedHot (hot : Memory UInt8) : Memory UInt8 := fun address =>
  let ring := (ringBase + slot * 5 + 1) * 256
  let newest := (slot * 2112 + 2048) * 2048
  let row := (slot * 2112 + block) * 2048
  if newest ≤ address ∧ address < newest + 2048 then
    recordByte k v ring (address - newest)
  else if block < 2048 ∧ row ≤ address ∧ address < row + 2048 then
    recordByte k v ring (address - row)
  else
    hot address

/-- The residency tokens after a close. -/
def closedTokens (tokens : Memory Int) : Memory Int := fun address =>
  if address = slot * 2112 + 2048 ∨ (block < 2048 ∧ address = slot * 2112 + block) then block
  else tokens address

end Close

/-- The two copies from the ring fill a row with its record. -/
theorem blit_record (hot k v : Memory UInt8) (row ring address : Int) :
    blit (blit hot row k ring 1024) (row + 1024) v ring 1024 address =
      if row ≤ address ∧ address < row + 2048 then recordByte k v ring (address - row)
      else hot address := by
  unfold recordByte
  by_cases first : row ≤ address ∧ address < row + 1024
  · rw [blit_outside _ _ _ (Or.inl (by omega)), blit_inside _ _ _ first.1 first.2,
      if_pos (by omega), if_pos (by omega)]
  · by_cases second : row + 1024 ≤ address ∧ address < row + 1024 + 1024
    · rw [blit_inside _ _ _ second.1 second.2, if_pos (by omega), if_neg (by omega)]
      congr 1
      omega
    · rw [blit_outside _ _ _ (by omega), blit_outside _ _ _ (by omega), if_neg (by omega)]

/-- The hot rows between the ring copies and the resident copy. -/
def newestHot (k v : Memory UInt8) (ringBase slot : Int) (hot : Memory UInt8) : Memory UInt8 :=
  fun address =>
    let newest := (slot * 2112 + 2048) * 2048
    if newest ≤ address ∧ address < newest + 2048 then
      recordByte k v ((ringBase + slot * 5 + 1) * 256) (address - newest)
    else
      hot address

theorem copyRing_eq (geometry : Geometry) (li slot : Nat) (buffers : DecodeBuffers) :
    copyRing geometry li slot buffers = .ok { buffers with
      hot := Function.update buffers.hot li
        (newestHot (buffers.kBuffer li) (buffers.vBuffer li) (ringBase geometry) slot
          (buffers.hot li)) } := by
  unfold copyRing newestHot
  rw [hotView_row slot (by decide) (by decide), ringView_row geometry slot (by decide) (by decide)]
  have record := blit_record (buffers.hot li) (buffers.kBuffer li) (buffers.vBuffer li)
  simp only [<- record]
  rfl

theorem setToken_eq (li slot : Nat) {index : Int} (lower : 0 ≤ index) (upper : index < 2112)
    (block : Int) (buffers : DecodeBuffers) :
    setToken li slot index block buffers = .ok { buffers with
      tokens := Function.update buffers.tokens li
        (Function.update (buffers.tokens li) (slot * 2112 + index) block) } := by
  unfold setToken
  rw [tokensView_row slot lower upper]
  rfl

/-- The resident copy takes the record from the newest row. -/
theorem blit_newestHot (k v : Memory UInt8) (ringBase slot : Int) {block : Int}
    (small : block < 2048) (hot : Memory UInt8) :
    blit (newestHot k v ringBase slot hot) ((slot * 2112 + block) * 2048)
        (newestHot k v ringBase slot hot) ((slot * 2112 + 2048) * 2048) 2048 =
      closedHot k v ringBase slot block hot := by
  funext address
  by_cases inRow : (slot * 2112 + block) * 2048 ≤ address ∧
      address < (slot * 2112 + block) * 2048 + 2048
  · rw [blit_inside _ _ _ inRow.1 inRow.2]
    simp only [newestHot, closedHot]
    rw [if_pos (by omega), if_neg (by omega), if_pos ⟨small, inRow⟩]
    congr 1
    omega
  · rw [blit_outside _ _ _ (by omega)]
    simp only [newestHot, closedHot]
    congr 1
    rw [if_neg fun both => inRow both.2]

theorem newestHot_eq_closedHot (k v : Memory UInt8) (ringBase slot : Int) {block : Int}
    (large : ¬ block < 2048) (hot : Memory UInt8) :
    newestHot k v ringBase slot hot = closedHot k v ringBase slot block hot := by
  funext address
  simp only [newestHot, closedHot]
  congr 1
  rw [if_neg fun both => large both.1]

/-- A close of a formed block returns, and leaves the closed rows. -/
theorem closeBlock_eq (geometry : Geometry) (li slot : Nat) {block : Int} (formed : 0 ≤ block)
    (buffers : DecodeBuffers) :
    closeBlock geometry li slot block buffers = .ok { buffers with
      hot := Function.update buffers.hot li
        (closedHot (buffers.kBuffer li) (buffers.vBuffer li) (ringBase geometry) slot block
          (buffers.hot li))
      tokens := Function.update buffers.tokens li
        (closedTokens slot block (buffers.tokens li)) } := by
  unfold closeBlock
  rw [copyRing_eq, Except.ok_bind]
  unfold keepResident
  by_cases small : block < 2048
  · rw [if_pos small, hotView_row slot (by decide) (by decide),
      hotView_row slot formed (by omega)]
    rw [Except.ok_bind, Except.ok_bind, setToken_eq li slot formed (by omega), Except.ok_bind,
      setToken_eq li slot (by decide) (by decide)]
    have tokens : Function.update (Function.update (buffers.tokens li) (slot * 2112 + block) block)
        (slot * 2112 + 2048) block = closedTokens slot block (buffers.tokens li) := by
      funext address
      simp only [closedTokens, Function.update_apply]
      split_ifs <;> first | rfl | omega
    simp only [Function.update_self, Function.update_idem, blit_newestHot _ _ _ _ small, tokens]
  · rw [if_neg small]
    rw [pure_bind, setToken_eq li slot (by decide) (by decide)]
    have tokens : Function.update (buffers.tokens li) (slot * 2112 + 2048) block =
        closedTokens slot block (buffers.tokens li) := by
      funext address
      simp only [closedTokens, Function.update_apply, small, false_and, or_false]
    simp only [newestHot_eq_closedHot _ _ _ _ small, tokens]

/-- A close that returns has closed the block and written its record back. -/
theorem writeBack_eq (geometry : Geometry) (li slot : Nat) {block : Int} (formed : 0 ≤ block)
    (held : block < (geometry.stagingTokens / 4 : Nat)) (buffers : DecodeBuffers) :
    writeBack geometry li slot block buffers = .ok { buffers with
      hostSlabs := blit buffers.hostSlabs ((hostView geometry slot li).base + block * 2048)
        (buffers.hot li) ((slot * 2112 + 2048) * 2048) 2048 } := by
  unfold writeBack
  rw [hotView_row slot (by decide) (by decide), View.row_nonneg formed held]
  rfl

/-! ## after_store -/

/-- What `after_store` of a handed-off request leaves. -/
def storedBuffers (geometry : Geometry) (li : Nat) (self : RequestCache)
    (buffers : DecodeBuffers) : DecodeBuffers :=
  if self.seqLen % 4 ≠ 0 then
    buffers
  else
    let block := self.seqLen / 4 - 1
    let hot := closedHot (buffers.kBuffer li) (buffers.vBuffer li) (ringBase geometry) self.slot
      block (buffers.hot li)
    { buffers with
      hot := Function.update buffers.hot li hot
      tokens := Function.update buffers.tokens li
        (closedTokens self.slot block (buffers.tokens li))
      hostSlabs := blit buffers.hostSlabs
        ((hostView geometry self.slot li).base + block * 2048) hot
        ((self.slot * 2112 + 2048) * 2048) 2048 }

/-- A handed-off request whose length is a context length. -/
structure RequestCache.Decoding (geometry : Geometry) (request : RequestCache) : Prop where
  handed_off : request.offloaded = true
  length_least : 1 ≤ request.seqLen
  length_most : request.seqLen ≤ geometry.stagingTokens

theorem afterStore_eq {geometry : Geometry} {li : Nat} {request : RequestCache}
    (decoding : request.Decoding geometry) (current : request.states[li]? = some request.generation)
    (buffers : DecodeBuffers) :
    request.afterStore geometry li buffers = .ok (storedBuffers geometry li request buffers) := by
  unfold RequestCache.afterStore storedBuffers
  by_cases closes : request.seqLen % 4 ≠ 0
  · rw [if_pos (Or.inr closes), if_pos closes]
  · have formed : 0 ≤ request.seqLen / 4 - 1 := by
      have least := decoding.length_least
      omega
    have held : request.seqLen / 4 - 1 < (geometry.stagingTokens / 4 : Nat) := by
      have most := decoding.length_most
      omega
    rw [if_neg (by simp [decoding.handed_off, closes]), if_neg closes, current]
    simp only [ne_eq, not_true_eq_false, if_false]
    unfold closeAndWriteBack
    rw [closeBlock_eq geometry li request.slot formed, Except.ok_bind,
      writeBack_eq geometry li request.slot formed held]
    simp only [Function.update_self]

/-- An `after_store` that returns found the layer state of its generation, if
it closes a block. -/
theorem afterStore_ok {geometry : Geometry} {li : Nat} {request : RequestCache}
    (decoding : request.Decoding geometry) {buffers after : DecodeBuffers}
    (returned : request.afterStore geometry li buffers = .ok after) :
    after = storedBuffers geometry li request buffers := by
  by_cases closes : request.seqLen % 4 ≠ 0
  · unfold RequestCache.afterStore at returned
    unfold storedBuffers
    rw [if_pos (Or.inr closes)] at returned
    rw [if_pos closes]
    cases returned
    rfl
  · have current : request.states[li]? = some request.generation := by
      unfold RequestCache.afterStore at returned
      rw [if_neg (by simp [decoding.handed_off, closes])] at returned
      cases state : request.states[li]? with
      | none =>
          simp only [state] at returned
          cases returned
      | some generation =>
          simp only [state] at returned
          by_cases stale : generation ≠ request.generation
          · rw [if_pos stale] at returned
            cases returned
          · rw [not_not.mp stale]
    rw [afterStore_eq decoding current] at returned
    cases returned
    rfl

/-! ## finish_selected -/

/-- A byte of a plane of the compact rows, counted from row 1: an unpacked
member, then the ring tail. -/
def compactByte (unpacked : Memory UInt8) (unpackedStart : Int) (ringMemory : Memory UInt8)
    (ring selected byte : Int) : UInt8 :=
  if byte < selected * 256 then unpacked (unpackedStart + byte)
  else ringMemory (ring + (byte - selected * 256))

/-- The address of row 1 of a slot's compact rows. -/
def compactFirst (geometry : Geometry) (plane slot : Nat) : Int :=
  (plane * (geometry.maxRequests * 2052) + slot * 2052 + 1) * 256

section Compact

variable (geometry : Geometry) (slot : Nat) (selected tail : Int)
variable (k v unpacked : Memory UInt8) (kStart vStart : Int)

/-- The compact rows that `finish_selected` leaves. -/
def finishedCompact (compact : Memory UInt8) : Memory UInt8 := fun address =>
  let ring := (ringBase geometry + slot * 5 + 1) * 256
  let kFirst := compactFirst geometry 0 slot
  let vFirst := compactFirst geometry 1 slot
  if kFirst ≤ address ∧ address < kFirst + (selected + tail) * 256 then
    compactByte unpacked kStart k ring selected (address - kFirst)
  else if vFirst ≤ address ∧ address < vFirst + (selected + tail) * 256 then
    compactByte unpacked vStart v ring selected (address - vFirst)
  else
    compact address

/-- Members and tail of one plane lie next to each other. -/
theorem blit_compactByte (compact ringMemory : Memory UInt8) (first start ring address : Int)
    (some : 0 ≤ selected) (rest : 0 ≤ tail) :
    blit (blit compact first unpacked start (selected * 256)) (first + selected * 256)
        ringMemory ring (tail * 256) address =
      if first ≤ address ∧ address < first + (selected + tail) * 256 then
        compactByte unpacked start ringMemory ring selected (address - first)
      else compact address := by
  unfold compactByte
  by_cases member : first ≤ address ∧ address < first + selected * 256
  · rw [blit_outside _ _ _ (Or.inl (by omega)), blit_inside _ _ _ member.1 member.2,
      if_pos (by omega), if_pos (by omega)]
  · by_cases pending : first + selected * 256 ≤ address ∧
        address < first + selected * 256 + tail * 256
    · rw [blit_inside _ _ _ pending.1 pending.2, if_pos (by omega), if_neg (by omega)]
      congr 1
      omega
    · rw [blit_outside _ _ _ (by omega), blit_outside _ _ _ (by omega), if_neg (by omega)]

/-- The four copies of `finish_selected` leave the finished rows. -/
theorem blit_finishedCompact (compact : Memory UInt8) (some : 0 ≤ selected)
    (fits : selected ≤ 2048) (rest : 0 ≤ tail) (short : tail < 4) :
    let ring := (ringBase geometry + slot * 5 + 1) * 256
    let kFirst := compactFirst geometry 0 slot
    let vFirst := compactFirst geometry 1 slot
    blit (blit (blit (blit compact kFirst unpacked kStart (selected * 256))
          vFirst unpacked vStart (selected * 256))
        (kFirst + selected * 256) k ring (tail * 256))
      (vFirst + selected * 256) v ring (tail * 256) =
    finishedCompact geometry slot selected tail k v unpacked kStart vStart compact := by
  intro ring kFirst vFirst
  have planes : kFirst + 2052 * 256 ≤ vFirst := by
    have least := geometry.lease_least
    simp only [kFirst, vFirst, compactFirst]
    omega
  funext address
  change _ = if kFirst ≤ address ∧ address < kFirst + (selected + tail) * 256 then
      compactByte unpacked kStart k ring selected (address - kFirst)
    else if vFirst ≤ address ∧ address < vFirst + (selected + tail) * 256 then
      compactByte unpacked vStart v ring selected (address - vFirst)
    else
      compact address
  by_cases inV : vFirst ≤ address
  · rw [blit_congr (blit_outside _ _ _ (Or.inr (by omega))),
      blit_compactByte selected tail unpacked _ _ _ _ _ _ some rest,
      if_neg (show ¬ (kFirst ≤ address ∧ address < kFirst + (selected + tail) * 256) by omega),
      blit_outside compact unpacked kStart (Or.inr (by omega))]
  · rw [blit_outside _ _ _ (Or.inl (by omega)),
      blit_congr (blit_outside _ _ _ (Or.inl (by omega))),
      blit_compactByte selected tail unpacked _ _ _ _ _ _ some rest,
      if_neg (show ¬ (vFirst ≤ address ∧ address < vFirst + (selected + tail) * 256) by omega)]

theorem copyCompact_eq (compact : Memory UInt8) (some : 0 ≤ selected)
    (fits : selected ≤ 2048) (rest : 0 ≤ tail) (short : tail < 4) :
    (copyMembers geometry slot selected unpacked kStart vStart compact >>=
        copyTail geometry slot selected tail k v) =
      .ok (finishedCompact geometry slot selected tail k v unpacked kStart vStart compact) := by
  have start : forall plane : Nat,
      ((plane : Int) * (geometry.maxRequests * 2052) + slot * 2052 + (1 + selected)) * 256 =
        compactFirst geometry plane slot + selected * 256 := by
    intro plane
    simp only [compactFirst]
    ring
  unfold copyMembers copyTail
  rw [compactView_row geometry 0 slot (by decide) (by decide),
    compactView_row geometry 1 slot (by decide) (by decide), Except.ok_bind, Except.ok_bind,
    pure_bind]
  rw [<- blit_finishedCompact geometry slot selected tail k v unpacked kStart vStart compact
    some fits rest short]
  by_cases open_ : tail ≠ 0
  · rw [if_pos open_, compactView_row geometry 0 slot (by omega) (by omega),
      compactView_row geometry 1 slot (by omega) (by omega),
      ringView_row geometry slot (by decide) (by decide), Except.ok_bind, Except.ok_bind,
      Except.ok_bind, start, start]
    rfl
  · have closed : tail = 0 := not_not.mp open_
    have empty : forall (target source : Memory UInt8) (base first : Int),
        blit target base source first (tail * 256) = target := by
      intro target source base first
      funext address
      exact blit_outside _ _ _ (by omega)
    rw [if_neg open_]
    simp only [empty]
    rfl

end Compact

/-- The stores of the compact table for `count` valid entries. -/
def tableStores (geometry : Geometry) (slot : Nat) (raw : Memory Int) (rawStart : Int)
    (count : Nat) : List (Store Int) :=
  (List.range count).map fun (member : Nat) =>
    ⟨slot * geometry.stagingTokens + raw (rawStart + member), slot * 2052 + 1 + member⟩

/-- The first entries of a selection row are raw tokens. -/
def EntriesBelow (raw : Memory Int) (rawStart : Int) (count : Nat) (bound : Int) : Prop :=
  forall member : Nat, member < count -> raw (rawStart + member) < bound

theorem tableCells_eq (geometry : Geometry) (slot : Nat) {raw : Memory Int} {rawStart : Int}
    {count : Nat}
    (nonneg : forall member : Nat, member < count -> 0 ≤ raw (rawStart + member))
    (below : EntriesBelow raw rawStart count geometry.stagingTokens) :
    tableCells geometry slot raw rawStart count =
      .ok (tableStores geometry slot raw rawStart count) := by
  apply mapM_succeeds
  intro member inRange
  have small := List.mem_range.mp inRange
  rw [View.row_nonneg (nonneg member small) (below member small), Except.ok_bind]
  simp only [tableView, mul_one]
  rfl

/-- An assignment that returns was in bounds. -/
theorem tableCells_ok (geometry : Geometry) (slot : Nat) {raw : Memory Int} {rawStart : Int}
    {count : Nat} {cells : List (Store Int)}
    (nonneg : forall member : Nat, member < count -> 0 ≤ raw (rawStart + member))
    (returned : tableCells geometry slot raw rawStart count = .ok cells) :
    EntriesBelow raw rawStart count geometry.stagingTokens ∧
      cells = tableStores geometry slot raw rawStart count := by
  have bounded := mapM_ok
    (fun member : Nat => raw (rawStart + member) < geometry.stagingTokens)
    (fun member : Nat => Store.mk
      (slot * geometry.stagingTokens + raw (rawStart + member)) (slot * 2052 + 1 + (member : Int)))
    (List.range count) ?_ returned
  · exact ⟨fun member small => bounded.1 member (List.mem_range.mpr small), bounded.2⟩
  · intro member inRange store stored
    rcases Except.bind_ok stored with ⟨cell, accepted, same⟩
    have found := View.row_ok (nonneg member (List.mem_range.mp inRange)) accepted
    cases same
    refine ⟨found.1, ?_⟩
    rw [found.2]
    simp only [tableView, mul_one]

section FinishSelected

variable {geometry : Geometry} {li row : Nat} {raw : Memory Int} {unpacked : Memory UInt8}
variable {request : RequestCache}

/-- What `finish_selected` leaves. -/
def finishedBuffers (geometry : Geometry) (li : Nat) (raw : Memory Int) (unpacked : Memory UInt8)
    (row : Nat) (request : RequestCache) (buffers : DecodeBuffers) : DecodeBuffers :=
  { buffers with
    compact := finishedCompact geometry request.slot (selectedCount request.seqLen)
      (request.seqLen % 4) (buffers.kBuffer li) (buffers.vBuffer li) unpacked
      ((row * 2 + 0) * 2048 * 256) ((row * 2 + 1) * 2048 * 256) buffers.compact
    compactTable := storeAll buffers.compactTable
      (tableStores geometry request.slot raw (row * 2051) (validCount request.seqLen)) }

/-- The valid entries of a selection row are not negative. -/
def EntriesNonneg (raw : Memory Int) (row : Nat) (seqLen : Int) : Prop :=
  forall member : Nat, member < validCount seqLen -> 0 ≤ raw (row * 2051 + member)

/-- Everything but the table assignment returns. -/
theorem finishSelected_cells (least : 1 ≤ request.seqLen) (buffers : DecodeBuffers) :
    request.finishSelected geometry li raw unpacked row buffers =
      (tableCells geometry request.slot raw (row * 2051) (validCount request.seqLen) >>=
        fun cells => .ok { buffers with
          compact := finishedCompact geometry request.slot (selectedCount request.seqLen)
            (request.seqLen % 4) (buffers.kBuffer li) (buffers.vBuffer li) unpacked
            ((row * 2 + 0) * 2048 * 256) ((row * 2 + 1) * 2048 * 256) buffers.compact
          compactTable := storeAll buffers.compactTable cells }) := by
  have some : 0 ≤ selectedCount request.seqLen := by
    unfold selectedCount
    omega
  have fits : selectedCount request.seqLen ≤ 2048 := by
    unfold selectedCount
    omega
  unfold RequestCache.finishSelected
  rw [<- bind_assoc, copyCompact_eq geometry request.slot _ _ _ _ _ _ _ _ some fits
    (by omega) (by omega), Except.ok_bind]
  rfl

theorem finishSelected_eq (least : 1 ≤ request.seqLen)
    (nonneg : EntriesNonneg raw row request.seqLen)
    (below : EntriesBelow raw (row * 2051) (validCount request.seqLen) geometry.stagingTokens)
    (buffers : DecodeBuffers) :
    request.finishSelected geometry li raw unpacked row buffers =
      .ok (finishedBuffers geometry li raw unpacked row request buffers) := by
  rw [finishSelected_cells least, tableCells_eq geometry request.slot nonneg below]
  rfl

/-- A `finish_selected` that returns had its entries inside the context. -/
theorem finishSelected_ok (least : 1 ≤ request.seqLen)
    (nonneg : EntriesNonneg raw row request.seqLen) {buffers after : DecodeBuffers}
    (returned : request.finishSelected geometry li raw unpacked row buffers = .ok after) :
    EntriesBelow raw (row * 2051) (validCount request.seqLen) geometry.stagingTokens ∧
      after = finishedBuffers geometry li raw unpacked row request buffers := by
  rw [finishSelected_cells least] at returned
  rcases Except.bind_ok returned with ⟨cells, stored, same⟩
  have bounded := tableCells_ok geometry request.slot nonneg stored
  cases same
  rw [bounded.2]
  exact ⟨bounded.1, rfl⟩

end FinishSelected

/-! ## Reads of the ledger -/

/-- A read whose guard holds answers with what it returns. -/
theorem ask_returned {α : Type} (adapter : Adapter) {method : Method QSAHiSparseSlots α}
    {guard : Prop} {returns : α -> QSAHiSparseSlots -> Prop}
    (checked : Checked guard adapter.slots returns (method.run adapter.slots)) (passes : guard) :
    exists value after, adapter.ask method = .ok value ∧ returns value after := by
  rcases checked.returned passes with ⟨value, after, ran, returned⟩
  refine ⟨value, after, ?_, returned⟩
  unfold Adapter.ask
  rw [ran]
  rfl

/-- A permitted lease passes its check. -/
theorem ask_require (adapter : Adapter) {lease : QSAHiSparseLease} {phases : List Phase}
    (permits : adapter.slots.Permits lease phases) :
    adapter.ask (require lease phases) = .ok ⟨⟩ := by
  rcases ask_returned adapter (require_checks adapter.slots lease phases)
    ⟨permits.1, fun _ => permits.2⟩ with ⟨_, _, asked, _⟩
  exact asked

end Decode
end QSAHiSparse

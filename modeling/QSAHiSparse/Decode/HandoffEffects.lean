import QSAHiSparse.Decode.Handoff

namespace QSAHiSparse
namespace Decode

open Foundation
open Ledger

/-!
# Where the raw tokens are

`HostRecords` and `RingTokens` say where the bytes of the raw tokens of one
layer are once a prompt is handed off: complete blocks on the host, the open
tail in the ring.  Each operation on a layer establishes its part of them and
leaves the other layers alone.
-/

/-- The K and V bytes of every raw token, by layer, token and dimension. -/
structure RawTokens where
  k : Nat -> Int -> Int -> UInt8
  v : Nat -> Int -> Int -> UInt8

/-- A byte of the packed record of the tokens `4 * block` to `4 * block + 3`:
the four K rows, then the four V rows. -/
def RawTokens.record (content : RawTokens) (li : Nat) (block byte : Int) : UInt8 :=
  if byte < 1024 then content.k li (4 * block + byte / 256) (byte % 256)
  else content.v li (4 * block + (byte - 1024) / 256) ((byte - 1024) % 256)

section Places

variable (geometry : Geometry) (slot : Nat) (content : RawTokens) (li : Nat)

/-- The first `count` tokens are staged. -/
def Staged (count : Int) (buffers : DecodeBuffers) : Prop :=
  forall token dim : Int, 0 ≤ token -> token < count -> 0 ≤ dim -> dim < 256 ->
    buffers.kBuffer li ((geometry.pageSize + token) * 256 + dim) = content.k li token dim ∧
    buffers.vBuffer li ((geometry.pageSize + token) * 256 + dim) = content.v li token dim

/-- The first `count` host records are the packed rows of their tokens. -/
def HostRecords (count : Int) (buffers : DecodeBuffers) : Prop :=
  forall block byte : Int, 0 ≤ block -> block < count -> 0 ≤ byte -> byte < 2048 ->
    buffers.hostSlabs ((hostView geometry slot li).base + block * 2048 + byte) =
      content.record li block byte

/-- The ring rows from 1 on hold the tokens past the last complete block. -/
def RingTokens (seqLen : Int) (buffers : DecodeBuffers) : Prop :=
  forall member dim : Int, 0 ≤ member -> member < seqLen % 4 -> 0 ≤ dim -> dim < 256 ->
    buffers.kBuffer li ((ringBase geometry + slot * 5 + 1 + member) * 256 + dim) =
      content.k li (seqLen / 4 * 4 + member) dim ∧
    buffers.vBuffer li ((ringBase geometry + slot * 5 + 1 + member) * 256 + dim) =
      content.v li (seqLen / 4 * 4 + member) dim

/-- All tokens of a layer are where decode looks for them. -/
structure Settled (seqLen : Int) (buffers : DecodeBuffers) : Prop where
  host : HostRecords geometry slot content li (seqLen / 4) buffers
  ring : RingTokens geometry slot content li seqLen buffers

/-- An operation on layer `li` of a slot leaves the raw rows and the host slabs
of the other layers alone. -/
structure LayerFrame (before after : DecodeBuffers) : Prop where
  kBuffer : forall other, other ≠ li -> after.kBuffer other = before.kBuffer other
  vBuffer : forall other, other ≠ li -> after.vBuffer other = before.vBuffer other
  host : forall address, ¬ (hostView geometry slot li).Covers address ->
    after.hostSlabs address = before.hostSlabs address

end Places

section Frames

variable {geometry : Geometry} {slot li : Nat} {content : RawTokens}

theorem LayerFrame.refl (buffers : DecodeBuffers) : LayerFrame geometry slot li buffers buffers :=
  ⟨fun _ _ => rfl, fun _ _ => rfl, fun _ _ => rfl⟩

theorem LayerFrame.trans {first second third : DecodeBuffers}
    (left : LayerFrame geometry slot li first second)
    (right : LayerFrame geometry slot li second third) :
    LayerFrame geometry slot li first third where
  kBuffer := fun other different =>
    (right.kBuffer other different).trans (left.kBuffer other different)
  vBuffer := fun other different =>
    (right.vBuffer other different).trans (left.vBuffer other different)
  host := fun address outside => (right.host address outside).trans (left.host address outside)

/-- The host slabs of two layers of a slot are disjoint. -/
theorem hostView_disjoint {other : Nat} (different : li ≠ other) {address : Int}
    (covered : (hostView geometry slot li).Covers address) :
    ¬ (hostView geometry slot other).Covers address := by
  have ends : forall low high : Nat, low < high ->
      (slot * 12 + low) * (geometry.stagingTokens / 4) + geometry.stagingTokens / 4 ≤
        (slot * 12 + high) * (geometry.stagingTokens / 4) := by
    intro low high apart
    rw [<- Nat.succ_mul]
    exact Nat.mul_le_mul_right _ (by omega)
  rintro ⟨lower, upper⟩
  simp only [View.Covers, hostView] at *
  rcases Nat.lt_or_gt_of_ne different with before | after
  · have bound := ends li other before
    omega
  · have bound := ends other li after
    omega

theorem LayerFrame.staged {other : Nat} (different : other ≠ li) {count : Int}
    {before after : DecodeBuffers} (frame : LayerFrame geometry slot li before after)
    (staged : Staged geometry content other count before) :
    Staged geometry content other count after := by
  intro token dim nonneg small lower upper
  rw [frame.kBuffer other different, frame.vBuffer other different]
  exact staged token dim nonneg small lower upper

theorem LayerFrame.settled {other : Nat} (different : other ≠ li) {seqLen : Int}
    (length : seqLen ≤ geometry.stagingTokens)
    {before after : DecodeBuffers} (frame : LayerFrame geometry slot li before after)
    (settled : Settled geometry slot content other seqLen before) :
    Settled geometry slot content other seqLen after := by
  constructor
  · intro block byte formed complete lower upper
    rw [<- settled.host block byte formed complete lower upper]
    apply frame.host
    refine hostView_disjoint different ?_
    have held : block < (geometry.stagingTokens / 4 : Nat) := by omega
    simp only [View.Covers, hostView] at *
    omega
  · intro member dim formed pending lower upper
    rw [frame.kBuffer other different, frame.vBuffer other different]
    exact settled.ring member dim formed pending lower upper

end Frames

/-! ## Records from rows -/

/-- Four consecutive rows that hold a block's tokens pack to its record. -/
theorem recordByte_of_rows {content : RawTokens} {li : Nat} {k v : Memory UInt8}
    {start block byte : Int}
    (rows : forall member dim : Int, 0 ≤ member -> member < 4 -> 0 ≤ dim -> dim < 256 ->
      k (start + member * 256 + dim) = content.k li (4 * block + member) dim ∧
      v (start + member * 256 + dim) = content.v li (4 * block + member) dim)
    (lower : 0 ≤ byte) (upper : byte < 2048) :
    recordByte k v start byte = content.record li block byte := by
  unfold recordByte RawTokens.record
  by_cases first : byte < 1024
  · rw [if_pos first, if_pos first,
      <- (rows (byte / 256) (byte % 256) (by omega) (by omega) (by omega) (by omega)).1]
    congr 1
    omega
  · rw [if_neg first, if_neg first,
      <- (rows ((byte - 1024) / 256) ((byte - 1024) % 256) (by omega) (by omega) (by omega)
        (by omega)).2]
    congr 1
    omega

/-- Staged rows of a complete block pack to its record. -/
theorem recordByte_of_staged {geometry : Geometry} {content : RawTokens} {li : Nat} {count : Int}
    {buffers : DecodeBuffers} (staged : Staged geometry content li count buffers)
    {block byte : Int} (formed : 0 ≤ block) (complete : 4 * block + 4 ≤ count)
    (lower : 0 ≤ byte) (upper : byte < 2048) :
    recordByte (buffers.kBuffer li) (buffers.vBuffer li)
        ((geometry.pageSize + 4 * block) * 256) byte = content.record li block byte := by
  refine recordByte_of_rows (fun member dim first last small large => ?_) lower upper
  have rows := staged (4 * block + member) dim (by omega) (by omega) small large
  have same : ((geometry.pageSize : Int) + 4 * block) * 256 + member * 256 + dim =
      (geometry.pageSize + (4 * block + member)) * 256 + dim := by omega
  rw [same]
  exact rows

/-! ## The copies of a handoff -/

/-- The lease copies and owns staging. -/
structure Copying (adapter : Adapter) (lease : QSAHiSparseLease) : Prop where
  permits : adapter.slots.Permits lease [.copying]
  owner : adapter.slots.prefillOwner = some lease

/-- Nothing that the places of raw tokens mention has changed. -/
structure RawKept (before after : DecodeBuffers) : Prop where
  kBuffer : after.kBuffer = before.kBuffer
  vBuffer : after.vBuffer = before.vBuffer
  host : after.hostSlabs = before.hostSlabs

section Copies

variable {adapter : Adapter} {lease : QSAHiSparseLease} {content : RawTokens} {li : Nat}

theorem ask_stagingSlice (copying : Copying adapter lease) {start stop : Nat}
    (ordered : start ≤ stop) (held : stop ≤ adapter.geometry.stagingTokens) :
    adapter.ask (stagingSlice lease start stop) =
      .ok ⟨adapter.geometry.pageSize + start, adapter.geometry.pageSize + stop⟩ := by
  have wider : adapter.slots.Permits lease [.prefill, .copying] := by
    rcases copying.permits with ⟨active, phase, present, member⟩
    exact ⟨active, phase, present, List.mem_cons_of_mem _ member⟩
  have held : (stop : Int) ≤ adapter.slots.geometry.stagingTokens := Int.ofNat_le.mpr held
  rcases ask_returned adapter (stagingSlice_outcome adapter.slots lease start stop)
    ⟨wider, not_not.mpr copying.owner, not_not.mpr ⟨by omega, by omega, held⟩, trivial⟩ with
    ⟨rows, after, asked, same, -⟩
  rw [asked, same]
  rfl

/-- A chunk extends the host records to its end. -/
theorem copyChunk_returns (copying : Copying adapter lease) {promptLen : Nat} (stop offset : Nat)
    (paged : offset % 4 = 0) (complete : stop % 4 = 0) (inside : offset ≤ stop)
    (prompt : stop ≤ promptLen) (fits : promptLen ≤ adapter.geometry.stagingTokens)
    {buffers : DecodeBuffers} (staged : Staged adapter.geometry content li promptLen buffers)
    (records : HostRecords adapter.geometry lease.slot content li (offset / 4 : Nat) buffers) :
    exists after, copyChunk adapter lease li stop buffers offset = .ok after ∧
      after.kBuffer = buffers.kBuffer ∧ after.vBuffer = buffers.vBuffer ∧
      LayerFrame adapter.geometry lease.slot li buffers after ∧
      HostRecords adapter.geometry lease.slot content li
        (min (offset + 4096) stop / 4 : Nat) after := by
  unfold copyChunk
  simp only
  have last : min (offset + 4096) stop ≤ stop := Nat.min_le_right _ _
  have first : offset ≤ min (offset + 4096) stop := by omega
  have whole : min (offset + 4096) stop % 4 = 0 := by omega
  generalize min (offset + 4096) stop = bound at *
  have rows : ¬ (adapter.geometry.pageSize + bound - (adapter.geometry.pageSize + offset)) * 256 %
      1024 ≠ 0 := by omega
  have slab : (bound / 4 : Nat) ≤ adapter.geometry.stagingTokens / 4 :=
    Nat.div_le_div_right (by omega)
  rw [ask_stagingSlice copying first (by omega), Except.ok_bind]
  unfold packC4
  rw [if_neg rows, Except.ok_bind]
  refine ⟨_, rfl, rfl, rfl, ⟨fun _ _ => rfl, fun _ _ => rfl, ?_⟩, ?_⟩
  · intro address outside
    simp only [View.Covers, hostView] at *
    rw [blit_outside _ _ _ (by omega)]
  · intro block byte formed small lower upper
    simp only
    by_cases earlier : block < (offset / 4 : Nat)
    · rw [blit_outside _ _ _ (by omega)]
      exact records block byte formed earlier lower upper
    · rw [blit_inside _ _ _ (by omega) (by omega)]
      have chunk : forall base : Int,
          0 + (base + block * 2048 + byte - (base + (offset / 4 : Nat) * 2048)) =
            (block - (offset / 4 : Nat)) * 2048 + byte := by
        intro base
        omega
      rw [chunk, <- recordByte_of_staged staged formed (by omega) lower upper]
      congr 1
      · push_cast
        omega
      · omega

/-- The chunks of a layer leave all complete blocks on the host. -/
theorem copyChunks_return (copying : Copying adapter lease) {promptLen : Nat}
    (fits : promptLen ≤ adapter.geometry.stagingTokens) {buffers : DecodeBuffers}
    (staged : Staged adapter.geometry content li promptLen buffers) :
    exists after,
      (chunkOffsets (promptLen / 4 * 4)).foldlM
        (copyChunk adapter lease li (promptLen / 4 * 4)) buffers = .ok after ∧
      after.kBuffer = buffers.kBuffer ∧ after.vBuffer = buffers.vBuffer ∧
      LayerFrame adapter.geometry lease.slot li buffers after ∧
      HostRecords adapter.geometry lease.slot content li (promptLen / 4 : Nat) after := by
  unfold chunkOffsets
  rw [List.foldlM_map]
  have looped := foldlM_range
    (fun state index => copyChunk adapter lease li (promptLen / 4 * 4) state (index * 4096))
    (fun index (state : DecodeBuffers) => state.kBuffer = buffers.kBuffer ∧
      state.vBuffer = buffers.vBuffer ∧ LayerFrame adapter.geometry lease.slot li buffers state ∧
      HostRecords adapter.geometry lease.slot content li
        (min (index * 4096) (promptLen / 4 * 4) / 4 : Nat) state)
    ((promptLen / 4 * 4 + 4095) / 4096) ?_
    ⟨rfl, rfl, LayerFrame.refl buffers, fun block byte formed small => by omega⟩
  · rcases looped with ⟨after, ran, sameK, sameV, frame, records⟩
    refine ⟨after, ran, sameK, sameV, frame, ?_⟩
    have all : min ((promptLen / 4 * 4 + 4095) / 4096 * 4096) (promptLen / 4 * 4) / 4 =
        promptLen / 4 := by omega
    rw [all] at records
    exact records
  · rintro index small state ⟨sameK, sameV, frame, records⟩
    have stagedHere : Staged adapter.geometry content li promptLen state := by
      unfold Staged
      rw [sameK, sameV]
      exact staged
    have reached : min (index * 4096) (promptLen / 4 * 4) = index * 4096 := by omega
    rw [reached] at records
    rcases copyChunk_returns copying (promptLen / 4 * 4) (index * 4096)
      (by omega) (by omega) (by omega) (by omega) fits stagedHere records with
      ⟨after, copied, keptK, keptV, moved, extended⟩
    refine ⟨after, copied, keptK.trans sameK, keptV.trans sameV, frame.trans moved, ?_⟩
    rw [Nat.succ_mul]
    exact extended

/-- The tail copy settles the layer. -/
theorem copyStagedTail_returns (copying : Copying adapter lease) {promptLen : Nat}
    (fits : promptLen ≤ adapter.geometry.stagingTokens) {buffers : DecodeBuffers}
    (staged : Staged adapter.geometry content li promptLen buffers)
    (records : HostRecords adapter.geometry lease.slot content li (promptLen / 4 : Nat) buffers) :
    exists after,
      copyStagedTail adapter lease li promptLen (promptLen % 4) buffers = .ok after ∧
      LayerFrame adapter.geometry lease.slot li buffers after ∧
      Settled adapter.geometry lease.slot content li promptLen after := by
  unfold copyStagedTail
  by_cases open_ : promptLen % 4 ≠ 0
  · rw [if_pos open_, ask_stagingSlice copying (by omega) fits, Except.ok_bind,
      ringView_row adapter.geometry lease.slot (by decide) (by decide), Except.ok_bind]
    refine ⟨_, rfl, ⟨fun other different => Function.update_of_ne different _ _,
      fun other different => Function.update_of_ne different _ _, fun _ _ => rfl⟩, ?_, ?_⟩
    · exact records
    · intro member dim formed pending lower upper
      simp only [Function.update_self]
      rw [blit_inside _ _ _ (by omega) (by omega), blit_inside _ _ _ (by omega) (by omega)]
      have rows := staged (promptLen / 4 * 4 + member) dim (by omega) (by omega) lower upper
      have same : forall base : Int,
          ((adapter.geometry.pageSize + (promptLen - promptLen % 4) : Nat) : Int) * 256 +
            ((base + member) * 256 + dim - base * 256) =
          (adapter.geometry.pageSize + ((promptLen : Int) / 4 * 4 + member)) * 256 + dim := by
        intro base
        omega
      rw [same]
      exact rows
  · rw [if_neg open_]
    refine ⟨buffers, rfl, LayerFrame.refl buffers, records, ?_⟩
    intro member dim formed pending
    omega

/-- Resetting a layer state moves no raw token. -/
theorem makeState_returns (copying : Copying adapter lease) {states : List Int}
    (room : states.length < 12) (buffers : DecodeBuffers) :
    exists after, makeState adapter lease states buffers = .ok after ∧ RawKept buffers after := by
  unfold makeState
  have held : adapter.ask (require lease []) = .ok ⟨⟩ := by
    rcases ask_returned adapter (require_checks adapter.slots lease [])
      ⟨copying.permits.1, fun asked => absurd rfl asked⟩ with ⟨_, _, asked, _⟩
    exact asked
  rw [ask_require adapter copying.permits, Except.ok_bind, held, Except.ok_bind, if_pos room]
  exact ⟨_, rfl, rfl, rfl, rfl⟩

theorem stageShortPrefix_kept (adapter : Adapter) (lease : QSAHiSparseLease) (li layer blocks : Nat) (buffers : DecodeBuffers) :
    RawKept buffers (stageShortPrefix adapter lease li layer blocks buffers) := by
  unfold stageShortPrefix
  by_cases short : blocks ≤ 2048
  · rw [if_pos short]
    exact ⟨rfl, rfl, rfl⟩
  · rw [if_neg short]
    exact ⟨rfl, rfl, rfl⟩

theorem stageNewest_returns (lease : QSAHiSparseLease) (li layer : Nat) {blocks : Nat}
    (held : blocks ≤ adapter.geometry.stagingTokens / 4) (buffers : DecodeBuffers) :
    exists after, stageNewest adapter lease li layer blocks buffers = .ok after ∧
      RawKept buffers after := by
  unfold stageNewest
  by_cases some : blocks ≠ 0
  · have record : ((blocks - 1 : Nat) : Int) <
        (hostView adapter.geometry lease.slot li).size := by
      simp only [hostView]
      omega
    rw [if_pos some, hotView_row lease.slot (by decide) (by decide), Except.ok_bind,
      View.row_nonneg (by omega) record, Except.ok_bind,
      setToken_eq layer lease.slot (by decide) (by decide)]
    exact ⟨_, rfl, rfl, rfl, rfl⟩
  · rw [if_neg some]
    exact ⟨buffers, rfl, rfl, rfl, rfl⟩

theorem RawKept.settled {before after : DecodeBuffers} (kept : RawKept before after)
    {geometry : Geometry} {slot : Nat} {seqLen : Int}
    (settled : Settled geometry slot content li seqLen before) :
    Settled geometry slot content li seqLen after := by
  constructor
  · intro block byte formed complete lower upper
    rw [kept.host]
    exact settled.host block byte formed complete lower upper
  · intro member dim formed pending lower upper
    rw [kept.kBuffer, kept.vBuffer]
    exact settled.ring member dim formed pending lower upper

theorem RawKept.frame {before after : DecodeBuffers} (kept : RawKept before after)
    {geometry : Geometry} {slot : Nat} : LayerFrame geometry slot li before after :=
  ⟨fun _ _ => by rw [kept.kBuffer], fun _ _ => by rw [kept.vBuffer], fun _ _ => by rw [kept.host]⟩

/-- One layer of a handoff settles that layer. -/
theorem handoffLayer_returns (copying : Copying adapter lease) {promptLen : Nat}
    (fits : promptLen ≤ adapter.geometry.stagingTokens) {states : List Int}
    (room : states.length < 12) {buffers : DecodeBuffers}
    (staged : Staged adapter.geometry content li promptLen buffers) :
    exists after, handoffLayer adapter lease promptLen (states, buffers) li =
        .ok (states ++ [lease.generation], after) ∧
      LayerFrame adapter.geometry lease.slot li buffers after ∧
      Settled adapter.geometry lease.slot content li promptLen after := by
  rcases copyChunks_return copying fits staged with
    ⟨copied, chunks, sameK, sameV, copyFrame, records⟩
  have stillStaged : Staged adapter.geometry content li promptLen copied := by
    unfold Staged
    rw [sameK, sameV]
    exact staged
  rcases copyStagedTail_returns copying fits stillStaged records with
    ⟨tailed, tail, tailFrame, settled⟩
  rcases makeState_returns copying room tailed with ⟨made, reset, madeKept⟩
  have shortKept := stageShortPrefix_kept adapter lease li states.length (promptLen / 4) made
  rcases stageNewest_returns lease li states.length
    (Nat.div_le_div_right fits) (stageShortPrefix adapter lease li states.length (promptLen / 4)
      made) with ⟨final, newest, newestKept⟩
  refine ⟨final, ?_, ?_, ?_⟩
  · unfold handoffLayer
    simp only
    rw [chunks, Except.ok_bind, tail, Except.ok_bind, reset, Except.ok_bind, newest]
    rfl
  · exact ((copyFrame.trans tailFrame).trans madeKept.frame).trans
      (shortKept.frame.trans newestKept.frame)
  · exact newestKept.settled (shortKept.settled (madeKept.settled settled))

end Copies

/-! ## The whole handoff -/

section Whole

variable {adapter : Adapter} {content : RawTokens}

theorem advance_returned {method : Method QSAHiSparseSlots PUnit} {guard : Prop}
    {returns : PUnit -> QSAHiSparseSlots -> Prop}
    (checked : Checked guard adapter.slots returns (method.run adapter.slots)) (passes : guard) :
    exists after, adapter.advance method = .ok { adapter with slots := after } ∧
      returns ⟨⟩ after := by
  rcases checked.returned passes with ⟨value, after, ran, returned⟩
  refine ⟨after, ?_, returned⟩
  unfold Adapter.advance
  rw [ran]

/-- After `index` layers of a handoff those are settled and the others wait. -/
structure LayersDone (adapter : Adapter) (lease : QSAHiSparseLease) (content : RawTokens)
    (promptLen index : Nat) (entry : List Int × DecodeBuffers) : Prop where
  counted : entry.1 = List.replicate index lease.generation
  settled : forall li, li < index ->
    Settled adapter.geometry lease.slot content li promptLen entry.2
  waiting : forall li, index ≤ li -> li < 12 -> Staged adapter.geometry content li promptLen entry.2

/-- One more layer. -/
theorem LayersDone.next {lease : QSAHiSparseLease} (copying : Copying adapter lease)
    {promptLen : Nat} (fits : promptLen ≤ adapter.geometry.stagingTokens) {index : Nat}
    (small : index < 12) {states : List Int} {buffers : DecodeBuffers}
    (done : LayersDone adapter lease content promptLen index (states, buffers)) :
    exists entry, handoffLayer adapter lease promptLen (states, buffers) index = .ok entry ∧
      LayersDone adapter lease content promptLen (index + 1) entry := by
  have counted : states = List.replicate index lease.generation := done.counted
  have room : states.length < 12 := by
    rw [counted, List.length_replicate]
    exact small
  rcases handoffLayer_returns copying fits room
    (done.waiting index (Nat.le_refl _) small) with ⟨after, ran, frame, here⟩
  refine ⟨_, ran, ?_, ?_, ?_⟩
  · rw [counted, List.replicate_succ']
  · intro li below
    by_cases same : li = index
    · rw [same]
      exact here
    · exact frame.settled same (Int.ofNat_le.mpr fits) (done.settled li (by omega))
  · intro li above most
    exact frame.staged (by omega) (done.waiting li (by omega) most)

/-- The layer loop settles every layer and counts its states. -/
theorem handoffLayers_return {lease : QSAHiSparseLease} (copying : Copying adapter lease)
    (promptLen : Nat) (fits : promptLen ≤ adapter.geometry.stagingTokens)
    (buffers : DecodeBuffers)
    (staged : forall li, li < 12 -> Staged adapter.geometry content li promptLen buffers) :
    exists after, (List.range 12).foldlM (handoffLayer adapter lease promptLen) ([], buffers) =
        .ok (List.replicate 12 lease.generation, after) ∧
      forall li, li < 12 -> Settled adapter.geometry lease.slot content li promptLen after := by
  have start : LayersDone adapter lease content promptLen 0 ([], buffers) :=
    ⟨rfl, fun li none => absurd none (Nat.not_lt_zero li), fun li _ small => staged li small⟩
  rcases foldlM_range (handoffLayer adapter lease promptLen)
    (LayersDone adapter lease content promptLen) 12
    (fun _ small _ done => done.next copying fits small) start with ⟨⟨states, after⟩, ran, done⟩
  have counted : states = List.replicate 12 lease.generation := done.counted
  rw [counted] at ran
  exact ⟨after, ran, done.settled⟩

/-- A staged prompt of a prefilling owner is handed off, and every layer has its
tokens where decode looks for them. -/
theorem handoff_returns {state : RequestCache}
    (permits : adapter.slots.Permits state.lease [.prefill])
    (owner : adapter.slots.prefillOwner = some state.lease) (fresh : state.states = [])
    (nonneg : 0 ≤ state.seqLen) (fits : state.seqLen ≤ adapter.geometry.stagingTokens)
    {before : DecodeBuffers}
    (staged : forall li, li < 12 -> Staged adapter.geometry content li state.seqLen before) :
    exists slots after, adapter.handoff state before =
        .ok ({ adapter with slots },
          { state with states := List.replicate 12 state.generation, offloaded := true }, after) ∧
      slots.Permits state.lease [.hostReady] ∧ slots.geometry = adapter.geometry ∧
      forall li, li < 12 ->
        Settled adapter.geometry state.lease.slot content li state.seqLen after := by
  rcases advance_returned (beginHandoff_outcome adapter.slots state.lease)
    ⟨permits, not_not.mpr owner, trivial⟩ with ⟨_, begun, rfl⟩
  have copying : Copying { adapter with slots := adapter.slots.setPhase state.lease .copying }
      state.lease := ⟨permits.1.setPhase_permits .copying, owner⟩
  have length : ((state.seqLen.toNat : Nat) : Int) = state.seqLen := Int.toNat_of_nonneg nonneg
  have stagedHere : forall li, li < 12 ->
      Staged adapter.geometry content li (state.seqLen.toNat : Nat) before := by
    rw [length]
    exact staged
  rcases handoffLayers_return copying state.seqLen.toNat (Int.toNat_le.mpr fits) before
    stagedHere with ⟨after, looped, settled⟩
  have finished := finishHandoff_returns state.lease Field.whole
    (adapter.slots.setPhase state.lease .copying) copying.permits copying.owner (pure true) rfl
  have held : (adapter.slots.setPhase state.lease .copying).Holds state.lease := permits.1
  refine ⟨((adapter.slots.setPhase state.lease .copying).setPhase state.lease
    .hostReady).clearLane, after, ?_, held.setPhase_permits .hostReady, rfl, ?_⟩
  · unfold Adapter.handoff
    rw [begun, Except.ok_bind, fresh, looped, Except.ok_bind]
    simp only [Adapter.advance]
    rw [finished]
    rfl
  · rw [length] at settled
    exact settled

end Whole

end Decode
end QSAHiSparse

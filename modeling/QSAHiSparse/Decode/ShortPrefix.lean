import QSAHiSparse.Decode.HandoffEffects

namespace QSAHiSparse
namespace Decode

open Foundation
open Ledger

/-!
# The resident prefix

A residency table that names a block is to name a complete one, and the hot row
is to hold it.  As long as a sequence has at most 2048 complete blocks, hot row
`j` is moreover to hold block `j`.  A handoff sets both up for the blocks of the
prompt.
-/

/-- The hot rows of a layer hold the blocks they are named for, and row 2048 is
the newest of them. -/
structure TruthfulTable (slot : Nat) (content : RawTokens) (li : Nat) (length : Int)
    (buffers : DecodeBuffers) : Prop where
  named : forall hotRow : Int, 0 ≤ hotRow -> hotRow < 2112 ->
    0 ≤ buffers.tokens li (slot * 2112 + hotRow) ->
    buffers.tokens li (slot * 2112 + hotRow) < length / 4 ∧
      forall byte : Int, 0 ≤ byte -> byte < 2048 ->
        buffers.hot li ((slot * 2112 + hotRow) * 2048 + byte) =
          content.record li (buffers.tokens li (slot * 2112 + hotRow)) byte
  newest : 0 < length / 4 -> buffers.tokens li (slot * 2112 + 2048) = length / 4 - 1

/-- The complete blocks of a layer are resident in order, and row 2048 is the
newest of them. -/
structure Resident (slot : Nat) (content : RawTokens) (li : Nat) (length : Int)
    (buffers : DecodeBuffers) : Prop where
  named : forall block : Int, 0 ≤ block -> block < length / 4 ->
    buffers.tokens li (slot * 2112 + block) = block
  held : forall block byte : Int, 0 ≤ block -> block < length / 4 -> 0 ≤ byte -> byte < 2048 ->
    buffers.hot li ((slot * 2112 + block) * 2048 + byte) = content.record li block byte
  newestNamed : 0 < length / 4 -> buffers.tokens li (slot * 2112 + 2048) = length / 4 - 1
  newestHeld : 0 < length / 4 -> forall byte : Int, 0 ≤ byte -> byte < 2048 ->
    buffers.hot li ((slot * 2112 + 2048) * 2048 + byte) =
      content.record li (length / 4 - 1) byte

/-- The hot rows and the residency tokens of some layers are as they were. -/
def TablesKept (layers : Nat -> Prop) (before after : DecodeBuffers) : Prop :=
  forall li, layers li -> after.hot li = before.hot li ∧ after.tokens li = before.tokens li

theorem TablesKept.trans {layers : Nat -> Prop} {first second third : DecodeBuffers}
    (left : TablesKept layers first second) (right : TablesKept layers second third) :
    TablesKept layers first third :=
  fun li chosen => ⟨(right li chosen).1.trans (left li chosen).1,
    (right li chosen).2.trans (left li chosen).2⟩

/-- What a handoff of `blocks` complete blocks leaves in the tables of a layer. -/
structure TablesStaged (slot : Nat) (content : RawTokens) (li : Nat) (blocks : Int)
    (buffers : DecodeBuffers) : Prop where
  named : blocks ≤ 2048 -> forall block : Int, 0 ≤ block -> block < blocks ->
    buffers.tokens li (slot * 2112 + block) = block
  held : blocks ≤ 2048 -> forall block byte : Int, 0 ≤ block -> block < blocks -> 0 ≤ byte ->
    byte < 2048 ->
    buffers.hot li ((slot * 2112 + block) * 2048 + byte) = content.record li block byte
  unnamed : forall hotRow : Int, 0 ≤ hotRow -> hotRow < 2112 -> hotRow ≠ 2048 ->
    (blocks ≤ 2048 -> blocks ≤ hotRow) -> buffers.tokens li (slot * 2112 + hotRow) = -1
  newestNamed : 0 < blocks -> buffers.tokens li (slot * 2112 + 2048) = blocks - 1
  newestHeld : 0 < blocks -> forall byte : Int, 0 ≤ byte -> byte < 2048 ->
    buffers.hot li ((slot * 2112 + 2048) * 2048 + byte) = content.record li (blocks - 1) byte
  newestUnnamed : blocks ≤ 0 -> buffers.tokens li (slot * 2112 + 2048) = -1

namespace TablesStaged

variable {slot li : Nat} {content : RawTokens} {length : Int} {buffers : DecodeBuffers}

theorem kept {layers : Nat -> Prop} {before after : DecodeBuffers}
    (same : TablesKept layers before after) (chosen : layers li) {blocks : Int}
    (tables : TablesStaged slot content li blocks before) :
    TablesStaged slot content li blocks after := by
  have equal := same li chosen
  constructor
  · rw [equal.2]
    exact tables.named
  · rw [equal.1]
    exact tables.held
  · rw [equal.2]
    exact tables.unnamed
  · rw [equal.2]
    exact tables.newestNamed
  · rw [equal.1]
    exact tables.newestHeld
  · rw [equal.2]
    exact tables.newestUnnamed

theorem resident (tables : TablesStaged slot content li (length / 4) buffers)
    (short : length / 4 ≤ 2048) : Resident slot content li length buffers :=
  ⟨tables.named short, tables.held short, tables.newestNamed, tables.newestHeld⟩

theorem truthful (tables : TablesStaged slot content li (length / 4) buffers) :
    TruthfulTable slot content li length buffers := by
  refine ⟨fun hotRow lower upper names => ?_, tables.newestNamed⟩
  by_cases newestRow : hotRow = 2048
  · subst newestRow
    by_cases some : 0 < length / 4
    · rw [tables.newestNamed some]
      exact ⟨by omega, tables.newestHeld some⟩
    · rw [tables.newestUnnamed (by omega)] at names
      omega
  · by_cases placed : length / 4 ≤ 2048 ∧ hotRow < length / 4
    · rw [tables.named placed.1 hotRow lower placed.2]
      exact ⟨placed.2, fun byte => tables.held placed.1 hotRow byte lower placed.2⟩
    · rw [tables.unnamed hotRow lower upper newestRow (fun short => by omega)] at names
      omega

end TablesStaged

/-! ## A layer of the handoff -/

section Layer

variable {adapter : Adapter} {lease : QSAHiSparseLease} {content : RawTokens} {li : Nat}

theorem copyChunk_tables {stop offset : Nat} {before after : DecodeBuffers}
    (copied : copyChunk adapter lease li stop before offset = .ok after) :
    TablesKept (fun _ => True) before after := by
  unfold copyChunk at copied
  rcases Except.bind_ok copied with ⟨segment, _, rest⟩
  rcases Except.bind_ok rest with ⟨packed, _, same⟩
  cases same
  exact fun _ _ => ⟨rfl, rfl⟩

theorem copyChunks_tables {stop : Nat} (offsets : List Nat) {before after : DecodeBuffers}
    (copied : offsets.foldlM (copyChunk adapter lease li stop) before = .ok after) :
    TablesKept (fun _ => True) before after := by
  induction offsets generalizing before with
  | nil =>
      cases copied
      exact fun _ _ => ⟨rfl, rfl⟩
  | cons offset offsets previous =>
      rw [List.foldlM_cons] at copied
      rcases Except.bind_ok copied with ⟨between, first, rest⟩
      exact (copyChunk_tables first).trans (previous rest)

theorem copyStagedTail_tables {promptLen tail : Nat} {before after : DecodeBuffers}
    (copied : copyStagedTail adapter lease li promptLen tail before = .ok after) :
    TablesKept (fun _ => True) before after := by
  unfold copyStagedTail at copied
  split at copied
  · rcases Except.bind_ok copied with ⟨segment, _, rest⟩
    rcases Except.bind_ok rest with ⟨ring, _, same⟩
    cases same
    exact fun _ _ => ⟨rfl, rfl⟩
  · cases copied
    exact fun _ _ => ⟨rfl, rfl⟩

/-- `make_state` touches the next layer state only, and no host record. -/
theorem makeState_tables {states : List Int} {before after : DecodeBuffers}
    (made : makeState adapter lease states before = .ok after) :
    TablesKept (fun other => other ≠ states.length) before after ∧
      after.hostSlabs = before.hostSlabs := by
  unfold makeState at made
  rcases Except.bind_ok made with ⟨_, _, rest⟩
  rcases Except.bind_ok rest with ⟨_, _, last⟩
  split at last
  · cases last
    exact ⟨fun _ other => ⟨Function.update_of_ne other _ _, Function.update_of_ne other _ _⟩, rfl⟩
  · cases last

/-- No row of the next layer state is named. -/
theorem makeState_unnamed {states : List Int} {before after : DecodeBuffers}
    (made : makeState adapter lease states before = .ok after) {hotRow : Int} (lower : 0 ≤ hotRow)
    (upper : hotRow < 2112) : after.tokens states.length (lease.slot * 2112 + hotRow) = -1 := by
  unfold makeState at made
  rcases Except.bind_ok made with ⟨_, _, rest⟩
  rcases Except.bind_ok rest with ⟨_, _, last⟩
  split at last
  · cases last
    dsimp only
    rw [Function.update_self]
    simp only [tokensView]
    rw [blit_inside _ _ _ (by omega) (by omega)]
  · cases last

theorem stageShortPrefix_tables (layer blocks : Nat) (before : DecodeBuffers) :
    TablesKept (fun other => other ≠ layer) before
      (stageShortPrefix adapter lease li layer blocks before) := by
  intro other different
  unfold stageShortPrefix
  split
  · exact ⟨Function.update_of_ne different _ _, Function.update_of_ne different _ _⟩
  · exact ⟨rfl, rfl⟩

/-- The rows of a short prefix hold the records of the host, in order. -/
theorem stageShortPrefix_rows {layer blocks : Nat} (short : blocks ≤ 2048)
    (before : DecodeBuffers) :
    (forall block : Int, 0 ≤ block -> block < blocks ->
      (stageShortPrefix adapter lease li layer blocks before).tokens layer
        (lease.slot * 2112 + block) = block) ∧
    forall block byte : Int, 0 ≤ block -> block < blocks -> 0 ≤ byte -> byte < 2048 ->
      (stageShortPrefix adapter lease li layer blocks before).hot layer
          ((lease.slot * 2112 + block) * 2048 + byte) =
        before.hostSlabs
          ((hostView adapter.geometry lease.slot li).base + block * 2048 + byte) := by
  unfold stageShortPrefix
  rw [if_pos short]
  constructor
  · intro block lower upper
    dsimp only
    rw [Function.update_self]
    simp only [tokensView]
    rw [blit_inside _ _ _ (by omega) (by omega)]
    omega
  · intro block byte lower upper first last
    dsimp only
    rw [Function.update_self]
    simp only [hotView]
    rw [blit_inside _ _ _ (by omega) (by omega)]
    congr 1
    omega

/-- Only the rows of a short prefix get a name. -/
theorem stageShortPrefix_unnamed {layer blocks : Nat} (before : DecodeBuffers) {hotRow : Int}
    (other : blocks ≤ 2048 -> (blocks : Int) ≤ hotRow) :
    (stageShortPrefix adapter lease li layer blocks before).tokens layer
        (lease.slot * 2112 + hotRow) =
      before.tokens layer (lease.slot * 2112 + hotRow) := by
  unfold stageShortPrefix
  by_cases short : blocks ≤ 2048
  · have beyond := other short
    rw [if_pos short]
    dsimp only
    rw [Function.update_self]
    simp only [tokensView]
    rw [blit_outside _ _ _ (by omega)]
  · rw [if_neg short]

/-- The newest row holds the last complete block, the others stay. -/
theorem stageNewest_rows {layer blocks : Nat}
    (room : blocks ≤ adapter.geometry.stagingTokens / 4) {before after : DecodeBuffers}
    (staged : stageNewest adapter lease li layer blocks before = .ok after) :
    TablesKept (fun other => other ≠ layer) before after ∧
    (forall block : Int, block ≠ 2048 ->
      after.tokens layer (lease.slot * 2112 + block) =
        before.tokens layer (lease.slot * 2112 + block)) ∧
    (forall block byte : Int, block ≠ 2048 -> 0 ≤ byte -> byte < 2048 ->
      after.hot layer ((lease.slot * 2112 + block) * 2048 + byte) =
        before.hot layer ((lease.slot * 2112 + block) * 2048 + byte)) ∧
    (0 < blocks -> after.tokens layer (lease.slot * 2112 + 2048) = blocks - 1 ∧
      forall byte : Int, 0 ≤ byte -> byte < 2048 ->
        after.hot layer ((lease.slot * 2112 + 2048) * 2048 + byte) =
          before.hostSlabs
            ((hostView adapter.geometry lease.slot li).base + (blocks - 1) * 2048 + byte)) := by
  unfold stageNewest at staged
  by_cases some : blocks ≠ 0
  · have record : ((blocks - 1 : Nat) : Int) < (hostView adapter.geometry lease.slot li).size := by
      simp only [hostView]
      omega
    rw [if_pos some, hotView_row lease.slot (by decide) (by decide), Except.ok_bind,
      View.row_nonneg (by omega) record, Except.ok_bind,
      setToken_eq layer lease.slot (by decide) (by decide)] at staged
    cases staged
    dsimp only
    refine ⟨fun _ other => ⟨Function.update_of_ne other _ _, Function.update_of_ne other _ _⟩,
      ?_, ?_, ?_⟩
    · intro block different
      rw [Function.update_self, Function.update_of_ne (by omega)]
    · intro block byte different first last
      rw [Function.update_self, blit_outside _ _ _ (by omega)]
    · intro positive
      rw [Function.update_self, Function.update_self, Function.update_self]
      constructor
      · omega
      · intro byte first last
        rw [blit_inside _ _ _ (by omega) (by omega)]
        congr 1
        simp only [hostView]
        omega
  · rw [if_neg some] at staged
    cases staged
    exact ⟨fun _ _ => ⟨rfl, rfl⟩, fun _ _ => rfl, fun _ _ _ _ _ => rfl,
      fun positive => absurd positive.ne' some⟩

theorem stageNewest_none {layer blocks : Nat} (none : blocks = 0) {before after : DecodeBuffers}
    (staged : stageNewest adapter lease li layer blocks before = .ok after) : after = before := by
  unfold stageNewest at staged
  rw [if_neg (not_not.mpr none)] at staged
  cases staged
  rfl

/-- A layer of a handoff stages its tables. -/
theorem handoffLayer_tables (copying : Copying adapter lease) {promptLen : Nat}
    (fits : promptLen ≤ adapter.geometry.stagingTokens) {states : List Int}
    (counted : states.length = li) {buffers : DecodeBuffers}
    (staged : Staged adapter.geometry content li promptLen buffers)
    {entry : List Int × DecodeBuffers}
    (ran : handoffLayer adapter lease promptLen (states, buffers) li = .ok entry) :
    TablesKept (fun other => other ≠ li) buffers entry.2 ∧
      TablesStaged lease.slot content li (promptLen / 4 : Nat) entry.2 := by
  rcases copyChunks_return copying fits staged with ⟨copied, chunks, sameK, sameV, _, records⟩
  have stillStaged : Staged adapter.geometry content li promptLen copied := by
    unfold Staged
    rw [sameK, sameV]
    exact staged
  rcases copyStagedTail_returns copying fits stillStaged records with ⟨tailed, tail, _, settled⟩
  unfold handoffLayer at ran
  dsimp only at ran
  rw [chunks, Except.ok_bind, tail, Except.ok_bind] at ran
  rcases Except.bind_ok ran with ⟨made, reset, rest⟩
  rcases Except.bind_ok rest with ⟨final, newest, same⟩
  cases same
  have room : promptLen / 4 ≤ adapter.geometry.stagingTokens / 4 := Nat.div_le_div_right fits
  have kept := makeState_tables reset
  have unnamed := fun hotRow => @makeState_unnamed adapter lease states tailed made reset hotRow
  have rows := stageNewest_rows room newest
  rw [counted] at kept unnamed rows newest
  have prefixKept : TablesKept (fun other => other ≠ li) made
      (stageShortPrefix adapter lease li li (promptLen / 4) made) :=
    stageShortPrefix_tables li (promptLen / 4) made
  have host : HostRecords adapter.geometry lease.slot content li (promptLen / 4) made := by
    unfold HostRecords
    rw [kept.2]
    exact settled.host
  have hostKept : (stageShortPrefix adapter lease li li (promptLen / 4) made).hostSlabs =
      made.hostSlabs := (stageShortPrefix_kept adapter lease li li (promptLen / 4) made).host
  have placed := fun short => @stageShortPrefix_rows adapter lease li li (promptLen / 4) short made
  constructor
  · intro other different
    have before := (copyChunks_tables _ chunks).trans (copyStagedTail_tables tail) other trivial
    have after := (kept.1.trans (prefixKept.trans rows.1)) other different
    exact ⟨after.1.trans before.1, after.2.trans before.2⟩
  constructor
  case named =>
    intro short block lower upper
    rw [rows.2.1 block (by omega)]
    exact (placed (by omega)).1 block lower upper
  case held =>
    intro short block byte lower upper first last
    rw [rows.2.2.1 block byte (by omega) first last,
      (placed (by omega)).2 block byte lower upper first last]
    exact host block byte lower (by omega) first last
  case unnamed =>
    intro hotRow lower upper different beyond
    rw [rows.2.1 hotRow different, stageShortPrefix_unnamed made (fun short => beyond (by omega))]
    exact unnamed hotRow lower upper
  case newestNamed => exact fun some => (rows.2.2.2 (by omega)).1
  case newestHeld =>
    intro some byte first last
    rw [(rows.2.2.2 (by omega)).2 byte first last, hostKept]
    exact host _ byte (by omega) (by omega) first last
  case newestUnnamed =>
    intro none
    rw [stageNewest_none (by omega) newest, stageShortPrefix_unnamed made (fun _ => by omega)]
    exact unnamed 2048 (by decide) (by decide)

end Layer

/-! ## The whole handoff -/

section Whole

variable {adapter : Adapter} {content : RawTokens}

/-- After `index` layers of a handoff those have staged their tables. -/
structure LayersStaged (adapter : Adapter) (lease : QSAHiSparseLease) (content : RawTokens)
    (promptLen index : Nat) (entry : List Int × DecodeBuffers) : Prop where
  done : LayersDone adapter lease content promptLen index entry
  tables : forall li, li < index ->
    TablesStaged lease.slot content li (promptLen / 4 : Nat) entry.2

theorem LayersStaged.next {lease : QSAHiSparseLease} (copying : Copying adapter lease)
    {promptLen : Nat} (fits : promptLen ≤ adapter.geometry.stagingTokens) {index : Nat}
    (small : index < 12) {entry : List Int × DecodeBuffers}
    (before : LayersStaged adapter lease content promptLen index entry) :
    exists next, handoffLayer adapter lease promptLen entry index = .ok next ∧
      LayersStaged adapter lease content promptLen (index + 1) next := by
  rcases entry with ⟨states, buffers⟩
  rcases before.done.next copying fits small with ⟨next, ran, done⟩
  have counted : states.length = index := by
    have states_eq : states = List.replicate index lease.generation := before.done.counted
    rw [states_eq, List.length_replicate]
  have layer := handoffLayer_tables copying fits counted
    (before.done.waiting index (Nat.le_refl _) small) ran
  refine ⟨next, ran, done, fun li below => ?_⟩
  by_cases same : li = index
  · rw [same]
    exact layer.2
  · exact (before.tables li (by omega)).kept layer.1 same

/-- A handoff stages the tables of every layer. -/
theorem handoff_tables {state : RequestCache}
    (permits : adapter.slots.Permits state.lease [.prefill])
    (owner : adapter.slots.prefillOwner = some state.lease) (fresh : state.states = [])
    (nonneg : 0 ≤ state.seqLen) (fits : state.seqLen ≤ adapter.geometry.stagingTokens)
    {before : DecodeBuffers}
    (staged : forall li, li < 12 -> Staged adapter.geometry content li state.seqLen before)
    {result : Adapter × RequestCache × DecodeBuffers}
    (handed : adapter.handoff state before = .ok result) {li : Nat} (layer : li < 12) :
    TablesStaged state.slot content li (state.seqLen / 4) result.2.2 := by
  rcases advance_returned (beginHandoff_outcome adapter.slots state.lease)
    ⟨permits, not_not.mpr owner, trivial⟩ with ⟨_, begun, rfl⟩
  have copying : Copying { adapter with slots := adapter.slots.setPhase state.lease .copying }
      state.lease := ⟨permits.1.setPhase_permits .copying, owner⟩
  have length : ((state.seqLen.toNat : Nat) : Int) = state.seqLen := Int.toNat_of_nonneg nonneg
  rw [← length] at staged
  have start : LayersStaged { adapter with slots := adapter.slots.setPhase state.lease .copying }
      state.lease content state.seqLen.toNat 0 ([], before) :=
    ⟨⟨rfl, fun li none => absurd none (Nat.not_lt_zero li), fun li _ small => staged li small⟩,
      fun li none => absurd none (Nat.not_lt_zero li)⟩
  rcases foldlM_range _ (LayersStaged _ state.lease content state.seqLen.toNat) 12
    (fun _ small _ before => before.next copying (Int.toNat_le.mpr fits) small) start with
    ⟨⟨states, after⟩, looped, done⟩
  unfold Adapter.handoff at handed
  rw [begun, Except.ok_bind, fresh, looped, Except.ok_bind] at handed
  rcases Except.bind_ok handed with ⟨_, _, same⟩
  cases same
  have tables := done.tables li layer
  rw [Int.natCast_ediv, length] at tables
  exact tables

end Whole

end Decode
end QSAHiSparse

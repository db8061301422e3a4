import QSAHiSparse.Decode.HandoffEffects

namespace QSAHiSparse
namespace Decode

open Foundation
open Ledger

/-!
# Decode forwards keep every token in place

A forward of one layer writes the new token into the ring row after the open
tail.  When that row completes a block, `after_store` moves the four ring rows
to the host record of the block; otherwise the tail has grown by one.
-/

section Layer

variable {geometry : Geometry} {content : RawTokens} {li slot : Nat}

/-- The rows of a token are the content of that token. -/
def TokenRows.Carries (token : TokenRows) (content : RawTokens) (index : Int) : Prop :=
  forall (li : Nat) (dim : Int), 0 ≤ dim -> dim < 256 ->
    token.k li dim = content.k li index dim ∧ token.v li dim = content.v li index dim

/-- The ring row of the token after the first `length`. -/
def writeRow (geometry : Geometry) (slot : Nat) (length : Int) : Nat :=
  geometry.ringStart slot + 1 + length.toNat % 4

theorem writeRow_eq (geometry : Geometry) (slot : Nat) (length : Int) :
    writeRow geometry slot length = geometry.ringStart slot + 1 + length.toNat % 4 := rfl

/-- The ring after the cache write holds the open tail and the new token. -/
theorem storeCache_ring {token : TokenRows} {length : Int} (nonneg : 0 ≤ length)
    (carries : token.Carries content length) {location : Nat}
    (place : location = geometry.ringStart slot + 1 + length.toNat % 4)
    {buffers : DecodeBuffers} (ring : RingTokens geometry slot content li length buffers)
    {member dim : Int} (first : 0 ≤ member) (last : member ≤ length % 4) (lower : 0 ≤ dim)
    (upper : dim < 256) :
    (storeCache location li token buffers).kBuffer li
        ((ringBase geometry + slot * 5 + 1 + member) * 256 + dim) =
      content.k li (length / 4 * 4 + member) dim ∧
    (storeCache location li token buffers).vBuffer li
        ((ringBase geometry + slot * 5 + 1 + member) * 256 + dim) =
      content.v li (length / 4 * 4 + member) dim := by
  have row : (location : Int) = ringBase geometry + slot * 5 + 1 + length % 4 := by
    rw [place]
    unfold ringBase Geometry.ringStart
    omega
  simp only [storeCache, Function.update_self]
  by_cases earlier : member < length % 4
  · rw [blit_outside _ _ _ (Or.inl (by omega)), blit_outside _ _ _ (Or.inl (by omega))]
    exact ring member dim first earlier lower upper
  · rw [blit_inside _ _ _ (by omega) (by omega), blit_inside _ _ _ (by omega) (by omega)]
    have here : 0 + ((ringBase geometry + slot * 5 + 1 + member) * 256 + dim -
        (location : Int) * 256) = dim := by omega
    have same : length / 4 * 4 + member = length := by omega
    rw [here, same]
    exact carries li dim lower upper

theorem storeCache_frame (geometry : Geometry) (slot li location : Nat) (token : TokenRows)
    (buffers : DecodeBuffers) :
    LayerFrame geometry slot li buffers (storeCache location li token buffers) :=
  ⟨fun _ different => Function.update_of_ne different _ _,
    fun _ different => Function.update_of_ne different _ _, fun _ _ => rfl⟩

theorem storedBuffers_frame {state : RequestCache} (decoding : state.Decoding geometry)
    (li : Nat) (buffers : DecodeBuffers) :
    LayerFrame geometry state.slot li buffers (storedBuffers geometry li state buffers) := by
  have least := decoding.length_least
  have most := decoding.length_most
  unfold storedBuffers
  by_cases closes : state.seqLen % 4 ≠ 0
  · rw [if_pos closes]
    exact LayerFrame.refl buffers
  · rw [if_neg closes]
    refine ⟨fun _ _ => rfl, fun _ _ => rfl, fun address outside => ?_⟩
    simp only [View.Covers, hostView] at *
    rw [blit_outside _ _ _ (by omega)]

/-- One layer of a forward settles the layer for the new length. -/
theorem forwardLayer_settles {state : RequestCache} (decoding : state.Decoding geometry)
    {token : TokenRows} (carries : token.Carries content (state.seqLen - 1)) {location : Nat}
    (place : location = geometry.ringStart state.slot + 1 + (state.seqLen - 1).toNat % 4)
    {buffers : DecodeBuffers}
    (settled : Settled geometry state.slot content li (state.seqLen - 1) buffers) :
    Settled geometry state.slot content li state.seqLen
      (storedBuffers geometry li state (storeCache location li token buffers)) := by
  have least := decoding.length_least
  have ring := fun member dim => @storeCache_ring geometry content li state.slot token
    (state.seqLen - 1) (by omega) carries location place buffers settled.ring member dim
  have records : HostRecords geometry state.slot content li ((state.seqLen - 1) / 4)
      (storeCache location li token buffers) := settled.host
  generalize storeCache location li token buffers = stored at *
  unfold storedBuffers
  by_cases closes : state.seqLen % 4 ≠ 0
  · rw [if_pos closes]
    have sameBlocks : state.seqLen / 4 = (state.seqLen - 1) / 4 := by omega
    constructor
    · rw [sameBlocks]
      exact records
    · intro member dim first pending lower upper
      rw [sameBlocks]
      exact ring member dim first (by omega) lower upper
  · rw [if_neg closes]
    constructor
    · intro block byte formed complete lower upper
      simp only
      by_cases earlier : block < (state.seqLen - 1) / 4
      · rw [blit_outside _ _ _ (Or.inl (by omega))]
        exact records block byte formed earlier lower upper
      · have newest : block = state.seqLen / 4 - 1 := by omega
        rw [newest, blit_inside _ _ _ (by omega) (by omega)]
        have here : forall base row : Int, row * 2048 + (base + (state.seqLen / 4 - 1) * 2048 +
            byte - (base + (state.seqLen / 4 - 1) * 2048)) = row * 2048 + byte := by
          intro base row
          omega
        rw [here]
        simp only [closedHot]
        rw [if_pos (by omega), add_sub_cancel_left]
        refine recordByte_of_rows (fun member dim first last small large => ?_) lower upper
        have rows := ring member dim first (by omega) small large
        have token : (state.seqLen - 1) / 4 * 4 + member =
            4 * (state.seqLen / 4 - 1) + member := by omega
        have address : forall base : Int, base * 256 + member * 256 + dim =
            (base + member) * 256 + dim := by
          intro base
          omega
        rw [token] at rows
        rw [address]
        exact rows
    · intro member dim first pending
      omega

end Layer

section Steps

variable {adapter : Adapter} {content : RawTokens}

/-- A request that decodes: handed off, with a current state of every layer. -/
structure Decodes (adapter : Adapter) (state : RequestCache) : Prop where
  permits : adapter.slots.Permits state.lease [.decode]
  handed_off : state.offloaded = true
  states : state.states = List.replicate 12 state.generation

theorem ask_ringWriteLocation {state : RequestCache} (decodes : Decodes adapter state)
    (least : 1 ≤ state.seqLen) (most : state.seqLen ≤ adapter.geometry.stagingTokens) :
    adapter.ask (ringWriteLocation state.lease state.seqLen) =
      .ok (adapter.geometry.ringStart state.slot + 1 + (state.seqLen - 1).toNat % 4) := by
  rcases ask_returned adapter (ringWriteLocation_outcome adapter.slots state.lease state.seqLen)
    ⟨decodes.permits, not_not.mpr ⟨least, most⟩, trivial⟩ with ⟨row, after, asked, same, -⟩
  rw [asked, same]
  rfl

/-- A batch of one decoding request closes for that request alone. -/
theorem afterStore_alone {state : RequestCache} (decodes : Decodes adapter state)
    (decoding : state.Decoding adapter.geometry) {li : Nat} (layer : li < 12)
    (buffers : DecodeBuffers) :
    Adapter.afterStore { adapter with offloaded := true, batchRequests := [state] } li buffers =
      .ok (storedBuffers adapter.geometry li state buffers) := by
  have current : state.states[li]? = some state.generation := by
    rw [decodes.states, List.getElem?_replicate, if_pos layer]
  have permitted : Adapter.ask ⟨adapter.slots, true, [state]⟩ (require state.lease [.decode]) =
      .ok ⟨⟩ := ask_require _ decodes.permits
  have closed : state.afterStore (Adapter.geometry ⟨adapter.slots, true, [state]⟩) li buffers =
      .ok (storedBuffers adapter.geometry li state buffers) := afterStore_eq decoding current buffers
  unfold Adapter.afterStore
  rw [if_pos rfl, List.foldlM_cons, permitted, Except.ok_bind, closed]
  rfl

/-- What holds of a layer is kept by forwards: the layer that stores the next token goes on
by it, and the others stay where they are. -/
structure KeptByForwards (geometry : Geometry) (slot : Nat) (content : RawTokens)
    (holds : Nat -> Int -> DecodeBuffers -> Prop) : Prop where
  own : forall {state : RequestCache} {token : TokenRows} {li : Nat} {buffers : DecodeBuffers},
    state.slot = slot -> state.Decoding geometry ->
    state.states[li]? = some state.generation ->
    token.Carries content (state.seqLen - 1) -> holds li (state.seqLen - 1) buffers ->
    holds li state.seqLen (storedBuffers geometry li state
      (storeCache (writeRow geometry slot (state.seqLen - 1)) li token buffers))
  other : forall {state : RequestCache} {token : TokenRows} {li other : Nat} {length : Int}
    {buffers : DecodeBuffers}, state.slot = slot -> state.Decoding geometry -> li ≠ other ->
    length ≤ geometry.stagingTokens -> holds li length buffers ->
    holds li length (storedBuffers geometry other state
      (storeCache (writeRow geometry slot (state.seqLen - 1)) other token buffers))

theorem KeptByForwards.and {geometry : Geometry} {slot : Nat} {content : RawTokens}
    {left right : Nat -> Int -> DecodeBuffers -> Prop}
    (keptLeft : KeptByForwards geometry slot content left)
    (keptRight : KeptByForwards geometry slot content right) :
    KeptByForwards geometry slot content fun li length buffers =>
      left li length buffers ∧ right li length buffers where
  own at_slot decoding current carries held :=
    ⟨keptLeft.own at_slot decoding current carries held.1,
      keptRight.own at_slot decoding current carries held.2⟩
  other at_slot decoding different fits held :=
    ⟨keptLeft.other at_slot decoding different fits held.1,
      keptRight.other at_slot decoding different fits held.2⟩

/-- Forwards keep the tokens of every layer in place. -/
theorem settled_kept (geometry : Geometry) (slot : Nat) (content : RawTokens) :
    KeptByForwards geometry slot content (Settled geometry slot content) where
  own := by
    rintro state token li buffers rfl decoding _ carries settled
    exact forwardLayer_settles decoding carries rfl settled
  other := by
    rintro state token li other length buffers rfl decoding different fits settled
    exact ((storeCache_frame geometry state.slot other _ token buffers).trans
      (storedBuffers_frame decoding other _)).settled different fits settled

section Kept

variable {holds : Nat -> Int -> DecodeBuffers -> Prop}

/-- After `index` layers of a forward those have gone on by a token. -/
structure LayersForwarded (holds : Nat -> Int -> DecodeBuffers -> Prop) (length : Int)
    (index : Nat) (buffers : DecodeBuffers) : Prop where
  done : forall li, li < index -> holds li (length + 1) buffers
  waiting : forall li, index ≤ li -> li < 12 -> holds li length buffers

/-- One more layer of a forward. -/
theorem LayersForwarded.next {state : RequestCache} (decodes : Decodes adapter state)
    (decoding : state.Decoding adapter.geometry)
    (kept : KeptByForwards adapter.geometry state.slot content holds) {token : TokenRows}
    (carries : token.Carries content (state.seqLen - 1)) {index : Nat} (small : index < 12)
    {buffers : DecodeBuffers} (forwarded : LayersForwarded holds (state.seqLen - 1) index buffers) :
    exists after, Adapter.afterStore { adapter with offloaded := true, batchRequests := [state] }
        index (storeCache (writeRow adapter.geometry state.slot (state.seqLen - 1)) index token
          buffers) = .ok after ∧
      LayersForwarded holds (state.seqLen - 1) (index + 1) after := by
  have length : state.seqLen - 1 + 1 = state.seqLen := by omega
  have most := decoding.length_most
  have current : state.states[index]? = some state.generation := by
    rw [decodes.states, List.getElem?_replicate, if_pos small]
  have here := kept.own rfl decoding current carries
    (forwarded.waiting index (Nat.le_refl _) small)
  refine ⟨_, afterStore_alone decodes decoding small _, ?_, ?_⟩
  · intro li below
    by_cases same : li = index
    · rw [same, length]
      exact here
    · exact kept.other rfl decoding same (by omega) (forwarded.done li (by omega))
  · intro li above inside
    exact kept.other rfl decoding (by omega) (by omega) (forwarded.waiting li (by omega) inside)

/-- A forward takes every layer one token on. -/
theorem forward_keeps {state : RequestCache} (decodes : Decodes adapter state)
    (nonneg : 0 ≤ state.seqLen) (fits : state.seqLen + 1 ≤ adapter.geometry.stagingTokens)
    (kept : KeptByForwards adapter.geometry state.slot content holds) {token : TokenRows}
    (carries : token.Carries content state.seqLen) {buffers : DecodeBuffers}
    (held : forall li, li < 12 -> holds li state.seqLen buffers) :
    exists after, adapter.forward (state, buffers) token =
        .ok ({ state with seqLen := state.seqLen + 1 }, after) ∧
      forall li, li < 12 -> holds li (state.seqLen + 1) after := by
  generalize grown : { state with seqLen := state.seqLen + 1 } = next
  have nextIs : next.seqLen = state.seqLen + 1 := by rw [<- grown]
  have lease : next.lease = state.lease := by rw [<- grown]
  have nextLength : next.seqLen - 1 = state.seqLen := by omega
  have decodesNext : Decodes adapter next := by
    rw [<- grown]
    exact ⟨decodes.permits, decodes.handed_off, decodes.states⟩
  have decoding : next.Decoding adapter.geometry :=
    ⟨decodesNext.handed_off, by omega, by omega⟩
  have location := ask_ringWriteLocation decodesNext decoding.length_least decoding.length_most
  have slot : next.slot = state.slot := by rw [<- grown]; rfl
  rw [<- slot] at kept
  rw [<- nextLength] at carries held
  rcases foldlM_range _ (LayersForwarded holds (next.seqLen - 1)) 12
    (fun _ small _ forwarded => forwarded.next decodesNext decoding kept carries small)
    ⟨fun li none => absurd none (Nat.not_lt_zero li), fun li _ small => held li small⟩ with
    ⟨after, looped, forwarded⟩
  refine ⟨after, ?_, ?_⟩
  · unfold writeRow at looped
    unfold Adapter.forward
    simp only
    rw [grown, <- lease, <- nextIs, location, Except.ok_bind, looped]
    rfl
  · intro li small
    rw [<- nextLength]
    exact forwarded.done li small

/-- Any number of forwards. -/
theorem forwards_keep (tokens : List TokenRows) {state : RequestCache}
    (decodes : Decodes adapter state) (nonneg : 0 ≤ state.seqLen)
    (fits : state.seqLen + tokens.length ≤ adapter.geometry.stagingTokens)
    (kept : KeptByForwards adapter.geometry state.slot content holds)
    (carries : forall (index : Nat) (token : TokenRows), tokens[index]? = some token ->
      token.Carries content (state.seqLen + index)) {buffers : DecodeBuffers}
    (held : forall li, li < 12 -> holds li state.seqLen buffers) :
    exists after, tokens.foldlM adapter.forward (state, buffers) =
        .ok ({ state with seqLen := state.seqLen + tokens.length }, after) ∧
      forall li, li < 12 -> holds li (state.seqLen + tokens.length) after := by
  induction tokens generalizing state buffers with
  | nil =>
      rw [List.length_nil, Nat.cast_zero, add_zero]
      exact ⟨buffers, rfl, held⟩
  | cons token tokens previous =>
      rw [List.length_cons, Nat.cast_add, Nat.cast_one] at fits
      have first := carries 0 token rfl
      rw [Nat.cast_zero, add_zero] at first
      rcases forward_keeps decodes nonneg (by omega) kept first held with
        ⟨between, stepped, heldNext⟩
      have decodesNext : Decodes adapter { state with seqLen := state.seqLen + 1 } :=
        ⟨decodes.permits, decodes.handed_off, decodes.states⟩
      rcases previous decodesNext (by dsimp only; omega) (by dsimp only; omega) kept
        (fun index other found => by
          have later := carries (index + 1) other found
          have same : state.seqLen + ((index + 1 : Nat) : Int) = state.seqLen + 1 + index := by
            omega
          rw [same] at later
          exact later) heldNext with ⟨after, looped, done⟩
      have same : state.seqLen + 1 + (tokens.length : Int) =
          state.seqLen + ((token :: tokens).length : Int) := by
        rw [List.length_cons, Nat.cast_add, Nat.cast_one]
        omega
      dsimp only at looped done
      rw [same] at looped done
      refine ⟨after, ?_, done⟩
      rw [List.foldlM_cons, stepped, Except.ok_bind, looped]

end Kept

end Steps

end Decode
end QSAHiSparse

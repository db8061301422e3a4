import QSAHiSparse.Foundation.HashChain
import QSAHiSparse.Foundation.StableSort
import QSAHiSparse.PrefixCache.State
import Mathlib.Tactic.FinCases

namespace QSAHiSparse
namespace PrefixCache

open Foundation
open HostPrefix

/-!
# Image keys of requests

The identity of a multimodal request is built from its image items and its
M-RoPE positions.  `sha256` is a parameter; its digests have 32 bytes.
-/

/-- An entry of `mm_items`.  The flags say what the method or the attribute
answers; the grid of an image is one row of three numbers. -/
structure MultimodalItem where
  artifactKey : Option String
  isImage : Bool
  normalFormat : Bool
  isPrecomputedEmbedding : Bool
  precomputedEmbeddings : Bool
  offsets : Option (List (Int × Int))
  imageGridThw : Option (Int × Int × Int)

/-- The `int64` M-RoPE positions, of shape `[3, length]`. -/
structure MropePositions where
  length : Nat
  position : Fin 3 -> Nat -> Int64

namespace MropePositions

/-- One row of `positions[:, page * PAGE : (page + 1) * PAGE]`. -/
def row (positions : MropePositions) (page : Nat) (axis : Fin 3) : List Int64 :=
  (List.range 64).map fun offset => positions.position axis (page * 64 + offset)

/-- The page in memory order. -/
def block (positions : MropePositions) (page : Nat) : List Int64 :=
  positions.row page 0 ++ positions.row page 1 ++ positions.row page 2

/-- The bytes that are hashed for every complete page. -/
def blocks (positions : MropePositions) : List Bytes :=
  (List.range (positions.length / 64)).map fun page => tokenBytes (positions.block page)

end MropePositions

section Identity

variable (sha256 : Bytes -> Bytes)

def pageDigests (positions : MropePositions) : List Bytes :=
  digestChain sha256 [] positions.blocks

/-- The records of the items from one ordinal on; none when an item makes the
request bypass host prefixes. -/
def imageRecords : Nat -> List MultimodalItem -> Except PyError (Option (List ImageRecord))
  | _, [] => .ok (some [])
  | order, item :: items =>
      if !item.isImage || !item.normalFormat || item.isPrecomputedEmbedding ||
          item.precomputedEmbeddings then .ok none
      else
        match item.offsets, item.artifactKey with
        | some [(start, last)], some artifactKey =>
            match item.imageGridThw with
            | none => .error .keyError
            | some grid => do
                let later <- imageRecords (order + 1) items
                return later.map fun records => ⟨artifactKey, order, start, last + 1, grid⟩ :: records
        | _, _ => .ok none

/-- `records.sort(key=lambda record: record.start)`. -/
def sortRecords (records : List ImageRecord) : List ImageRecord :=
  records.mergeSort fun first second => decide (first.start ≤ second.start)

/-- `_identity`; `skipHash` is `SGLANG_MM_SKIP_COMPUTE_HASH`. -/
def identityOf (skipHash : Bool) (items : Option (List MultimodalItem))
    (positions : Option MropePositions) : Except PyError RequestIdentity :=
  match positions, items with
  | some positions, some (item :: items) =>
      if skipHash then .ok .bypass
      else do
        match <- imageRecords 0 (item :: items) with
        | none => return .bypass
        | some records => return .image ⟨sortRecords records, pageDigests sha256 positions⟩
  | _, _ => .ok .bypass

end Identity

/-! ## Positions and digests -/

/-- Two requests have the same M-RoPE positions before a length. -/
def AgreeBelow (first second : MropePositions) (length : Nat) : Prop :=
  forall axis offset, offset < length -> first.position axis offset = second.position axis offset

theorem tokenBytes_injective : Function.Injective tokenBytes := by
  intro first second equal
  have forwards : first <+: second := tokenBytes_prefix_iff.mp (equal ▸ List.prefix_rfl)
  have backwards : second <+: first := tokenBytes_prefix_iff.mp (equal ▸ List.prefix_rfl)
  exact forwards.eq_of_length_le backwards.length_le

theorem row_eq_iff {first second : MropePositions} {page : Nat} {axis : Fin 3} :
    first.row page axis = second.row page axis <->
      forall offset, offset < 64 ->
        first.position axis (page * 64 + offset) = second.position axis (page * 64 + offset) := by
  unfold MropePositions.row
  rw [List.map_inj_left]
  constructor
  · exact fun same offset inside => same offset (List.mem_range.mpr inside)
  · exact fun same offset member => same offset (List.mem_range.mp member)

theorem block_eq_iff {first second : MropePositions} {page : Nat} :
    tokenBytes (first.block page) = tokenBytes (second.block page) <->
      forall axis, first.row page axis = second.row page axis := by
  have sized (positions : MropePositions) (axis : Fin 3) :
      (positions.row page axis).length = 64 := by
    unfold MropePositions.row
    rw [List.length_map, List.length_range]
  constructor
  · intro same
    have joined := tokenBytes_injective same
    have outer := List.append_inj' joined (by rw [sized, sized])
    have inner := List.append_inj' outer.1 (by rw [sized, sized])
    intro axis
    fin_cases axis
    · exact inner.1
    · exact inner.2
    · exact outer.2
  · intro same
    unfold MropePositions.block
    rw [same 0, same 1, same 2]

/-- The blocks of the first pages hold the positions before their end. -/
theorem take_blocks_eq_iff {first second : MropePositions} {pages : Nat}
    (first_covers : pages * 64 ≤ first.length) (second_covers : pages * 64 ≤ second.length) :
    first.blocks.take pages = second.blocks.take pages <->
      AgreeBelow first second (pages * 64) := by
  have head (positions : MropePositions) (covers : pages * 64 ≤ positions.length) :
      positions.blocks.take pages =
        (List.range pages).map fun page => tokenBytes (positions.block page) := by
    unfold MropePositions.blocks
    rw [← List.map_take, List.take_range, Nat.min_eq_left (by omega)]
  rw [head first first_covers, head second second_covers, List.map_inj_left]
  constructor
  · intro same axis offset inside
    have page := same (offset / 64) (List.mem_range.mpr (by omega))
    have found := row_eq_iff.mp (block_eq_iff.mp page axis) (offset % 64)
      (Nat.mod_lt _ (by decide))
    rw [Nat.div_add_mod'] at found
    exact found
  · intro same page member
    have inside := List.mem_range.mp member
    apply block_eq_iff.mpr
    intro axis
    apply row_eq_iff.mpr
    intro offset small
    exact same axis _ (by omega)

variable {sha256 : Bytes -> Bytes}

/-- The digest at a covered length is the chain over its pages. -/
theorem digestAt_eq {records : List ImageRecord} {positions : MropePositions} {pages : Nat}
    (nonempty : 0 < pages) (covers : pages * 64 ≤ positions.length) :
    (⟨records, pageDigests sha256 positions⟩ : ImagePrefixIdentity).digestAt
        ((pages * 64 : Nat) : Int) =
      .ok (chained sha256 [] (positions.blocks.take pages)) := by
  have length : positions.blocks.length = positions.length / 64 := by
    unfold MropePositions.blocks
    rw [List.length_map, List.length_range]
  have digests : (pageDigests sha256 positions).length = positions.length / 64 := by
    unfold pageDigests
    rw [digestChain_eq, List.length_map, List.length_range, length]
  have place : (((pages * 64 : Nat) : Int) / 64 - 1).toNat = pages - 1 := by omega
  have found : (pageDigests sha256 positions)[pages - 1]? =
      some (chained sha256 [] (positions.blocks.take pages)) := by
    unfold pageDigests
    rw [digestChain_eq, List.getElem?_map, List.getElem?_range (by omega), Option.map_some,
      Nat.sub_add_cancel nonempty]
  unfold ImagePrefixIdentity.digestAt
  rw [if_neg (by rw [digests]; omega), place, found]

theorem keyAt_eq {records : List ImageRecord} {positions : MropePositions} {pages : Nat}
    (nonempty : 0 < pages) (covers : pages * 64 ≤ positions.length) :
    (⟨records, pageDigests sha256 positions⟩ : ImagePrefixIdentity).keyAt
        ((pages * 64 : Nat) : Int) =
      .ok (records.filter (fun record => record.start < ((pages * 64 : Nat) : Int)),
        chained sha256 [] (positions.blocks.take pages)) := by
  unfold ImagePrefixIdentity.keyAt
  rw [digestAt_eq nonempty covers]
  rfl

/-! ## Requests -/

/-- A multimodal request and the identity that is built of it. -/
structure ImageRequest (sha256 : Bytes -> Bytes) where
  items : List MultimodalItem
  positions : MropePositions
  identity : ImagePrefixIdentity
  built : identityOf sha256 false (some items) (some positions) = .ok (.image identity)

/-- Both requests have an image key at the length, and it is one key. -/
def SameKey (first second : ImageRequest sha256) (length : Nat) : Prop :=
  exists key, first.identity.keyAt length = .ok key ∧ second.identity.keyAt length = .ok key

/-- What is hashed for a request. -/
def ImageRequest.hashed (request : ImageRequest sha256) : List Bytes :=
  chainedMessages sha256 [] request.positions.blocks

/-- Whether an image item starts before a length. -/
def MultimodalItem.startsBefore (item : MultimodalItem) (length : Nat) : Bool :=
  match item.offsets with
  | some ((start, _) :: _) => start < length
  | _ => false

/-- The image items that start before a length, with their ordinals. -/
def ImageRequest.earlyItems (request : ImageRequest sha256) (length : Nat) :
    List (MultimodalItem × Nat) :=
  request.items.zipIdx.filter fun item => item.1.startsBefore length

theorem ImageRequest.identity_eq (request : ImageRequest sha256) :
    exists records, imageRecords 0 request.items = .ok (some records) ∧
      request.identity = ⟨sortRecords records, pageDigests sha256 request.positions⟩ := by
  rcases request with ⟨items, positions, identity, built⟩
  cases items with
  | nil => cases built
  | cons item items =>
      unfold identityOf at built
      dsimp only at built
      rw [if_neg Bool.false_ne_true] at built
      rcases Except.bind_ok built with ⟨found, collected, answered⟩
      cases found with
      | none => cases answered
      | some records =>
          cases answered
          exact ⟨records, collected, rfl⟩

/-! ## Records -/

/-- The record of an item and its ordinal. -/
def recordOf (item : MultimodalItem × Nat) : Option ImageRecord :=
  match item.1.offsets, item.1.artifactKey, item.1.imageGridThw with
  | some [(start, last)], some artifactKey, some grid =>
      some ⟨artifactKey, item.2, start, last + 1, grid⟩
  | _, _, _ => none

/-- Records are collected item by item. -/
theorem imageRecords_cons {order : Nat} {item : MultimodalItem} {items : List MultimodalItem}
    {records : List ImageRecord}
    (collected : imageRecords order (item :: items) = .ok (some records)) :
    exists record later, recordOf (item, order) = some record ∧ record.order = order ∧
      item.offsets = some [(record.start, record.stop - 1)] ∧
      imageRecords (order + 1) items = .ok (some later) ∧ records = record :: later := by
  unfold imageRecords at collected
  split at collected
  · cases collected
  · split at collected
    · rename_i start last artifactKey offsets artifact
      split at collected
      · cases collected
      · rename_i grid shape
        rcases Except.bind_ok collected with ⟨found, rest, answered⟩
        cases found with
        | none => cases answered
        | some later =>
            cases answered
            refine ⟨⟨artifactKey, order, start, last + 1, grid⟩, later, ?_, rfl, ?_, rest, rfl⟩
            · unfold recordOf
              rw [offsets, artifact, shape]
            · rw [offsets, Int.add_sub_cancel]
    · cases collected

theorem imageRecords_orders {items : List MultimodalItem} :
    forall {order : Nat} {records : List ImageRecord},
      imageRecords order items = .ok (some records) ->
      records.map ImageRecord.order = (List.range' order items.length).map Nat.cast := by
  induction items with
  | nil =>
      intro order records collected
      cases collected
      rfl
  | cons item items inductionHypothesis =>
      intro order records collected
      rcases imageRecords_cons collected with ⟨record, later, _, own, _, rest, rfl⟩
      rw [List.map_cons, own, inductionHypothesis rest]
      rfl

/-- The records before a length are those of the items that start before it. -/
theorem imageRecords_filter {items : List MultimodalItem} (length : Nat) :
    forall {order : Nat} {records : List ImageRecord},
      imageRecords order items = .ok (some records) ->
      records.filter (fun record => record.start < (length : Int)) =
        ((items.zipIdx order).filter fun item => item.1.startsBefore length).filterMap
          recordOf := by
  induction items with
  | nil =>
      intro order records collected
      cases collected
      rfl
  | cons item items inductionHypothesis =>
      intro order records collected
      rcases imageRecords_cons collected with ⟨record, later, made, _, offsets, rest, rfl⟩
      have tail := inductionHypothesis rest
      have start : item.startsBefore length = decide (record.start < (length : Int)) := by
        unfold MultimodalItem.startsBefore
        rw [offsets]
      rw [List.zipIdx_cons, List.filter_cons, List.filter_cons, start, tail]
      by_cases early : record.start < (length : Int)
      · rw [if_pos (decide_eq_true early), if_pos (decide_eq_true early),
          List.filterMap_cons_some made]
      · have late : ¬ decide (record.start < (length : Int)) = true :=
          fun passed => early (of_decide_eq_true passed)
        rw [if_neg late, if_neg late]

theorem startOrder : Comparison fun (first second : ImageRecord) =>
    decide (first.start ≤ second.start) := by
  constructor
  · intro first second third lower upper
    exact decide_eq_true ((of_decide_eq_true lower).trans (of_decide_eq_true upper))
  · intro first second
    rw [Bool.or_eq_true, decide_eq_true_eq, decide_eq_true_eq]
    exact Int.le_total _ _

/-- The records of a request before a length, sorted by start. -/
theorem ImageRequest.recordsAt_eq (request : ImageRequest sha256) (length : Nat) :
    request.identity.recordsAt length =
      sortRecords ((request.earlyItems length).filterMap recordOf) := by
  rcases request.identity_eq with ⟨records, collected, same⟩
  have ordered : records.Pairwise fun first second => first.order < second.order := by
    rw [← List.pairwise_map, imageRecords_orders collected, List.pairwise_map]
    have positions : (List.range' 0 request.items.length).Pairwise (· < ·) :=
      List.pairwise_lt_range'
    exact positions.imp fun earlier => Int.ofNat_lt.mpr earlier
  unfold ImagePrefixIdentity.recordsAt sortRecords
  rw [same]
  dsimp only
  unfold sortRecords
  rw [filter_mergeSort startOrder ordered fun _ _ earlier later => by omega,
    imageRecords_filter length collected]
  rfl

/-! ## Keys -/

section Keys

variable {first second : ImageRequest sha256}

theorem ImageRequest.keyAt_eq (request : ImageRequest sha256) {pages : Nat} (nonempty : 0 < pages)
    (covers : pages * 64 ≤ request.positions.length) :
    request.identity.keyAt ((pages * 64 : Nat) : Int) =
      .ok (request.identity.recordsAt ((pages * 64 : Nat) : Int),
        chained sha256 [] (request.positions.blocks.take pages)) := by
  rcases request.identity_eq with ⟨records, _, same⟩
  rw [same]
  exact PrefixCache.keyAt_eq nonempty covers

/-- One key means one list of records and one digest. -/
theorem sameKey_iff_parts {pages : Nat} (nonempty : 0 < pages)
    (first_covers : pages * 64 ≤ first.positions.length)
    (second_covers : pages * 64 ≤ second.positions.length) :
    SameKey first second (pages * 64) <->
      first.identity.recordsAt ((pages * 64 : Nat) : Int) =
          second.identity.recordsAt ((pages * 64 : Nat) : Int) ∧
        chained sha256 [] (first.positions.blocks.take pages) =
          chained sha256 [] (second.positions.blocks.take pages) := by
  unfold SameKey
  rw [first.keyAt_eq nonempty first_covers, second.keyAt_eq nonempty second_covers]
  constructor
  · rintro ⟨key, one, two⟩
    have equal := (Except.ok.inj one).trans (Except.ok.inj two).symm
    exact Prod.mk.inj equal
  · rintro ⟨records, digests⟩
    rw [records, digests]
    exact ⟨_, rfl, rfl⟩

/-- One digest means the same positions, when the hash does not collide. -/
theorem digests_eq_iff (wide : forall message, (sha256 message).length = 32)
    (clear : NoCollision sha256 (first.hashed ++ second.hashed)) {pages : Nat}
    (first_covers : pages * 64 ≤ first.positions.length)
    (second_covers : pages * 64 ≤ second.positions.length) :
    chained sha256 [] (first.positions.blocks.take pages) =
        chained sha256 [] (second.positions.blocks.take pages) <->
      AgreeBelow first.positions second.positions (pages * 64) := by
  have sized (positions : MropePositions) (covers : pages * 64 ≤ positions.length) :
      (positions.blocks.take pages).length = pages := by
    unfold MropePositions.blocks
    rw [List.length_take, List.length_map, List.length_range, Nat.min_eq_left (by omega)]
  have earlier : chainedMessages sha256 [] (first.positions.blocks.take pages) ++
      chainedMessages sha256 [] (second.positions.blocks.take pages) ⊆
        first.hashed ++ second.hashed := by
    intro message member
    rcases List.mem_append.mp member with one | two
    · exact List.mem_append_left _ (chainedMessages_take pages _ [] one)
    · exact List.mem_append_right _ (chainedMessages_take pages _ [] two)
  rw [← take_blocks_eq_iff first_covers second_covers]
  constructor
  · exact chained_injective wide [] _ _
      ((sized _ first_covers).trans (sized _ second_covers).symm) (clear.subset _ earlier)
  · exact congrArg _

theorem sameKey_iff (wide : forall message, (sha256 message).length = 32)
    (clear : NoCollision sha256 (first.hashed ++ second.hashed)) {length : Nat}
    (positive : 0 < length) (paged : length % 64 = 0)
    (first_covers : length ≤ first.positions.length)
    (second_covers : length ≤ second.positions.length) :
    SameKey first second length <->
      first.identity.recordsAt length = second.identity.recordsAt length ∧
        AgreeBelow first.positions second.positions length := by
  obtain ⟨pages, rfl⟩ : exists pages, length = pages * 64 := ⟨length / 64, by omega⟩
  rw [sameKey_iff_parts (by omega) first_covers second_covers,
    digests_eq_iff wide clear first_covers second_covers]

/-- Records before a length determine those before a smaller one. -/
theorem recordsAt_shorter {first second : ImagePrefixIdentity} {shorter length : Int}
    (below : shorter ≤ length) (same : first.recordsAt length = second.recordsAt length) :
    first.recordsAt shorter = second.recordsAt shorter := by
  have narrowed (identity : ImagePrefixIdentity) : identity.recordsAt shorter =
      (identity.recordsAt length).filter fun record => record.start < shorter := by
    unfold ImagePrefixIdentity.recordsAt
    rw [List.filter_filter]
    apply List.filter_congr
    intro record _
    by_cases early : record.start < shorter
    · rw [decide_eq_true early, decide_eq_true (lt_of_lt_of_le early below)]
      rfl
    · rw [decide_eq_false early]
      rfl
  rw [narrowed first, narrowed second, same]

/-- Image keys are equal exactly when the records and the positions before the
length are, equal keys stay equal at shorter lengths, and only what lies before
the length counts. -/
theorem image_keys_exact (sha256 : Bytes -> Bytes)
    (wide : forall message, (sha256 message).length = 32) (first second : ImageRequest sha256)
    (clear : NoCollision sha256 (first.hashed ++ second.hashed)) (length : Nat)
    (positive : 0 < length) (paged : length % 64 = 0)
    (first_covers : length ≤ first.positions.length)
    (second_covers : length ≤ second.positions.length) :
    (SameKey first second length <->
      first.identity.recordsAt length = second.identity.recordsAt length ∧
        AgreeBelow first.positions second.positions length) ∧
    (SameKey first second length -> forall shorter : Nat, 0 < shorter -> shorter % 64 = 0 ->
      shorter ≤ length -> SameKey first second shorter) ∧
    (first.earlyItems length = second.earlyItems length ->
      AgreeBelow first.positions second.positions length -> SameKey first second length) := by
  have exactly := sameKey_iff wide clear positive paged first_covers second_covers
  refine ⟨exactly, ?_, ?_⟩
  · intro same shorter shorter_positive shorter_paged below
    have parts := exactly.mp same
    apply (sameKey_iff wide clear shorter_positive shorter_paged (below.trans first_covers)
      (below.trans second_covers)).mpr
    exact ⟨recordsAt_shorter (Int.ofNat_le.mpr below) parts.1,
      fun axis offset inside => parts.2 axis offset (lt_of_lt_of_le inside below)⟩
  · intro items positions
    apply exactly.mpr
    rw [first.recordsAt_eq, second.recordsAt_eq, items]
    exact ⟨rfl, positions⟩

/-- The request with these items and positions, when each item has a record. -/
def ImageRequest.ofItems (item : MultimodalItem) (items : List MultimodalItem)
    (records : List ImageRecord) (positions : MropePositions)
    (collected : imageRecords 0 (item :: items) = .ok (some records)) : ImageRequest sha256 where
  items := item :: items
  positions := positions
  identity := ⟨sortRecords records, pageDigests sha256 positions⟩
  built := by
    unfold identityOf
    dsimp only
    rw [if_neg Bool.false_ne_true, collected]
    rfl

/-- An image item that host prefixes support. -/
def imageItem (artifactKey : String) (start last : Int) : MultimodalItem where
  artifactKey := some artifactKey
  isImage := true
  normalFormat := true
  isPrecomputedEmbedding := false
  precomputedEmbeddings := false
  offsets := some [(start, last)]
  imageGridThw := some (1, 4, 8)

/-- SHA-256 on one page of zero positions. -/
def zeroPageSha256 (message : Bytes) : Bytes :=
  if message = List.replicate 1536 0 then
    [128, 66, 43, 195, 211, 7, 180, 162, 91, 218, 252, 200, 74, 199, 251, 1,
      203, 85, 160, 152, 16, 232, 176, 243, 123, 177, 46, 14, 219, 92, 72, 202]
  else List.replicate 32 0

theorem zeroPageSha256_length (message : Bytes) : (zeroPageSha256 message).length = 32 := by
  unfold zeroPageSha256
  split <;> rfl

theorem noCollision_self (message : Bytes) (hash : Bytes -> Bytes) :
    NoCollision hash ([message] ++ [message]) := by
  intro first second first_mem second_mem _
  have first_eq : first = message := by simpa using first_mem
  have second_eq : second = message := by simpa using second_mem
  rw [first_eq, second_eq]

/-- A second image after the first page leaves the key of that page alone. -/
theorem image_keys_exact_example :
    SameKey
      (ImageRequest.ofItems (imageItem "key-x" 10 73) []
        [⟨"key-x", 0, 10, 74, (1, 4, 8)⟩] ⟨64, fun _ _ => 0⟩ rfl)
      (ImageRequest.ofItems (imageItem "key-x" 10 73) [imageItem "key-y" 100 119]
        [⟨"key-x", 0, 10, 74, (1, 4, 8)⟩, ⟨"key-y", 1, 100, 120, (1, 4, 8)⟩]
        ⟨64, fun _ _ => 0⟩ rfl : ImageRequest zeroPageSha256) 64 :=
  (image_keys_exact zeroPageSha256 zeroPageSha256_length
    (ImageRequest.ofItems (imageItem "key-x" 10 73) []
      [⟨"key-x", 0, 10, 74, (1, 4, 8)⟩] ⟨64, fun _ _ => 0⟩ rfl)
    (ImageRequest.ofItems (imageItem "key-x" 10 73) [imageItem "key-y" 100 119]
      [⟨"key-x", 0, 10, 74, (1, 4, 8)⟩, ⟨"key-y", 1, 100, 120, (1, 4, 8)⟩]
      ⟨64, fun _ _ => 0⟩ rfl)
    (noCollision_self _ _) 64 (by decide) (by decide) (by decide) (by decide)).2.2 rfl
    fun _ _ _ => rfl

/-- A later image that is listed first takes the ordinal of an earlier one. -/
theorem image_key_counts_ordinals :
    ¬ forall (sha256 : Bytes -> Bytes), (forall message, (sha256 message).length = 32) ->
      forall first second : ImageRequest sha256,
        NoCollision sha256 (first.hashed ++ second.hashed) ->
        forall length : Nat, 0 < length -> length % 64 = 0 ->
          length ≤ first.positions.length -> length ≤ second.positions.length ->
          first.items.filter (fun item => item.startsBefore length) =
            second.items.filter (fun item => item.startsBefore length) ->
          AgreeBelow first.positions second.positions length -> SameKey first second length := by
  intro promised
  have same := promised zeroPageSha256 zeroPageSha256_length
    (ImageRequest.ofItems (imageItem "key-y" 100 119) [imageItem "key-x" 10 73]
      [⟨"key-y", 0, 100, 120, (1, 4, 8)⟩, ⟨"key-x", 1, 10, 74, (1, 4, 8)⟩]
      ⟨64, fun _ _ => 0⟩ rfl)
    (ImageRequest.ofItems (imageItem "key-x" 10 73) []
      [⟨"key-x", 0, 10, 74, (1, 4, 8)⟩] ⟨64, fun _ _ => 0⟩ rfl)
    (noCollision_self _ _) 64 (by decide) (by decide) (by decide) (by decide) rfl
    fun _ _ _ => rfl
  have records := ((sameKey_iff zeroPageSha256_length (noCollision_self _ _) (by decide)
    (by decide) (by decide) (by decide)).mp same).1
  rw [ImageRequest.recordsAt_eq, ImageRequest.recordsAt_eq] at records
  have late : sortRecords [⟨"key-x", 1, 10, 74, (1, 4, 8)⟩] =
      sortRecords [⟨"key-x", 0, 10, 74, (1, 4, 8)⟩] := records
  unfold sortRecords at late
  rw [List.mergeSort_singleton, List.mergeSort_singleton] at late
  cases late

end Keys

end PrefixCache
end QSAHiSparse

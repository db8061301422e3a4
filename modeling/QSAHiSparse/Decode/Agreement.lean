import Mathlib.Tactic.Positivity
import QSAHiSparse.Decode.KernelEffects

namespace QSAHiSparse
namespace Decode

open Foundation
open Ledger

/-!
# The graph path agrees with the eager path

The programs of a launch write inside the views of the slots their rows route
to.  Distinct slots have disjoint views, so a launch leaves the same buffers
in whatever order its stores land, and these are the buffers the eager path
leaves row after row.
-/

/-! ## Stores stay inside the views of the slot -/

section Confined

variable {geometry : Geometry} {routing : Routing} {row : Nat} {request : RequestCache}

theorem closeC4_hot_covered (routes : Routes routing row request) (least : 1 ≤ request.seqLen)
    {k v : Memory UInt8} {ringStart : Int} {store : Store UInt8}
    (member : store ∈ (closeC4 k v routing ringStart row).hot) :
    (hotView request.slot).Covers store.address := by
  unfold closeC4 at member
  rw [if_pos routes.real, routes.length, routes.slot] at member
  by_cases closes : request.seqLen % 4 = 0
  · rw [if_pos closes, mem_closeC4Stores_hot] at member
    rcases member with ⟨place, byte, which, lower, upper, rfl⟩
    simp only [View.Covers, hotView]
    omega
  · rw [if_neg closes] at member
    exact absurd member List.not_mem_nil

theorem closeC4_tokens_covered (routes : Routes routing row request)
    (least : 1 ≤ request.seqLen) {k v : Memory UInt8} {ringStart : Int} {store : Store Int}
    (member : store ∈ (closeC4 k v routing ringStart row).tokens) :
    (tokensView request.slot).Covers store.address := by
  unfold closeC4 at member
  rw [if_pos routes.real, routes.length, routes.slot] at member
  by_cases closes : request.seqLen % 4 = 0
  · rw [if_pos closes, mem_closeC4Stores_tokens] at member
    rcases member with ⟨place, which, rfl⟩
    simp only [View.Covers, tokensView]
    omega
  · rw [if_neg closes] at member
    exact absurd member List.not_mem_nil

theorem finishCompact_compact_covered (routes : Routes routing row request)
    {sources : CompactSources} {capacity ringStart : Int} {store : Store UInt8}
    (member : store ∈ (finishCompactRow sources routing capacity ringStart
      (geometry.maxRequests * 2052) row).compact) :
    (compactView geometry 0 request.slot).Covers store.address ∨
      (compactView geometry 1 request.slot).Covers store.address := by
  have fits : selectedCount request.seqLen ≤ 2048 := by
    unfold selectedCount
    omega
  rw [mem_finishCompactRow_compact _ _ _ _ _ routes.real, routes.length, routes.slot] at member
  rcases member with ⟨plane, byte, rfl | rfl, lower, inside, rfl⟩
  · left
    simp only [View.Covers, compactView]
    omega
  · right
    simp only [View.Covers, compactView]
    omega

theorem finishCompact_table_covered (routes : Routes routing row request)
    {sources : CompactSources} {ringStart planeStride : Int}
    (nonneg : EntriesNonneg sources.raw row request.seqLen)
    (below : EntriesBelow sources.raw (row * 2051) (validCount request.seqLen)
      geometry.stagingTokens) {store : Store Int}
    (member : store ∈ (finishCompactRow sources routing geometry.stagingTokens ringStart
      planeStride row).table) :
    (tableView geometry request.slot).Covers store.address := by
  rw [mem_finishCompactRow_table _ _ _ _ _ routes.real, routes.length, routes.slot] at member
  rcases member with ⟨index, lower, inside, rfl⟩
  have small : index.toNat < validCount request.seqLen := by
    unfold validCount
    omega
  have least := nonneg index.toNat small
  have most := below index.toNat small
  rw [Int.toNat_of_nonneg lower] at least most
  simp only [View.Covers, tableView]
  omega

end Confined

/-! ## Distinct slots have disjoint views -/

theorem hotView_disjoint {slot other : Nat} (different : slot ≠ other) {address : Int}
    (covered : (hotView slot).Covers address) : ¬ (hotView other).Covers address := by
  simp only [View.Covers, hotView] at *
  omega

theorem tokensView_disjoint {slot other : Nat} (different : slot ≠ other) {address : Int}
    (covered : (tokensView slot).Covers address) : ¬ (tokensView other).Covers address := by
  simp only [View.Covers, tokensView] at *
  omega

theorem tableView_disjoint {geometry : Geometry} {slot other : Nat} (different : slot ≠ other)
    {address : Int} (covered : (tableView geometry slot).Covers address) :
    ¬ (tableView geometry other).Covers address := by
  rintro ⟨lower, upper⟩
  simp only [View.Covers, tableView, mul_one] at *
  have ends : forall low high : Nat, low < high ->
      (low : Int) * geometry.stagingTokens + geometry.stagingTokens ≤
        high * geometry.stagingTokens := by
    intro low high apart
    have grown : (low + 1) * geometry.stagingTokens ≤ high * geometry.stagingTokens :=
      Nat.mul_le_mul_right _ apart
    rw [Nat.succ_mul] at grown
    exact_mod_cast grown
  rcases Nat.lt_or_gt_of_ne different with before | after
  · have bound := ends slot other before
    omega
  · have bound := ends other slot after
    omega

/-- The compact rows of a slot in either plane. -/
def CompactCovers (geometry : Geometry) (slot : Nat) (address : Int) : Prop :=
  (compactView geometry 0 slot).Covers address ∨ (compactView geometry 1 slot).Covers address

theorem compactView_disjoint {geometry : Geometry} {slot other : Nat}
    (held : slot < geometry.maxRequests) (otherHeld : other < geometry.maxRequests)
    (different : slot ≠ other) {address : Int} (covered : CompactCovers geometry slot address) :
    ¬ CompactCovers geometry other address := by
  simp only [CompactCovers, View.Covers, compactView] at *
  omega

/-- With the runtime's context length every address of a slot's views is a
nonnegative `int32`. -/
theorem covered_addresses_fit {geometry : Geometry} (context : geometry.stagingTokens ≤ 262144)
    {slot : Nat} (held : slot < geometry.maxRequests) {address : Int}
    (covered : (hotView slot).Covers address ∨ (tokensView slot).Covers address ∨
      CompactCovers geometry slot address ∨ (tableView geometry slot).Covers address) :
    0 ≤ address ∧ address < 2 ^ 31 := by
  have few := geometry.lease_most
  have rows : (slot : Int) * geometry.stagingTokens ≤ 7 * 262144 := by
    exact_mod_cast Nat.mul_le_mul (show slot ≤ 7 by omega) context
  have start : 0 ≤ (slot : Int) * geometry.stagingTokens := by positivity
  simp only [CompactCovers, View.Covers, hotView, tokensView, compactView, tableView,
    mul_one] at covered
  omega

/-! ## A batch -/

/-- A runtime with a decode batch: requests on distinct slots, each handed off
and within the context. -/
structure DecodeBatch extends Adapter where
  decodes : offloaded = true
  decoding : forall request, request ∈ batchRequests -> request.Decoding slots.geometry
  held : forall request, request ∈ batchRequests -> request.slot < slots.geometry.maxRequests
  distinct : (batchRequests.map RequestCache.slot).Nodup

/-- The routing buffers after `begin_batch` and `prepare_graph_replay`: the
first entries are the batch's, the others stay. -/
def Routing.prepared (routing : Routing) (requests : List RequestCache) : Routing where
  slots := blit routing.slots 0
    (fun row => (requests[row.toNat]?).elim 0 fun request => request.slot) 0 requests.length
  lengths := blit routing.lengths 0
    (fun row => (requests[row.toNat]?).elim 0 fun request => request.seqLen) 0 requests.length
  real := requests.length

theorem routes_prepared (routing : Routing) {requests : List RequestCache}
    {request : RequestCache} {row : Nat} (member : (request, row) ∈ requests.zipIdx) :
    Routes (routing.prepared requests) row request := by
  have found : requests[row]? = some request := List.mem_zipIdx_iff_getElem?.mp member
  have real : row < requests.length := (List.getElem?_eq_some_iff.mp found).1
  constructor
  · exact Int.ofNat_lt.mpr real
  · simp only [Routing.prepared]
    rw [blit_inside _ _ _ (by omega) (by omega)]
    simp only [zero_add, sub_zero, Int.toNat_natCast, found, Option.elim_some]
  · simp only [Routing.prepared]
    rw [blit_inside _ _ _ (by omega) (by omega)]
    simp only [zero_add, sub_zero, Int.toNat_natCast, found, Option.elim_some]

section Grid

variable {α : Type} {requests : List RequestCache} {stores : Nat -> List (Store α)}
variable {turn : Memory α -> RequestCache × Nat -> Memory α}
variable {region : RequestCache -> Int -> Prop}

/-- The programs of a grid serve a batch: each real row is explained by its
request's turn and stays in the request's region, requests have disjoint
regions, and the rows past the batch store nothing. -/
structure Serves (requests : List RequestCache) (stores : Nat -> List (Store α))
    (turn : Memory α -> RequestCache × Nat -> Memory α) (region : RequestCache -> Int -> Prop) :
    Prop where
  idle : forall row, requests.length ≤ row -> stores row = []
  explained : forall entry, entry ∈ requests.zipIdx -> forall memory,
    Explains memory (turn memory entry) (stores entry.2)
  confined : forall entry, entry ∈ requests.zipIdx ->
    forall store, store ∈ stores entry.2 -> region entry.1 store.address
  apart : requests.Pairwise fun first second =>
    forall address, region first address -> ¬ region second address

/-- A grid at least as large as the batch is explained by the batch's turns. -/
theorem Serves.explains (serves : Serves requests stores turn region) {count : Nat}
    (covered : requests.length ≤ count) (memory : Memory α) :
    Explains memory (requests.zipIdx.foldl turn memory) ((List.range count).flatMap stores) := by
  have pairs : requests.zipIdx.Pairwise (Apart fun entry => stores entry.2) := by
    have apart := serves.apart
    rw [<- List.zipIdx_map_fst 0 requests] at apart
    refine (List.pairwise_map.mp apart).imp_of_mem
      fun {first second} inFirst inSecond separate => ?_
    intro left inLeft right inRight same
    exact separate left.address (serves.confined first inFirst left inLeft)
      (same ▸ serves.confined second inSecond right inRight)
  refine (explains_foldl (fun entry => stores entry.2) turn memory requests.zipIdx
    serves.explained pairs).congr fun store => ?_
  simp only [List.mem_flatMap, List.mem_range]
  constructor
  · rintro ⟨row, -, member⟩
    have real : row < requests.length := by
      by_contra padded
      rw [serves.idle row (not_lt.mp padded)] at member
      exact absurd member List.not_mem_nil
    exact ⟨(requests[row], row), List.mem_zipIdx_iff_getElem?.mpr
      (List.getElem?_eq_getElem real), member⟩
  · rintro ⟨⟨request, row⟩, member, inStores⟩
    have found := List.mem_zipIdx_iff_getElem?.mp member
    have real := (List.getElem?_eq_some_iff.mp found).1
    exact ⟨row, by omega, inStores⟩

/-- Outside the regions of the batch nothing changes. -/
theorem Serves.kept (serves : Serves requests stores turn region) (memory : Memory α)
    {address : Int} (outside : forall request, request ∈ requests -> ¬ region request address) :
    requests.zipIdx.foldl turn memory address = memory address := by
  apply (serves.explains (Nat.le_refl _) memory).kept
  intro store member same
  rcases List.mem_flatMap.mp member with ⟨row, inRange, stored⟩
  have real := List.mem_range.mp inRange
  have entry : (requests[row], row) ∈ requests.zipIdx :=
    List.mem_zipIdx_iff_getElem?.mpr (List.getElem?_eq_getElem real)
  exact outside requests[row] (List.getElem_mem real)
    (same ▸ serves.confined _ entry store stored)

end Grid

/-! ## The eager batch -/

section Eager

variable (geometry : Geometry) (li : Nat)

/-- What a whole eager close leaves of the buffers of its layer. -/
theorem foldl_storedBuffers (requests : List RequestCache) (before : DecodeBuffers) :
    let after := requests.foldl (fun buffers request => storedBuffers geometry li request buffers)
      before
    after.kBuffer = before.kBuffer ∧ after.vBuffer = before.vBuffer ∧
      after.compact = before.compact ∧ after.compactTable = before.compactTable ∧
      after.hot li = requests.foldl
        (hotTurn (before.kBuffer li) (before.vBuffer li) (ringBase geometry)) (before.hot li) ∧
      after.tokens li = requests.foldl tokensTurn (before.tokens li) := by
  induction requests generalizing before with
  | nil => exact ⟨rfl, rfl, rfl, rfl, rfl, rfl⟩
  | cons request requests previous =>
      have step : (storedBuffers geometry li request before).kBuffer = before.kBuffer ∧
          (storedBuffers geometry li request before).vBuffer = before.vBuffer ∧
          (storedBuffers geometry li request before).compact = before.compact ∧
          (storedBuffers geometry li request before).compactTable = before.compactTable ∧
          (storedBuffers geometry li request before).hot li =
            hotTurn (before.kBuffer li) (before.vBuffer li) (ringBase geometry) (before.hot li)
              request ∧
          (storedBuffers geometry li request before).tokens li =
            tokensTurn (before.tokens li) request := by
        unfold storedBuffers hotTurn tokensTurn
        by_cases closes : request.seqLen % 4 ≠ 0
        · simp only [if_pos closes, and_self]
        · simp only [if_neg closes, Function.update_self, and_self]
      have rest := previous (storedBuffers geometry li request before)
      simp only [List.foldl_cons]
      rw [step.1, step.2.1, step.2.2.1, step.2.2.2.1, step.2.2.2.2.1, step.2.2.2.2.2] at rest
      exact rest

/-- What a whole eager finish leaves. -/
theorem foldl_finishedBuffers (raw : Memory Int) (unpacked : Memory UInt8)
    (entries : List (RequestCache × Nat)) (before : DecodeBuffers) :
    entries.foldl (fun buffers entry => finishedBuffers geometry li raw unpacked entry.2 entry.1
        buffers) before =
      { before with
        compact := entries.foldl
          (compactTurn geometry (before.kBuffer li) (before.vBuffer li) unpacked) before.compact
        compactTable := entries.foldl (tableTurn geometry raw) before.compactTable } := by
  induction entries generalizing before with
  | nil => rfl
  | cons entry entries previous =>
      rw [List.foldl_cons, previous]
      rfl

end Eager

/-- The valid entries of every row of the batch are distinct and not negative. -/
structure ValidSelection (requests : List RequestCache) (raw : Memory Int) : Prop where
  nonneg : forall entry, entry ∈ requests.zipIdx -> EntriesNonneg raw entry.2 entry.1.seqLen
  distinct : forall entry, entry ∈ requests.zipIdx -> EntriesDistinct raw entry.2 entry.1.seqLen

/-- The valid entries of every row of the batch are below the capacity of the
compact table. -/
def SelectionBelow (requests : List RequestCache) (capacity : Int) (raw : Memory Int) : Prop :=
  forall entry, entry ∈ requests.zipIdx ->
    EntriesBelow raw (entry.2 * 2051) (validCount entry.1.seqLen) capacity

/-- The launches of `close_c4` and `finish_compact` by the graph forms of
`after_store` and `selected`, their stores landing in any order. -/
structure GraphDecode (geometry : Geometry) (li : Nat) (routing : Routing) (count : Nat)
    (raw : Memory Int) (unpacked : Memory UInt8) (before after : DecodeBuffers) : Prop where
  hot : Lands (before.hot li) (after.hot li)
    (closeC4Grid (before.kBuffer li) (before.vBuffer li) routing (ringBase geometry) count).hot
  tokens : Lands (before.tokens li) (after.tokens li)
    (closeC4Grid (before.kBuffer li) (before.vBuffer li) routing (ringBase geometry) count).tokens
  compact : Lands before.compact after.compact
    (finishCompactGrid ⟨unpacked, before.kBuffer li, before.vBuffer li, raw⟩ routing
      geometry.stagingTokens (ringBase geometry) (geometry.maxRequests * 2052) count).compact
  table : Lands before.compactTable after.compactTable
    (finishCompactGrid ⟨unpacked, before.kBuffer li, before.vBuffer li, raw⟩ routing
      geometry.stagingTokens (ringBase geometry) (geometry.maxRequests * 2052) count).table

/-- A layer's decode buffers of a slot are as they were. -/
structure SlotKept (geometry : Geometry) (li slot : Nat) (before after : DecodeBuffers) : Prop where
  hot : forall address, (hotView slot).Covers address ->
    after.hot li address = before.hot li address
  tokens : forall address, (tokensView slot).Covers address ->
    after.tokens li address = before.tokens li address
  compact : forall address, CompactCovers geometry slot address ->
    after.compact address = before.compact address
  table : forall address, (tableView geometry slot).Covers address ->
    after.compactTable address = before.compactTable address

/-- What a decode step computes of a layer is the same on both paths. -/
structure SameDecode (li : Nat) (graph eager : DecodeBuffers) : Prop where
  hot : graph.hot li = eager.hot li
  tokens : graph.tokens li = eager.tokens li
  compact : graph.compact = eager.compact
  table : graph.compactTable = eager.compactTable

/-! ## Agreement -/

section Agreement

variable (batch : DecodeBatch) (routing : Routing)

/-- The slots of a batch are pairwise different, in batch order. -/
theorem DecodeBatch.slots_pairwise :
    batch.batchRequests.Pairwise fun first second => first.slot ≠ second.slot :=
  List.pairwise_map.mp batch.distinct

/-- A fold over the batch is a fold over its numbered rows. -/
theorem foldl_rows {α : Type} (requests : List RequestCache) (turn : α -> RequestCache -> α)
    (start : α) :
    requests.foldl turn start =
      requests.zipIdx.foldl (fun state entry => turn state entry.1) start := by
  conv_lhs => rw [<- List.zipIdx_map_fst 0 requests]
  rw [List.foldl_map]

theorem closeC4_padded (k v : Memory UInt8) (ringStart : Int) {row : Nat}
    (padded : batch.batchRequests.length ≤ row) :
    closeC4 k v (routing.prepared batch.batchRequests) ringStart row = ⟨[], []⟩ := by
  unfold closeC4
  rw [if_neg]
  simp only [Routing.prepared]
  omega

theorem finishCompact_padded (sources : CompactSources) (capacity ringStart planeStride : Int)
    {row : Nat} (padded : batch.batchRequests.length ≤ row) (chunk : Int) :
    finishCompact sources (routing.prepared batch.batchRequests) capacity ringStart planeStride row
      chunk = ⟨[], []⟩ := by
  unfold finishCompact
  rw [if_neg]
  simp only [Routing.prepared]
  omega

theorem finishCompactRow_padded (sources : CompactSources) (capacity ringStart planeStride : Int)
    {row : Nat} (padded : batch.batchRequests.length ≤ row) :
    finishCompactRow sources (routing.prepared batch.batchRequests) capacity ringStart planeStride row =
      ⟨[], []⟩ := by
  unfold finishCompactRow
  simp only [finishCompact_padded batch routing _ _ _ _ padded]
  rw [List.flatMap_eq_nil_iff.mpr fun _ _ => rfl, List.flatMap_eq_nil_iff.mpr fun _ _ => rfl]

theorem closeC4_serves_hot (k v : Memory UInt8) :
    Serves batch.batchRequests
      (fun row => (closeC4 k v (routing.prepared batch.batchRequests) (ringBase batch.geometry) row).hot)
      (fun memory entry => hotTurn k v (ringBase batch.geometry) memory entry.1)
      (fun request => (hotView request.slot).Covers) where
  idle := fun row padded => by
    rw [closeC4_padded batch routing k v _ padded]
  explained := fun entry member memory =>
    hotTurn_explains (routes_prepared routing member) k v (ringBase batch.geometry) memory
  confined := fun entry member store stored => closeC4_hot_covered (routes_prepared routing member)
    (batch.decoding entry.1 (List.fst_mem_of_mem_zipIdx member)).length_least stored
  apart := batch.slots_pairwise.imp fun different _ => hotView_disjoint different

theorem closeC4_serves_tokens (k v : Memory UInt8) :
    Serves batch.batchRequests
      (fun row => (closeC4 k v (routing.prepared batch.batchRequests) (ringBase batch.geometry) row).tokens)
      (fun memory entry => tokensTurn memory entry.1)
      (fun request => (tokensView request.slot).Covers) where
  idle := fun row padded => by
    rw [closeC4_padded batch routing k v _ padded]
  explained := fun entry member memory =>
    tokensTurn_explains (routes_prepared routing member) k v (ringBase batch.geometry) memory
  confined := fun entry member store stored =>
    closeC4_tokens_covered (routes_prepared routing member)
      (batch.decoding entry.1 (List.fst_mem_of_mem_zipIdx member)).length_least stored
  apart := batch.slots_pairwise.imp fun different _ => tokensView_disjoint different

theorem finishCompact_serves_compact (sources : CompactSources) (capacity : Int) :
    Serves batch.batchRequests
      (fun row => (finishCompactRow sources (routing.prepared batch.batchRequests) capacity
        (ringBase batch.geometry) (batch.geometry.maxRequests * 2052) row).compact)
      (compactTurn batch.geometry sources.k sources.v sources.unpacked)
      (fun request => CompactCovers batch.geometry request.slot) where
  idle := fun row padded => by
    rw [finishCompactRow_padded batch routing sources _ _ _ padded]
  explained := fun entry member memory =>
    compactTurn_explains (routes_prepared routing member) sources capacity memory
  confined := fun entry member store stored =>
    finishCompact_compact_covered (routes_prepared routing member) stored
  apart := by
    refine batch.slots_pairwise.imp_of_mem fun {first second} inFirst inSecond different _ => ?_
    exact compactView_disjoint (batch.held first inFirst) (batch.held second inSecond) different

theorem finishCompact_serves_table (sources : CompactSources)
    (valid : ValidSelection batch.batchRequests sources.raw)
    (below : SelectionBelow batch.batchRequests batch.geometry.stagingTokens sources.raw)
    (ringStart planeStride : Int) :
    Serves batch.batchRequests
      (fun row => (finishCompactRow sources (routing.prepared batch.batchRequests)
        batch.geometry.stagingTokens ringStart planeStride row).table)
      (tableTurn batch.geometry sources.raw)
      (fun request => (tableView batch.geometry request.slot).Covers) where
  idle := fun row padded => by
    rw [finishCompactRow_padded batch routing sources _ _ _ padded]
  explained := fun entry member memory => tableTurn_explains (routes_prepared routing member)
    sources (valid.distinct entry member) ringStart planeStride memory
  confined := fun entry member store stored => finishCompact_table_covered
    (routes_prepared routing member) (valid.nonneg entry member) (below entry member) stored
  apart := batch.slots_pairwise.imp fun different _ => tableView_disjoint different

/-- An eager close that returns has taken every turn. -/
theorem afterStore_foldl {li : Nat} {before after : DecodeBuffers}
    (returned : batch.toAdapter.afterStore li before = .ok after) :
    after = batch.batchRequests.foldl
      (fun buffers request => storedBuffers batch.geometry li request buffers) before := by
  unfold Adapter.afterStore at returned
  rw [if_pos batch.decodes] at returned
  refine (foldlM_ok (fun _ => True) _ batch.batchRequests ?_ returned).2
  intro request member current next stored
  rcases Except.bind_ok stored with ⟨_, _, closed⟩
  exact ⟨trivial, afterStore_ok (batch.decoding request member) closed⟩

/-- An eager finish that returns had every valid entry inside the context. -/
theorem finishRows_foldl {li : Nat} {raw : Memory Int} {unpacked : Memory UInt8}
    (valid : ValidSelection batch.batchRequests raw) {before after : DecodeBuffers}
    (returned : batch.toAdapter.finishRows li raw unpacked before = .ok after) :
    SelectionBelow batch.batchRequests batch.geometry.stagingTokens raw ∧
    after = batch.batchRequests.zipIdx.foldl
      (fun buffers entry => finishedBuffers batch.geometry li raw unpacked entry.2 entry.1 buffers)
      before :=
  foldlM_ok _ _ batch.batchRequests.zipIdx
    (fun entry member _ _ stored => finishSelected_ok
      (batch.decoding entry.1 (List.fst_mem_of_mem_zipIdx member)).length_least
      (valid.nonneg entry member) stored) returned

/-- An eager close returns when every lease decodes and every layer state is
current. -/
theorem afterStore_returns (li : Nat)
    (permitted : forall request, request ∈ batch.batchRequests ->
      batch.slots.Permits request.lease [.decode])
    (current : forall request, request ∈ batch.batchRequests ->
      request.states[li]? = some request.generation) (before : DecodeBuffers) :
    batch.toAdapter.afterStore li before = .ok (batch.batchRequests.foldl
      (fun buffers request => storedBuffers batch.geometry li request buffers) before) := by
  unfold Adapter.afterStore
  rw [if_pos batch.decodes]
  refine foldlM_succeeds batch.batchRequests before fun request member buffers => ?_
  rw [ask_require batch.toAdapter (permitted request member), Except.ok_bind]
  exact afterStore_eq (batch.decoding request member) (current request member) buffers

/-- An eager finish returns when the valid entries are inside the context. -/
theorem finishRows_returns (li : Nat) {raw : Memory Int}
    (valid : ValidSelection batch.batchRequests raw)
    (below : SelectionBelow batch.batchRequests batch.geometry.stagingTokens raw)
    (unpacked : Memory UInt8) (before : DecodeBuffers) :
    batch.toAdapter.finishRows li raw unpacked before = .ok (batch.batchRequests.zipIdx.foldl
      (fun buffers entry => finishedBuffers batch.geometry li raw unpacked entry.2 entry.1 buffers)
      before) :=
  foldlM_succeeds batch.batchRequests.zipIdx before fun entry member buffers =>
    finishSelected_eq
      (batch.decoding entry.1 (List.fst_mem_of_mem_zipIdx member)).length_least
      (valid.nonneg entry member) (below entry member) buffers

/-- Some launch exists: the stores landing in the order they are listed. -/
theorem exists_graphDecode (geometry : Geometry) (li : Nat) (routing : Routing) (count : Nat)
    (raw : Memory Int) (unpacked : Memory UInt8) (before : DecodeBuffers) :
    exists graph, GraphDecode geometry li routing count raw unpacked before graph :=
  ⟨{ before with
      hot := Function.update before.hot li (storeAll (before.hot li) _)
      tokens := Function.update before.tokens li (storeAll (before.tokens li) _)
      compact := storeAll before.compact _
      compactTable := storeAll before.compactTable _ },
    { hot := by simpa only [Function.update_self] using lands_storeAll _ _
      tokens := by simpa only [Function.update_self] using lands_storeAll _ _
      compact := lands_storeAll _ _
      table := lands_storeAll _ _ }⟩

/-- What the launches leave: the turns of the batch, in its own order. -/
theorem graphDecode_turns {li count : Nat} (covered : batch.batchRequests.length ≤ count)
    {raw : Memory Int} (valid : ValidSelection batch.batchRequests raw)
    (below : SelectionBelow batch.batchRequests batch.geometry.stagingTokens raw)
    {unpacked : Memory UInt8} {before graph : DecodeBuffers}
    (launched : GraphDecode batch.geometry li (routing.prepared batch.batchRequests) count raw
      unpacked before graph) :
    graph.hot li = batch.batchRequests.zipIdx.foldl
        (fun hot entry => hotTurn (before.kBuffer li) (before.vBuffer li) (ringBase batch.geometry)
          hot entry.1) (before.hot li) ∧
      graph.tokens li = batch.batchRequests.zipIdx.foldl
        (fun tokens entry => tokensTurn tokens entry.1) (before.tokens li) ∧
      graph.compact = batch.batchRequests.zipIdx.foldl
        (compactTurn batch.geometry (before.kBuffer li) (before.vBuffer li) unpacked)
        before.compact ∧
      graph.compactTable = batch.batchRequests.zipIdx.foldl (tableTurn batch.geometry raw)
        before.compactTable := by
  have hotServes := closeC4_serves_hot batch routing (before.kBuffer li) (before.vBuffer li)
  have tokensServes := closeC4_serves_tokens batch routing (before.kBuffer li) (before.vBuffer li)
  have compactServes := finishCompact_serves_compact batch routing
    ⟨unpacked, before.kBuffer li, before.vBuffer li, raw⟩ batch.geometry.stagingTokens
  have tableServes := finishCompact_serves_table batch routing
    ⟨unpacked, before.kBuffer li, before.vBuffer li, raw⟩ valid below (ringBase batch.geometry)
    (batch.geometry.maxRequests * 2052)
  exact ⟨(hotServes.explains covered (before.hot li)).lands_iff.mp launched.hot,
    (tokensServes.explains covered (before.tokens li)).lands_iff.mp launched.tokens,
    (compactServes.explains covered before.compact).lands_iff.mp launched.compact,
    (tableServes.explains covered before.compactTable).lands_iff.mp launched.table⟩

/-- Launches touch the slots of the batch only. -/
theorem graphDecode_kept {li count : Nat} (covered : batch.batchRequests.length ≤ count)
    {raw : Memory Int} (valid : ValidSelection batch.batchRequests raw)
    (below : SelectionBelow batch.batchRequests batch.geometry.stagingTokens raw)
    {unpacked : Memory UInt8} {before graph : DecodeBuffers}
    (launched : GraphDecode batch.geometry li (routing.prepared batch.batchRequests) count raw
      unpacked before graph) {slot : Nat} (held : slot < batch.geometry.maxRequests)
    (unrouted : forall request, request ∈ batch.batchRequests -> request.slot ≠ slot) :
    SlotKept batch.geometry li slot before graph := by
  rcases graphDecode_turns batch routing covered valid below launched with
    ⟨hot, tokens, compact, table⟩
  constructor
  · intro address inSlot
    rw [hot]
    exact (closeC4_serves_hot batch routing _ _).kept _ fun request member inRequest =>
      hotView_disjoint (unrouted request member) inRequest inSlot
  · intro address inSlot
    rw [tokens]
    exact (closeC4_serves_tokens batch routing (before.kBuffer li) (before.vBuffer li)).kept _
      fun request member inRequest =>
        tokensView_disjoint (unrouted request member) inRequest inSlot
  · intro address inSlot
    rw [compact]
    exact (finishCompact_serves_compact batch routing
      ⟨unpacked, before.kBuffer li, before.vBuffer li, raw⟩ batch.geometry.stagingTokens).kept _
      fun request member inRequest => compactView_disjoint (batch.held request member) held
        (unrouted request member) inRequest inSlot
  · intro address inSlot
    rw [table]
    exact (finishCompact_serves_table batch routing
      ⟨unpacked, before.kBuffer li, before.vBuffer li, raw⟩ valid below (ringBase batch.geometry)
      (batch.geometry.maxRequests * 2052)).kept _ fun request member inRequest =>
        tableView_disjoint (unrouted request member) inRequest inSlot

/-- When the eager path returns it has left the same buffers. -/
theorem graphDecode_same {li count : Nat} (covered : batch.batchRequests.length ≤ count)
    {raw : Memory Int} (valid : ValidSelection batch.batchRequests raw)
    {unpacked : Memory UInt8} {before closed eager graph : DecodeBuffers}
    (stored : batch.toAdapter.afterStore li before = .ok closed)
    (finished : batch.toAdapter.finishRows li raw unpacked closed = .ok eager)
    (launched : GraphDecode batch.geometry li (routing.prepared batch.batchRequests) count raw
      unpacked before graph) : SameDecode li graph eager := by
  rcases finishRows_foldl batch valid finished with ⟨below, left⟩
  have closedParts := foldl_storedBuffers batch.geometry li batch.batchRequests before
  rw [<- afterStore_foldl batch stored] at closedParts
  rcases closedParts with ⟨sameK, sameV, sameCompact, sameTable, hot, tokens⟩
  rw [foldl_finishedBuffers, sameK, sameV, sameCompact, sameTable] at left
  rw [foldl_rows] at hot tokens
  rcases graphDecode_turns batch routing covered valid below launched with
    ⟨graphHot, graphTokens, graphCompact, graphTable⟩
  constructor
  · rw [graphHot, left, hot]
  · rw [graphTokens, left, tokens]
  · rw [graphCompact, left]
  · rw [graphTable, left]

/-- With entries below the capacity of the table: the eager path returns for
decoding leases with current layer states; whenever it returns, the graph path
leaves the same hot rows, residency tokens, compact rows and compact table; and
the graph path changes no slot without a real row, and its rows past the real
count store nothing. -/
theorem graph_decode_agrees (li : Nat) {count : Nat}
    (covered : batch.batchRequests.length ≤ count) {raw : Memory Int}
    (valid : ValidSelection batch.batchRequests raw)
    (below : SelectionBelow batch.batchRequests batch.geometry.stagingTokens raw)
    (unpacked : Memory UInt8) {before graph : DecodeBuffers}
    (launched : GraphDecode batch.geometry li (routing.prepared batch.batchRequests) count raw
      unpacked before graph) :
    ((forall request, request ∈ batch.batchRequests ->
        batch.slots.Permits request.lease [.decode] ∧
          request.states[li]? = some request.generation) ->
      exists closed eager, batch.toAdapter.afterStore li before = .ok closed ∧
        batch.toAdapter.finishRows li raw unpacked closed = .ok eager) ∧
    (forall closed eager, batch.toAdapter.afterStore li before = .ok closed ->
      batch.toAdapter.finishRows li raw unpacked closed = .ok eager -> SameDecode li graph eager) ∧
    (forall slot, slot < batch.geometry.maxRequests ->
      (forall request, request ∈ batch.batchRequests -> request.slot ≠ slot) ->
      SlotKept batch.geometry li slot before graph) ∧
    (forall row : Nat, batch.batchRequests.length ≤ row ->
      closeC4 (before.kBuffer li) (before.vBuffer li) (routing.prepared batch.batchRequests)
        (ringBase batch.geometry) row = ⟨[], []⟩ ∧
      forall chunk, finishCompact ⟨unpacked, before.kBuffer li, before.vBuffer li, raw⟩
        (routing.prepared batch.batchRequests) batch.geometry.stagingTokens (ringBase batch.geometry)
        (batch.geometry.maxRequests * 2052) row chunk = ⟨[], []⟩) := by
  refine ⟨fun ready => ?_, fun closed eager stored finished => ?_, fun slot held unrouted => ?_,
    fun row padded => ?_⟩
  · exact ⟨_, _, afterStore_returns batch li (fun request member => (ready request member).1)
      (fun request member => (ready request member).2) before,
      finishRows_returns batch li valid below unpacked _⟩
  · exact graphDecode_same batch routing covered valid stored finished launched
  · exact graphDecode_kept batch routing covered valid below launched held unrouted
  · exact ⟨closeC4_padded batch routing _ _ _ padded,
      fun chunk => finishCompact_padded batch routing _ _ _ _ padded chunk⟩

end Agreement

/-- Two leases with one page of staging. -/
def smallGeometry : Geometry :=
  { Geometry.onePage with
    maxRequests := 2
    lease_least := by decide
    lease_most := by decide }

def firstLease : QSAHiSparseLease := ⟨1, 1, "a", 1⟩

def secondLease : QSAHiSparseLease := ⟨2, 2, "b", 0⟩

/-- Both leases decode. -/
def smallSlots : QSAHiSparseSlots where
  geometry := smallGeometry
  active := (Dict.empty.set 1 firstLease).set 2 secondLease
  phases := (Dict.empty.set 1 .decode).set 2 .decode
  lastGeneration := (Dict.empty.set 1 1).set 2 2
  freeSlots := []
  prefillOwner := none

/-- A row that closes its first block and a row with a tail, slots crossed. -/
def smallBatch : DecodeBatch where
  slots := smallSlots
  offloaded := true
  batchRequests := [⟨firstLease, 4, true, [1]⟩, ⟨secondLease, 7, true, [2]⟩]
  decodes := rfl
  decoding := by
    intro request member
    simp only [List.mem_cons, List.not_mem_nil, or_false] at member
    rcases member with rfl | rfl
    · exact ⟨rfl, by decide, by decide⟩
    · exact ⟨rfl, by decide, by decide⟩
  held := by decide
  distinct := by decide

/-- Ring rows of sevens and nines, and otherwise fresh buffers. -/
def smallBuffers : DecodeBuffers where
  kBuffer := fun _ _ => 7
  vBuffer := fun _ _ => 9
  hot := fun _ _ => 0
  tokens := fun _ _ => -1
  lru := fun _ index => index % 2048
  compact := fun _ => 0
  compactTable := fun _ => 0
  hostSlabs := fun _ => 0

theorem graph_decode_agrees_small : exists closed eager graph : DecodeBuffers,
    smallBatch.toAdapter.afterStore 0 smallBuffers = .ok closed ∧
    smallBatch.toAdapter.finishRows 0 (fun address => address % 2051) (fun _ => 5) closed =
      .ok eager ∧ SameDecode 0 graph eager := by
  have few : forall entry, entry ∈ smallBatch.batchRequests.zipIdx ->
      validCount entry.1.seqLen ≤ 7 := by decide
  have valid : ValidSelection smallBatch.batchRequests fun address => address % 2051 := by
    constructor
    · intro entry _ index _
      exact Int.emod_nonneg _ (by decide)
    · intro entry member first second inFirst inSecond same
      have small := few entry member
      simp only at same
      omega
  have below : SelectionBelow smallBatch.batchRequests smallBatch.geometry.stagingTokens
      fun address => address % 2051 := by
    intro entry member index inRange
    have small := few entry member
    simp only [smallBatch, Adapter.geometry, smallSlots, smallGeometry, Geometry.onePage]
    omega
  have ready : forall request, request ∈ smallBatch.batchRequests ->
      smallBatch.slots.Permits request.lease [.decode] ∧
        request.states[0]? = some request.generation := by
    intro request member
    simp only [smallBatch, List.mem_cons, List.not_mem_nil, or_false] at member
    rcases member with rfl | rfl
    · exact ⟨⟨by decide, .decode, by decide, by decide⟩, rfl⟩
    · exact ⟨⟨by decide, .decode, by decide, by decide⟩, rfl⟩
  rcases exists_graphDecode smallGeometry 0
    ((Routing.mk (fun _ => 0) (fun _ => 0) 0).prepared smallBatch.batchRequests) 2
    (fun address => address % 2051) (fun _ => 5) smallBuffers with ⟨graph, launched⟩
  rcases graph_decode_agrees smallBatch _ 0 (by decide) valid below _ launched with
    ⟨returns, same, _⟩
  rcases returns ready with ⟨closed, eager, stored, finished⟩
  exact ⟨closed, eager, graph, stored, finished, same closed eager stored finished⟩

/-! ## An entry past the capacity -/

/-- Only the second lease decodes, on slot 0. -/
def strayBatch : DecodeBatch where
  slots := smallSlots
  offloaded := true
  batchRequests := [⟨secondLease, 7, true, [2]⟩]
  decodes := rfl
  decoding := by
    intro request member
    rw [List.mem_singleton.mp member]
    exact ⟨rfl, by decide, by decide⟩
  held := by decide
  distinct := by decide

/-- The row selects the tokens 60 to 66, of which the last three are past the
capacity of 64. -/
def strayRaw : Memory Int := fun address => 60 + address

theorem strayRaw_valid : ValidSelection strayBatch.batchRequests strayRaw := by
  constructor
  · intro entry _ index _
    simp only [strayRaw]
    omega
  · intro entry _ first second _ _ same
    simp only [strayRaw] at same
    omega

/-- The eager path refuses these distinct nonnegative entries, and the graph path
stores into the compact table of slot 1, which no row routes to. -/
theorem graph_decode_strays :
    ValidSelection strayBatch.batchRequests strayRaw ∧
    (forall closed eager, strayBatch.toAdapter.finishRows 0 strayRaw (fun _ => 5) closed ≠
      .ok eager) ∧
    (forall request, request ∈ strayBatch.batchRequests -> request.slot ≠ 1) ∧
    exists graph, GraphDecode smallGeometry 0
        ((Routing.mk (fun _ => 0) (fun _ => 0) 0).prepared strayBatch.batchRequests) 1 strayRaw
        (fun _ => 5) smallBuffers graph ∧
      ¬ SlotKept smallGeometry 0 1 smallBuffers graph := by
  refine ⟨strayRaw_valid, fun closed eager finished => ?_, by decide, ?_⟩
  · have below := (finishRows_foldl strayBatch strayRaw_valid finished).1
      (⟨secondLease, 7, true, [2]⟩, 0) List.mem_cons_self 4 (by decide)
    exact absurd below (by decide)
  · rcases exists_graphDecode smallGeometry 0
      ((Routing.mk (fun _ => 0) (fun _ => 0) 0).prepared strayBatch.batchRequests) 1 strayRaw
      (fun _ => 5) smallBuffers with ⟨graph, launched⟩
    refine ⟨graph, launched, fun kept => ?_⟩
    have routes := @routes_prepared (Routing.mk (fun _ => 0) (fun _ => 0) 0)
      strayBatch.batchRequests ⟨secondLease, 7, true, [2]⟩ 0 List.mem_cons_self
    have turn := @tableTurn_explains smallGeometry _ 0 _ routes
      ⟨fun _ => 5, smallBuffers.kBuffer 0, smallBuffers.vBuffer 0, strayRaw⟩
      (strayRaw_valid.distinct _ List.mem_cons_self) (ringBase smallGeometry)
      (smallGeometry.maxRequests * 2052) smallBuffers.compactTable
    have table := launched.table
    simp only [finishCompactGrid, List.range_one, List.flatMap_singleton] at table
    have written := turn.written ⟨64, 5⟩ (by
      rw [mem_finishCompactRow_table _ _ _ _ _ routes.real, routes.length, routes.slot]
      exact ⟨4, by decide, by decide, rfl⟩)
    rw [<- turn.lands_iff.mp table, kept.table 64 ⟨by decide, by decide⟩] at written
    exact absurd written (by decide)

end Decode
end QSAHiSparse

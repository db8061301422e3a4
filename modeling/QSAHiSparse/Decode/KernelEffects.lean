import QSAHiSparse.Decode.EagerEffects
import QSAHiSparse.Decode.Kernels

namespace QSAHiSparse
namespace Decode

open Foundation
open Ledger

/-!
# What one row of the grid stores

The stores of a row's programs are listed by the byte or the member they
carry, whatever program and lane issues them.  The lists are explained by the
buffers the eager path leaves for the same slot and length.
-/

/-! ## close_c4 -/

/-- The two vector stores of a record. -/
theorem mem_recordStores {k v : Memory UInt8} {base ring : Int} {store : Store UInt8} :
    store ∈ vectorStore 1024 (fun _ => True) (fun i => base + i) (fun i => k (ring + i)) ++
        vectorStore 1024 (fun _ => True) (fun i => base + 1024 + i) (fun i => v (ring + i)) <->
      exists byte : Int, 0 ≤ byte ∧ byte < 2048 ∧
        store = ⟨base + byte, recordByte k v ring byte⟩ := by
  rw [List.mem_append, mem_vectorStore, mem_vectorStore]
  constructor
  · rintro (⟨lane, lower, upper, -, rfl⟩ | ⟨lane, lower, upper, -, rfl⟩)
    · refine ⟨lane, lower, by omega, ?_⟩
      rw [recordByte, if_pos (by omega)]
    · refine ⟨lane + 1024, by omega, by omega, ?_⟩
      rw [recordByte, if_neg (by omega)]
      congr 1
      · omega
      · congr 1
        omega
  · rintro ⟨byte, lower, upper, rfl⟩
    by_cases first : byte < 1024
    · refine Or.inl ⟨byte, lower, first, trivial, ?_⟩
      rw [recordByte, if_pos first]
    · refine Or.inr ⟨byte - 1024, by omega, by omega, trivial, ?_⟩
      rw [recordByte, if_neg first]
      congr 1
      omega

section Close

variable (k v : Memory UInt8) (ringStart slot seq : Int)

theorem mem_closeC4Stores_hot {store : Store UInt8} :
    store ∈ (closeC4Stores k v ringStart slot seq).hot <->
      exists row byte : Int, (row = 2048 ∨ (row < 2048 ∧ row = seq / 4 - 1)) ∧
        0 ≤ byte ∧ byte < 2048 ∧
        store = ⟨(slot * 2112 + row) * 2048 + byte,
          recordByte k v ((ringStart + slot * 5 + 1) * 256) byte⟩ := by
  unfold closeC4Stores
  simp only
  rw [List.mem_append, mem_recordStores]
  by_cases small : seq / 4 - 1 < 2048
  · rw [if_pos small, mem_recordStores]
    constructor
    · rintro (⟨byte, lower, upper, rfl⟩ | ⟨byte, lower, upper, rfl⟩)
      · exact ⟨2048, byte, Or.inl rfl, lower, upper, rfl⟩
      · exact ⟨seq / 4 - 1, byte, Or.inr ⟨small, rfl⟩, lower, upper, rfl⟩
    · rintro ⟨row, byte, rfl | ⟨-, rfl⟩, lower, upper, rfl⟩
      · exact Or.inl ⟨byte, lower, upper, rfl⟩
      · exact Or.inr ⟨byte, lower, upper, rfl⟩
  · rw [if_neg small]
    constructor
    · rintro (⟨byte, lower, upper, rfl⟩ | member)
      · exact ⟨2048, byte, Or.inl rfl, lower, upper, rfl⟩
      · exact absurd member List.not_mem_nil
    · rintro ⟨row, byte, rfl | ⟨below, rfl⟩, lower, upper, rfl⟩
      · exact Or.inl ⟨byte, lower, upper, rfl⟩
      · exact absurd below small

theorem mem_closeC4Stores_tokens {store : Store Int} :
    store ∈ (closeC4Stores k v ringStart slot seq).tokens <->
      exists row : Int, (row = 2048 ∨ (row < 2048 ∧ row = seq / 4 - 1)) ∧
        store = ⟨slot * 2112 + row, seq / 4 - 1⟩ := by
  unfold closeC4Stores
  simp only
  rw [List.mem_cons]
  by_cases small : seq / 4 - 1 < 2048
  · rw [if_pos small, List.mem_singleton]
    constructor
    · rintro (rfl | rfl)
      · exact ⟨2048, Or.inl rfl, rfl⟩
      · exact ⟨seq / 4 - 1, Or.inr ⟨small, rfl⟩, rfl⟩
    · rintro ⟨row, rfl | ⟨-, rfl⟩, rfl⟩
      · exact Or.inl rfl
      · exact Or.inr rfl
  · rw [if_neg small]
    constructor
    · rintro (rfl | member)
      · exact ⟨2048, Or.inl rfl, rfl⟩
      · exact absurd member List.not_mem_nil
    · rintro ⟨row, rfl | ⟨below, rfl⟩, rfl⟩
      · exact Or.inl rfl
      · exact absurd below small

theorem closedHot_explains (hot : Memory UInt8) :
    Explains hot (closedHot k v ringStart slot (seq / 4 - 1) hot)
      (closeC4Stores k v ringStart slot seq).hot := by
  constructor
  · intro store member
    rcases (mem_closeC4Stores_hot k v ringStart slot seq).mp member with
      ⟨row, byte, rfl | ⟨below, rfl⟩, lower, upper, rfl⟩
    · simp only [closedHot]
      rw [if_pos (by omega)]
      congr 1
      omega
    · simp only [closedHot]
      rw [if_neg (by omega), if_pos (by omega)]
      congr 1
      omega
  · intro address untouched
    simp only [closedHot]
    rw [if_neg, if_neg]
    · rintro ⟨below, lower, upper⟩
      refine untouched _ ((mem_closeC4Stores_hot k v ringStart slot seq).mpr
        ⟨seq / 4 - 1, address - (slot * 2112 + (seq / 4 - 1)) * 2048, Or.inr ⟨below, rfl⟩,
          by omega, by omega, rfl⟩) ?_
      simp only
      omega
    · rintro ⟨lower, upper⟩
      refine untouched _ ((mem_closeC4Stores_hot k v ringStart slot seq).mpr
        ⟨2048, address - (slot * 2112 + 2048) * 2048, Or.inl rfl, by omega, by omega, rfl⟩) ?_
      simp only
      omega

theorem closedTokens_explains (tokens : Memory Int) :
    Explains tokens (closedTokens slot (seq / 4 - 1) tokens)
      (closeC4Stores k v ringStart slot seq).tokens := by
  constructor
  · intro store member
    rcases (mem_closeC4Stores_tokens k v ringStart slot seq).mp member with
      ⟨row, rfl | ⟨below, rfl⟩, rfl⟩
    · exact if_pos (Or.inl rfl)
    · exact if_pos (Or.inr ⟨below, rfl⟩)
  · intro address untouched
    apply if_neg
    rintro (rfl | ⟨below, rfl⟩)
    · exact untouched _ ((mem_closeC4Stores_tokens k v ringStart slot seq).mpr
        ⟨2048, Or.inl rfl, rfl⟩) rfl
    · exact untouched _ ((mem_closeC4Stores_tokens k v ringStart slot seq).mpr
        ⟨seq / 4 - 1, Or.inr ⟨below, rfl⟩, rfl⟩) rfl

end Close

/-! ## finish_compact -/

section Compact

variable (sources : CompactSources) (ringStart planeStride slot seq row : Int)

theorem selectedCount_eq : min (seq / 4 * 4) 2048 = selectedCount seq := by
  unfold selectedCount
  omega

/-- The loaded and merged byte of a lane is the compact byte. -/
theorem loaded_eq_compactByte (unpacked ringMemory : Memory UInt8) (start ring : Int)
    {selected tail : Int} (byte : Int) (below : byte / 256 < selected + tail) :
    (if byte / 256 < selected then
        maskedLoad unpacked (start + byte) (byte / 256 < selected) 0
      else
        maskedLoad ringMemory ((ring + byte / 256 - selected) * 256 + byte % 256)
          (byte / 256 ≥ selected ∧ byte / 256 < selected + tail) 0) =
      compactByte unpacked start ringMemory (ring * 256) selected byte := by
  unfold compactByte maskedLoad
  by_cases member : byte / 256 < selected
  · have inside : byte < selected * 256 := by omega
    rw [if_pos member, if_pos member, if_pos inside]
  · have outside : ¬ byte < selected * 256 := by omega
    have pending : byte / 256 ≥ selected ∧ byte / 256 < selected + tail := by omega
    rw [if_neg member, if_pos pending, if_neg outside]
    congr 1
    omega

/-- The stores of a plane of one program: the bytes of its chunk that are
selected or pending. -/
theorem mem_compactPlane (chunk plane : Int) {store : Store UInt8} :
    store ∈ compactPlane sources ringStart planeStride slot seq row chunk plane <->
      exists byte : Int, chunk * 1024 ≤ byte ∧ byte < chunk * 1024 + 1024 ∧
        byte < (selectedCount seq + seq % 4) * 256 ∧
        store = ⟨(plane * planeStride + slot * 2052 + 1) * 256 + byte,
          compactByte sources.unpacked ((row * 2 + plane) * 2048 * 256)
            (sources.ringMemory plane) ((ringStart + slot * 5 + 1) * 256)
            (selectedCount seq) byte⟩ := by
  have nonneg : 0 ≤ seq % 4 := by omega
  unfold compactPlane
  simp only [selectedCount_eq]
  rw [mem_vectorStore]
  constructor
  · rintro ⟨lane, lower, upper, chosen, rfl⟩
    have below : (chunk * 1024 + lane) / 256 < selectedCount seq + seq % 4 := by
      rcases chosen with selected | pending
      · omega
      · exact pending.2
    refine ⟨chunk * 1024 + lane, by omega, by omega, by omega, ?_⟩
    congr 1
    · omega
    · exact loaded_eq_compactByte sources.unpacked _ _ _ _ below
  · rintro ⟨byte, first, last, inside, rfl⟩
    have back : chunk * 1024 + (byte - chunk * 1024) = byte := by omega
    have below : byte / 256 < selectedCount seq + seq % 4 := by omega
    refine ⟨byte - chunk * 1024, by omega, by omega, ?_, ?_⟩
    · simp only [back]
      omega
    · simp only [back]
      congr 1
      · omega
      · exact (loaded_eq_compactByte sources.unpacked _ _ _ _ below).symm

/-- The stores of one program to the table. -/
theorem mem_compactCells (raw : Memory Int) (capacity chunk : Int) {store : Store Int} :
    store ∈ compactCells raw capacity slot seq row chunk <->
      exists member : Int, chunk * 4 ≤ member ∧ member < chunk * 4 + 4 ∧
        member < selectedCount seq + seq % 4 ∧
        store = ⟨slot * capacity + raw (row * 2051 + member), slot * 2052 + 1 + member⟩ := by
  unfold compactCells
  simp only [selectedCount_eq]
  rw [mem_vectorStore]
  constructor
  · rintro ⟨lane, lower, upper, valid, rfl⟩
    refine ⟨chunk * 4 + lane, by omega, by omega, valid, ?_⟩
    rw [maskedLoad, if_pos valid]
  · rintro ⟨member, first, last, valid, rfl⟩
    have back : chunk * 4 + (member - chunk * 4) = member := by omega
    refine ⟨member - chunk * 4, by omega, by omega, by rw [back]; exact valid, ?_⟩
    simp only [back]
    rw [maskedLoad, if_pos valid]

end Compact

section Row

variable (sources : CompactSources) (routing : Routing) (capacity ringStart planeStride : Int)
variable {row : Int}

/-- The 513 chunks of a row cover the largest selection with its tail. -/
theorem mem_finishCompactRow_compact (real : row < routing.real) {store : Store UInt8} :
    store ∈ (finishCompactRow sources routing capacity ringStart planeStride row).compact <->
      exists plane byte : Int, (plane = 0 ∨ plane = 1) ∧ 0 ≤ byte ∧
        byte < (selectedCount (routing.lengths row) + routing.lengths row % 4) * 256 ∧
        store = ⟨(plane * planeStride + routing.slots row * 2052 + 1) * 256 + byte,
          compactByte sources.unpacked ((row * 2 + plane) * 2048 * 256)
            (sources.ringMemory plane)
            ((ringStart + routing.slots row * 5 + 1) * 256)
            (selectedCount (routing.lengths row)) byte⟩ := by
  have fits : selectedCount (routing.lengths row) ≤ 2048 := by
    unfold selectedCount
    omega
  unfold finishCompactRow finishCompact
  simp only [if_pos real, List.mem_flatMap, List.mem_range, List.mem_append, mem_compactPlane]
  constructor
  · rintro ⟨chunk, -, ⟨byte, first, last, inside, rfl⟩ | ⟨byte, first, last, inside, rfl⟩⟩
    · exact ⟨0, byte, Or.inl rfl, by omega, inside, rfl⟩
    · exact ⟨1, byte, Or.inr rfl, by omega, inside, rfl⟩
  · rintro ⟨plane, byte, rfl | rfl, lower, inside, rfl⟩
    · exact ⟨(byte / 1024).toNat, by omega, Or.inl ⟨byte, by omega, by omega, inside, rfl⟩⟩
    · exact ⟨(byte / 1024).toNat, by omega, Or.inr ⟨byte, by omega, by omega, inside, rfl⟩⟩

theorem mem_finishCompactRow_table (real : row < routing.real) {store : Store Int} :
    store ∈ (finishCompactRow sources routing capacity ringStart planeStride row).table <->
      exists member : Int, 0 ≤ member ∧
        member < selectedCount (routing.lengths row) + routing.lengths row % 4 ∧
        store = ⟨routing.slots row * capacity + sources.raw (row * 2051 + member),
          routing.slots row * 2052 + 1 + member⟩ := by
  have fits : selectedCount (routing.lengths row) ≤ 2048 := by
    unfold selectedCount
    omega
  unfold finishCompactRow finishCompact
  simp only [if_pos real, List.mem_flatMap, List.mem_range, mem_compactCells]
  constructor
  · rintro ⟨chunk, -, member, first, last, inside, rfl⟩
    exact ⟨member, by omega, inside, rfl⟩
  · rintro ⟨member, lower, inside, rfl⟩
    exact ⟨(member / 4).toNat, by omega, member, by omega, by omega, inside, rfl⟩

end Row

/-! ## The rows a request routes to -/

/-- The routing buffers send `row` to a request. -/
structure Routes (routing : Routing) (row : Nat) (request : RequestCache) : Prop where
  real : (row : Int) < routing.real
  slot : routing.slots row = request.slot
  length : routing.lengths row = request.seqLen

section Explained

variable {geometry : Geometry} {routing : Routing} {row : Nat} {request : RequestCache}

/-- The hot rows after one turn of the eager close. -/
def hotTurn (k v : Memory UInt8) (ringStart : Int) (hot : Memory UInt8)
    (request : RequestCache) : Memory UInt8 :=
  if request.seqLen % 4 ≠ 0 then hot
  else closedHot k v ringStart request.slot (request.seqLen / 4 - 1) hot

/-- The residency tokens after one turn of the eager close. -/
def tokensTurn (tokens : Memory Int) (request : RequestCache) : Memory Int :=
  if request.seqLen % 4 ≠ 0 then tokens
  else closedTokens request.slot (request.seqLen / 4 - 1) tokens

theorem hotTurn_explains (routes : Routes routing row request) (k v : Memory UInt8)
    (ringStart : Int) (hot : Memory UInt8) :
    Explains hot (hotTurn k v ringStart hot request) (closeC4 k v routing ringStart row).hot := by
  unfold hotTurn closeC4
  rw [if_pos routes.real, routes.length, routes.slot]
  by_cases closes : request.seqLen % 4 = 0
  · rw [if_pos closes, if_neg (not_not.mpr closes)]
    exact closedHot_explains k v ringStart request.slot request.seqLen hot
  · rw [if_neg closes, if_pos closes]
    exact ⟨fun _ member => absurd member List.not_mem_nil, fun _ _ => rfl⟩

theorem tokensTurn_explains (routes : Routes routing row request) (k v : Memory UInt8)
    (ringStart : Int) (tokens : Memory Int) :
    Explains tokens (tokensTurn tokens request) (closeC4 k v routing ringStart row).tokens := by
  unfold tokensTurn closeC4
  rw [if_pos routes.real, routes.length, routes.slot]
  by_cases closes : request.seqLen % 4 = 0
  · rw [if_pos closes, if_neg (not_not.mpr closes)]
    exact closedTokens_explains k v ringStart request.slot request.seqLen tokens
  · rw [if_neg closes, if_pos closes]
    exact ⟨fun _ member => absurd member List.not_mem_nil, fun _ _ => rfl⟩

/-- The compact rows after one turn of the eager finish. -/
def compactTurn (geometry : Geometry) (k v unpacked : Memory UInt8) (compact : Memory UInt8)
    (entry : RequestCache × Nat) : Memory UInt8 :=
  finishedCompact geometry entry.1.slot (selectedCount entry.1.seqLen) (entry.1.seqLen % 4) k v
    unpacked ((entry.2 * 2 + 0) * 2048 * 256) ((entry.2 * 2 + 1) * 2048 * 256) compact

theorem compactTurn_explains (routes : Routes routing row request)
    (sources : CompactSources) (capacity : Int) (compact : Memory UInt8) :
    Explains compact
      (compactTurn geometry sources.k sources.v sources.unpacked compact (request, row))
      (finishCompactRow sources routing capacity (ringBase geometry)
        (geometry.maxRequests * 2052) row).compact := by
  have fits : selectedCount request.seqLen ≤ 2048 := by
    unfold selectedCount
    omega
  have least := geometry.lease_least
  have kFirst : compactFirst geometry 0 request.slot =
      (0 * (geometry.maxRequests * 2052) + request.slot * 2052 + 1) * 256 := rfl
  have vFirst : compactFirst geometry 1 request.slot =
      (1 * (geometry.maxRequests * 2052) + request.slot * 2052 + 1) * 256 := rfl
  have kRing : sources.ringMemory 0 = sources.k := rfl
  have vRing : sources.ringMemory 1 = sources.v := rfl
  have members := fun store => @mem_finishCompactRow_compact sources routing capacity
    (ringBase geometry) (geometry.maxRequests * 2052) row routes.real store
  simp only [routes.length, routes.slot] at members
  constructor
  · intro store member
    rcases (members store).mp member with ⟨plane, byte, rfl | rfl, lower, inside, rfl⟩
    · simp only [compactTurn, finishedCompact]
      rw [if_pos (by omega), kRing, kFirst, add_sub_cancel_left]
    · simp only [compactTurn, finishedCompact]
      rw [if_neg (by omega), if_pos (by omega), vRing, vFirst, add_sub_cancel_left]
  · intro address untouched
    simp only [compactTurn, finishedCompact]
    rw [if_neg, if_neg]
    · rintro ⟨lower, upper⟩
      refine untouched _ ((members _).mpr ⟨1, address - compactFirst geometry 1 request.slot,
        Or.inr rfl, by omega, by omega, rfl⟩) ?_
      simp only
      omega
    · rintro ⟨lower, upper⟩
      refine untouched _ ((members _).mpr ⟨0, address - compactFirst geometry 0 request.slot,
        Or.inl rfl, by omega, by omega, rfl⟩) ?_
      simp only
      omega

/-- The compact table after one turn of the eager finish. -/
def tableTurn (geometry : Geometry) (raw : Memory Int) (table : Memory Int)
    (entry : RequestCache × Nat) : Memory Int :=
  storeAll table (tableStores geometry entry.1.slot raw (entry.2 * 2051)
    (validCount entry.1.seqLen))

/-- The valid entries of a selection row are distinct. -/
def EntriesDistinct (raw : Memory Int) (row : Nat) (seqLen : Int) : Prop :=
  forall first second : Nat, first < validCount seqLen -> second < validCount seqLen ->
    raw (row * 2051 + first) = raw (row * 2051 + second) -> first = second

theorem tableTurn_explains (routes : Routes routing row request)
    (sources : CompactSources) (distinct : EntriesDistinct sources.raw row request.seqLen)
    (ringStart planeStride : Int) (table : Memory Int) :
    Explains table (tableTurn geometry sources.raw table (request, row))
      (finishCompactRow sources routing geometry.stagingTokens ringStart planeStride row).table := by
  have apart : ((tableStores geometry request.slot sources.raw (row * 2051)
      (validCount request.seqLen)).map Store.address).Nodup := by
    unfold tableStores
    rw [List.map_map]
    apply List.Nodup.map_on
    · intro first inFirst second inSecond same
      apply distinct first second (List.mem_range.mp inFirst) (List.mem_range.mp inSecond)
      simp only [Function.comp_apply] at same
      omega
    · exact List.nodup_range
  refine (explains_storeAll table apart).congr fun store => ?_
  rw [mem_finishCompactRow_table _ _ _ _ _ routes.real, routes.length, routes.slot]
  unfold tableStores validCount
  simp only [List.mem_map, List.mem_range]
  constructor
  · rintro ⟨member, lower, inside, rfl⟩
    refine ⟨member.toNat, by omega, ?_⟩
    rw [Int.toNat_of_nonneg lower]
  · rintro ⟨member, inside, rfl⟩
    exact ⟨member, by omega, by omega, rfl⟩

end Explained

end Decode
end QSAHiSparse

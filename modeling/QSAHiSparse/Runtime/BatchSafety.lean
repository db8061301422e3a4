import QSAHiSparse.Runtime.CallChanges
import QSAHiSparse.Runtime.NoReuse

namespace QSAHiSparse
namespace Runtime

open Foundation
open Ledger

/-!
# Decode batches are all or nothing, and their rows never collide

A decode batch that fails a check leaves the runtime as it was.  One that is
accepted writes each row to the ring of its own lease, and the rings lie apart
from the reserved rows, from the staging lane and from one another.
-/

section Batches

variable {δ : Type} {config : Config}

/-- Each advanced cache has the length of its row. -/
theorem begun_seqLen {batch : ForwardBatch} {runtime before : QSAHiSparseRuntime δ}
    {states : List QSAHiSparseLease} {seqLens : List Int} (graph : Bool)
    (accepted : Accepted config batch runtime states seqLens) {row : QSAHiSparseLease × Int}
    (member : row ∈ states.zip seqLens) :
    ((begun config graph states seqLens before).caches row.1).seqLen = row.2 := by
  have distinct : ((states.zip seqLens).map Prod.fst).Nodup := by
    rw [List.map_fst_zip (Nat.le_of_eq accepted.matched)]
    exact List.Nodup.of_map _ accepted.slots
  change (advanceRows true (states.zip seqLens) before.caches row.1).seqLen = row.2
  rw [advanceRows_row true distinct before.caches member]
  rfl

/-- The row of a lease of the batch. -/
theorem Accepted.row {batch : ForwardBatch} {runtime : QSAHiSparseRuntime δ}
    {states : List QSAHiSparseLease} {seqLens : List Int}
    (accepted : Accepted config batch runtime states seqLens) {lease : QSAHiSparseLease}
    (member : lease ∈ states) : exists seq, (lease, seq) ∈ states.zip seqLens := by
  rw [<- List.map_fst_zip (Nat.le_of_eq accepted.matched)] at member
  rcases List.mem_map.mp member with ⟨row, present, rfl⟩
  exact ⟨row.2, present⟩

/-- What the checks have found is what the addresses need. -/
theorem Accepted.addressable {batch : ForwardBatch} {runtime before : QSAHiSparseRuntime δ}
    {states : List QSAHiSparseLease} {seqLens : List Int} (graph : Bool)
    (accepted : Accepted config batch runtime states seqLens) (beside : Beside runtime before)
    (fits : config.capacity ≤ runtime.slots.geometry.stagingTokens) {lease : QSAHiSparseLease}
    (member : lease ∈ states) :
    Addressable (begun config graph states seqLens before) lease := by
  rcases accepted.row member with ⟨seq, present⟩
  have row := accepted.rows (lease, seq) present
  have length := @begun_seqLen _ _ _ _ before _ _ graph accepted _ present
  change ((begun config graph states seqLens before).caches lease).seqLen = seq at length
  rcases beside with ⟨next, rfl⟩
  refine ⟨row.2, ?_, ?_⟩
  · rw [length]
    exact row.1.1
  · rw [length]
    exact Int.le_trans row.1.2 fits

/-! ## A rejected batch -/

/-- A decode batch that raises changes nothing but the device, unless every one
of its checks had passed and a call that is not a check raised.  The runtime
builds its ledger over as many tokens as its capacity. -/
theorem rejected_batch_unchanged (machine : Machine δ) (config : Config) (geometry : Geometry)
    (built : config.capacity = geometry.stagingTokens) (start : δ) (calls : List Call)
    {batch : ForwardBatch} (decodes : batch.mode = .decode) (graph : Bool) {cause : PyError}
    {after : QSAHiSparseRuntime δ}
    (raised : (beginBatch machine config batch graph).run
      (callAll (perform machine config) (.initial config geometry start) calls) =
        .error cause after) :
    Beside (callAll (perform machine config) (.initial config geometry start) calls) after ∨
      (machine.Raises cause ∧ exists rows checked,
        (@checkDecode _ machine config graph batch).run
          (callAll (perform machine config) (.initial config geometry start) calls) =
            .ok rows checked) := by
  have sameGeometry := callAll_geometry machine config geometry start calls
  generalize callAll (perform machine config) (.initial config geometry start) calls = runtime
    at raised sameGeometry
  have checks := @checkDecode_leaves _ machine config graph batch runtime
  rw [beginDecode_eq machine decodes, EStateM.run_bind] at raised
  cases ran : (@checkDecode _ machine config graph batch).run runtime with
  | error found checked =>
      rw [ran] at raised checks
      cases raised
      exact Or.inl checks
  | ok rows checked =>
      rw [ran] at raised checks
      rcases checks with ⟨beside, accepted⟩
      change (startBatch machine config true graph rows.1 rows.2 batch.extendSeqLens).run checked =
        .error cause after at raised
      have writes := @routeDecode_leaves _ machine config rows.1 rows.2
        batch.extendSeqLens (begun config graph rows.1 rows.2 checked)
      rw [startDecode_run] at raised
      rw [raised] at writes
      have fits : config.capacity ≤ runtime.slots.geometry.stagingTokens := by
        rw [sameGeometry, built]
      rcases writes.2 with raises | ⟨lease, member, refused⟩
      · exact Or.inr ⟨raises, rows, checked, rfl⟩
      · exact absurd (accepted.addressable graph beside fits member) refused

/-- The row of a length beyond the capacity is refused before anything is written. -/
theorem rejected_batch_unchanged_tooLong :
    Beside (callAll (perform (queueMachine (lostRecord false)) offloading)
        (.initial offloading oneLane CopyQueue.empty) (oneDecode.take 7))
      (finalState ((beginBatch (queueMachine (lostRecord false)) offloading
        ⟨.decode, 1, some [1], some [65], ["a"], []⟩ false).run
          (callAll (perform (queueMachine (lostRecord false)) offloading)
            (.initial offloading oneLane CopyQueue.empty) (oneDecode.take 7)))) ∨
      ((queueMachine (lostRecord false)).Raises
          (.valueError "QSA P2 request exceeds context capacity") ∧
        exists rows checked,
          (@checkDecode _ (queueMachine (lostRecord false)) offloading false
            ⟨.decode, 1, some [1], some [65], ["a"], []⟩).run
              (callAll (perform (queueMachine (lostRecord false)) offloading)
                (.initial offloading oneLane CopyQueue.empty) (oneDecode.take 7)) =
            .ok rows checked) :=
  rejected_batch_unchanged (queueMachine (lostRecord false)) offloading oneLane rfl
    CopyQueue.empty (oneDecode.take 7) rfl false (eq_error_of_outcome (by decide +kernel))

/-! ## An accepted batch -/

/-- The first ring row of a token is a member row, never the padding row. -/
theorem ringLocation_member (geometry : Geometry) (lease : QSAHiSparseLease) (seqLen : Int) :
    exists member, 1 ≤ member ∧ member ≤ 4 ∧
      ringLocation geometry lease seqLen = geometry.ringStart lease.slot + member := by
  refine ⟨1 + (seqLen - 1).toNat % 4, by omega, by omega, ?_⟩
  unfold ringLocation
  omega

/-- Rings of different slots do not meet. -/
theorem ringLocation_other (geometry : Geometry) (lease : QSAHiSparseLease) (seqLen : Int)
    {slot : Nat} (different : slot ≠ lease.slot) :
    ¬ (geometry.ringStart slot ≤ ringLocation geometry lease seqLen ∧
      ringLocation geometry lease seqLen < geometry.ringStart slot + 5) := by
  rcases ringLocation_member geometry lease seqLen with ⟨member, least, most, located⟩
  rw [located]
  unfold Geometry.ringStart
  omega

/-- Four consecutive lengths have four different member rows. -/
theorem ringLocation_consecutive (geometry : Geometry) (lease : QSAHiSparseLease)
    {first second : Int} (positive : 1 ≤ first) (later : first < second)
    (close : second < first + 4) :
    ringLocation geometry lease first ≠ ringLocation geometry lease second := by
  unfold ringLocation
  omega

/-- Where the rows of an accepted batch lie. -/
structure RowsApart (config : Config) (geometry : Geometry) (after : QSAHiSparseRuntime δ) :
    Prop where
  /-- In offload mode these are the locations that the writers use. -/
  used : config.offload = true ->
    after.rawWriteLocs = ringLocations after after.batchRequests
  distinct : (ringLocations after after.batchRequests).Nodup
  /-- A member row of its own ring. -/
  member : forall lease, lease ∈ after.batchRequests -> exists member, 1 ≤ member ∧ member ≤ 4 ∧
    ringLocation after.slots.geometry lease (after.caches lease).seqLen =
      geometry.ringStart lease.slot + member
  /-- Behind the reserved rows and the staging lane, and inside the pool. -/
  inside : forall row, row ∈ ringLocations after after.batchRequests ->
    geometry.pageSize + geometry.stagingTokens ≤ row ∧
      row < geometry.rawPoolSize + geometry.pageSize
  /-- In the ring of no other slot. -/
  others : forall lease, lease ∈ after.batchRequests -> forall slot, slot ≠ lease.slot ->
    ¬ (geometry.ringStart slot ≤
        ringLocation after.slots.geometry lease (after.caches lease).seqLen ∧
      ringLocation after.slots.geometry lease (after.caches lease).seqLen <
        geometry.ringStart slot + 5)

/-- Slots of held leases are slots of the ledger. -/
theorem held_slot {ledger : QSAHiSparseSlots} (valid : LedgerInvariant ledger)
    {lease : QSAHiSparseLease} (held : ledger.Holds lease) :
    lease.slot < ledger.geometry.maxRequests := by
  have active : lease.slot ∈ ledger.active.values.map QSAHiSparseLease.slot :=
    List.mem_map_of_mem (Dict.mem_values_iff.mpr ⟨_, held⟩)
  have listed := valid.partition.mem_iff.mp (List.mem_append_right ledger.freeSlots active)
  exact List.mem_range.mp listed

/-- What an accepted decode batch leaves. -/
theorem beginDecode_ok (machine : Machine δ) {batch : ForwardBatch}
    (decodes : batch.mode = .decode) (graph : Bool) {runtime after : QSAHiSparseRuntime δ}
    (accepted : (beginBatch machine config batch graph).run runtime = .ok ⟨⟩ after) :
    (forall lease, lease ∈ after.batchRequests ->
      runtime.slots.Permits lease [.decode] ∧ 1 ≤ (after.caches lease).seqLen) ∧
    (after.batchRequests.map QSAHiSparseLease.slot).Nodup ∧ after.slots = runtime.slots ∧
    (config.offload = true -> after.rawWriteLocs = ringLocations after after.batchRequests) := by
  have outcome : Leaves
      (fun _ last => (forall lease, lease ∈ last.batchRequests ->
          runtime.slots.Permits lease [.decode] ∧ 1 ≤ (last.caches lease).seqLen) ∧
        (last.batchRequests.map QSAHiSparseLease.slot).Nodup ∧ last.slots = runtime.slots ∧
        (config.offload = true -> last.rawWriteLocs = ringLocations last last.batchRequests))
      (fun _ _ => True) ((beginBatch machine config batch graph).run runtime) := by
    apply beginDecode_leaves machine decodes graph runtime
    · exact fun _ _ _ => trivial
    · intro before states seqLens beside checked
      rw [startDecode_run]
      apply (routeDecode_leaves machine states seqLens batch.extendSeqLens _).mono
      · rintro _ last ⟨⟨next, locations, slots, lens, real, rfl⟩, addressable, located⟩
        have same : before.slots = runtime.slots := by
          rcases beside with ⟨next, rfl⟩
          rfl
        refine ⟨fun lease member => ?_, checked.slots, same, located⟩
        have here := addressable lease member
        rw [<- same]
        exact ⟨here.1, here.2.1⟩
      · exact fun _ _ _ => trivial
  rw [accepted] at outcome
  exact outcome

theorem accepted_rowsApart (machine : Machine δ) {geometry : Geometry} {batch : ForwardBatch}
    (decodes : batch.mode = .decode) (graph : Bool) {runtime after : QSAHiSparseRuntime δ}
    (valid : LedgerInvariant runtime.slots) (built : runtime.slots.geometry = geometry)
    (accepted : (beginBatch machine config batch graph).run runtime = .ok ⟨⟩ after) :
    RowsApart config geometry after := by
  rcases beginDecode_ok machine decodes graph accepted with ⟨rows, slots, same, located⟩
  have sameGeometry : after.slots.geometry = geometry := by rw [same, built]
  refine ⟨located, ?_, ?_, ?_, ?_⟩
  · -- Two leases of the batch have different slots, so their rows lie in different rings.
    unfold ringLocations
    have distinct := (List.nodup_map_iff_inj_on (List.Nodup.of_map _ slots)).mp slots
    apply (List.nodup_map_iff_inj_on (List.Nodup.of_map _ slots)).mpr
    intro first memberFirst second memberSecond equal
    apply distinct first memberFirst second memberSecond
    by_contra different
    have apart := ringLocation_other after.slots.geometry second (after.caches second).seqLen
      different
    rcases ringLocation_member after.slots.geometry first (after.caches first).seqLen with
      ⟨member, least, most, here⟩
    rw [<- equal, here] at apart
    omega
  · intro lease _
    rw [sameGeometry]
    exact ringLocation_member geometry lease _
  · intro row listed
    rcases List.mem_map.mp listed with ⟨lease, member, rfl⟩
    have slot : lease.slot < geometry.maxRequests := by
      rw [<- built]
      exact held_slot valid (rows lease member).1.1
    rcases ringLocation_member after.slots.geometry lease (after.caches lease).seqLen with
      ⟨index, least, most, here⟩
    rw [here, sameGeometry]
    unfold Geometry.ringStart Geometry.rawPoolSize
    omega
  · intro lease _ slot different
    rw [sameGeometry]
    exact ringLocation_other geometry lease _ different

/-- On every ledger that its methods can reach: an accepted decode batch writes
to distinct member rows of its own rings, away from every other row of the pool;
the same lease in two batches whose lengths are less than four apart writes to
different rows; and a staging slice is handed only to the owner of the lane and
lies inside it. -/
theorem rows_never_collide (machine : Machine δ) (config : Config) (geometry : Geometry)
    (operations : List Operation) {runtime after : QSAHiSparseRuntime δ}
    (reachable : runtime.slots = performAll (.initial geometry) operations)
    {batch : ForwardBatch} (decodes : batch.mode = .decode) (graph : Bool)
    (accepted : (beginBatch machine config batch graph).run runtime = .ok ⟨⟩ after) :
    RowsApart config geometry after ∧
    (forall lease, lease ∈ after.batchRequests ->
      forall (laterOperations : List Operation) (laterRuntime laterAfter : QSAHiSparseRuntime δ)
        (laterBatch : ForwardBatch) (laterGraph : Bool),
      laterRuntime.slots = performAll (.initial geometry) laterOperations ->
      laterBatch.mode = .decode ->
      (beginBatch machine config laterBatch laterGraph).run laterRuntime = .ok ⟨⟩ laterAfter ->
      lease ∈ laterAfter.batchRequests ->
      (after.caches lease).seqLen < (laterAfter.caches lease).seqLen ->
      (laterAfter.caches lease).seqLen < (after.caches lease).seqLen + 4 ->
      ringLocation after.slots.geometry lease (after.caches lease).seqLen ≠
        ringLocation laterAfter.slots.geometry lease (laterAfter.caches lease).seqLen) ∧
    (forall lease start stop rows ledger,
      (stagingSlice lease start stop).run runtime.slots = .ok rows ledger ->
      runtime.slots.prefillOwner = some lease ∧ geometry.pageSize ≤ rows.start ∧
        rows.start ≤ rows.stop ∧ rows.stop ≤ geometry.pageSize + geometry.stagingTokens) := by
  have ledgers (operations : List Operation) := performAll_ledgerInvariant geometry operations
  have valid : LedgerInvariant runtime.slots := reachable ▸ (ledgers operations).1
  have built : runtime.slots.geometry = geometry := reachable ▸ (ledgers operations).2
  refine ⟨accepted_rowsApart machine decodes graph valid built accepted, ?_, ?_⟩
  · intro lease member others laterRuntime laterAfter laterBatch laterGraph laterReachable
      laterDecodes laterAccepted laterMember later close
    rcases beginDecode_ok machine decodes graph accepted with ⟨rows, _, same, _⟩
    rcases beginDecode_ok machine laterDecodes laterGraph laterAccepted with ⟨_, _, laterSame, _⟩
    have laterBuilt : laterRuntime.slots.geometry = geometry := laterReachable ▸ (ledgers others).2
    rw [same, laterSame, built, laterBuilt]
    exact ringLocation_consecutive geometry lease (rows lease member).2 later close
  · intro lease start stop rows ledger returned
    rcases (stagingSlice_outcome runtime.slots lease start stop).ok returned with
      ⟨⟨_, owner, within, _⟩, named, _⟩
    rw [not_not] at owner within
    rw [built] at named within
    rw [named]
    refine ⟨owner, ?_, ?_, ?_⟩
    · change geometry.pageSize ≤ geometry.pageSize + start.toNat
      omega
    · change geometry.pageSize + start.toNat ≤ geometry.pageSize + stop.toNat
      omega
    · change geometry.pageSize + stop.toNat ≤ geometry.pageSize + geometry.stagingTokens
      omega

/-- The first decode of a prompt of three tokens writes to the last member row. -/
theorem rows_never_collide_first :
    RowsApart offloading oneLane
      (finalState ((beginBatch (queueMachine (lostRecord false)) offloading
        ⟨.decode, 1, some [1], some [4], ["a"], []⟩ false).run
          (callAll (perform (queueMachine (lostRecord false)) offloading)
            (.initial offloading oneLane CopyQueue.empty) (oneDecode.take 4)))) := by
  rcases callAll_ledger (queueMachine (lostRecord false)) offloading oneLane CopyQueue.empty
    (oneDecode.take 4) with ⟨operations, reachable⟩
  exact (rows_never_collide (queueMachine (lostRecord false)) offloading oneLane operations
    reachable rfl false (eq_ok_of_outcome (by decide +kernel))).1

end Batches

end Runtime
end QSAHiSparse

import QSAHiSparse.Runtime.Steady

namespace QSAHiSparse
namespace Runtime

open Foundation
open Ledger

/-!
# What a decode batch does

The checks of a decode batch come first and write nothing.  What they establish
about every row is enough for the address computation after them, which repeats
some of the checks, so only the device and the event log can raise once the
first write has been made.
-/

section Admission

variable {δ : Type} (machine : Machine δ) {config : Config}

/-- Only the device has moved on. -/
def Beside (before after : QSAHiSparseRuntime δ) : Prop :=
  exists next, after = { before with device := next }

theorem Beside.refl (runtime : QSAHiSparseRuntime δ) : Beside runtime runtime :=
  ⟨runtime.device, rfl⟩

theorem Beside.trans {first second third : QSAHiSparseRuntime δ} (left : Beside first second)
    (right : Beside second third) : Beside first third := by
  rcases left with ⟨next, rfl⟩
  rcases right with ⟨last, rfl⟩
  exact ⟨last, rfl⟩

theorem beside_hostOnly (start : QSAHiSparseRuntime δ) : HostOnly (Beside start) := by
  rintro runtime next ⟨current, rfl⟩
  exact ⟨next, rfl⟩

/-! ## The checks -/

/-- What the checks of a row have found. -/
structure Admitted (config : Config) (runtime : QSAHiSparseRuntime δ) (row : Row)
    (lease : QSAHiSparseLease) : Prop where
  bounded : 1 ≤ row.seq ∧ row.seq ≤ config.capacity
  found : runtime.requests.get? row.reqIdx = some lease
  decodes : runtime.slots.Permits lease [.decode]

theorem Admitted.beside {before after : QSAHiSparseRuntime δ} {row : Row}
    {lease : QSAHiSparseLease} (admitted : Admitted config after row lease)
    (beside : Beside before after) : Admitted config before row lease := by
  rcases beside with ⟨next, rfl⟩
  exact ⟨admitted.bounded, admitted.found, admitted.decodes⟩

/-- A decoding row never acquires a lease. -/
theorem admitRequest_decode (row : Row) (start : QSAHiSparseRuntime δ) :
    Preserves (Beside start) (admitRequest machine config true row) := by
  unfold admitRequest
  refine Preserves.get_bind fun self => ?_
  refine Preserves.ite (fun _ => Preserves.pure PUnit.unit) fun _ => ?_
  intro runtime beside
  apply (Leaves.bind_iff _ _ _).mpr
  apply (Leaves.raiseIf_iff _ _ _).mpr
  exact ⟨fun _ => beside, fun never => absurd rfl never⟩

theorem admitRow_leaves (graph : Bool) (row : Row) (runtime : QSAHiSparseRuntime δ) :
    Leaves (fun lease after => Beside runtime after ∧ Admitted config runtime row lease)
      (fun _ after => Beside runtime after)
      ((admitRow machine config true graph row).run runtime) := by
  unfold admitRow
  apply (Leaves.bind_iff _ _ _).mpr
  apply (Leaves.raiseIf_iff _ _ _).mpr
  refine ⟨fun _ => Beside.refl runtime, fun inside => ?_⟩
  rw [not_not] at inside
  apply (Leaves.bind_iff _ _ _).mpr
  apply (admitRequest_decode machine row runtime runtime (Beside.refl runtime)).mono
  · intro _ after beside
    apply (Leaves.bind_iff _ _ _).mpr
    apply (request_leaves row.reqIdx row.rid after).mono
    · rintro lease here ⟨rfl, found, held⟩
      apply (Leaves.bind_iff _ _ _).mpr
      apply Leaves.mono (zoom_require_outcome lease ledger (by simp) here)
      · rintro _ last ⟨permits, rfl⟩
        have admitted : Admitted config last row lease := ⟨inside, found, permits⟩
        have checked := (beside_hostOnly last).steady machine
        apply (Leaves.bind_iff _ _ _).mpr
        apply (@Steady.checkGraphRow _ _ config _ checked graph lease last (Beside.refl last)).mono
        · exact fun _ final step => ⟨beside.trans step, admitted.beside beside⟩
        · exact fun _ final step => beside.trans step
      · rintro _ last ⟨_, rfl⟩
        exact beside
    · rintro _ here rfl
      exact beside
  · exact fun _ _ beside => beside

/-- Every row of a batch in turn. -/
theorem admitRows_leaves (graph : Bool) (rows : List Row) (runtime : QSAHiSparseRuntime δ) :
    Leaves
      (fun leases after => Beside runtime after ∧
        List.Forall₂ (Admitted config runtime) rows leases)
      (fun _ after => Beside runtime after)
      ((rows.mapM (admitRow machine config true graph)).run runtime) := by
  induction rows generalizing runtime with
  | nil => exact ⟨Beside.refl runtime, List.Forall₂.nil⟩
  | cons row rows previous =>
      rw [List.mapM_cons]
      apply (Leaves.bind_iff _ _ _).mpr
      apply (admitRow_leaves machine graph row runtime).mono
      · rintro lease after ⟨beside, admitted⟩
        apply (Leaves.bind_iff _ _ _).mpr
        apply (previous after).mono
        · rintro leases last ⟨step, others⟩
          refine ⟨beside.trans step, List.Forall₂.cons admitted ?_⟩
          exact others.imp fun _ _ other => other.beside beside
        · exact fun _ last step => beside.trans step
      · exact fun _ _ beside => beside

/-- What the checks of a whole decode batch have found. -/
structure Accepted (config : Config) (batch : ForwardBatch) (runtime : QSAHiSparseRuntime δ)
    (states : List QSAHiSparseLease) (seqLens : List Int) : Prop where
  lengths : batch.seqLens = some seqLens
  matched : states.length = seqLens.length
  rows : forall row, row ∈ states.zip seqLens ->
    (1 ≤ row.2 ∧ row.2 ≤ config.capacity) ∧ runtime.slots.Permits row.1 [.decode]
  slots : (states.map QSAHiSparseLease.slot).Nodup

/-- The rows and the leases found for them correspond one to one. -/
theorem admitted_rows {runtime : QSAHiSparseRuntime δ} {reqIndices : List Int}
    {rids : List String} {seqLens : List Int} {states : List QSAHiSparseLease}
    (names : rids.length = seqLens.length) (indices : reqIndices.length = seqLens.length)
    (admitted : List.Forall₂ (Admitted config runtime) (rowsOf reqIndices rids seqLens) states) :
    states.length = seqLens.length ∧ forall row, row ∈ states.zip seqLens ->
      (1 ≤ row.2 ∧ row.2 ≤ config.capacity) ∧ runtime.slots.Permits row.1 [.decode] := by
  induction seqLens generalizing reqIndices rids states with
  | nil =>
      rw [List.length_eq_zero_iff.mp names] at admitted
      unfold rowsOf at admitted
      rw [List.zip_nil_left, List.zip_nil_right, List.map_nil] at admitted
      cases admitted
      exact ⟨rfl, fun _ member => absurd member List.not_mem_nil⟩
  | cons seq seqLens previous =>
      cases rids with
      | nil => cases names
      | cons rid rids =>
          cases reqIndices with
          | nil => cases indices
          | cons reqIdx reqIndices =>
              change List.Forall₂ (Admitted config runtime)
                (⟨reqIdx, rid, seq⟩ :: rowsOf reqIndices rids seqLens) states at admitted
              cases admitted with
              | cons first others =>
                  rcases previous (Nat.succ.inj names) (Nat.succ.inj indices) others with
                    ⟨matched, rest⟩
                  refine ⟨congrArg Nat.succ matched, ?_⟩
                  intro row member
                  rw [List.zip_cons_cons] at member
                  rcases List.mem_cons.mp member with rfl | member
                  · exact ⟨first.bounded, first.decodes⟩
                  · exact rest row member

/-- The checks of a decode batch, up to the first write. -/
def checkDecode (graph : Bool) (batch : ForwardBatch) :
    Method (QSAHiSparseRuntime δ) (List QSAHiSparseLease × List Int) := do
  let self <- get
  match batch.reqPoolIndices, batch.seqLens with
  | some reqIndices, some seqLens => do
      raiseIf (¬ (1 ≤ batch.batchSize ∧ batch.batchSize ≤ self.slots.geometry.maxRequests) ∨
          (true = false ∧ batch.batchSize ≠ 1) ∨ batch.rids.length ≠ batch.batchSize)
        (.runtimeError "QSA P2 requires real bounded rows and CPU metadata")
      raiseIf (reqIndices.length ≠ batch.batchSize ∨ seqLens.length ≠ batch.batchSize ∨
          ¬ reqIndices.Nodup)
        (.runtimeError "QSA P2 batch metadata aliases or pads requests")
      checkDeviceRows machine config
      let states <- (rowsOf reqIndices batch.rids seqLens).mapM
        (admitRow machine config true graph)
      raiseIf (¬ (states.map QSAHiSparseLease.slot).Nodup ∨ ¬ batch.rids.Nodup ∨ "" ∈ batch.rids)
        (.runtimeError "QSA P2 batch aliases physical slots or request identities")
      return (states, seqLens)
  | _, _ => throw (.runtimeError "QSA P2 requires real bounded rows and CPU metadata")

/-- `begin_batch` of a decode batch is its checks and then its writes. -/
theorem beginDecode_eq {batch : ForwardBatch} (decodes : batch.mode = .decode) (graph : Bool) :
    beginBatch machine config batch graph =
      (@checkDecode _ machine config graph batch >>= fun rows =>
        startBatch machine config true graph rows.1 rows.2 batch.extendSeqLens) := by
  unfold beginBatch
  rw [decodes]
  change beginForward machine config true graph batch = _
  unfold beginForward checkDecode
  rw [bind_assoc]
  congr 1
  funext self
  cases batch.reqPoolIndices with
  | none => rfl
  | some reqIndices =>
      cases batch.seqLens with
      | none => rfl
      | some seqLens => simp only [beginRows, bind_assoc, pure_bind]

/-- The checks write nothing, and the rows that pass them are accepted. -/
theorem checkDecode_leaves (graph : Bool) (batch : ForwardBatch)
    (runtime : QSAHiSparseRuntime δ) :
    Leaves (fun rows after => Beside runtime after ∧ Accepted config batch runtime rows.1 rows.2)
      (fun _ after => Beside runtime after)
      ((@checkDecode _ machine config graph batch).run runtime) := by
  unfold checkDecode
  apply (Leaves.bind_iff _ _ _).mpr
  apply (Leaves.get_iff _).mpr
  cases indices : batch.reqPoolIndices with
  | none => exact Beside.refl runtime
  | some reqIndices =>
    cases lengths : batch.seqLens with
    | none => exact Beside.refl runtime
    | some seqLens =>
        apply (Leaves.bind_iff _ _ _).mpr
        apply (Leaves.raiseIf_iff _ _ _).mpr
        refine ⟨fun _ => Beside.refl runtime, fun sized => ?_⟩
        apply (Leaves.bind_iff _ _ _).mpr
        apply (Leaves.raiseIf_iff _ _ _).mpr
        refine ⟨fun _ => Beside.refl runtime, fun aligned => ?_⟩
        push Not at sized aligned
        apply (Leaves.bind_iff _ _ _).mpr
        have steady := (beside_hostOnly runtime).steady machine
        have checked := @Steady.checkDeviceRows _ _ config _ steady runtime (Beside.refl runtime)
        apply checked.mono
        · intro _ after beside
          apply (Leaves.bind_iff _ _ _).mpr
          apply (admitRows_leaves machine graph _ after).mono
          · rintro states last ⟨step, admitted⟩
            apply (Leaves.bind_iff _ _ _).mpr
            apply (Leaves.raiseIf_iff _ _ _).mpr
            refine ⟨fun _ => beside.trans step, fun distinct => ?_⟩
            push Not at distinct
            have rows := admitted_rows (sized.2.2.trans aligned.2.1.symm)
              (aligned.1.trans aligned.2.1.symm)
              (admitted.imp fun _ _ other => other.beside beside)
            exact ⟨beside.trans step, lengths, rows.1, rows.2, distinct.1⟩
          · exact fun cause last step => beside.trans step
        · exact fun _ _ beside => beside

/-- A decode batch is refused with nothing written, or its rows have passed
every check and the batch starts. -/
theorem beginDecode_leaves {batch : ForwardBatch} (decodes : batch.mode = .decode) (graph : Bool)
    (runtime : QSAHiSparseRuntime δ) {post : PUnit -> QSAHiSparseRuntime δ -> Prop}
    {raised : PyError -> QSAHiSparseRuntime δ -> Prop}
    (refused : forall cause after, Beside runtime after -> raised cause after)
    (starts : forall after states seqLens, Beside runtime after ->
      Accepted config batch runtime states seqLens ->
      Leaves post raised
        ((startBatch machine config true graph states seqLens batch.extendSeqLens).run after)) :
    Leaves post raised ((beginBatch machine config batch graph).run runtime) := by
  rw [beginDecode_eq machine decodes]
  apply (Leaves.bind_iff _ _ _).mpr
  apply (checkDecode_leaves machine graph batch runtime).mono
  · exact fun rows after both => starts after rows.1 rows.2 both.1 both.2
  · exact refused

end Admission

/-! ## The writes -/

section Writes

variable {δ : Type} (machine : Machine δ) {config : Config}

/-- The caches after the update of every row, in order. -/
def advanceRows (decode : Bool) (rows : List (QSAHiSparseLease × Int))
    (caches : QSAHiSparseLease -> RequestCache) : QSAHiSparseLease -> RequestCache :=
  rows.foldl (fun caches row =>
    Function.update caches row.1 ((caches row.1).advance decode row.2)) caches

theorem advanceRows_other (decode : Bool) (rows : List (QSAHiSparseLease × Int))
    (caches : QSAHiSparseLease -> RequestCache) {lease : QSAHiSparseLease}
    (absent : lease ∉ rows.map Prod.fst) : advanceRows decode rows caches lease = caches lease := by
  unfold advanceRows
  induction rows generalizing caches with
  | nil => rfl
  | cons row rows previous =>
      rw [List.map_cons, List.mem_cons, not_or] at absent
      rw [List.foldl_cons, previous _ absent.2, Function.update_of_ne absent.1]

/-- A lease that stands in one row is updated with the length of that row. -/
theorem advanceRows_row (decode : Bool) {rows : List (QSAHiSparseLease × Int)}
    (distinct : (rows.map Prod.fst).Nodup) (caches : QSAHiSparseLease -> RequestCache)
    {row : QSAHiSparseLease × Int} (member : row ∈ rows) :
    advanceRows decode rows caches row.1 = (caches row.1).advance decode row.2 := by
  induction rows generalizing caches with
  | nil => exact absurd member List.not_mem_nil
  | cons first rows previous =>
      rw [List.map_cons, List.nodup_cons] at distinct
      change advanceRows decode rows
        (Function.update caches first.1 ((caches first.1).advance decode first.2)) row.1 = _
      rcases List.mem_cons.mp member with rfl | member
      · rw [advanceRows_other decode rows _ distinct.1, Function.update_self]
      · have different : row.1 ≠ first.1 := fun same =>
          distinct.1 (same ▸ List.mem_map_of_mem member)
        rw [previous distinct.2 _ member, Function.update_of_ne different]

/-- The state once every row has been advanced, before any address is computed. -/
def begun (config : Config) (graph : Bool) (states : List QSAHiSparseLease) (seqLens : List Int)
    (self : QSAHiSparseRuntime δ) : QSAHiSparseRuntime δ :=
  { self with
    graphBatch := if graph then some (states.zip seqLens) else self.graphBatch
    forwardId := self.forwardId + 1
    batchRequests := states
    caches := advanceRows true (states.zip seqLens) self.caches
    offloaded := config.offload }

theorem withCache_fold (rows : List (QSAHiSparseLease × Int)) (self : QSAHiSparseRuntime δ) :
    rows.foldl (fun self row => self.withCache row.1 (RequestCache.advance true row.2)) self =
      { self with caches := advanceRows true rows self.caches } := by
  induction rows generalizing self with
  | nil => rfl
  | cons row rows previous =>
      rw [List.foldl_cons, previous]
      rfl

theorem startDecode_run (graph : Bool) (states : List QSAHiSparseLease)
    (seqLens extendSeqLens : List Int) (runtime : QSAHiSparseRuntime δ) :
    (startBatch machine config true graph states seqLens extendSeqLens).run runtime =
      (do
        route machine config true states seqLens extendSeqLens
        logBatch machine true states).run (begun config graph states seqLens runtime) := by
  unfold startBatch
  rw [EStateM.run_bind, run_modify]
  simp only
  rw [EStateM.run_bind, run_forM_modify]
  simp only [withCache_fold]
  rfl

/-- The ring row that a token of this length is written to. -/
def ringLocation (geometry : Geometry) (lease : QSAHiSparseLease) (seqLen : Int) : Nat :=
  geometry.ringStart lease.slot + 1 + (seqLen - 1).toNat % 4

/-- What the address computation asks of a lease. -/
def Addressable (runtime : QSAHiSparseRuntime δ) (lease : QSAHiSparseLease) : Prop :=
  runtime.slots.Permits lease [.decode] ∧ 1 ≤ (runtime.caches lease).seqLen ∧
    (runtime.caches lease).seqLen ≤ runtime.slots.geometry.stagingTokens

theorem zoom_ringWriteLocation_outcome (runtime : QSAHiSparseRuntime δ)
    (lease : QSAHiSparseLease) :
    Checked (Addressable runtime lease) runtime
      (fun row after =>
        row = ringLocation runtime.slots.geometry lease (runtime.caches lease).seqLen ∧
        after = runtime)
      ((ledger.zoom (ringWriteLocation lease (runtime.caches lease).seqLen)).run runtime) := by
  apply (ledger.leaves_zoom _ runtime).mpr
  apply Leaves.mono (ringWriteLocation_outcome runtime.slots lease _)
  · rintro row slots ⟨⟨permits, bounded, _⟩, named, rfl⟩
    rw [not_not] at bounded
    exact ⟨⟨permits, bounded⟩, named, rfl⟩
  · rintro cause slots ⟨refused, rfl⟩
    exact ⟨fun addressable => refused ⟨addressable.1, not_not.mpr addressable.2, trivial⟩, rfl⟩

/-- Only the device and the routing buffers have moved on. -/
def Routed (before after : QSAHiSparseRuntime δ) : Prop :=
  exists next rawWriteLocs rowSlots batchLens real,
    after = { before with device := next, rawWriteLocs, rowSlots, batchLens, real }

/-- A call that is not a check raised this. -/
def Machine.Raises (machine : Machine δ) (cause : PyError) : Prop :=
  exists site before after, (machine.outside site).run before = .error cause after

theorem outside_leaves (site : Site) (runtime : QSAHiSparseRuntime δ)
    {post : PUnit -> QSAHiSparseRuntime δ -> Prop}
    {raised : PyError -> QSAHiSparseRuntime δ -> Prop}
    (returns : forall next, post ⟨⟩ { runtime with device := next })
    (raises : forall cause next, machine.Raises cause ->
      raised cause { runtime with device := next }) :
    Leaves post raised ((device.zoom (machine.outside site)).run runtime) := by
  apply (device.leaves_zoom _ runtime).mpr
  cases ran : (machine.outside site).run (device.get runtime) with
  | ok value next => exact returns next
  | error cause next => exact raises cause next ⟨site, _, _, ran⟩

/-- The write locations of the rows of a batch. -/
def ringLocations (runtime : QSAHiSparseRuntime δ) (states : List QSAHiSparseLease) : List Nat :=
  states.map fun lease =>
    ringLocation runtime.slots.geometry lease (runtime.caches lease).seqLen

/-- Once the rows have been advanced, a row without an address is refused, and
otherwise only a call that is not a check raises. -/
theorem routeDecode_leaves (states : List QSAHiSparseLease) (seqLens extendSeqLens : List Int)
    (runtime : QSAHiSparseRuntime δ) :
    Leaves
      (fun _ after => Routed runtime after ∧
        (forall lease, lease ∈ states -> Addressable runtime lease) ∧
        (config.offload = true -> after.rawWriteLocs = ringLocations runtime states))
      (fun cause after => Routed runtime after ∧
        (machine.Raises cause ∨ exists lease, lease ∈ states ∧ ¬ Addressable runtime lease))
      ((do
        route machine config true states seqLens extendSeqLens
        logBatch machine true states).run runtime) := by
  have unmoved : Routed runtime runtime :=
    ⟨runtime.device, _, _, _, _, rfl⟩
  -- The log computes every address once more.
  have logs (after : QSAHiSparseRuntime δ) (routed : Routed runtime after)
      (located : config.offload = true -> after.rawWriteLocs = ringLocations runtime states) :
      Leaves
        (fun _ last => Routed runtime last ∧
          (forall lease, lease ∈ states -> Addressable runtime lease) ∧
          (config.offload = true -> last.rawWriteLocs = ringLocations runtime states))
        (fun cause last => Routed runtime last ∧
          (machine.Raises cause ∨ exists lease, lease ∈ states ∧ ¬ Addressable runtime lease))
        ((logBatch machine true states).run after) := by
    unfold logBatch
    apply (Leaves.bind_iff _ _ _).mpr
    apply (Leaves.get_iff _).mpr
    apply (Leaves.bind_iff _ _ _).mpr
    have checks := @Checked.forEach _ _ after
      (fun lease => do
        let _ <- ledger.zoom (ringWriteLocation lease (after.caches lease).seqLen)
        pure ⟨⟩)
      (Addressable after) (fun lease => by
        apply (Leaves.bind_iff _ _ _).mpr
        apply Leaves.mono (zoom_ringWriteLocation_outcome after lease)
        · exact fun _ _ both => ⟨both.1, both.2.2⟩
        · exact fun _ _ both => both) states
    apply Leaves.mono checks
    · rintro _ here ⟨addressable, rfl⟩
      rcases routed with ⟨next, locations, slots, lens, real, rfl⟩
      apply outside_leaves
      · exact fun last => ⟨⟨last, locations, slots, lens, real, rfl⟩, addressable, located⟩
      · exact fun cause last raises =>
          ⟨⟨last, locations, slots, lens, real, rfl⟩, Or.inl raises⟩
    · rintro cause here ⟨refused, rfl⟩
      rcases routed with ⟨next, locations, slots, lens, real, rfl⟩
      push Not at refused
      exact ⟨⟨next, locations, slots, lens, real, rfl⟩, Or.inr refused⟩
  apply (Leaves.bind_iff _ _ _).mpr
  unfold route
  by_cases resident : config.offload = false
  · rw [if_pos resident]
    apply logs runtime unmoved
    intro offload
    rw [resident] at offload
    cases offload
  · rw [if_neg resident, if_pos rfl]
    unfold routeDecode
    apply (Leaves.bind_iff _ _ _).mpr
    apply (Leaves.get_iff _).mpr
    apply (Leaves.bind_iff _ _ _).mpr
    apply Leaves.mono (Checked.mapEach (zoom_ringWriteLocation_outcome runtime) states)
    · rintro locations here ⟨addressable, rfl, rfl⟩
      apply (Leaves.bind_iff _ _ _).mpr
      apply outside_leaves
      · intro next
        exact logs _ ⟨next, _, _, _, _, rfl⟩ fun _ => rfl
      · intro cause next raises
        exact ⟨⟨next, _, _, _, _, rfl⟩, Or.inl raises⟩
    · rintro cause here ⟨refused, rfl⟩
      push Not at refused
      exact ⟨unmoved, Or.inr refused⟩

end Writes

end Runtime
end QSAHiSparse

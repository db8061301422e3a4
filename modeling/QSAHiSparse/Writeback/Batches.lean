import QSAHiSparse.Runtime.DecodeBatch
import QSAHiSparse.Writeback.Forward

namespace QSAHiSparse
namespace Writeback

open Foundation
open Ledger
open QSAHiSparse.Runtime

/-!
# The start of a forward

A prefill chunk grants a lease, on a slot that no copy is pending for, or moves
the length of one on.  A decode batch owes its rows one more token in every
layer.
-/

/-- Every layer keeps the whole length. -/
abbrev resting : Stages := fun _ _ => .settled

section Batches

variable {config : Config} {resolver : Resolver} {pace : Pace} {graph : Bool} {stages : Stages}
  {runtime : QSAHiSparseRuntime Lagging} {lease : QSAHiSparseLease}

/-! ## A granted lease -/

/-- No copy of a lease whose row is free is pending. -/
theorem Guarded.not_undone (guarded : Guarded resolver noneLoose runtime)
    (free : runtime.slots.active.get? lease.reqPoolIdx = none) : ¬ Undone runtime lease := by
  intro undone
  have held := (guarded.undone undone).1
  unfold QSAHiSparseSlots.Holds at held
  rw [free] at held
  cases held

/-- The lease with a new cache in its row. -/
theorem Core.grant (core : Core config resolver graph stages noneLoose runtime)
    {rest : List Nat} (free : runtime.slots.active.get? lease.reqPoolIdx = none)
    (ledger : LedgerInvariant (runtime.slots.grant lease rest)) :
    Core config resolver graph stages noneLoose
      { runtime with
        slots := runtime.slots.grant lease rest
        caches := Function.update runtime.caches lease (RequestCache.fresh config)
        requests := runtime.requests.set lease.reqPoolIdx lease } := by
  have other {found : QSAHiSparseLease} (different : found ≠ lease) :
      Function.update runtime.caches lease (RequestCache.fresh config) found =
        runtime.caches found := Function.update_of_ne different _ _
  have own : Function.update runtime.caches lease (RequestCache.fresh config) lease =
      RequestCache.fresh config := Function.update_self lease _ _
  have kept (found : QSAHiSparseLease)
      (permits : (runtime.slots.grant lease rest).Permits found keptPhases) :
      found ≠ lease ∧ runtime.slots.Permits found keptPhases := by
    rcases grant_cases permits with ⟨_, never⟩ | before
    · exact absurd never (by decide)
    · refine ⟨?_, before⟩
      rintro rfl
      have held := before.1
      unfold QSAHiSparseSlots.Holds at held
      rw [free] at held
      cases held
  have written : Written runtime
      { runtime with
        slots := runtime.slots.grant lease rest
        caches := Function.update runtime.caches lease (RequestCache.fresh config)
        requests := runtime.requests.set lease.reqPoolIdx lease } := by
    refine ⟨rfl, rfl, rfl, fun found => ?_, fun found undone =>
      grant_permits free (core.guarded.undone undone)⟩
    by_cases same : found = lease
    · rw [same]
      refine Or.inr ⟨core.guarded.not_undone free, fun state member => ?_⟩
      rw [congrArg RequestCache.states own] at member
      exact absurd member List.not_mem_nil
    · exact Or.inl (congrArg RequestCache.states (other same))
  apply core.write written ledger
  · intro row found present
    change (runtime.requests.set lease.reqPoolIdx lease).get? row = some found at present
    by_cases same : row = lease.reqPoolIdx
    · rw [same, Dict.get?_set_self] at present
      cases present
      exact ⟨same.symm, Dict.get?_set_self _ _ _⟩
    · rw [Dict.get?_set_of_ne _ _ same] at present
      have before := core.owned row found present
      exact ⟨before.1, grant_holds free before.2⟩
  · intro found
    by_cases same : found = lease
    · rw [same]
      exact Int.le_of_eq (congrArg RequestCache.seqLen own).symm
    · exact (core.lengths found).trans_eq (congrArg RequestCache.seqLen (other same)).symm
  · intro found permits
    by_cases same : found = lease
    · rw [same]
      exact congrArg RequestCache.states own
    · rcases grant_cases permits with ⟨granted, _⟩ | before
      · exact absurd granted same
      · exact (congrArg RequestCache.states (other same)).trans (core.unstaged found before)
  · intro found permits
    have before := kept found permits
    change (Function.update runtime.caches lease (RequestCache.fresh config) found).offloaded =
        true ∧
      (Function.update runtime.caches lease (RequestCache.fresh config) found).states.length =
        config.layers
    rw [other before.1]
    exact core.offloaded found before.2
  · intro found permits li inside
    have before := kept found permits
    change (stages found li).holds _ found li
      (Function.update runtime.caches lease (RequestCache.fresh config) found).seqLen
    rw [other before.1]
    exact core.contents found before.2 li inside

/-- The slot that a grant takes is cleared on the device. -/
theorem Core.clear (core : Core config resolver graph stages noneLoose runtime)
    (free : lease.slot ∈ runtime.slots.freeSlots) :
    Core config resolver graph stages noneLoose
      (submitted runtime .compute (.perform (.clearSlot lease))) := by
  have guarded : Guarded resolver noneLoose
      (submitted runtime .compute (.perform (.clearSlot lease))) :=
    core.guarded.plain id (fun _ _ => id) id trivial
  refine core.elsewhere guarded fun other permits li => apply_agreeAt fun touches => ?_
  change other.slot = lease.slot at touches
  exact core.ledger.slot_taken permits.1 (touches ▸ free)

theorem submit_run (site : Site) (stream : Stream) (work : Work) :
    (device.zoom ((streamMachine resolver pace).submit site stream work)).run runtime =
      .ok ⟨⟩ (submitted { runtime with device := runtime.device.pass resolver pace } stream
        (.perform work)) := rfl

theorem acquireRequest_core (reqIdx : Int) (rid : String) :
    Returns (Core config resolver graph stages noneLoose)
      (acquireRequest (streamMachine resolver pace) config reqIdx rid)
      fun _ => Core config resolver graph stages noneLoose := by
  intro runtime core
  unfold acquireRequest
  apply (Leaves.bind_iff _ _ _).mpr
  apply (Leaves.get_iff _).mpr
  apply (Leaves.bind_iff _ _ _).mpr
  apply (ledger.leaves_zoom _ runtime).mpr
  refine (acquire_outcome runtime.slots reqIdx _ rid).mono ?_ fun _ _ _ => trivial
  rintro lease after ⟨⟨wellFormed, absent, newer, unowned, _⟩, slot, rest, slots, named, rfl⟩
  have row : lease.reqPoolIdx = reqIdx := by rw [named]
  have free : runtime.slots.active.get? lease.reqPoolIdx = none := by
    rw [Dict.contains, decide_eq_true_eq] at absent
    rw [row]
    exact Dict.get?_eq_none_iff.mpr absent
  have place : runtime.slots.freeSlots = lease.slot :: rest := by rw [named]; exact slots
  have positive : 0 < lease.generation := by
    rw [named]
    change 0 < runtime.reqGeneration reqIdx
    omega
  have valid : LedgerInvariant (runtime.slots.grant lease rest) := by
    refine core.ledger.move (.grant lease rest positive free ?_ (Classical.not_not.mp unowned)
      place)
    rw [row]
    have generation : lease.generation = runtime.reqGeneration reqIdx := by rw [named]
    rw [generation]
    exact Int.lt_of_not_ge newer
  apply (Leaves.bind_iff _ _ _).mpr
  unfold constructCache
  apply (Leaves.bind_iff _ _ _).mpr
  refine ((Reads.zoom (ringSlice_reads lease)).leaves _).mono ?_ fun _ _ _ => trivial
  rintro _ _ rfl
  apply (Leaves.bind_iff _ _ _).mpr
  rw [submit_run]
  have now := core_lasting config graph stages noneLoose runtime _ core
    (@pass_later resolver pace runtime.device)
  have cleared := now.clear (place ▸ List.mem_cons_self)
  have granted := cleared.grant free valid
  rw [row] at granted
  exact ((core_steady config resolver pace graph stages noneLoose).outside .eventLog).returns _
    granted

/-! ## A prefill chunk -/

/-- A row that does not decode comes out with a prefilling lease. -/
theorem admitRow_core (row : Row) :
    Returns (Core config resolver graph stages noneLoose)
      (admitRow (streamMachine resolver pace) config false false row)
      fun lease runtime => Core config resolver graph stages noneLoose runtime ∧
        runtime.slots.Permits lease [.prefill] ∧ 1 ≤ row.seq := by
  unfold admitRow
  refine Returns.raiseIf_bind _ fun inside => ?_
  have bounded := (not_not.mp inside).1
  have admits : Returns (Core config resolver graph stages noneLoose)
      (admitRequest (streamMachine resolver pace) config false row)
      fun _ => Core config resolver graph stages noneLoose := by
    unfold admitRequest
    refine Returns.get_known fun self _ => ?_
    refine Returns.ite (fun _ _ core => core) fun _ => ?_
    exact Returns.raiseIf_bind _ fun _ => acquireRequest_core row.reqIdx row.rid
  refine Ensures.bind admits fun _ => ?_
  refine Ensures.bind (request_reads _ _).preserves.returns fun lease => ?_
  have required : Returns (Core config resolver graph stages noneLoose)
      (ledger.zoom (require lease [.prefill]))
      fun _ runtime => Core config resolver graph stages noneLoose runtime ∧
        runtime.slots.Permits lease [.prefill] :=
    fun runtime core => (zoom_require_ensures (by simp) lease runtime core).mono
      (fun _ _ => id) fun _ _ _ => trivial
  refine Ensures.bind required fun _ => ?_
  exact fun runtime both => ⟨both.1, both.2, bounded⟩

/-- The length of a prefilling lease moves on. -/
theorem Core.lengthen (core : Core config resolver graph stages noneLoose runtime)
    (permits : runtime.slots.Permits lease [.prefill]) {seq : Int} (bounded : 1 ≤ seq) :
    Core config resolver graph stages noneLoose
      (runtime.withCache lease (RequestCache.advance false seq)) := by
  have written : Written runtime (runtime.withCache lease (RequestCache.advance false seq)) :=
    ⟨rfl, rfl, rfl, fun other => Or.inl (withCache_same RequestCache.states rfl other),
      fun other undone => core.guarded.undone undone⟩
  apply core.write written core.ledger core.owned
  · intro other
    by_cases same : other = lease
    · rw [same, withCache_self]
      exact Int.le_trans (by decide) bounded
    · exact (core.lengths other).trans_eq
        (congrArg RequestCache.seqLen (Function.update_of_ne same _ _)).symm
  · exact fun other prefilling => (withCache_same RequestCache.states rfl other).trans
      (core.unstaged other prefilling)
  · intro other kept
    rw [withCache_same RequestCache.offloaded rfl, withCache_same RequestCache.states rfl]
    exact core.offloaded other kept
  · intro other kept li inside
    have different : other ≠ lease := by
      rintro rfl
      exact permits_disjoint permits kept (by decide)
    have same : ((runtime.withCache lease (RequestCache.advance false seq)).caches other).seqLen =
        (runtime.caches other).seqLen :=
      congrArg RequestCache.seqLen (Function.update_of_ne different _ _)
    rw [same]
    exact core.contents other kept li inside

/-- The writes of a chunk. -/
theorem startPrefill_core (lease : QSAHiSparseLease) {seq : Int} (bounded : 1 ≤ seq)
    (extendSeqLens : List Int) :
    Returns
      (fun runtime => Core config resolver graph stages noneLoose runtime ∧
        runtime.slots.Permits lease [.prefill])
      (startBatch (streamMachine resolver pace) config false false [lease] [seq] extendSeqLens)
      fun _ => Core config resolver graph stages noneLoose := by
  unfold startBatch
  refine Ensures.bind (Returns.modify (fun runtime =>
    Core config resolver graph stages noneLoose runtime ∧
      runtime.slots.Permits lease [.prefill]) fun runtime both =>
        ⟨both.1.apart rfl rfl rfl rfl rfl rfl, both.2⟩) fun _ => ?_
  have turn : Returns
      (fun runtime => Core config resolver graph stages noneLoose runtime ∧
        runtime.slots.Permits lease [.prefill])
      (forM ([lease].zip [seq]) fun row => modify fun self =>
        self.withCache row.1 (RequestCache.advance false row.2) :
          Method (QSAHiSparseRuntime Lagging) PUnit)
      fun _ => Core config resolver graph stages noneLoose :=
    fun runtime both => both.1.lengthen both.2 bounded
  refine Ensures.bind turn fun _ => ?_
  refine Ensures.bind (Returns.modify (Core config resolver graph stages noneLoose)
    fun runtime core => core.apart rfl rfl rfl rfl rfl rfl) fun _ => ?_
  have routes : Returns (Core config resolver graph stages noneLoose)
      (route (streamMachine resolver pace) config false [lease] [seq] extendSeqLens)
      fun _ => Core config resolver graph stages noneLoose := by
    unfold route
    refine Returns.ite (fun _ _ core => core) fun _ => ?_
    rw [if_neg (by decide)]
    cases extendSeqLens with
    | nil => exact Returns.throw _
    | cons extend others =>
        unfold routeExtend
        refine Returns.get_known fun self _ => ?_
        refine Ensures.bind (Reads.zoom (stagingSlice_reads lease _ _)).preserves.returns
          fun segment => ?_
        exact Returns.modify _ fun runtime core => core.apart rfl rfl rfl rfl rfl rfl
  refine Ensures.bind routes fun _ => ?_
  exact (@Steady.logBatch _ _ _ (core_steady config resolver pace graph stages noneLoose) false
    [lease]).returns

/-- A batch that does not decode. -/
theorem beginOther_core {batch : ForwardBatch} (other : batch.mode ≠ .decode) :
    Returns (Core config resolver graph stages noneLoose)
      (beginBatch (streamMachine resolver pace) config batch false)
      fun _ => Core config resolver graph stages noneLoose := by
  unfold beginBatch
  cases mode : batch.mode with
  | decode => exact absurd mode other
  | other => exact Returns.throw _
  | idle => exact Returns.modify _ fun runtime core => core.apart rfl rfl rfl rfl rfl rfl
  | extend =>
      change Returns _ (beginForward _ config false false batch) _
      unfold beginForward
      refine Returns.get_known fun self _ => ?_
      cases batch.reqPoolIndices with
      | none => exact Returns.throw _
      | some reqIndices =>
      cases batch.seqLens with
      | none => exact Returns.throw _
      | some seqLens =>
          refine Returns.raiseIf_bind _ fun sized => ?_
          unfold beginRows
          refine Returns.raiseIf_bind _ fun aligned => ?_
          push Not at sized aligned
          have single := sized.2.1 rfl
          rw [single] at sized aligned
          rcases List.length_eq_one_iff.mp aligned.1 with ⟨reqIdx, rfl⟩
          rcases List.length_eq_one_iff.mp aligned.2.1 with ⟨seq, rfl⟩
          rcases List.length_eq_one_iff.mp sized.2.2 with ⟨rid, rids⟩
          rw [rids]
          refine Ensures.bind (@Steady.checkDeviceRows _ _ config _
            (core_steady config resolver pace graph stages noneLoose)).returns fun _ => ?_
          change Returns _ (([⟨reqIdx, rid, seq⟩] : List Row).mapM _ >>= _) _
          rw [List.mapM_cons, List.mapM_nil, bind_assoc]
          refine Ensures.bind (admitRow_core ⟨reqIdx, rid, seq⟩) fun lease => ?_
          simp only [pure_bind]
          refine Returns.raiseIf_bind _ fun _ => ?_
          intro runtime both
          exact startPrefill_core lease both.2.2 batch.extendSeqLens runtime ⟨both.1, both.2.1⟩

/-! ## A decode batch -/

/-- Each row of the batch is one token longer than what its lease has. -/
def Advances (runtime : QSAHiSparseRuntime Lagging) (batch : ForwardBatch) : Prop :=
  forall reqIndices seqLens, batch.reqPoolIndices = some reqIndices ->
    batch.seqLens = some seqLens ->
    forall row, row ∈ rowsOf reqIndices batch.rids seqLens ->
      forall lease, runtime.requests.get? row.reqIdx = some lease ->
        row.seq = (runtime.caches lease).seqLen + 1

/-- A lease found for a row stands beside the length of the row. -/
theorem rows_zip {related : Row -> QSAHiSparseLease -> Prop} {reqIndices : List Int}
    {rids : List String} {seqLens : List Int} {states : List QSAHiSparseLease}
    (names : rids.length = seqLens.length) (indices : reqIndices.length = seqLens.length)
    (found : List.Forall₂ related (rowsOf reqIndices rids seqLens) states) :
    forall pair, pair ∈ states.zip seqLens ->
      exists row, row ∈ rowsOf reqIndices rids seqLens ∧ row.seq = pair.2 ∧ related row pair.1 := by
  induction seqLens generalizing reqIndices rids states with
  | nil =>
      intro pair member
      rw [List.zip_nil_right] at member
      exact absurd member List.not_mem_nil
  | cons seq seqLens previous =>
      cases rids with
      | nil => cases names
      | cons rid rids =>
          cases reqIndices with
          | nil => cases indices
          | cons reqIdx reqIndices =>
              change List.Forall₂ related
                (⟨reqIdx, rid, seq⟩ :: rowsOf reqIndices rids seqLens) states at found
              cases found with
              | cons first others =>
                  intro pair member
                  rw [List.zip_cons_cons] at member
                  rcases List.mem_cons.mp member with rfl | member
                  · exact ⟨⟨reqIdx, rid, seq⟩, List.mem_cons_self, rfl, first⟩
                  · rcases previous (Nat.succ.inj names) (Nat.succ.inj indices) others pair member
                      with ⟨row, among, same, holds⟩
                    exact ⟨row, List.mem_cons_of_mem _ among, same, holds⟩

/-- The rows that pass the checks advance. -/
theorem checkDecode_advances (captured : Bool) {batch : ForwardBatch}
    (advances : Advances runtime batch) :
    Leaves
      (fun rows _ => forall pair, pair ∈ rows.1.zip rows.2 ->
        pair.2 = (runtime.caches pair.1).seqLen + 1)
      (fun _ _ => True)
      ((@checkDecode _ (streamMachine resolver pace) config captured batch).run runtime) := by
  unfold checkDecode
  apply (Leaves.bind_iff _ _ _).mpr
  apply (Leaves.get_iff _).mpr
  cases indices : batch.reqPoolIndices with
  | none => exact trivial
  | some reqIndices =>
    cases lengths : batch.seqLens with
    | none => exact trivial
    | some seqLens =>
        apply (Leaves.bind_iff _ _ _).mpr
        apply (Leaves.raiseIf_iff _ _ _).mpr
        refine ⟨fun _ => trivial, fun sized => ?_⟩
        apply (Leaves.bind_iff _ _ _).mpr
        apply (Leaves.raiseIf_iff _ _ _).mpr
        refine ⟨fun _ => trivial, fun aligned => ?_⟩
        push Not at sized aligned
        apply (Leaves.bind_iff _ _ _).mpr
        have steady := (beside_hostOnly runtime).steady (streamMachine resolver pace)
        have checked := @Steady.checkDeviceRows _ _ config _ steady runtime (Beside.refl runtime)
        refine checked.mono (fun _ after beside => ?_) fun _ _ _ => trivial
        apply (Leaves.bind_iff _ _ _).mpr
        refine (admitRows_leaves _ captured _ after).mono ?_ fun _ _ _ => trivial
        rintro states last ⟨_, admitted⟩
        apply (Leaves.bind_iff _ _ _).mpr
        apply (Leaves.raiseIf_iff _ _ _).mpr
        refine ⟨fun _ => trivial, fun _ pair member => ?_⟩
        rcases rows_zip (sized.2.2.trans aligned.2.1.symm) (aligned.1.trans aligned.2.1.symm)
          (admitted.imp fun _ _ other => other.beside beside) pair member
          with ⟨row, among, same, found⟩
        rw [<- same]
        exact advances reqIndices seqLens indices lengths row among pair.1 found.found

/-- The checks of a decode batch give the device nothing. -/
theorem checkDecode_core (captured : Bool) (batch : ForwardBatch) :
    Preserves (Core config resolver graph stages noneLoose)
      (@checkDecode _ (streamMachine resolver pace) config captured batch) := by
  have steady := core_steady config resolver pace graph stages noneLoose
  have device : Preserves (Core config resolver graph stages noneLoose)
      (checkDeviceRows (streamMachine resolver pace) config) :=
    @Steady.checkDeviceRows _ (quiet (streamMachine resolver pace)) config _ steady
  have captures (lease : QSAHiSparseLease) : Preserves (Core config resolver graph stages noneLoose)
      (checkGraphRow (streamMachine resolver pace) config captured lease) :=
    @Steady.checkGraphRow _ (quiet (streamMachine resolver pace)) config _ steady captured lease
  unfold checkDecode
  refine Preserves.get_bind fun self => ?_
  cases batch.reqPoolIndices with
  | none => exact Preserves.throw _
  | some reqIndices =>
  cases batch.seqLens with
  | none => exact Preserves.throw _
  | some seqLens =>
      refine Preserves.bind (Preserves.raiseIf _ _) fun _ => ?_
      refine Preserves.bind (Preserves.raiseIf _ _) fun _ => ?_
      refine Preserves.bind device fun _ => ?_
      refine Preserves.bind (Preserves.mapEach _ fun row _ => ?_) fun states => ?_
      · unfold admitRow
        refine Preserves.bind (Preserves.raiseIf _ _) fun _ => ?_
        refine Preserves.bind ?_ fun _ => ?_
        · unfold admitRequest
          refine Preserves.get_bind fun self => ?_
          refine Preserves.ite (fun _ => Preserves.pure PUnit.unit) fun _ runtime core => ?_
          apply (Leaves.bind_iff _ _ _).mpr
          apply (Leaves.raiseIf_iff _ _ _).mpr
          exact ⟨fun _ => core, fun never => absurd rfl never⟩
        refine Preserves.bind (request_reads _ _).preserves fun lease => ?_
        refine Preserves.bind (Reads.zoom (require_reads lease _)).preserves fun _ => ?_
        refine Preserves.bind (captures lease) fun _ => ?_
        exact Preserves.pure lease
      · refine Preserves.bind (Preserves.raiseIf _ _) fun _ => ?_
        exact Preserves.pure (states, seqLens)

/-- The lengths of the rows are a function of their leases. -/
theorem zip_eq_map {states : List QSAHiSparseLease} {seqLens : List Int}
    {length : QSAHiSparseLease -> Int} (rows : (states.zip seqLens).map Prod.fst = states)
    (each : forall pair, pair ∈ states.zip seqLens -> pair.2 = length pair.1) :
    states.zip seqLens = states.map fun lease => (lease, length lease) := by
  have same : states.zip seqLens = (states.zip seqLens).map fun pair => (pair.1, length pair.1) :=
    ((List.map_congr_left fun pair member => by rw [<- each pair member]; rfl).trans
      (List.map_id _)).symm
  conv_rhs => rw [<- rows, List.map_map]
  exact same

/-- The rows of an accepted batch after their update. -/
theorem Core.begun (core : Core config resolver graph resting noneLoose runtime)
    (stage : Stage) (offload : config.offload = true) (captured : Bool) {batch : ForwardBatch}
    {states : List QSAHiSparseLease} {seqLens : List Int}
    (accepted : Accepted config batch runtime states seqLens)
    (advances : forall pair, pair ∈ states.zip seqLens ->
      pair.2 = (runtime.caches pair.1).seqLen + 1) :
    exists lengths, states.zip seqLens = states.map (fun lease => (lease, lengths lease)) ∧
      Running config resolver graph states lengths (below stage states 0) noneClear
        (Runtime.begun config captured states seqLens runtime) := by
  have rows : (states.zip seqLens).map Prod.fst = states :=
    List.map_fst_zip (Nat.le_of_eq accepted.matched)
  have distinct : ((states.zip seqLens).map Prod.fst).Nodup := by
    rw [rows]
    exact accepted.slots.of_map
  have paired {lease : QSAHiSparseLease} (member : lease ∈ states) :
      exists seq, (lease, seq) ∈ states.zip seqLens := by
    rw [<- rows] at member
    rcases List.mem_map.mp member with ⟨⟨_, seq⟩, among, rfl⟩
    exact ⟨seq, among⟩
  have advanced {lease : QSAHiSparseLease} {seq : Int}
      (member : (lease, seq) ∈ states.zip seqLens) :
      (Runtime.begun config captured states seqLens runtime).caches lease =
        (runtime.caches lease).advance true seq :=
    advanceRows_row true distinct runtime.caches member
  have other {lease : QSAHiSparseLease} (absent : lease ∉ states) :
      (Runtime.begun config captured states seqLens runtime).caches lease =
        runtime.caches lease :=
    advanceRows_other true _ runtime.caches (by rwa [rows])
  have same {β : Type} (value : RequestCache -> β)
      (kept : forall seq cache, value (RequestCache.advance true seq cache) = value cache)
      (lease : QSAHiSparseLease) :
      value ((Runtime.begun config captured states seqLens runtime).caches lease) =
        value (runtime.caches lease) := by
    by_cases member : lease ∈ states
    · rcases paired member with ⟨seq, among⟩
      rw [advanced among, kept]
    · rw [other member]
  have longer {lease : QSAHiSparseLease} (member : lease ∈ states) :
      ((Runtime.begun config captured states seqLens runtime).caches lease).seqLen =
        (runtime.caches lease).seqLen + 1 := by
    rcases paired member with ⟨seq, among⟩
    rw [advanced among]
    exact advances (lease, seq) among
  have written : Written runtime (Runtime.begun config captured states seqLens runtime) :=
    ⟨rfl, rfl, rfl, fun lease => Or.inl (same RequestCache.states (fun _ _ => rfl) lease),
      fun lease undone => core.guarded.undone undone⟩
  refine ⟨fun lease => ((Runtime.begun config captured states seqLens runtime).caches lease).seqLen,
    ?_, ?_, ⟨rfl, offload, ?_, fun _ _ => rfl⟩, fun _ _ never => absurd never id⟩
  · refine zip_eq_map rows fun pair member => ?_
    rw [advanced member]
    rfl
  · apply core.write written core.ledger core.owned
    · intro lease
      by_cases member : lease ∈ states
      · rw [longer member]
        exact Int.le_add_one (core.lengths lease)
      · rw [other member]
        exact core.lengths lease
    · intro lease permits
      rw [same RequestCache.states fun _ _ => rfl]
      exact core.unstaged lease permits
    · intro lease permits
      rw [same RequestCache.states fun _ _ => rfl, same RequestCache.offloaded fun _ _ => rfl]
      exact core.offloaded lease permits
    · intro lease permits li inside
      have before := core.contents lease permits li inside
      unfold below
      by_cases member : lease ∈ states
      · rw [if_pos member, if_neg (Nat.not_lt_zero li), longer member]
        change Represents _ lease li (_ + 1 - 1)
        rw [Int.add_sub_cancel]
        exact before
      · rw [if_neg member, other member]
        exact before
  · intro lease member
    rcases paired member with ⟨seq, among⟩
    exact (accepted.rows (lease, seq) among).2

/-- The routing of a decode batch writes buffers of its own. -/
theorem routeDecode_preserves {invariant : QSAHiSparseRuntime Lagging -> Prop}
    (steady : Steady (quiet (streamMachine resolver pace)) invariant)
    (routes : forall runtime locations slots lens real, invariant runtime ->
      invariant { runtime with
        rawWriteLocs := locations, rowSlots := slots, batchLens := lens, real := real })
    (states : List QSAHiSparseLease) (seqLens extendSeqLens : List Int) :
    Preserves invariant (do
      route (streamMachine resolver pace) config true states seqLens extendSeqLens
      logBatch (streamMachine resolver pace) true states) := by
  refine Preserves.bind ?_ fun _ =>
    @Steady.logBatch _ (quiet (streamMachine resolver pace)) _ steady true states
  unfold route
  refine Preserves.ite (fun _ => Preserves.pure PUnit.unit) fun _ => ?_
  rw [if_pos rfl]
  unfold routeDecode
  refine Preserves.get_bind fun self => ?_
  refine Preserves.bind (Preserves.mapEach _ fun lease _ =>
    (Reads.zoom (ringWriteLocation_reads lease _)).preserves) fun locations => ?_
  refine Preserves.bind (steady.outside .routing) fun _ => ?_
  exact Preserves.modify fun runtime holds => routes runtime _ _ _ _ holds

/-- A decode batch that starts has its rows under way. -/
theorem beginDecode_running (stage : Stage) (offload : config.offload = true) (captured : Bool)
    {batch : ForwardBatch} (decodes : batch.mode = .decode) :
    Returns
      (fun runtime => Core config resolver graph resting noneLoose runtime ∧
        Advances runtime batch)
      (beginBatch (streamMachine resolver pace) config batch captured)
      fun _ after => exists states lengths, states.Nodup ∧
        (captured = true ->
          after.graphBatch = some (states.map fun lease => (lease, lengths lease))) ∧
        Running config resolver graph states lengths (below stage states 0) noneClear after := by
  rintro runtime ⟨core, advances⟩
  rw [beginDecode_eq _ decodes]
  apply (Leaves.bind_iff _ _ _).mpr
  have checked := @checkDecode_leaves _ (streamMachine resolver pace) config captured batch runtime
  have kept : Leaves _ _ ((@checkDecode _ (streamMachine resolver pace) config captured batch).run
    runtime) := checkDecode_core captured batch runtime core
  have longer := @checkDecode_advances config resolver pace runtime captured batch advances
  refine ((checked.and kept).and longer).mono ?_ fun _ _ _ => trivial
  rintro ⟨states, seqLens⟩ after ⟨⟨⟨⟨next, rfl⟩, accepted⟩, core⟩, longer⟩
  rcases core.begun stage offload captured
    (⟨accepted.lengths, accepted.matched, accepted.rows, accepted.slots⟩ :
      Accepted config batch { runtime with device := next } states seqLens) longer
    with ⟨lengths, rows, running⟩
  rw [startDecode_run]
  have lasting : Lasting resolver fun after =>
      Running config resolver graph states lengths (below stage states 0) noneClear after ∧
        (captured = true ->
          after.graphBatch = some (states.map fun lease => (lease, lengths lease))) :=
    (running_lasting _ noneClear).and (Lasting.of_host fun _ _ holds => holds)
  have routes := (@routeDecode_preserves config _ _ _ (lasting.steady pace)
    (fun after _ _ _ _ both => ⟨⟨both.1.core.apart rfl rfl rfl rfl rfl rfl,
      ⟨both.1.forwarding.batch, both.1.forwarding.offloaded, both.1.forwarding.decodes,
        both.1.forwarding.advanced⟩, fun _ _ never => absurd never id⟩, both.2⟩)
    states seqLens batch.extendSeqLens).returns
  refine (routes _ ⟨running, fun captures => ?_⟩).mono (fun _ after both => ?_) fun _ _ => id
  · change (if captured then some (states.zip seqLens) else runtime.graphBatch) = _
    rw [if_pos captures, rows]
  · exact ⟨states, lengths, accepted.slots.of_map, both.2, both.1⟩

end Batches

end Writeback
end QSAHiSparse

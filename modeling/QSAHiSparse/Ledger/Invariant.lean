import QSAHiSparse.Foundation.Calls
import QSAHiSparse.Ledger.Outcomes

namespace QSAHiSparse
namespace Ledger

open Foundation

/-!
# The ledger invariant

Slots are never lost or shared: the free list and the slots of active leases
always make up the slots the ledger was built with.  The prefill lane is tied to
the phases from both sides.  A lease that still reads or copies staging owns the
lane, and an owner is active in a phase from which its release clears the lane.

A run performs any methods with any arguments, and goes on after one raises.
-/

/-- Phases in which the lease's bytes are still only in staging. -/
def lanePhases : List Phase := [.prefill, .copying]

/-- Phases an owner of the lane can be in. -/
def ownerPhases : List Phase := [.prefill, .copying, .failed, .releasing]

structure LedgerInvariant (ledger : QSAHiSparseSlots) : Prop where
  free_sorted : ledger.freeSlots.Pairwise (· < ·)
  partition : (ledger.freeSlots ++ ledger.active.values.map QSAHiSparseLease.slot).Perm
    (List.range ledger.geometry.maxRequests)
  same_keys : forall index, index ∈ ledger.active.keys <-> index ∈ ledger.phases.keys
  own_entry : forall index lease, ledger.active.get? index = some lease ->
    lease.reqPoolIdx = index ∧ ledger.lastGeneration.get? index = some lease.generation
  lane_needed : forall index lease phase, ledger.active.get? index = some lease ->
    ledger.phases.get? index = some phase -> phase ∈ lanePhases ->
    ledger.prefillOwner = some lease
  lane_owner : forall lease, ledger.prefillOwner = some lease ->
    ledger.Permits lease ownerPhases

/-! ## The pure updates keep it -/

namespace LedgerInvariant

variable {ledger : QSAHiSparseSlots} {lease : QSAHiSparseLease}

theorem initial (geometry : Geometry) : LedgerInvariant (.initial geometry) where
  free_sorted := List.pairwise_lt_range
  partition := by
    change (List.range geometry.maxRequests ++ []).Perm _
    rw [List.append_nil]
    exact List.Perm.refl _
  same_keys _ := Iff.rfl
  own_entry index lease found := by cases found
  lane_needed index lease phase found := by cases found
  lane_owner lease owned := by cases owned

/-- A strictly increasing free list is a sorted one without repetitions, and
the partition forbids the repetitions. -/
theorem sorted_of_partition {free slots : List Nat} {bound : Nat}
    (sorted : free.Pairwise (· ≤ ·)) (partition : (free ++ slots).Perm (List.range bound)) :
    free.Pairwise (· < ·) := by
  have nodup : free.Nodup :=
    (List.nodup_append.mp (partition.nodup_iff.mpr List.nodup_range)).1
  have both := List.pairwise_and_iff.mpr ⟨sorted, nodup⟩
  exact both.imp (fun pair => Nat.lt_of_le_of_ne pair.1 pair.2)

/-- Change the phase of an active lease, and perhaps let it leave the lane. -/
theorem rephase (valid : LedgerInvariant ledger) (held : ledger.Holds lease) {phase : Phase}
    {owner : Option QSAHiSparseLease}
    (ownership : owner = ledger.prefillOwner ∨ (owner = none ∧ ledger.prefillOwner = some lease))
    (needs : phase ∈ lanePhases -> owner = some lease)
    (allows : owner = some lease -> phase ∈ ownerPhases) :
    LedgerInvariant { ledger.setPhase lease phase with prefillOwner := owner } where
  free_sorted := valid.free_sorted
  partition := valid.partition
  same_keys index := by
    have keys := valid.same_keys
    change index ∈ ledger.active.keys <-> index ∈ (ledger.phases.set lease.reqPoolIdx phase).keys
    rw [Dict.mem_keys_set, ← keys]
    constructor
    · exact Or.inr
    · intro either
      rcases either with rfl | member
      · exact Dict.mem_keys_iff.mpr ⟨lease, held⟩
      · exact member
  own_entry := valid.own_entry
  lane_needed index other otherPhase found phased inLane := by
    change owner = some other
    change (ledger.phases.set lease.reqPoolIdx phase).get? index = some otherPhase at phased
    change ledger.active.get? index = some other at found
    rw [Dict.get?_set] at phased
    by_cases same : index = lease.reqPoolIdx
    · rw [if_pos same] at phased
      cases phased
      rw [same, held] at found
      cases found
      exact needs inLane
    · rw [if_neg same] at phased
      have owned := valid.lane_needed index other otherPhase found phased inLane
      rcases ownership with kept | ⟨_, leaves⟩
      · rw [kept, owned]
      · rw [owned] at leaves
        cases leaves
        exact absurd (valid.own_entry index lease found).1.symm same
  lane_owner other owned := by
    change owner = some other at owned
    change ledger.active.get? other.reqPoolIdx = some other ∧ exists otherPhase,
      (ledger.phases.set lease.reqPoolIdx phase).get? other.reqPoolIdx = some otherPhase ∧
        otherPhase ∈ ownerPhases
    rcases ownership with kept | ⟨left, _⟩
    · rw [kept] at owned
      rcases valid.lane_owner other owned with ⟨active, otherPhase, phased, allowed⟩
      refine ⟨active, ?_⟩
      rw [Dict.get?_set]
      by_cases same : other.reqPoolIdx = lease.reqPoolIdx
      · rw [if_pos same]
        have equal : other = lease := by
          rw [QSAHiSparseSlots.Holds, same, held] at active
          exact (Option.some.inj active).symm
        exact ⟨phase, rfl, allows (by rw [kept, owned, equal])⟩
      · rw [if_neg same]
        exact ⟨otherPhase, phased, allowed⟩
    · rw [left] at owned
      cases owned

/-- Change only the phase. -/
theorem setPhase (valid : LedgerInvariant ledger) (held : ledger.Holds lease) {phase : Phase}
    (needs : phase ∈ lanePhases -> ledger.prefillOwner = some lease)
    (allows : ledger.prefillOwner = some lease -> phase ∈ ownerPhases) :
    LedgerInvariant (ledger.setPhase lease phase) :=
  valid.rephase held (Or.inl rfl) needs allows

theorem grant (valid : LedgerInvariant ledger) {slot : Nat} {rest : List Nat}
    (free : ledger.freeSlots = slot :: rest) (fresh : ledger.active.get? lease.reqPoolIdx = none)
    (unowned : ledger.prefillOwner = none) (leased : lease.slot = slot) :
    LedgerInvariant (ledger.grant lease rest) where
  free_sorted := by
    have sorted := valid.free_sorted
    rw [free] at sorted
    exact (List.pairwise_cons.mp sorted).2
  partition := by
    change (rest ++ (ledger.active.set lease.reqPoolIdx lease).values.map _).Perm _
    have partition := valid.partition
    rw [free, List.cons_append] at partition
    rw [Dict.values_set_of_absent lease fresh, List.map_append, List.map_singleton, leased,
      ← List.append_assoc]
    exact (List.perm_append_singleton slot _).trans partition
  same_keys index := by
    change index ∈ (ledger.active.set _ _).keys <-> index ∈ (ledger.phases.set _ _).keys
    rw [Dict.mem_keys_set, Dict.mem_keys_set, valid.same_keys]
  own_entry index other found := by
    change (ledger.active.set lease.reqPoolIdx lease).get? index = some other at found
    change other.reqPoolIdx = index ∧
      (ledger.lastGeneration.set lease.reqPoolIdx lease.generation).get? index = _
    rw [Dict.get?_set] at found
    rw [Dict.get?_set]
    by_cases same : index = lease.reqPoolIdx
    · rw [if_pos same] at found
      cases found
      exact ⟨same.symm, if_pos same⟩
    · rw [if_neg same] at found
      rw [if_neg same]
      exact valid.own_entry index other found
  lane_needed index other phase found phased inLane := by
    change some lease = some other
    change (ledger.active.set lease.reqPoolIdx lease).get? index = some other at found
    change (ledger.phases.set lease.reqPoolIdx .prefill).get? index = some phase at phased
    rw [Dict.get?_set] at found phased
    by_cases same : index = lease.reqPoolIdx
    · rw [if_pos same] at found
      exact found
    · rw [if_neg same] at found phased
      have owned := valid.lane_needed index other phase found phased inLane
      rw [unowned] at owned
      cases owned
  lane_owner other owned := by
    change some lease = some other at owned
    cases owned
    exact ⟨Dict.get?_set_self _ _ _, .prefill, Dict.get?_set_self _ _ _, by decide⟩

theorem giveBack (valid : LedgerInvariant ledger)
    (flushed : ledger.Permits lease [.logicalFlushed]) :
    LedgerInvariant (ledger.giveBack lease) := by
  rcases flushed with ⟨held, phase, phased, member⟩
  have atFlush : phase = .logicalFlushed := List.mem_singleton.mp member
  have partition : ((ledger.freeSlots ++ [lease.slot]).insertionSort (· ≤ ·) ++
      (ledger.active.erase lease.reqPoolIdx).values.map QSAHiSparseLease.slot).Perm
      (List.range ledger.geometry.maxRequests) := by
    have values := (Dict.values_perm_erase held).map QSAHiSparseLease.slot
    rw [List.map_cons] at values
    have sorted := (List.perm_insertionSort (· ≤ ·) (ledger.freeSlots ++ [lease.slot])).append_right
      ((ledger.active.erase lease.reqPoolIdx).values.map QSAHiSparseLease.slot)
    rw [List.append_assoc, List.singleton_append] at sorted
    calc
      List.Perm _ (ledger.freeSlots ++ lease.slot ::
          (ledger.active.erase lease.reqPoolIdx).values.map QSAHiSparseLease.slot) := sorted
      List.Perm _ (ledger.freeSlots ++ ledger.active.values.map QSAHiSparseLease.slot) :=
        values.symm.append_left _
      List.Perm _ (List.range ledger.geometry.maxRequests) := valid.partition
  exact
    { free_sorted := sorted_of_partition (List.pairwise_insertionSort (· ≤ ·) _) partition
      partition := partition
      same_keys := by
        intro index
        change index ∈ (ledger.active.erase _).keys <-> index ∈ (ledger.phases.erase _).keys
        rw [Dict.mem_keys_erase, Dict.mem_keys_erase, valid.same_keys]
      own_entry := by
        intro index other found
        change (ledger.active.erase lease.reqPoolIdx).get? index = some other at found
        rw [Dict.get?_erase] at found
        by_cases same : index = lease.reqPoolIdx
        · rw [if_pos same] at found
          cases found
        · rw [if_neg same] at found
          exact valid.own_entry index other found
      lane_needed := by
        intro index other otherPhase found otherPhased inLane
        change (ledger.active.erase lease.reqPoolIdx).get? index = some other at found
        change (ledger.phases.erase lease.reqPoolIdx).get? index = some otherPhase at otherPhased
        rw [Dict.get?_erase] at found otherPhased
        by_cases same : index = lease.reqPoolIdx
        · rw [if_pos same] at found
          cases found
        · rw [if_neg same] at found otherPhased
          exact valid.lane_needed index other otherPhase found otherPhased inLane
      lane_owner := by
        intro other owned
        rcases valid.lane_owner other owned with ⟨active, otherPhase, otherPhased, allowed⟩
        have different : other.reqPoolIdx ≠ lease.reqPoolIdx := by
          intro same
          rw [same, phased, atFlush] at otherPhased
          cases otherPhased
          exact absurd allowed (by decide)
        refine ⟨?_, otherPhase, ?_, allowed⟩
        · change (ledger.active.erase lease.reqPoolIdx).get? other.reqPoolIdx = some other
          rw [Dict.get?_erase_of_ne _ different]
          exact active
        · change (ledger.phases.erase lease.reqPoolIdx).get? other.reqPoolIdx = some otherPhase
          rw [Dict.get?_erase_of_ne _ different]
          exact otherPhased }

end LedgerInvariant

/-! ## Runs of the ledger -/

/-- A device event with a fixed answer, for a ledger that stands alone. -/
def answering {α : Type} (answer : Except PyError α) : Method QSAHiSparseSlots α :=
  match answer with
  | .ok value => pure value
  | .error cause => throw cause

theorem answering_quiet {α : Type} (answer : Except PyError α) :
    Quiet Field.whole (answering answer) := by
  intro state
  cases answer <;> rfl

theorem finishHandoff_answering_outcome (ledger : QSAHiSparseSlots) (lease : QSAHiSparseLease)
    (completionEvent : Option (Except PyError Bool)) :
    Leaves
      (fun _ after =>
        (ledger.Permits lease [.copying] ∧ ledger.prefillOwner = some lease) ∧
        after = (ledger.setPhase lease .hostReady).clearLane)
      (fun _ after => after = ledger)
      ((finishHandoff Field.whole lease (completionEvent.map answering)).run ledger) := by
  apply finishHandoff_outcome lease Field.whole
  intro query asked
  rcases Option.map_eq_some_iff.mp asked with ⟨answer, _, rfl⟩
  exact answering_quiet answer

/-- What the checks of `drain` ask of a call with fixed answers. -/
def Waits (ledger : QSAHiSparseSlots) (lease : QSAHiSparseLease)
    (terminalEvent : Option (Except PyError Unit))
    (copyEvents : List (Option (Except PyError Unit))) : Prop :=
  ledger.Permits lease [.prefill, .copying, .hostReady, .decode, .failed] ∧
    terminalEvent ≠ none ∧ none ∉ copyEvents

theorem drainStarts_iff {ledger : QSAHiSparseSlots} {lease : QSAHiSparseLease}
    {terminalEvent : Option (Except PyError Unit)}
    {copyEvents : List (Option (Except PyError Unit))} :
    DrainStarts lease ledger (terminalEvent.map answering)
        (copyEvents.map (Option.map answering)) <->
      Waits ledger lease terminalEvent copyEvents := by
  unfold DrainStarts Waits
  have terminal : terminalEvent.map answering ≠ none <-> terminalEvent ≠ none := by
    rw [ne_eq, Option.map_eq_none_iff]
  have copies : none ∉ copyEvents.map (Option.map (answering (α := Unit))) <->
      none ∉ copyEvents := by
    simp [List.mem_map]
  rw [terminal, copies]

theorem drain_answering_outcome (ledger : QSAHiSparseSlots) (lease : QSAHiSparseLease)
    (terminalEvent : Option (Except PyError Unit))
    (copyEvents : List (Option (Except PyError Unit))) :
    Leaves
      (fun _ after =>
        Waits ledger lease terminalEvent copyEvents ∧
        after = ((ledger.setPhase lease .releasing).leaveLane lease).setPhase lease .drained)
      (fun cause after =>
        (¬ Waits ledger lease terminalEvent copyEvents ∧ after = ledger) ∨
        (Waits ledger lease terminalEvent copyEvents ∧
          ((cause.isException = true ∧
              after = (ledger.setPhase lease .releasing).setPhase lease .failed) ∨
            (cause.isException = false ∧ after = ledger.setPhase lease .releasing))))
      ((drain Field.whole lease (terminalEvent.map answering)
        (copyEvents.map (Option.map answering))).run ledger) := by
  rw [← drainStarts_iff]
  apply drain_outcome lease Field.whole
  · intro event asked
    rcases Option.map_eq_some_iff.mp asked with ⟨answer, _, rfl⟩
    exact answering_quiet answer
  · intro event member
    rcases List.mem_map.mp member with ⟨answer, _, equal⟩
    rcases Option.map_eq_some_iff.mp equal with ⟨value, _, rfl⟩
    exact answering_quiet value

/-- The methods of the ledger, their arguments unrestricted.  The events of a
call are what they answer when they are asked. -/
inductive Operation where
  | acquire (reqPoolIdx generation : Int) (rid : String)
  | require (lease : QSAHiSparseLease) (phases : List Phase)
  | stagingSlice (lease : QSAHiSparseLease) (start stop : Int)
  | ringSlice (lease : QSAHiSparseLease)
  | ringWriteLocation (lease : QSAHiSparseLease) (seqLen : Int)
  | beginHandoff (lease : QSAHiSparseLease)
  | finishHandoff (lease : QSAHiSparseLease) (completionEvent : Option (Except PyError Bool))
  | admitDecode (lease : QSAHiSparseLease)
  | drain (lease : QSAHiSparseLease) (terminalEvent : Option (Except PyError Unit))
      (copyEvents : List (Option (Except PyError Unit)))
  | logicalFlushed (lease : QSAHiSparseLease) (freeGroupOpen : Bool)
  | commitRelease (lease : QSAHiSparseLease)
  | markFailed (lease : QSAHiSparseLease)

/-- Perform one method; only `acquire` returns a lease. -/
def perform : Operation -> Method QSAHiSparseSlots (Option QSAHiSparseLease)
  | .acquire reqPoolIdx generation rid => some <$> acquire reqPoolIdx generation rid
  | .require lease phases => (fun _ => none) <$> require lease phases
  | .stagingSlice lease start stop => (fun _ => none) <$> stagingSlice lease start stop
  | .ringSlice lease => (fun _ => none) <$> ringSlice lease
  | .ringWriteLocation lease seqLen => (fun _ => none) <$> ringWriteLocation lease seqLen
  | .beginHandoff lease => (fun _ => none) <$> beginHandoff lease
  | .finishHandoff lease completionEvent =>
      (fun _ => none) <$> finishHandoff Field.whole lease (completionEvent.map answering)
  | .admitDecode lease => (fun _ => none) <$> admitDecode lease
  | .drain lease terminalEvent copyEvents =>
      (fun _ => none) <$> drain Field.whole lease (terminalEvent.map answering)
        (copyEvents.map (Option.map answering))
  | .logicalFlushed lease freeGroupOpen => (fun _ => none) <$> logicalFlushed lease freeGroupOpen
  | .commitRelease lease => (fun _ => none) <$> commitRelease lease
  | .markFailed lease => (fun _ => none) <$> markFailed lease

/-- Every change a method can make to the ledger, with the checks it passed. -/
inductive Move (ledger : QSAHiSparseSlots) : QSAHiSparseSlots -> Prop where
  | none : Move ledger ledger
  | grant (lease : QSAHiSparseLease) (rest : List Nat) :
      0 < lease.generation -> ledger.active.get? lease.reqPoolIdx = .none ->
      (ledger.lastGeneration.get? lease.reqPoolIdx).getD 0 < lease.generation ->
      ledger.prefillOwner = .none -> ledger.freeSlots = lease.slot :: rest ->
      Move ledger (ledger.grant lease rest)
  | copying (lease : QSAHiSparseLease) :
      ledger.Permits lease [.prefill] -> ledger.prefillOwner = some lease ->
      Move ledger (ledger.setPhase lease .copying)
  | hostReady (lease : QSAHiSparseLease) :
      ledger.Permits lease [.copying] -> ledger.prefillOwner = some lease ->
      Move ledger ((ledger.setPhase lease .hostReady).clearLane)
  | decode (lease : QSAHiSparseLease) :
      ledger.Permits lease [.hostReady] -> Move ledger (ledger.setPhase lease .decode)
  | drained (lease : QSAHiSparseLease) :
      ledger.Permits lease [.prefill, .copying, .hostReady, .decode, .failed] ->
      Move ledger (((ledger.setPhase lease .releasing).leaveLane lease).setPhase lease .drained)
  | drainFailed (lease : QSAHiSparseLease) :
      ledger.Permits lease [.prefill, .copying, .hostReady, .decode, .failed] ->
      Move ledger ((ledger.setPhase lease .releasing).setPhase lease .failed)
  | drainInterrupted (lease : QSAHiSparseLease) :
      ledger.Permits lease [.prefill, .copying, .hostReady, .decode, .failed] ->
      Move ledger (ledger.setPhase lease .releasing)
  | flushed (lease : QSAHiSparseLease) :
      ledger.Permits lease [.drained] -> Move ledger (ledger.setPhase lease .logicalFlushed)
  | giveBack (lease : QSAHiSparseLease) :
      ledger.Permits lease [.logicalFlushed] -> Move ledger (ledger.giveBack lease)
  | failed (lease : QSAHiSparseLease) :
      ledger.Holds lease -> Move ledger (ledger.setPhase lease .failed)

/-- A call that raises, or an interrupted wait, makes no other change. -/
theorem perform_moves (ledger : QSAHiSparseSlots) (operation : Operation) :
    Move ledger (finalState ((perform operation).run ledger)) := by
  cases operation with
  | acquire reqPoolIdx generation rid =>
      rw [perform, finalState_map]
      apply (acquire_outcome ledger reqPoolIdx generation rid).finalState .none
      rintro lease after ⟨wellFormed, absent, newer, unowned, _⟩ ⟨slot, rest, free, rfl, rfl⟩
      apply Move.grant _ rest
      · change 0 < generation
        omega
      · rw [Dict.contains, decide_eq_true_eq] at absent
        exact Dict.get?_eq_none_iff.mpr absent
      · exact Int.lt_of_not_ge newer
      · exact Classical.not_not.mp unowned
      · exact free
  | require lease phases =>
      rw [perform, finalState_map]
      apply (require_checks ledger lease phases).finalState .none
      rintro _ after _ rfl
      exact .none
  | stagingSlice lease start stop =>
      rw [perform, finalState_map]
      apply (stagingSlice_outcome ledger lease start stop).finalState .none
      rintro rows after _ ⟨_, rfl⟩
      exact .none
  | ringSlice lease =>
      rw [perform, finalState_map]
      apply (ringSlice_outcome ledger lease).finalState .none
      rintro rows after _ ⟨_, rfl⟩
      exact .none
  | ringWriteLocation lease seqLen =>
      rw [perform, finalState_map]
      apply (ringWriteLocation_outcome ledger lease seqLen).finalState .none
      rintro row after _ ⟨_, rfl⟩
      exact .none
  | beginHandoff lease =>
      rw [perform, finalState_map]
      apply (beginHandoff_outcome ledger lease).finalState .none
      rintro _ after ⟨permits, owned, _⟩ rfl
      exact .copying lease permits (Classical.not_not.mp owned)
  | finishHandoff lease completionEvent =>
      rw [perform, finalState_map]
      have result := finishHandoff_answering_outcome ledger lease completionEvent
      cases ran : (finishHandoff Field.whole lease (completionEvent.map answering)).run ledger with
      | ok value after =>
          rw [ran] at result
          rcases result with ⟨⟨permits, owned⟩, rfl⟩
          exact .hostReady lease permits owned
      | error cause after =>
          rw [ran] at result
          rcases result with rfl
          exact .none
  | admitDecode lease =>
      rw [perform, finalState_map]
      apply (admitDecode_outcome ledger lease).finalState .none
      rintro _ after ⟨permits, _⟩ rfl
      exact .decode lease permits
  | drain lease terminalEvent copyEvents =>
      rw [perform, finalState_map]
      have result := drain_answering_outcome ledger lease terminalEvent copyEvents
      cases ran : (drain Field.whole lease (terminalEvent.map answering)
          (copyEvents.map (Option.map answering))).run ledger with
      | ok value after =>
          rw [ran] at result
          rcases result with ⟨waits, rfl⟩
          exact .drained lease waits.1
      | error cause after =>
          rw [ran] at result
          rcases result with ⟨_, rfl⟩ | ⟨waits, ⟨_, rfl⟩ | ⟨_, rfl⟩⟩
          · exact .none
          · exact .drainFailed lease waits.1
          · exact .drainInterrupted lease waits.1
  | logicalFlushed lease freeGroupOpen =>
      rw [perform, finalState_map]
      apply (logicalFlushed_outcome ledger lease freeGroupOpen).finalState .none
      rintro _ after ⟨permits, _⟩ rfl
      exact .flushed lease permits
  | commitRelease lease =>
      rw [perform, finalState_map]
      apply (commitRelease_outcome ledger lease).finalState .none
      rintro _ after ⟨permits, _⟩ rfl
      exact .giveBack lease permits
  | markFailed lease =>
      rw [perform, finalState_map]
      change Move ledger (if ledger.active.get? lease.reqPoolIdx = some lease then _ else _)
      by_cases held : ledger.active.get? lease.reqPoolIdx = some lease
      · rw [if_pos held]
        exact .failed lease held
      · rw [if_neg held]
        exact .none

namespace LedgerInvariant

variable {ledger after : QSAHiSparseSlots} {lease : QSAHiSparseLease}

/-- A phase that is not one of the owner's shows that the lease left the lane. -/
theorem not_owner (valid : LedgerInvariant ledger) {phase : Phase}
    (permits : ledger.Permits lease [phase]) (outside : phase ∉ ownerPhases) :
    ledger.prefillOwner ≠ some lease := by
  intro owned
  rcases permits with ⟨_, current, phased, member⟩
  rcases valid.lane_owner lease owned with ⟨_, other, otherPhased, allowed⟩
  rw [phased] at otherPhased
  cases otherPhased
  rw [List.mem_singleton] at member
  exact outside (member ▸ allowed)

theorem move (valid : LedgerInvariant ledger) (move : Move ledger after) :
    LedgerInvariant after := by
  cases move with
  | none => exact valid
  | grant lease rest _ fresh _ unowned free => exact valid.grant free fresh unowned rfl
  | copying lease permits owned =>
      exact valid.setPhase permits.1 (fun _ => owned) (fun _ => by decide)
  | hostReady lease permits owned =>
      exact valid.rephase permits.1 (Or.inr ⟨rfl, owned⟩)
        (fun inLane => absurd inLane (by decide)) (fun owner => by cases owner)
  | decode lease permits =>
      exact valid.setPhase permits.1 (fun inLane => absurd inLane (by decide))
        (fun owned => absurd owned (valid.not_owner permits (by decide)))
  | drained lease permits =>
      have releasing : LedgerInvariant (ledger.setPhase lease .releasing) :=
        valid.setPhase permits.1 (fun inLane => absurd inLane (by decide)) (fun _ => by decide)
      unfold QSAHiSparseSlots.leaveLane
      by_cases owned : (ledger.setPhase lease .releasing).prefillOwner = some lease
      · rw [if_pos owned]
        exact releasing.rephase permits.1 (Or.inr ⟨rfl, owned⟩)
          (fun inLane => absurd inLane (by decide)) (fun owner => by cases owner)
      · rw [if_neg owned]
        exact releasing.setPhase permits.1 (fun inLane => absurd inLane (by decide))
          (fun owner => absurd owner owned)
  | drainFailed lease permits =>
      have releasing : LedgerInvariant (ledger.setPhase lease .releasing) :=
        valid.setPhase permits.1 (fun inLane => absurd inLane (by decide)) (fun _ => by decide)
      exact releasing.setPhase permits.1 (fun inLane => absurd inLane (by decide))
        (fun _ => by decide)
  | drainInterrupted lease permits =>
      exact valid.setPhase permits.1 (fun inLane => absurd inLane (by decide))
        (fun _ => by decide)
  | flushed lease permits =>
      exact valid.setPhase permits.1 (fun inLane => absurd inLane (by decide))
        (fun owned => absurd owned (valid.not_owner permits (by decide)))
  | giveBack lease permits => exact valid.giveBack permits
  | failed lease held =>
      exact valid.setPhase held (fun inLane => absurd inLane (by decide)) (fun _ => by decide)

/-- The slot of a held lease is not free. -/
theorem slot_taken (valid : LedgerInvariant ledger) (held : ledger.Holds lease) :
    lease.slot ∉ ledger.freeSlots := by
  have active : lease.slot ∈ ledger.active.values.map QSAHiSparseLease.slot :=
    List.mem_map_of_mem (Dict.mem_values_iff.mpr ⟨_, held⟩)
  have nodup := valid.partition.nodup_iff.mpr List.nodup_range
  exact fun free => (List.nodup_append.mp nodup).2.2 _ free _ active rfl

end LedgerInvariant

/-- The ledger after the calls. -/
abbrev performAll (ledger : QSAHiSparseSlots) (operations : List Operation) : QSAHiSparseSlots :=
  callAll perform ledger operations

/-- What every move preserves holds after any calls. -/
theorem performAll_induction (property : QSAHiSparseSlots -> Prop)
    (preserved : forall before after, property before -> Move before after -> property after)
    (operations : List Operation) (ledger : QSAHiSparseSlots) (holds : property ledger) :
    property (performAll ledger operations) :=
  callAll_induction property
    (fun state operation known => preserved _ _ known (perform_moves state operation))
    operations ledger holds

theorem Move.geometry {ledger after : QSAHiSparseSlots} (move : Move ledger after) :
    after.geometry = ledger.geometry := by
  cases move with
  | drained lease _ =>
      change ((ledger.setPhase lease .releasing).leaveLane lease).geometry = ledger.geometry
      unfold QSAHiSparseSlots.leaveLane
      split <;> rfl
  | _ => rfl

/-- Whatever was called, in whatever order and with whatever arguments, the
ledger satisfies its invariant over the slots it was built with. -/
theorem performAll_ledgerInvariant (geometry : Geometry) (operations : List Operation) :
    LedgerInvariant (performAll (.initial geometry) operations) ∧
      (performAll (.initial geometry) operations).geometry = geometry := by
  apply performAll_induction (fun ledger =>
    LedgerInvariant ledger ∧ ledger.geometry = geometry)
  · rintro before after ⟨valid, built⟩ move
    exact ⟨valid.move move, move.geometry.trans built⟩
  · exact ⟨.initial geometry, rfl⟩

end Ledger
end QSAHiSparse

import QSAHiSparse.Ledger.Invariant

namespace QSAHiSparse
namespace Ledger

open Foundation

/-!
# Stale leases

A row index and a slot are both reused, so neither identifies a lease.  The
generation does: it grows strictly with every lease of a row, and the last one
is remembered after the release.  A lease whose generation has been recorded can
therefore be active only as the lease it already was, and once it has left the
active map it never comes back.

Every method but `acquire` compares the whole lease before it writes.  A stale
lease is refused by all of them, at every later point of a run.
-/

/-- The lease a method is called with; the runtime's own marking of a lease is
not such a method. -/
def Operation.lease? : Operation -> Option QSAHiSparseLease
  | .acquire _ _ _ => none
  | .require lease _ => some lease
  | .stagingSlice lease _ _ => some lease
  | .ringSlice lease => some lease
  | .ringWriteLocation lease _ => some lease
  | .beginHandoff lease => some lease
  | .finishHandoff lease _ => some lease
  | .admitDecode lease => some lease
  | .drain lease _ _ => some lease
  | .logicalFlushed lease _ => some lease
  | .commitRelease lease => some lease
  | .markFailed _ => none

def Operation.isDrain : Operation -> Bool
  | .drain _ _ _ => true
  | _ => false

/-- The call raises and writes nothing. -/
def Refuses (ledger : QSAHiSparseSlots) (operation : Operation) : Prop :=
  exists cause, (perform operation).run ledger = .error cause ledger

/-- The leases returned by the calls, in order. -/
abbrev returned (ledger : QSAHiSparseSlots) (operations : List Operation) :
    List QSAHiSparseLease :=
  picked returnedValue perform ledger operations

/-- The last generation recorded for the lease's row has reached the lease's. -/
def Recorded (ledger : QSAHiSparseSlots) (lease : QSAHiSparseLease) : Prop :=
  lease.generation ≤ (ledger.lastGeneration.get? lease.reqPoolIdx).getD 0

/-! ## Generations only grow -/

section Generations

variable {ledger after : QSAHiSparseSlots} {lease : QSAHiSparseLease}

theorem Move.lastGeneration (move : Move ledger after) :
    after.lastGeneration = ledger.lastGeneration ∨
      exists granted : QSAHiSparseLease,
        (ledger.lastGeneration.get? granted.reqPoolIdx).getD 0 < granted.generation ∧
        after.lastGeneration =
          ledger.lastGeneration.set granted.reqPoolIdx granted.generation := by
  cases move with
  | grant granted rest _ _ newer _ _ => exact Or.inr ⟨granted, newer, rfl⟩
  | drained lease _ =>
      left
      change ((ledger.setPhase lease .releasing).leaveLane lease).lastGeneration = _
      unfold QSAHiSparseSlots.leaveLane
      split <;> rfl
  | _ => exact Or.inl rfl

/-- The last generation of a row never decreases. -/
theorem Move.lastGeneration_mono (move : Move ledger after) (index : Int) :
    (ledger.lastGeneration.get? index).getD 0 ≤ (after.lastGeneration.get? index).getD 0 := by
  rcases move.lastGeneration with same | ⟨granted, newer, recorded⟩
  · rw [same]
  · rw [recorded, Dict.get?_set]
    by_cases atRow : index = granted.reqPoolIdx
    · rw [if_pos atRow, atRow]
      exact Int.le_of_lt newer
    · rw [if_neg atRow]

theorem Move.active (move : Move ledger after) (now : after.Holds lease) :
    ledger.Holds lease ∨
      (ledger.lastGeneration.get? lease.reqPoolIdx).getD 0 < lease.generation := by
  unfold QSAHiSparseSlots.Holds at now
  cases move with
  | grant granted rest _ _ newer _ _ =>
      change (ledger.active.set granted.reqPoolIdx granted).get? lease.reqPoolIdx = _ at now
      rw [Dict.get?_set] at now
      by_cases atRow : lease.reqPoolIdx = granted.reqPoolIdx
      · rw [if_pos atRow] at now
        cases now
        exact Or.inr newer
      · rw [if_neg atRow] at now
        exact Or.inl now
  | drained other _ =>
      have same : (((ledger.setPhase other .releasing).leaveLane other).setPhase other
          .drained).active = ledger.active := by
        change ((ledger.setPhase other .releasing).leaveLane other).active = _
        unfold QSAHiSparseSlots.leaveLane
        split <;> rfl
      rw [same] at now
      exact Or.inl now
  | giveBack other _ =>
      change (ledger.active.erase other.reqPoolIdx).get? lease.reqPoolIdx = _ at now
      rw [Dict.get?_erase] at now
      by_cases atRow : lease.reqPoolIdx = other.reqPoolIdx
      · rw [if_pos atRow] at now
        cases now
      · rw [if_neg atRow] at now
        exact Or.inl now
  | _ => exact Or.inl now

/-- A recorded lease that is not active stays so. -/
theorem stale_persists (later : List Operation) (recorded : Recorded ledger lease)
    (inactive : ¬ ledger.Holds lease) :
    Recorded (performAll ledger later) lease ∧ ¬ (performAll ledger later).Holds lease := by
  apply performAll_induction (fun ledger =>
    Recorded ledger lease ∧ ¬ ledger.Holds lease)
  · rintro before after ⟨recordedBefore, inactiveBefore⟩ move
    constructor
    · exact Int.le_trans recordedBefore (move.lastGeneration_mono lease.reqPoolIdx)
    · intro now
      rcases move.active now with held | newer
      · exact inactiveBefore held
      · exact absurd recordedBefore (Int.not_le.mpr newer)
  · exact ⟨recorded, inactive⟩

end Generations

/-! ## No lease is returned twice -/

/-- Only `acquire` returns a lease, and its generation is new to the row. -/
theorem perform_returns {ledger : QSAHiSparseSlots} {operation : Operation}
    {lease : QSAHiSparseLease}
    (returns : outcome ((perform operation).run ledger) = .ok (some lease)) :
    (ledger.lastGeneration.get? lease.reqPoolIdx).getD 0 < lease.generation ∧
      (finalState ((perform operation).run ledger)).lastGeneration.get? lease.reqPoolIdx =
        some lease.generation := by
  cases operation with
  | acquire reqPoolIdx generation rid =>
      rcases outcome_map_ok returns with ⟨granted, after, ran, equal⟩
      cases equal
      rcases (acquire_outcome ledger reqPoolIdx generation rid).ok ran with
        ⟨⟨_, _, newer, _⟩, slot, rest, _, rfl, rfl⟩
      refine ⟨Int.lt_of_not_ge newer, ?_⟩
      rw [perform, finalState_map, ran]
      exact Dict.get?_set_self _ _ _
  | _ =>
      rcases outcome_map_ok returns with ⟨_, _, _, impossible⟩
      cases impossible

theorem leases_fresh : HandsOutFresh returnedValue Recorded perform where
  new ledger operation lease returns := by
    rw [returnedValue_iff] at returns
    exact Int.not_le.mpr (perform_returns returns).1
  records ledger operation lease returns := by
    rw [returnedValue_iff] at returns
    unfold Recorded
    rw [(perform_returns returns).2]
    exact Int.le_refl _
  remembers ledger operation lease recorded :=
    Int.le_trans recorded ((perform_moves ledger operation).lastGeneration_mono lease.reqPoolIdx)

/-! ## What a raising call leaves behind -/

theorem refuses_of_raises {α : Type} {ledger : QSAHiSparseSlots} {operation : Operation}
    {f : α -> Option QSAHiSparseLease} {program : Method QSAHiSparseSlots α}
    (performs : perform operation = f <$> program)
    (raises : exists cause, program.run ledger = .error cause ledger) :
    Refuses ledger operation := by
  rcases raises with ⟨cause, ran⟩
  exact ⟨cause, by rw [performs, run_map, ran]⟩

/-- A method called with a lease that is not active raises at its first check. -/
theorem inactive_refused {ledger : QSAHiSparseSlots} {lease : QSAHiSparseLease}
    {operation : Operation} (takes : operation.lease? = some lease)
    (inactive : ¬ ledger.Holds lease) : Refuses ledger operation := by
  have refused : forall phases, ¬ ledger.Permits lease phases :=
    fun _ permits => inactive permits.1
  cases operation with
  | acquire reqPoolIdx generation rid => cases takes
  | require other phases =>
      cases takes
      exact refuses_of_raises rfl
        ((require_checks ledger lease phases).raises (fun guard => inactive guard.1))
  | stagingSlice other start stop =>
      cases takes
      exact refuses_of_raises rfl
        ((stagingSlice_outcome ledger lease start stop).raises (fun guard => refused _ guard.1))
  | ringSlice other =>
      cases takes
      exact refuses_of_raises rfl
        ((ringSlice_outcome ledger lease).raises (fun guard => refused _ guard.1))
  | ringWriteLocation other seqLen =>
      cases takes
      exact refuses_of_raises rfl
        ((ringWriteLocation_outcome ledger lease seqLen).raises (fun guard => refused _ guard.1))
  | beginHandoff other =>
      cases takes
      exact refuses_of_raises rfl
        ((beginHandoff_outcome ledger lease).raises (fun guard => refused _ guard.1))
  | finishHandoff other completionEvent =>
      cases takes
      exact refuses_of_raises rfl (finishHandoff_refused lease Field.whole _ ledger (refused _))
  | admitDecode other =>
      cases takes
      exact refuses_of_raises rfl
        ((admitDecode_outcome ledger lease).raises (fun guard => refused _ guard.1))
  | drain other terminalEvent copyEvents =>
      cases takes
      exact refuses_of_raises rfl (drain_refused lease Field.whole _ _ ledger (fun guard => refused _ guard.1))
  | logicalFlushed other freeGroupOpen =>
      cases takes
      exact refuses_of_raises rfl
        ((logicalFlushed_outcome ledger lease freeGroupOpen).raises
          (fun guard => refused _ guard.1))
  | commitRelease other =>
      cases takes
      exact refuses_of_raises rfl
        ((commitRelease_outcome ledger lease).raises (fun guard => refused _ guard.1))
  | markFailed other => cases takes

/-- Every method but `drain` checks before it writes. -/
theorem raise_unchanged {ledger after : QSAHiSparseSlots} {operation : Operation}
    {cause : PyError} (notDrain : operation.isDrain = false)
    (raised : (perform operation).run ledger = .error cause after) : after = ledger := by
  cases operation with
  | acquire reqPoolIdx generation rid =>
      exact ((acquire_outcome ledger reqPoolIdx generation rid).error (run_map_error raised)).2
  | require lease phases =>
      exact ((require_checks ledger lease phases).error (run_map_error raised)).2
  | stagingSlice lease start stop =>
      exact ((stagingSlice_outcome ledger lease start stop).error (run_map_error raised)).2
  | ringSlice lease =>
      exact ((ringSlice_outcome ledger lease).error (run_map_error raised)).2
  | ringWriteLocation lease seqLen =>
      exact ((ringWriteLocation_outcome ledger lease seqLen).error (run_map_error raised)).2
  | beginHandoff lease =>
      exact ((beginHandoff_outcome ledger lease).error (run_map_error raised)).2
  | finishHandoff lease completionEvent =>
      have result := finishHandoff_answering_outcome ledger lease completionEvent
      rw [run_map_error raised] at result
      exact result
  | admitDecode lease =>
      exact ((admitDecode_outcome ledger lease).error (run_map_error raised)).2
  | drain lease terminalEvent copyEvents => cases notDrain
  | logicalFlushed lease freeGroupOpen =>
      exact ((logicalFlushed_outcome ledger lease freeGroupOpen).error (run_map_error raised)).2
  | commitRelease lease =>
      exact ((commitRelease_outcome ledger lease).error (run_map_error raised)).2
  | markFailed lease => cases run_map_error raised

/-! ## Drains that raise -/

/-- A drain that raises before its waits changes nothing. -/
theorem drain_before_waits {ledger : QSAHiSparseSlots} {lease : QSAHiSparseLease}
    {terminalEvent : Option (Except PyError Unit)}
    {copyEvents : List (Option (Except PyError Unit))}
    (stops : ¬ Waits ledger lease terminalEvent copyEvents) :
    Refuses ledger (.drain lease terminalEvent copyEvents) :=
  refuses_of_raises rfl
    (drain_refused lease Field.whole _ _ ledger (fun starts => stops (drainStarts_iff.mp starts)))

theorem synchronizeAll_answering (copyEvents : List (Option (Except PyError Unit)))
    (answered : forall cause, some (.error cause) ∉ copyEvents) (ledger : QSAHiSparseSlots) :
    (synchronizeAll (answering (.ok ⟨⟩)) (copyEvents.map (Option.map answering))).run ledger =
      .ok ⟨⟩ ledger := by
  unfold synchronizeAll
  change EStateM.run (forM (copyEvents.map (Option.map answering)) _) ledger = _
  induction copyEvents with
  | nil => rfl
  | cons event rest inductionHypothesis =>
      have later := inductionHypothesis
        (fun cause member => answered cause (List.mem_cons_of_mem _ member))
      rw [List.map_cons, List.forM_cons]
      cases event with
      | none => exact later
      | some answer =>
          cases answer with
          | ok value => exact later
          | error cause => exact absurd List.mem_cons_self (answered cause)

/-- A drain that may wait and whose events all answer drains the lease. -/
theorem drain_retried {ledger : QSAHiSparseSlots} {lease : QSAHiSparseLease}
    {copyEvents : List (Option (Except PyError Unit))}
    (waits : Waits ledger lease (some (.ok ⟨⟩)) copyEvents)
    (answered : forall cause, some (.error cause) ∉ copyEvents) :
    exists after, (perform (.drain lease (some (.ok ⟨⟩)) copyEvents)).run ledger =
        .ok none after ∧
      after.Permits lease [.drained] := by
  have starts : DrainStarts lease ledger (Option.map answering (some (.ok ⟨⟩)))
      (copyEvents.map (Option.map answering)) := drainStarts_iff.mpr waits
  have ran := drain_returns lease Field.whole starts
    (synchronizeAll_answering copyEvents answered (ledger.setPhase lease .releasing))
  refine ⟨(((ledger.setPhase lease .releasing).leaveLane lease).setPhase lease .drained), ?_, ?_⟩
  · change EStateM.map _ (drain Field.whole lease _ _) ledger = _
    change drain Field.whole lease _ _ ledger = _ at ran
    unfold EStateM.map
    rw [Option.map_some, ran]
    rfl
  · refine ⟨?_, .drained, Dict.get?_set_self _ _ _, List.mem_singleton_self _⟩
    change ((ledger.setPhase lease .releasing).leaveLane lease).active.get? _ = _
    unfold QSAHiSparseSlots.leaveLane
    split <;> exact waits.1.1

/-- A wait that raises an `Exception` keeps the lease, its slot and its place in
the lane, and leaves the drain to be tried again. -/
theorem drain_failed {ledger after : QSAHiSparseSlots} {lease : QSAHiSparseLease}
    {terminalEvent : Option (Except PyError Unit)}
    {copyEvents : List (Option (Except PyError Unit))} {cause : PyError}
    (waits : Waits ledger lease terminalEvent copyEvents)
    (raised : (perform (.drain lease terminalEvent copyEvents)).run ledger = .error cause after)
    (caught : cause.isException = true) :
    after.Permits lease [.failed] ∧ after.active = ledger.active ∧
      after.freeSlots = ledger.freeSlots ∧ after.prefillOwner = ledger.prefillOwner := by
  have result := drain_answering_outcome ledger lease terminalEvent copyEvents
  rw [run_map_error raised] at result
  rcases result with ⟨stops, _⟩ | ⟨_, ⟨_, rfl⟩ | ⟨passed, _⟩⟩
  · exact absurd waits stops
  · refine ⟨⟨waits.1.1, .failed, Dict.get?_set_self _ _ _, List.mem_singleton_self _⟩, rfl, rfl, rfl⟩
  · rw [caught] at passed
    cases passed

/-! ## Every run -/

/-- Along every run from a new ledger: no lease is returned twice; a lease that
is not active is refused by every method, and one that was returned earlier is
refused ever after; a raising call other than `drain` writes nothing; a drain
that raises before its waits writes nothing, and one whose wait raises an
`Exception` keeps the failed lease with its slot and lane, ready for a retry. -/
theorem stale_leases_never_act (geometry : Geometry) (operations : List Operation) :
    (returned (.initial geometry) operations).Nodup ∧
    (forall lease operation, operation.lease? = some lease ->
      ¬ (performAll (.initial geometry) operations).Holds lease ->
      Refuses (performAll (.initial geometry) operations) operation) ∧
    (forall lease, lease ∈ returned (.initial geometry) operations ->
      ¬ (performAll (.initial geometry) operations).Holds lease ->
      forall later operation, operation.lease? = some lease ->
        Refuses (performAll (.initial geometry) (operations ++ later)) operation) ∧
    (forall operation cause after, operation.isDrain = false ->
      (perform operation).run (performAll (.initial geometry) operations) = .error cause after ->
      after = performAll (.initial geometry) operations) ∧
    (forall lease terminalEvent copyEvents,
      ¬ Waits (performAll (.initial geometry) operations) lease terminalEvent copyEvents ->
      Refuses (performAll (.initial geometry) operations)
        (.drain lease terminalEvent copyEvents)) ∧
    (forall lease terminalEvent copyEvents cause after,
      Waits (performAll (.initial geometry) operations) lease terminalEvent copyEvents ->
      (perform (.drain lease terminalEvent copyEvents)).run
        (performAll (.initial geometry) operations) = .error cause after ->
      cause.isException = true ->
      after.Permits lease [.failed] ∧
        after.active = (performAll (.initial geometry) operations).active ∧
        after.freeSlots = (performAll (.initial geometry) operations).freeSlots ∧
        after.prefillOwner = (performAll (.initial geometry) operations).prefillOwner ∧
        forall retryEvents, none ∉ retryEvents ->
          (forall failure, some (.error failure) ∉ retryEvents) ->
          exists last, (perform (.drain lease (some (.ok ⟨⟩)) retryEvents)).run after =
              .ok none last ∧
            last.Permits lease [.drained]) := by
  refine ⟨leases_fresh.picked_nodup operations _, ?_, ?_, ?_, ?_, ?_⟩
  · intro lease operation takes inactive
    exact inactive_refused takes inactive
  · intro lease member inactive later operation takes
    have recorded := leases_fresh.picked_seen operations _ lease member
    rw [performAll, callAll_append]
    exact inactive_refused takes (stale_persists later recorded inactive).2
  · intro operation cause after notDrain raised
    exact raise_unchanged notDrain raised
  · intro lease terminalEvent copyEvents stops
    exact drain_before_waits stops
  · intro lease terminalEvent copyEvents cause after waits raised caught
    rcases drain_failed waits raised caught with ⟨permits, active, free, owner⟩
    refine ⟨permits, active, free, owner, ?_⟩
    intro retryEvents present answered
    rcases permits with ⟨held, phase, phased, member⟩
    have waitsAgain : Waits after lease (some (.ok ⟨⟩)) retryEvents := by
      refine ⟨⟨held, phase, phased, ?_⟩, by simp, present⟩
      rw [List.mem_singleton.mp member]
      decide
    exact drain_retried waitsAgain answered

end Ledger
end QSAHiSparse

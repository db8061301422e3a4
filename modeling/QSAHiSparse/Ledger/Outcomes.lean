import QSAHiSparse.Ledger.Slots

namespace QSAHiSparse
namespace Ledger

open Foundation

/-!
# What each ledger method can do

One theorem a method: the guard under which it returns, the state and value it
then leaves, and the untouched ledger it leaves otherwise.  Invariants and the
rejection of stale leases are read off these theorems alone, so that a change to
one method is a change to one theorem.

`drain` is the exception.  It waits between its first and its last write, so its
theorem lists the ledgers a failed wait leaves behind.
-/

/-- The active map holds exactly this lease. -/
def QSAHiSparseSlots.Holds (ledger : QSAHiSparseSlots) (lease : QSAHiSparseLease) : Prop :=
  ledger.active.get? lease.reqPoolIdx = some lease

instance (ledger : QSAHiSparseSlots) (lease : QSAHiSparseLease) : Decidable (ledger.Holds lease) :=
  inferInstanceAs (Decidable (_ = _))

/-- The lease is held and its phase is one of these. -/
def QSAHiSparseSlots.Permits (ledger : QSAHiSparseSlots) (lease : QSAHiSparseLease)
    (phases : List Phase) : Prop :=
  ledger.Holds lease ∧
    exists phase, ledger.phases.get? lease.reqPoolIdx = some phase ∧ phase ∈ phases

instance (ledger : QSAHiSparseSlots) (lease : QSAHiSparseLease) (phases : List Phase) :
    Decidable (ledger.Permits lease phases) :=
  decidable_of_iff
    (ledger.Holds lease ∧
      exists phase, phase ∈ phases ∧ ledger.phases.get? lease.reqPoolIdx = some phase)
    (and_congr_right fun _ => exists_congr fun _ => and_comm)

/-- A held lease is permitted its new phase. -/
theorem QSAHiSparseSlots.Holds.setPhase_permits {ledger : QSAHiSparseSlots}
    {lease : QSAHiSparseLease} (held : ledger.Holds lease) (phase : Phase) :
    (ledger.setPhase lease phase).Permits lease [phase] :=
  ⟨held, phase, Dict.get?_set_self _ _ _, List.mem_singleton_self phase⟩

variable (ledger : QSAHiSparseSlots) (lease : QSAHiSparseLease)

/-- Without phases the lease alone is checked. -/
theorem require_checks (phases : List Phase) :
    Checked (ledger.Holds lease ∧ (phases ≠ [] ->
        exists phase, ledger.phases.get? lease.reqPoolIdx = some phase ∧ phase ∈ phases))
      ledger (fun _ after => after = ledger) ((require lease phases).run ledger) := by
  have body : Checked (¬ ledger.active.get? lease.reqPoolIdx ≠ some lease ∧ (phases ≠ [] ->
      exists phase, ledger.phases.get? lease.reqPoolIdx = some phase ∧ phase ∈ phases))
      ledger (fun _ after => after = ledger) ((require lease phases).run ledger) := by
    unfold require
    apply Checked.get_bind
    apply Checked.raiseIf_bind
    intro _
    by_cases asked : phases = []
    · rw [if_pos asked]
      exact ⟨fun none => absurd asked none, rfl⟩
    · rw [if_neg asked]
      apply (Leaves.bind_iff _ _ _).mpr
      apply (Leaves.getItem_iff _ _ _).mpr
      constructor
      · intro absent
        refine ⟨?_, rfl⟩
        intro inPhase
        rcases inPhase asked with ⟨phase, present, _⟩
        rw [absent] at present
        cases present
      · intro phase present
        apply (Leaves.raiseIf_iff _ _ _).mpr
        constructor
        · intro outside
          refine ⟨?_, rfl⟩
          intro inPhase
          rcases inPhase asked with ⟨other, found, inside⟩
          rw [present] at found
          cases found
          exact outside inside
        · intro inside
          exact ⟨fun _ => ⟨phase, present, Classical.not_not.mp inside⟩, rfl⟩
  apply body.congr
  unfold QSAHiSparseSlots.Holds
  rw [ne_eq, Classical.not_not]

theorem require_outcome {phases : List Phase} (asked : phases ≠ []) :
    Checked (ledger.Permits lease phases) ledger (fun _ after => after = ledger)
      ((require lease phases).run ledger) := by
  apply (require_checks ledger lease phases).congr
  exact and_congr Iff.rfl ⟨fun inPhase => inPhase asked, fun inPhase _ => inPhase⟩

/-- A method that requires the lease first, as every method but `acquire`
does. -/
theorem require_bind {phases : List Phase} (asked : phases ≠ []) {α : Type} {guard : Prop}
    {returns : α -> QSAHiSparseSlots -> Prop} {next : Method QSAHiSparseSlots α}
    (rest : ledger.Permits lease phases -> Checked guard ledger returns (next.run ledger)) :
    Checked (ledger.Permits lease phases ∧ guard) ledger returns
      ((require lease phases >>= fun _ => next).run ledger) :=
  Checked.bind (require_outcome ledger lease asked) (fun _ => rest)

theorem acquire_outcome (reqPoolIdx generation : Int) (rid : String) :
    Checked
      (¬ (reqPoolIdx ≤ 0 ∨ generation ≤ 0 ∨ rid = "") ∧
        ¬ ledger.active.contains reqPoolIdx = true ∧
        ¬ generation ≤ (ledger.lastGeneration.get? reqPoolIdx).getD 0 ∧
        ¬ ledger.prefillOwner ≠ none ∧ ledger.freeSlots ≠ [])
      ledger
      (fun lease after => exists slot rest, ledger.freeSlots = slot :: rest ∧
        lease = { reqPoolIdx, generation, rid, slot } ∧ after = ledger.grant lease rest)
      ((acquire reqPoolIdx generation rid).run ledger) := by
  unfold acquire
  apply Checked.raiseIf_bind
  intro _
  apply Checked.get_bind
  apply Checked.raiseIf_bind
  intro _
  apply Checked.raiseIf_bind
  intro _
  apply Checked.raiseIf_bind
  intro _
  cases slots : ledger.freeSlots with
  | nil => exact ⟨fun some => some rfl, rfl⟩
  | cons slot rest => exact ⟨by simp, slot, rest, rfl, rfl, rfl⟩

theorem stagingSlice_outcome (start stop : Int) :
    Checked
      (ledger.Permits lease [.prefill, .copying] ∧ ¬ ledger.prefillOwner ≠ some lease ∧
        ¬ ¬ (0 ≤ start ∧ start ≤ stop ∧ stop ≤ ledger.geometry.stagingTokens) ∧ True)
      ledger
      (fun rows after => rows = ⟨ledger.geometry.pageSize + start.toNat,
        ledger.geometry.pageSize + stop.toNat⟩ ∧ after = ledger)
      ((stagingSlice lease start stop).run ledger) := by
  unfold stagingSlice
  apply require_bind ledger lease (by simp)
  intro _
  apply Checked.get_bind
  apply Checked.raiseIf_bind
  intro _
  apply Checked.raiseIf_bind
  intro _
  exact ⟨trivial, rfl, rfl⟩

theorem ringSlice_outcome :
    Checked (ledger.Permits lease [.prefill, .copying, .hostReady, .decode] ∧ True) ledger
      (fun rows after => rows = ⟨ledger.geometry.ringStart lease.slot,
        ledger.geometry.ringStart lease.slot + 5⟩ ∧ after = ledger)
      ((ringSlice lease).run ledger) := by
  unfold ringSlice
  apply require_bind ledger lease (by simp)
  intro _
  exact ⟨trivial, rfl, rfl⟩

theorem ringWriteLocation_outcome (seqLen : Int) :
    Checked
      (ledger.Permits lease [.decode] ∧
        ¬ ¬ (1 ≤ seqLen ∧ seqLen ≤ ledger.geometry.stagingTokens) ∧ True)
      ledger
      (fun row after => row = ledger.geometry.ringStart lease.slot + 1 + (seqLen - 1).toNat % 4 ∧
        after = ledger)
      ((ringWriteLocation lease seqLen).run ledger) := by
  unfold ringWriteLocation
  apply require_bind ledger lease (by simp)
  intro permits
  apply Checked.get_bind
  apply Checked.raiseIf_bind
  intro _
  -- The decoding lease passes the weaker check of `ring_slice` as well.
  have wider : ledger.Permits lease [.prefill, .copying, .hostReady, .decode] := by
    rcases permits with ⟨held, phase, present, member⟩
    exact ⟨held, phase, present, by simp at member; simp [member]⟩
  have ring := (ringSlice_outcome ledger lease).congr (iff_of_true ⟨wider, trivial⟩ trivial)
  apply (Leaves.bind_iff _ _ _).mpr
  apply Leaves.mono ring
  · rintro rows after ⟨_, rfl, rfl⟩
    exact ⟨trivial, rfl, rfl⟩
  · exact fun _ _ both => both

theorem beginHandoff_outcome :
    Checked (ledger.Permits lease [.prefill] ∧ ¬ ledger.prefillOwner ≠ some lease ∧ True) ledger
      (fun _ after => after = ledger.setPhase lease .copying)
      ((beginHandoff lease).run ledger) := by
  unfold beginHandoff
  apply require_bind ledger lease (by simp)
  intro _
  apply Checked.get_bind
  apply Checked.raiseIf_bind
  intro _
  exact ⟨trivial, rfl⟩

theorem admitDecode_outcome :
    Checked (ledger.Permits lease [.hostReady] ∧ True) ledger
      (fun _ after => after = ledger.setPhase lease .decode)
      ((admitDecode lease).run ledger) := by
  unfold admitDecode
  apply require_bind ledger lease (by simp)
  intro _
  exact ⟨trivial, rfl⟩

theorem logicalFlushed_outcome (freeGroupOpen : Bool) :
    Checked (ledger.Permits lease [.drained] ∧ ¬ freeGroupOpen = true ∧ True) ledger
      (fun _ after => after = ledger.setPhase lease .logicalFlushed)
      ((logicalFlushed lease freeGroupOpen).run ledger) := by
  unfold logicalFlushed
  apply require_bind ledger lease (by simp)
  intro _
  apply Checked.raiseIf_bind
  intro _
  exact ⟨trivial, rfl⟩

theorem commitRelease_outcome :
    Checked (ledger.Permits lease [.logicalFlushed] ∧ True) ledger
      (fun _ after => after = ledger.giveBack lease)
      ((commitRelease lease).run ledger) := by
  unfold commitRelease
  apply require_bind ledger lease (by simp)
  intro _
  exact ⟨trivial, rfl⟩

/-! ## The methods that only look -/

theorem require_reads (phases : List Phase) : Reads (require lease phases) :=
  Checked.reads (fun ledger => require_checks ledger lease phases) fun _ _ _ same => same

theorem ringSlice_reads : Reads (ringSlice lease) :=
  Checked.reads (fun ledger => ringSlice_outcome ledger lease) fun _ _ _ returned => returned.2

theorem stagingSlice_reads (start stop : Int) : Reads (stagingSlice lease start stop) :=
  Checked.reads (fun ledger => stagingSlice_outcome ledger lease start stop)
    fun _ _ _ returned => returned.2

theorem ringWriteLocation_reads (seqLen : Int) : Reads (ringWriteLocation lease seqLen) :=
  Checked.reads (fun ledger => ringWriteLocation_outcome ledger lease seqLen)
    fun _ _ _ returned => returned.2

/-! ## The methods that wait -/

section Events

variable {σ : Type} (slots : Field σ QSAHiSparseSlots)

/-- Asking a device event leaves the ledger alone. -/
def Quiet {α : Type} (program : Method σ α) : Prop :=
  Keeps (fun before after => slots.get after = slots.get before) program

/-- A requirement on the contained ledger, met or raised without a write. -/
theorem zoom_require_outcome {phases : List Phase} (asked : phases ≠ []) (state : σ) :
    Checked ((slots.get state).Permits lease phases) state (fun _ after => after = state)
      ((slots.zoom (require lease phases)).run state) := by
  apply (slots.leaves_zoom _ state).mpr
  apply Leaves.mono (require_outcome (slots.get state) lease asked)
  · rintro _ part ⟨permits, rfl⟩
    exact ⟨permits, slots.set_get state⟩
  · rintro _ part ⟨refused, rfl⟩
    exact ⟨refused, slots.set_get state⟩

theorem zoom_modify_get (update : QSAHiSparseSlots -> QSAHiSparseSlots) (state : σ) :
    (slots.zoom (modify update : Method QSAHiSparseSlots PUnit)).run state =
      .ok ⟨⟩ (slots.set (update (slots.get state)) state) := rfl

theorem finishHandoff_outcome (completionEvent : Option (Method σ Bool))
    (quiet : forall query, completionEvent = some query -> Quiet slots query) (state : σ) :
    Leaves
      (fun _ after =>
        ((slots.get state).Permits lease [.copying] ∧
          (slots.get state).prefillOwner = some lease) ∧
        slots.get after = ((slots.get state).setPhase lease .hostReady).clearLane)
      (fun _ after => slots.get after = slots.get state)
      ((finishHandoff slots lease completionEvent).run state) := by
  unfold finishHandoff
  apply (Leaves.bind_iff _ _ _).mpr
  apply Leaves.mono (zoom_require_outcome lease slots (by simp) state)
  · rintro _ after ⟨permits, rfl⟩
    apply (Leaves.bind_iff _ _ _).mpr
    have asked : Leaves (fun _ last => slots.get last = slots.get after)
        (fun _ last => slots.get last = slots.get after)
        ((isComplete completionEvent).run after) := by
      cases completionEvent with
      | none => exact rfl
      | some query => exact (quiet query rfl).leaves after
    apply asked.mono
    · intro completed last same
      apply (Leaves.bind_iff _ _ _).mpr
      apply (Leaves.raiseIf_iff _ _ _).mpr
      refine ⟨fun _ => same, fun _ => ?_⟩
      apply (slots.leaves_zoom _ last).mpr
      apply (Leaves.bind_iff _ _ _).mpr
      apply (Leaves.get_iff _).mpr
      apply (Leaves.bind_iff _ _ _).mpr
      apply (Leaves.raiseIf_iff _ _ _).mpr
      constructor
      · intro _
        rw [slots.get_set, same]
      · intro owned
        apply (Leaves.modify_iff _ _).mpr
        rw [slots.get_set, same]
        rw [same] at owned
        exact ⟨⟨permits, Classical.not_not.mp owned⟩, rfl⟩
    · exact fun _ _ same => same
  · rintro _ after ⟨_, rfl⟩
    rfl

/-- A copying owner whose event is complete becomes host-ready. -/
theorem finishHandoff_returns (state : σ) (permits : (slots.get state).Permits lease [.copying])
    (owner : (slots.get state).prefillOwner = some lease) (query : Method σ Bool)
    (completed : query.run state = .ok true state) :
    (finishHandoff slots lease (some query)).run state =
      .ok ⟨⟩ (slots.set (((slots.get state).setPhase lease .hostReady).clearLane) state) := by
  rcases (zoom_require_outcome lease slots (by simp) state).returned permits with
    ⟨_, after, required, same⟩
  unfold finishHandoff
  rw [EStateM.run_bind, required, same]
  change EStateM.run (query >>= _) _ = _
  rw [EStateM.run_bind, completed]
  change EStateM.run (slots.zoom _) _ = _
  have passes : (raiseIf ((slots.get state).prefillOwner ≠ some lease)
      (.runtimeError "handoff lost its staging owner")).run (slots.get state) =
      .ok ⟨⟩ (slots.get state) := by
    rw [raiseIf, if_neg (not_not.mpr owner)]
    rfl
  rw [slots.run_zoom, EStateM.run_bind]
  simp only [EStateM.run_get]
  rw [EStateM.run_bind, passes]
  rfl

/-- The checks of `finish_handoff` come before the event is asked. -/
theorem finishHandoff_refused (completionEvent : Option (Method σ Bool)) (state : σ)
    (refused : ¬ (slots.get state).Permits lease [.copying]) :
    exists cause, (finishHandoff slots lease completionEvent).run state = .error cause state := by
  rcases (zoom_require_outcome lease slots (by simp) state).raises refused with ⟨cause, raised⟩
  refine ⟨cause, ?_⟩
  unfold finishHandoff
  rw [EStateM.run_bind, raised]

theorem synchronizeAll_quiet {terminalEvent : Method σ PUnit}
    {copyEvents : List (Option (Method σ PUnit))} (terminal : Quiet slots terminalEvent)
    (copies : forall copy, some copy ∈ copyEvents -> Quiet slots copy) :
    Quiet slots (synchronizeAll terminalEvent copyEvents) := by
  apply Keeps.of_leaves
  intro state
  unfold synchronizeAll
  apply (Leaves.bind_iff _ _ _).mpr
  refine (terminal.leaves state).mono (fun _ after same => ?_) (fun _ _ => id)
  refine Ensures.forEach copyEvents ?_ after same
  intro event member after same
  cases event with
  | none => exact same
  | some synchronize =>
      rw [← same]
      exact (copies synchronize member).leaves after

theorem any_isNone_iff {α : Type} (events : List (Option α)) :
    events.any Option.isNone = true <-> none ∈ events := by
  simp

/-- What `drain` checks before it writes or waits. -/
def DrainStarts (ledger : QSAHiSparseSlots) (terminalEvent : Option (Method σ PUnit))
    (copyEvents : List (Option (Method σ PUnit))) : Prop :=
  ledger.Permits lease [.prefill, .copying, .hostReady, .decode, .failed] ∧
    terminalEvent ≠ none ∧ none ∉ copyEvents

/-- `drain` is its checks, its waits, and one write for each way the waits end. -/
theorem drain_leaves (terminal : Method σ PUnit) (copyEvents : List (Option (Method σ PUnit)))
    (state : σ) {post : PUnit -> σ -> Prop} {raised : PyError -> σ -> Prop}
    (refused : ¬ DrainStarts lease (slots.get state) (some terminal) copyEvents ->
      forall cause, raised cause state)
    (waits : DrainStarts lease (slots.get state) (some terminal) copyEvents ->
      Leaves
        (fun _ last => post ⟨⟩
          (slots.set (((slots.get last).leaveLane lease).setPhase lease .drained) last))
        (fun cause last =>
          (cause.isException = true ->
            raised cause (slots.set ((slots.get last).setPhase lease .failed) last)) ∧
          (cause.isException = false -> raised cause last))
        ((synchronizeAll terminal copyEvents).run
          (slots.set ((slots.get state).setPhase lease .releasing) state))) :
    Leaves post raised ((drain slots lease (some terminal) copyEvents).run state) := by
  unfold drain
  apply (Leaves.bind_iff _ _ _).mpr
  apply Leaves.mono (zoom_require_outcome lease slots (by simp) state)
  · rintro _ after ⟨permits, rfl⟩
    apply (Leaves.bind_iff _ _ _).mpr
    apply (Leaves.raiseIf_iff _ _ _).mpr
    rw [any_isNone_iff]
    constructor
    · exact fun missing => refused (fun starts => starts.2.2 missing) _
    intro complete
    apply (Leaves.bind_iff _ _ _).mpr
    rw [zoom_modify_get]
    apply (Leaves.ok_iff _ _).mpr
    apply (Leaves.bind_iff _ _ _).mpr
    apply (Leaves.exceptException_iff _ _ _).mpr
    apply (waits ⟨permits, by simp, complete⟩).mono
    · exact fun _ _ holds => holds
    · intro cause last both
      exact ⟨fun caught => both.1 caught, both.2⟩
  · rintro cause after ⟨lacks, rfl⟩
    exact refused (fun starts => lacks starts.1) cause

/-- `drain` returns with the lease drained and out of the lane.  It raises on a
ledger that is untouched, or marks the lease failed after a failed wait; an
exception that is not an `Exception` leaves it releasing. -/
theorem drain_outcome (terminalEvent : Option (Method σ PUnit))
    (copyEvents : List (Option (Method σ PUnit)))
    (terminal : forall event, terminalEvent = some event -> Quiet slots event)
    (copies : forall event, some event ∈ copyEvents -> Quiet slots event) (state : σ) :
    Leaves
      (fun _ after =>
        DrainStarts lease (slots.get state) terminalEvent copyEvents ∧
        slots.get after =
          (((slots.get state).setPhase lease .releasing).leaveLane lease).setPhase lease .drained)
      (fun cause after =>
        (¬ DrainStarts lease (slots.get state) terminalEvent copyEvents ∧
          slots.get after = slots.get state) ∨
        (DrainStarts lease (slots.get state) terminalEvent copyEvents ∧
          ((cause.isException = true ∧ slots.get after =
              ((slots.get state).setPhase lease .releasing).setPhase lease .failed) ∨
            (cause.isException = false ∧
              slots.get after = (slots.get state).setPhase lease .releasing))))
      ((drain slots lease terminalEvent copyEvents).run state) := by
  cases terminalEvent with
  | none =>
      unfold drain
      apply (Leaves.bind_iff _ _ _).mpr
      apply Leaves.mono (zoom_require_outcome lease slots (by simp) state)
      · rintro _ after ⟨_, rfl⟩
        exact Or.inl ⟨fun starts => starts.2.1 rfl, rfl⟩
      · rintro _ after ⟨refused, rfl⟩
        exact Or.inl ⟨fun starts => refused starts.1, rfl⟩
  | some terminalWait =>
      apply drain_leaves
      · exact fun refused _ => Or.inl ⟨refused, rfl⟩
      intro starts
      have waited := (synchronizeAll_quiet slots (terminal terminalWait rfl) copies).leaves
        (slots.set ((slots.get state).setPhase lease .releasing) state)
      rw [slots.get_set] at waited
      apply waited.mono
      · intro _ last same
        rw [slots.get_set, same]
        exact ⟨starts, rfl⟩
      · intro cause last same
        constructor
        · intro caught
          rw [slots.get_set, same]
          exact Or.inr ⟨starts, Or.inl ⟨caught, rfl⟩⟩
        · intro passed
          exact Or.inr ⟨starts, Or.inr ⟨passed, same⟩⟩

theorem drain_refused (terminalEvent : Option (Method σ PUnit))
    (copyEvents : List (Option (Method σ PUnit))) (state : σ)
    (refused : ¬ DrainStarts lease (slots.get state) terminalEvent copyEvents) :
    exists cause, (drain slots lease terminalEvent copyEvents).run state = .error cause state := by
  have required := zoom_require_outcome lease slots
    (show [Phase.prefill, .copying, .hostReady, .decode, .failed] ≠ [] by simp) state
  unfold drain
  rw [EStateM.run_bind]
  cases ran : (slots.zoom (require lease [.prefill, .copying, .hostReady, .decode, .failed])).run
      state with
  | error cause after =>
      rw [(required.error ran).2]
      exact ⟨cause, rfl⟩
  | ok value after =>
      rcases required.ok ran with ⟨permits, rfl⟩
      cases terminalEvent with
      | none => exact ⟨_, rfl⟩
      | some terminal =>
          have missing : copyEvents.any Option.isNone = true := by
            apply Classical.byContradiction
            intro present
            rw [any_isNone_iff] at present
            exact refused ⟨permits, by simp, present⟩
          refine ⟨.valueError "release requires explicit terminal and copy events", ?_⟩
          change EStateM.run (raiseIf _ _ >>= _) after = _
          rw [raiseIf, if_pos missing]
          rfl

/-- Waits that all return drain the lease. -/
theorem drain_returns {terminal : Method σ PUnit} {copyEvents : List (Option (Method σ PUnit))}
    {state waited : σ} (starts : DrainStarts lease (slots.get state) (some terminal) copyEvents)
    (waits : (synchronizeAll terminal copyEvents).run
      (slots.set ((slots.get state).setPhase lease .releasing) state) = .ok ⟨⟩ waited) :
    (drain slots lease (some terminal) copyEvents).run state =
      .ok ⟨⟩ (slots.set (((slots.get waited).leaveLane lease).setPhase lease .drained) waited) := by
  rcases starts with ⟨permits, _, present⟩
  have required := zoom_require_outcome lease slots
    (show [Phase.prefill, .copying, .hostReady, .decode, .failed] ≠ [] by simp) state
  unfold drain
  rw [EStateM.run_bind]
  cases ran : (slots.zoom (require lease [.prefill, .copying, .hostReady, .decode, .failed])).run
      state with
  | error cause after => exact absurd permits (required.error ran).1
  | ok value after =>
      rw [(required.ok ran).2]
      have complete : ¬ copyEvents.any Option.isNone = true := by
        rw [any_isNone_iff]
        exact present
      change EStateM.run (raiseIf _ _ >>= _) state = _
      rw [raiseIf, if_neg complete]
      change EStateM.run (exceptException _ _ >>= _)
        (slots.set ((slots.get state).setPhase lease .releasing) state) = _
      rw [EStateM.run_bind, exceptException, run_tryCatch, waits]
      rfl

end Events

end Ledger
end QSAHiSparse

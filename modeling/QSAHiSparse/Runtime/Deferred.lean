import Mathlib.Data.List.Induction
import QSAHiSparse.Runtime.NoReuse
import QSAHiSparse.Runtime.PendingReleases
import QSAHiSparse.Runtime.ReleaseCalls

namespace QSAHiSparse
namespace Runtime

open Foundation
open Ledger

/-!
# Releases that wait for a flush

A pending lease belongs to the list: it is committed by a flush, and by no
direct `after_release`.  In a run that keeps to this no release is lost or made
twice, whatever raises in it.
-/

section Calls

variable {δ : Type} (machine : Machine δ) {config : Config} {lease : QSAHiSparseLease}

/-- A pending lease is the list's: outside a free group `after_release` is called
only for a lease that does not wait, and no handoff is asked of a released
one. -/
def Call.Disciplined (runtime : QSAHiSparseRuntime δ) : Call -> Prop
  | .afterRelease (some lease) =>
      runtime.freeGroupOpen = false -> lease ∉ runtime.pendingReleases
  | .handoff reqIdx _ => forall lease, runtime.requests.get? reqIdx = some lease ->
      ¬ runtime.slots.Permits lease releasedPhases
  | _ => True

/-- Every call of the run is. -/
def DisciplinedRun (machine : Machine δ) (config : Config) :
    QSAHiSparseRuntime δ -> List Call -> Prop
  | _, [] => True
  | runtime, call :: calls => call.Disciplined runtime ∧
      DisciplinedRun machine config (finalState ((perform machine config call).run runtime)) calls

/-- The changes of a call other than these spare every lease. -/
theorem may_spares {state : Tenancy} {call : Call} {change : Change}
    (may : Call.May state call change) (handoff : forall reqIdx rid, call ≠ .handoff reqIdx rid)
    (commit : forall released, call ≠ .afterRelease (some released)) (ended : call ≠ .freeGroupEnd)
    (flush : call ≠ .logicalFlush) (lease : QSAHiSparseLease) :
    change ≠ .handoffFailed lease ∧ change ≠ .committed lease := by
  cases may with
  | granted batch granted => exact ⟨nofun, nofun⟩
  | enlisted batch granted => exact ⟨nofun, nofun⟩
  | handoff row rid handed change listed allowed => exact absurd rfl (handoff row rid)
  | admitted admitted => exact ⟨nofun, nofun⟩
  | replay batch count change allowed =>
      rcases allowed with ⟨failed, _, rfl⟩ | ⟨leases, _, rfl | rfl⟩ <;> exact ⟨nofun, nofun⟩
  | release row rid released change listed allowed =>
      rcases allowed with rfl | rfl | rfl | rfl <;> exact ⟨nofun, nofun⟩
  | afterRelease committed change allowed => exact absurd rfl (commit committed)
  | opened => exact ⟨nofun, nofun⟩
  | closed => exact absurd rfl ended
  | flush change allowed => exact absurd rfl ended
  | logicalFlush change allowed => exact absurd rfl flush

/-- One call keeps the pending list in order. -/
theorem perform_queued (call : Call) {runtime : QSAHiSparseRuntime δ}
    (disciplined : call.Disciplined runtime) (idle : Idle Tenancy.Queued runtime) :
    Idle Tenancy.Queued (finalState ((perform machine config call).run runtime)) := by
  have valid := idle.1.valid
  by_cases handoff : exists reqIdx rid, call = .handoff reqIdx rid
  · rcases handoff with ⟨reqIdx, rid, rfl⟩
    have kept : Idle (fun state => state.Queued ∧ forall lease,
        runtime.requests.get? reqIdx = some lease -> lease ∉ state.pendingReleases)
        (finalState ((perform machine config (.handoff reqIdx rid)).run runtime)) := by
      refine perform_idle machine config valid (.handoff reqIdx rid) ?_
        ⟨⟨idle.1, fun lease found waits => ?_⟩, idle.2⟩
      · rintro change before after may ⟨queued, apart⟩ step
        cases may with
        | handoff _ _ handed change found allowed =>
            have absent := apart handed found
            have stays : after.pendingReleases = before.pendingReleases := by
              rcases step.pending with same | ⟨_, named, _⟩ | ⟨_, _, named, _⟩
              · exact same
              · rcases allowed with rfl | rfl | rfl <;> cases named
              · rcases allowed with rfl | rfl | rfl <;> cases named
            refine ⟨queued.step step fun lease waits => ?_, fun lease listed => ?_⟩
            · have different : lease ≠ handed := fun same => absent (same ▸ waits)
              rcases allowed with rfl | rfl | rfl
              · exact ⟨nofun, nofun⟩
              · exact ⟨nofun, nofun⟩
              · exact ⟨fun same => different (Change.handoffFailed.inj same).symm, nofun⟩
            · rw [stays]
              exact apart lease listed
      · exact disciplined lease found (idle.1.released lease waits)
    exact ⟨kept.1.1, kept.2⟩
  by_cases commit : exists released, call = .afterRelease (some released)
  · rcases commit with ⟨released, rfl⟩
    have kept : Idle (fun state => state.Queued ∧
        (state.freeGroupOpen = false -> released ∉ state.pendingReleases))
        (finalState ((perform machine config (.afterRelease (some released))).run runtime)) := by
      refine perform_idle machine config valid (.afterRelease (some released)) ?_
        ⟨⟨idle.1, disciplined⟩, idle.2⟩
      rintro change before after may ⟨queued, apart⟩ step
      cases may with
      | afterRelease _ change allowed =>
          rcases allowed with rfl | rfl | rfl
          · refine ⟨queued.step step fun lease waits => ⟨nofun, nofun⟩, fun closed => ?_⟩
            cases step with
            | deferred _ ready opened fresh =>
                change before.freeGroupOpen = false at closed
                rw [opened] at closed
                cases closed
          · refine ⟨queued.step step fun lease waits => ⟨nofun, nofun⟩, ?_⟩
            cases step
            exact apart
          · cases step with
            | committed _ ready closed =>
                refine ⟨queued.step (.committed released ready closed) fun lease waits =>
                  ⟨nofun, fun same => ?_⟩, apart⟩
                exact apart closed (Change.committed.inj same ▸ waits)
    exact ⟨kept.1.1, kept.2⟩
  by_cases ended : call = .freeGroupEnd
  · rw [ended]
    exact @Preserves.finalState _ _ _ _ _
      (flushPending_queued machine runtime.pendingReleases.length)
      { runtime with freeGroupOpen := false }
      ⟨idle.1.step (.grouped false) fun lease waits => ⟨nofun, nofun⟩, idle.2⟩
  by_cases flush : call = .logicalFlush
  · rw [flush]
    exact (flushPending_queued machine runtime.pendingReleases.length).finalState idle
  push Not at handoff commit
  refine perform_idle machine config valid call ?_ idle
  exact fun change before after may queued step =>
    queued.step step fun lease _ => may_spares may handoff commit ended flush lease

theorem callAll_queued (calls : List Call) {runtime : QSAHiSparseRuntime δ}
    (disciplined : DisciplinedRun machine config runtime calls)
    (idle : Idle Tenancy.Queued runtime) :
    Idle Tenancy.Queued (callAll (perform machine config) runtime calls) := by
  induction calls generalizing runtime with
  | nil => exact idle
  | cons call calls previous =>
      exact previous disciplined.2 (perform_queued machine call disciplined.1 idle)

/-! ## Where a slot comes from -/

/-- A lease that a call releases has been drained by a release of its row. -/
theorem becomes_released (call : Call) {runtime : QSAHiSparseRuntime δ}
    (valid : runtime.tenancy.Valid) (unset : runtime.graphBatch = none)
    (before : ¬ runtime.slots.Permits lease releasedPhases)
    (after : (finalState ((perform machine config call).run runtime)).slots.Permits lease
      releasedPhases) :
    exists rid, call = .release lease.reqPoolIdx rid ∧
      (finalState ((perform machine config call).run runtime)).slots.Permits lease [.drained] := by
  by_cases releases : exists rid, call = .release lease.reqPoolIdx rid
  · rcases releases with ⟨rid, rfl⟩
    refine ⟨rid, rfl, ?_⟩
    have unflushed : Idle (fun state => ¬ state.slots.Permits lease [.logicalFlushed])
        (finalState ((perform machine config (.release lease.reqPoolIdx rid)).run runtime)) := by
      refine perform_idle machine config valid (.release lease.reqPoolIdx rid) ?_ ⟨?_, unset⟩
      · intro change first second may kept step flushed
        rcases step.phase_cases flushed with earlier | ⟨phase, inside, sets⟩
        · exact kept earlier
        · rw [List.mem_singleton] at inside
          rw [inside] at sets
          cases may with
          | release _ _ released change found allowed =>
              rcases allowed with rfl | rfl | rfl | rfl <;> cases sets
      · rintro ⟨held, phase, present, inside⟩
        rw [List.mem_singleton] at inside
        exact before ⟨held, phase, present, by rw [inside]; decide⟩
    rcases after with ⟨held, phase, present, inside⟩
    refine ⟨held, phase, present, ?_⟩
    rcases List.mem_cons.mp inside with drained | flushed
    · exact List.mem_singleton.mpr drained
    · exact absurd ⟨held, phase, present, flushed⟩ unflushed.1
  · have kept : Idle (fun state => ¬ state.slots.Permits lease releasedPhases)
        (finalState ((perform machine config call).run runtime)) := by
      refine perform_idle machine config valid call ?_ ⟨before, unset⟩
      intro change first second may kept step released
      rcases step.released_cases released with earlier | rfl
      · exact kept earlier
      · cases may with
        | handoff row rid handed change found allowed =>
            rcases allowed with same | same | same <;> cases same
        | replay batch count change allowed =>
            rcases allowed with ⟨_, _, same⟩ | ⟨_, _, same | same⟩ <;> cases same
        | release row rid other change found allowed =>
            rcases allowed with same | same | same | same
            · cases same
            · cases same
            · cases same
            · cases same
              exact releases ⟨rid, by rw [(valid.owned row _ found).1]⟩
        | afterRelease committed change allowed =>
            rcases allowed with same | same | same <;> cases same
        | flush change allowed =>
            rcases allowed with ⟨_, _, same | same | same⟩ <;> cases same
        | logicalFlush change allowed =>
            rcases allowed with ⟨_, _, same | same | same⟩ <;> cases same
    exact absurd after kept.1

/-- The call flushes outside any free group. -/
def Call.Flushes (runtime : QSAHiSparseRuntime δ) (call : Call) : Prop :=
  call = .freeGroupEnd ∨ (runtime.freeGroupOpen = false ∧
    (call = .logicalFlush ∨ exists released, call = .afterRelease (some released)))

theorem may_committed {state : Tenancy} {call : Call}
    (may : Call.May state call (.committed lease)) :
    call = .freeGroupEnd ∨ call = .logicalFlush ∨ call = .afterRelease (some lease) := by
  cases may with
  | handoff row rid handed change found allowed =>
      rcases allowed with same | same | same <;> cases same
  | replay batch count change allowed =>
      rcases allowed with ⟨_, _, same⟩ | ⟨_, _, same | same⟩ <;> cases same
  | release row rid other change found allowed =>
      rcases allowed with same | same | same | same <;> cases same
  | afterRelease committed change allowed =>
      rcases allowed with same | same | same
      · cases same
      · cases same
      · cases same
        exact Or.inr (Or.inr rfl)
  | flush change allowed => exact Or.inl rfl
  | logicalFlush change allowed => exact Or.inr (Or.inl rfl)

/-- A call that ends a lease found it released, and flushes outside any
group. -/
theorem ends_released (call : Call) {runtime : QSAHiSparseRuntime δ}
    (valid : runtime.tenancy.Valid) (unset : runtime.graphBatch = none)
    (held : runtime.slots.Holds lease)
    (ended : ¬ (finalState ((perform machine config call).run runtime)).slots.Holds lease) :
    runtime.slots.Permits lease releasedPhases ∧ call.Flushes runtime := by
  have kind : call = .freeGroupEnd ∨ call = .logicalFlush ∨ call = .afterRelease (some lease) := by
    apply Classical.byContradiction
    intro other
    have kept : Idle (fun state => state.slots.Holds lease)
        (finalState ((perform machine config call).run runtime)) := by
      refine perform_idle machine config valid call ?_ ⟨held, unset⟩
      intro change first second may kept step
      rcases step.holds_or kept with stays | ⟨rfl, _⟩
      · exact stays
      · exact absurd (may_committed may) other
    exact ended kept.1
  constructor
  · apply Classical.byContradiction
    intro unreleased
    have kept : Idle (fun state => state.slots.Holds lease ∧
        ¬ state.slots.Permits lease releasedPhases)
        (finalState ((perform machine config call).run runtime)) := by
      refine perform_idle machine config valid call ?_ ⟨⟨held, unreleased⟩, unset⟩
      rintro change first second may ⟨kept, early⟩ step
      have late : ¬ second.slots.Permits lease releasedPhases := by
        intro released
        rcases step.released_cases released with earlier | rfl
        · exact early earlier
        · rcases kind with rfl | rfl | rfl
          · cases may with
            | flush change allowed =>
                rcases allowed with ⟨_, _, same | same | same⟩ <;> cases same
          · cases may with
            | logicalFlush change allowed =>
                rcases allowed with ⟨_, _, same | same | same⟩ <;> cases same
          · cases may with
            | afterRelease _ change allowed =>
                rcases allowed with same | same | same <;> cases same
      rcases step.holds_or kept with stays | ⟨_, ⟨_, phase, present, inside⟩, _⟩
      · exact ⟨stays, late⟩
      · rw [List.mem_singleton] at inside
        exact absurd ⟨kept, phase, present, by rw [inside]; decide⟩ early
    exact ended kept.1.1
  · rcases kind with rfl | flush
    · exact Or.inl rfl
    · refine Or.inr ⟨?_, flush.imp_right fun same => ⟨lease, same⟩⟩
      apply Classical.byContradiction
      intro opened
      rw [Bool.not_eq_false] at opened
      have kept : Idle (fun state => state.slots.Holds lease ∧ state.freeGroupOpen = true)
          (finalState ((perform machine config call).run runtime)) := by
        refine perform_idle machine config valid call ?_ ⟨⟨held, opened⟩, unset⟩
        rintro change first second may ⟨kept, grouped⟩ step
        constructor
        · rcases step.holds_or kept with stays | ⟨_, _, closed⟩
          · exact stays
          · rw [grouped] at closed
            cases closed
        · cases step with
          | grouped isOpen =>
              rcases flush with rfl | rfl
              · cases may with
                | logicalFlush change allowed =>
                    rcases allowed with ⟨_, _, same | same | same⟩ <;> cases same
              · cases may with
                | afterRelease _ change allowed =>
                    rcases allowed with same | same | same <;> cases same
          | _ => exact grouped
      exact ended kept.1.1

theorem callAll_tracks (config : Config) (calls : List Call) {runtime : QSAHiSparseRuntime δ}
    (valid : Idle Tenancy.Valid runtime) (tracks : runtime.tenancy.Tracks lease) :
    (callAll (perform machine config) runtime calls).tenancy.Tracks lease := by
  have kept : Idle (fun state => state.Valid ∧ state.Tracks lease)
      (callAll (perform machine config) runtime calls) := by
    apply callAll_induction (Idle fun state => state.Valid ∧ state.Tracks lease)
    · intro here call idle
      refine perform_idle machine config idle.1.1 call ?_ idle
      exact fun change before after _ both step => ⟨both.1.step step, both.2.step step⟩
    · exact ⟨⟨valid.1, tracks⟩, valid.2⟩
  exact kept.1.2

/-- On every run the pending leases are distinct, and each is active or was
committed. -/
theorem callAll_listed (config : Config) (geometry : Geometry) (device : δ) (calls : List Call) :
    Idle (fun state => state.pendingReleases.Nodup ∧ forall lease,
        lease ∈ state.pendingReleases -> lease ∈ state.commits ∨ state.slots.Holds lease)
      (callAll (perform machine config) (.initial config geometry device) calls) := by
  have kept : Idle (fun state => state.Valid ∧ state.pendingReleases.Nodup ∧ forall lease,
        lease ∈ state.pendingReleases -> lease ∈ state.commits ∨ state.slots.Holds lease)
      (callAll (perform machine config) (.initial config geometry device) calls) := by
    apply callAll_induction (Idle _)
    · intro here call idle
      refine perform_idle machine config idle.1.1 call ?_ idle
      rintro change before after _ ⟨valid, nodup, known⟩ step
      refine ⟨valid.step step, step.nodup nodup, fun lease waits => ?_⟩
      by_cases early : lease ∈ before.pendingReleases
      · have tracked : before.Tracks lease := (known lease early).imp id fun held => ⟨early, held⟩
        exact (tracked.step step).imp id And.right
      · rcases step.pending with same | ⟨_, rfl, ready, _, same⟩ | ⟨_, _, _, listed, _, same⟩
        · rw [same] at waits
          exact absurd waits early
        · rw [same] at waits
          rcases List.mem_append.mp waits with old | new
          · exact absurd old early
          · rw [List.mem_singleton.mp new]
            rcases step.holds_or ready.1 with held | ⟨named, _⟩
            · exact Or.inr held
            · cases named
        · rw [same] at waits
          rw [listed] at early
          exact absurd (List.mem_cons_of_mem _ waits) early
    · exact ⟨⟨.initial geometry, List.nodup_nil, fun _ member => absurd member List.not_mem_nil⟩,
        rfl⟩
  exact ⟨kept.1.2, kept.2⟩

end Calls

/-! ## The runs -/

section Runs

variable {δ : Type} (machine : Machine δ) (config : Config)

/-- A release of the row among these calls has drained the lease. -/
def DrainedBefore (machine : Machine δ) (config : Config) (start : QSAHiSparseRuntime δ)
    (calls : List Call) (lease : QSAHiSparseLease) : Prop :=
  exists earlier rid later, calls = earlier ++ .release lease.reqPoolIdx rid :: later ∧
    (callAll (perform machine config) start
      (earlier ++ [.release lease.reqPoolIdx rid])).slots.Permits lease [.drained]

theorem released_drained (geometry : Geometry) (device : δ) (calls : List Call)
    {lease : QSAHiSparseLease}
    (released : (callAll (perform machine config) (.initial config geometry device)
      calls).slots.Permits lease releasedPhases) :
    DrainedBefore machine config (.initial config geometry device) calls lease := by
  induction calls using List.reverseRecOn with
  | nil => cases released.1
  | append_singleton calls call previous =>
      rw [callAll_append] at released
      by_cases earlier : (callAll (perform machine config) (.initial config geometry device)
          calls).slots.Permits lease releasedPhases
      · rcases previous earlier with ⟨first, rid, later, rfl, drained⟩
        refine ⟨first, rid, later ++ [call], ?_, drained⟩
        rw [List.append_assoc]
        rfl
      · have reached := callAll_reachable machine config geometry device calls
        rcases becomes_released machine call (tenancies_valid reached.1) reached.2 earlier
          released with ⟨rid, rfl, drained⟩
        refine ⟨calls, rid, [], rfl, ?_⟩
        rw [callAll_append]
        exact drained

/-- Deferred releases in the state that some calls lead to. -/
structure ReleasesKept (machine : Machine δ) (config : Config) (start last : QSAHiSparseRuntime δ)
    (calls : List Call) : Prop where
  /-- A slot returns to the free list after the drain of its lease, in a flush
  outside any group. -/
  freed : forall call slot, slot ∉ last.slots.freeSlots ->
    slot ∈ (finalState ((perform machine config call).run last)).slots.freeSlots ->
    exists lease, lease.slot = slot ∧ last.slots.Holds lease ∧
      DrainedBefore machine config start calls lease ∧ call.Flushes last
  /-- Each pending lease is there once, and is active unless it was committed. -/
  pending : last.pendingReleases.Nodup ∧ forall lease, lease ∈ last.pendingReleases ->
    last.slots.Holds lease ∨ lease ∈ last.commits.map Prod.fst
  once : (last.commits.map Prod.fst).Nodup
  /-- Deferred inside a group, whether or not the ledger is written. -/
  deferred : forall lease, last.freeGroupOpen = true -> last.slots.Permits lease [.drained] ->
    lease ∈ (finalState ((afterRelease machine lease).run last)).pendingReleases
  /-- Once pending, a lease stays so until it is committed. -/
  waits : forall first rest, calls = first ++ rest -> forall lease,
    lease ∈ (callAll (perform machine config) start first).pendingReleases ->
    lease ∈ last.pendingReleases ∨ lease ∈ last.commits.map Prod.fst
  /-- A flush outside a group that does not fail commits every pending lease,
  whatever failed before it. -/
  flushed : forall again : Machine δ, forall call, (call = .freeGroupEnd ∨
      (call = .logicalFlush ∧ last.freeGroupOpen = false)) ->
    forall after, (perform again config call).run last = .ok ⟨⟩ after ->
      after.pendingReleases = [] ∧
      after.commits.map Prod.fst = last.commits.map Prod.fst ++ last.pendingReleases
  /-- After a direct `after_release` that failed before its commit, another one
  commits. -/
  retried : forall lease cause after, last.freeGroupOpen = false ->
    last.slots.Permits lease releasedPhases ->
    (afterRelease machine lease).run last = .error cause after -> after.slots.Holds lease ->
    forall again : Machine δ,
      (forall final, (afterRelease again lease).run after = .ok ⟨⟩ final ->
        GivenBack lease after final) ∧
      (again.Reliable -> exists final, (afterRelease again lease).run after = .ok ⟨⟩ final)
  owned : forall row lease, last.requests.get? row = some lease ->
    last.slots.active.get? row = some lease

/-- Of a run that leaves the pending leases to the list: they are all active, and
a flush outside a group in which nothing fails returns, whatever failed before
it. -/
structure PendingActive (config : Config) (last : QSAHiSparseRuntime δ) : Prop where
  active : forall lease, lease ∈ last.pendingReleases -> last.slots.Holds lease
  returns : forall again : Machine δ, again.Reliable ->
    forall call, (call = .freeGroupEnd ∨
      (call = .logicalFlush ∧ last.freeGroupOpen = false)) ->
    exists after, (perform again config call).run last = .ok ⟨⟩ after

/-- Inside a group a drained lease is pending afterwards, however the call
leaves. -/
theorem afterRelease_defers {lease : QSAHiSparseLease} {runtime : QSAHiSparseRuntime δ}
    (opened : runtime.freeGroupOpen = true) (drained : runtime.slots.Permits lease [.drained]) :
    Leaves (fun _ after => lease ∈ after.pendingReleases)
      (fun _ after => lease ∈ after.pendingReleases)
      ((afterRelease machine lease).run runtime) := by
  unfold afterRelease
  apply (Leaves.bind_iff _ _ _).mpr
  apply Leaves.mono (zoom_require_outcome lease ledger (by simp) runtime)
  · rintro _ here ⟨_, rfl⟩
    apply (Leaves.bind_iff _ _ _).mpr
    apply (Leaves.get_iff _).mpr
    rw [if_pos opened]
    unfold deferRelease
    apply (Leaves.bind_iff _ _ _).mpr
    apply Leaves.mono (zoom_require_outcome lease ledger (by simp) here)
    · rintro _ last ⟨_, rfl⟩
      apply (Leaves.bind_iff _ _ _).mpr
      apply (Leaves.get_iff _).mpr
      apply (Leaves.bind_iff _ _ _).mpr
      apply (Leaves.raiseIf_iff _ _ _).mpr
      refine ⟨fun waits => waits, fun _ => ?_⟩
      have listed : lease ∈ last.pendingReleases ++ [lease] :=
        List.mem_append_right _ (List.mem_singleton_self lease)
      apply (device_leaves (machine.outside .eventLog)
        { last with pendingReleases := last.pendingReleases ++ [lease] }).mono
      · rintro _ after ⟨next, rfl⟩
        exact listed
      · rintro _ after ⟨⟨next, rfl⟩, _⟩
        exact listed
    · rintro _ last ⟨refused, _⟩
      exact absurd drained refused
  · rintro _ here ⟨refused, _⟩
    rcases drained with ⟨held, phase, present, inside⟩
    exact absurd ⟨held, phase, present, List.mem_cons.mpr (Or.inl (List.mem_singleton.mp inside))⟩
      refused

/-- The lease whose slot a call frees. -/
theorem freed_lease {before after : QSAHiSparseSlots} (valid : LedgerInvariant before)
    (validAfter : LedgerInvariant after) (geometry : after.geometry = before.geometry)
    {slot : Nat} (taken : slot ∉ before.freeSlots) (free : slot ∈ after.freeSlots) :
    exists lease, lease.slot = slot ∧ before.Holds lease ∧ ¬ after.Holds lease := by
  have inside := validAfter.partition.mem_iff.mp (List.mem_append_left _ free)
  rw [geometry] at inside
  rcases List.mem_append.mp (valid.partition.mem_iff.mpr inside) with early | active
  · exact absurd early taken
  · rcases List.mem_map.mp active with ⟨lease, listed, named⟩
    rcases Dict.mem_values_iff.mp listed with ⟨row, found⟩
    have own := (valid.own_entry row lease found).1
    have held : before.Holds lease := by
      unfold QSAHiSparseSlots.Holds
      rw [own]
      exact found
    refine ⟨lease, named, held, fun still => ?_⟩
    exact validAfter.slot_taken still (named ▸ free)

/-- A flush outside a group commits the whole list when it returns, and it
returns when nothing fails. -/
theorem flush_commits {call : Call} {last : QSAHiSparseRuntime δ}
    (idle : Idle Tenancy.Valid last)
    (kind : call = .freeGroupEnd ∨ (call = .logicalFlush ∧ last.freeGroupOpen = false)) :
    Leaves
      (fun _ after => after.pendingReleases = [] ∧
        after.commits.map Prod.fst = last.commits.map Prod.fst ++ last.pendingReleases)
      (fun _ _ => Idle Tenancy.Queued last -> ¬ machine.Reliable)
      ((perform machine config call).run last) := by
  rcases kind with rfl | ⟨rfl, closed⟩
  · have ended : Idle Tenancy.Valid { last with freeGroupOpen := false } :=
      ⟨idle.1.step (.grouped false), idle.2⟩
    apply (flushPending_commits machine last.pendingReleases.length ended (Nat.le_refl _) rfl).mono
    · exact fun _ _ commits => commits
    · exact fun _ _ unreliable queued => unreliable
        ⟨queued.1.step (.grouped false) fun lease waits => ⟨nofun, nofun⟩, queued.2⟩
  · exact flushPending_commits machine last.pendingReleases.length idle (Nat.le_refl _) closed

variable {machine config}

/-- While its lease is held, a direct `after_release` that raises leaves it
released and the group closed. -/
theorem afterRelease_raising {lease : QSAHiSparseLease} {last after : QSAHiSparseRuntime δ}
    (idle : Idle Tenancy.Valid last) (closed : last.freeGroupOpen = false)
    (permits : last.slots.Permits lease releasedPhases) {cause : PyError}
    (raised : (afterRelease machine lease).run last = .error cause after) :
    after.tenancy.Valid ∧ after.freeGroupOpen = false ∧
      (after.slots.Holds lease -> after.slots.Permits lease releasedPhases) := by
  have closes : Closed (commitChanges lease) fun state => state.Valid ∧
      state.freeGroupOpen = false ∧
      (state.slots.Holds lease -> state.slots.Permits lease releasedPhases) := by
    rintro change before later allowed ⟨valid, grouped, phases⟩ step
    rcases allowed with rfl | rfl | rfl
    · cases step with
      | deferred _ ready opened fresh =>
          rw [grouped] at opened
          cases opened
    · refine ⟨valid.step step, ?_, fun heldLater => ?_⟩
      · cases step
        exact grouped
      · cases step with
        | flushed _ ready closed =>
            exact Tenancy.Step.keeps_released (.flushed lease ready closed) nofun nofun
              (phases ready.1)
    · refine ⟨valid.step step, ?_, fun heldLater => ?_⟩
      · cases step
        exact grouped
      · cases step with
        | committed _ ready closed => exact absurd rfl (giveBack_holds_cases heldLater).1
  have ran := afterRelease_idle machine closes last ⟨⟨idle.1, closed, fun _ => permits⟩, idle.2⟩
  rw [raised] at ran
  exact ran.1

theorem afterRelease_retried {lease : QSAHiSparseLease} {last after : QSAHiSparseRuntime δ}
    (idle : Idle Tenancy.Valid last) (closed : last.freeGroupOpen = false)
    (permits : last.slots.Permits lease releasedPhases) {cause : PyError}
    (raised : (afterRelease machine lease).run last = .error cause after)
    (held : after.slots.Holds lease) (again : Machine δ) :
    (forall final, (afterRelease again lease).run after = .ok ⟨⟩ final ->
      GivenBack lease after final) ∧
    (again.Reliable -> exists final, (afterRelease again lease).run after = .ok ⟨⟩ final) := by
  rcases afterRelease_raising idle closed permits raised with ⟨valid, grouped, phases⟩
  have given := afterRelease_leaves again (phases held) (valid.released lease (phases held)) grouped
  constructor
  · intro final ran
    rw [ran] at given
    exact given
  · intro reliable
    cases ran : (afterRelease again lease).run after with
    | ok _ final => exact ⟨final, rfl⟩
    | error cause final =>
        rw [ran] at given
        exact absurd reliable given

variable (machine config)

/-- No run loses or doubles a deferred release, whatever fails in it; and in one
in which `after_release` and `handoff` are used with discipline the pending
leases are active. -/
theorem deferred_releases_kept (geometry : Geometry) (device : δ) (calls : List Call) :
    ReleasesKept machine config (.initial config geometry device)
      (callAll (perform machine config) (.initial config geometry device) calls) calls ∧
    (DisciplinedRun machine config (.initial config geometry device) calls ->
      PendingActive config
        (callAll (perform machine config) (.initial config geometry device) calls)) := by
  have start : Idle Tenancy.Queued (.initial config geometry device : QSAHiSparseRuntime δ) :=
    ⟨⟨.initial geometry, List.nodup_nil, fun _ member => absurd member List.not_mem_nil⟩, rfl⟩
  have idle : Idle Tenancy.Valid
      (callAll (perform machine config) (.initial config geometry device) calls) :=
    ⟨callAll_valid machine config geometry device calls,
      (callAll_reachable machine config geometry device calls).2⟩
  have kept := callAll_listed machine config geometry device calls
  constructor
  · refine
      { freed := fun call slot taken free => ?_
        pending := ⟨kept.1.1, fun lease waits => (kept.1.2 lease waits).symm⟩
        once := idle.1.once
        deferred := fun lease opened drained =>
          Leaves.finalState_iff.mp (afterRelease_defers machine opened drained)
        waits := fun first rest split lease waits => ?_
        flushed := fun again call kind after ran => ?_
        retried := fun lease cause after closed permits raised held again =>
          afterRelease_retried idle closed permits raised held again
        owned := fun row lease found => ?_ }
    · have validAfter := callAll_valid machine config geometry device (calls ++ [call])
      have builtAfter := callAll_geometry machine config geometry device (calls ++ [call])
      have built := callAll_geometry machine config geometry device calls
      rw [callAll_append] at validAfter builtAfter
      rcases freed_lease idle.1.ledger validAfter.ledger (builtAfter.trans built.symm) taken
        free with ⟨lease, named, held, ended⟩
      rcases ends_released machine call idle.1 idle.2 held ended with ⟨permits, flushes⟩
      exact ⟨lease, named, held, released_drained machine config geometry device calls permits,
        flushes⟩
    · subst split
      have middle : Idle Tenancy.Valid
          (callAll (perform machine config) (.initial config geometry device) first) :=
        ⟨callAll_valid machine config geometry device first,
          (callAll_reachable machine config geometry device first).2⟩
      have listed := callAll_listed machine config geometry device first
      have tracked := callAll_tracks machine config rest middle
        ((listed.1.2 lease waits).imp id fun held => ⟨waits, held⟩)
      rw [<- callAll_append] at tracked
      rcases tracked with done | ⟨still, _⟩
      · exact Or.inr done
      · exact Or.inl still
    · have commits := flush_commits again config idle kind
      rw [ran] at commits
      exact commits
    · rcases idle.1.owned row lease found with ⟨named, held⟩
      rw [<- named]
      exact held
  · intro disciplined
    have queued := callAll_queued machine calls disciplined start
    refine ⟨fun lease waits => (queued.1.released lease waits).1,
      fun again reliable call kind => ?_⟩
    have commits := flush_commits again config idle kind
    cases ran : (perform again config call).run
        (callAll (perform machine config) (.initial config geometry device) calls) with
    | ok _ after => exact ⟨after, rfl⟩
    | error cause after =>
        rw [ran] at commits
        exact absurd reliable (commits queued)

/-- The request of `oneDecode` is released, and its `after_release` runs inside a
free group. -/
def oneDeferred : List Call :=
  oneDecode.take 2 ++ [.release 1 "a", .freeGroupBegin, .afterRelease (some onlyLease)]

theorem oneDeferred_disciplined : DisciplinedRun (queueMachine (faultAt 9)) offloading
    (.initial offloading oneLane CopyQueue.empty) (oneDeferred ++ [.freeGroupEnd]) := by
  simp only [oneDeferred, oneDecode, List.take, List.cons_append, List.nil_append, DisciplinedRun,
    Call.Disciplined, true_and, and_true]
  intro closed
  exact absurd closed (by decide +kernel)

/-- The end of the group fails at the commit; the lease stays on the list, and a
flush in which nothing fails returns. -/
theorem deferred_releases_kept_commit :
    onlyLease ∈ (callAll (perform (queueMachine (faultAt 9)) offloading)
        (.initial offloading oneLane CopyQueue.empty)
        (oneDeferred ++ [.freeGroupEnd])).pendingReleases ∧
      PendingActive offloading (callAll (perform (queueMachine (faultAt 9)) offloading)
        (.initial offloading oneLane CopyQueue.empty) (oneDeferred ++ [.freeGroupEnd])) ∧
      exists after, (perform (queueMachine (lostRecord false)) offloading .logicalFlush).run
        (callAll (perform (queueMachine (faultAt 9)) offloading)
          (.initial offloading oneLane CopyQueue.empty)
          (oneDeferred ++ [.freeGroupEnd])) = .ok ⟨⟩ after := by
  have kept := deferred_releases_kept (queueMachine (faultAt 9)) offloading oneLane
    CopyQueue.empty (oneDeferred ++ [.freeGroupEnd])
  have active := kept.2 oneDeferred_disciplined
  have silent : (lostRecord false).Quiet := fun _ _ => rfl
  refine ⟨by decide +kernel, active, ?_⟩
  exact active.returns (queueMachine (lostRecord false)) (queueMachine_reliable silent)
    .logicalFlush (Or.inr ⟨rfl, by decide +kernel⟩)

/-- Once the end of the group has failed at the commit, a direct `after_release`
commits the lease and leaves it on the list. -/
theorem deferred_committed_directly :
    ¬ forall calls : List Call, forall lease,
      lease ∈ (callAll (perform (queueMachine (faultAt 9)) offloading)
        (.initial offloading oneLane CopyQueue.empty) calls).pendingReleases ->
      (callAll (perform (queueMachine (faultAt 9)) offloading)
        (.initial offloading oneLane CopyQueue.empty) calls).slots.Holds lease := by
  intro active
  have gone := active (oneDeferred ++ [.freeGroupEnd, .afterRelease (some onlyLease)]) onlyLease
    (by decide +kernel)
  revert gone
  unfold Ledger.QSAHiSparseSlots.Holds
  decide +kernel

end Runs

end Runtime
end QSAHiSparse

import QSAHiSparse.Runtime.Reliable

namespace QSAHiSparse
namespace Runtime

open Foundation
open Ledger

/-!
# The list of pending releases

A lease released inside a free group stands on the pending list until a flush
outside the group commits it.  A flush may raise anywhere and leave its head
flushed but not committed; the next flush goes on from there.
-/

/-! ## The pending list between calls -/

/-- The pending leases are distinct, and released. -/
structure Tenancy.Queued (state : Tenancy) : Prop where
  valid : state.Valid
  nodup : state.pendingReleases.Nodup
  released : forall lease, lease ∈ state.pendingReleases ->
    state.slots.Permits lease releasedPhases

/-- The lease is committed, or it waits and is active. -/
def Tenancy.Tracks (lease : QSAHiSparseLease) (state : Tenancy) : Prop :=
  lease ∈ state.commits ∨ (lease ∈ state.pendingReleases ∧ state.slots.Holds lease)

namespace Tenancy

variable {state after : Tenancy} {lease : QSAHiSparseLease}

/-- A change that is not about the lease, or is its flush, leaves it released. -/
theorem Step.keeps_released {change : Change} (step : Step state change after)
    (handoff : change ≠ .handoffFailed lease) (commit : change ≠ .committed lease)
    (permits : state.slots.Permits lease releasedPhases) :
    after.slots.Permits lease releasedPhases := by
  have other {others : List Phase} {changed : QSAHiSparseLease}
      (ready : state.slots.Permits changed others)
      (apart : forall phase, phase ∈ releasedPhases -> phase ∉ others) : lease ≠ changed := by
    rintro rfl
    exact permits_disjoint permits ready apart
  cases step with
  | granted changed rest real positive named free newer unowned slots =>
      exact grant_permits free permits
  | enlisted changed held => exact permits
  | copying changed ready owner => exact setPhase_other ready.1 (other ready (by decide)) permits
  | staged changed ready owner => exact setPhase_other ready.1 (other ready (by decide)) permits
  | admitted changed ready => exact setPhase_other ready.1 (other ready (by decide)) permits
  | handoffFailed changed held =>
      exact setPhase_other held (fun same => handoff (same ▸ rfl)) permits
  | replayFailed changed ready =>
      exact setPhase_other ready.1 (other ready (by decide)) permits
  | marked leases failed => exact permits
  | settled leases => exact permits
  | interrupted changed ready =>
      exact setPhase_other ready.1 (other ready (by decide)) permits
  | drainFailed changed ready =>
      have different := other ready (by decide)
      have held : (state.slots.setPhase changed .releasing).Holds changed := ready.1
      exact setPhase_other held different (setPhase_other ready.1 different permits)
  | drained changed ready found unmarked =>
      have different := other ready (by decide)
      have held : (state.slots.setPhase changed .releasing).Holds changed := ready.1
      refine setPhase_other (leaveLane_holds.mpr held) different (leaveLane_permits.mpr ?_)
      exact setPhase_other ready.1 different permits
  | flushed changed ready closed =>
      by_cases same : lease = changed
      · rw [same]
        rcases ready.1.setPhase_permits .logicalFlushed with ⟨held, phase, present, inside⟩
        rw [List.mem_singleton] at inside
        exact ⟨held, phase, present, by rw [inside]; decide⟩
      · exact setPhase_other ready.1 same permits
  | committed changed ready closed =>
      exact giveBack_permits ready.1 (fun same => commit (same ▸ rfl)) permits
  | deferred changed ready opened fresh => exact permits
  | popped changed rest listed inactive => exact permits
  | grouped isOpen => exact permits

/-- Only its commit ends a lease. -/
theorem Step.holds_or {change : Change} (step : Step state change after)
    (held : state.slots.Holds lease) :
    after.slots.Holds lease ∨ (change = .committed lease ∧
      state.slots.Permits lease [.logicalFlushed] ∧ state.freeGroupOpen = false) := by
  cases step with
  | granted changed rest real positive named free newer unowned slots =>
      exact Or.inl (grant_holds free held)
  | drained changed ready found unmarked => exact Or.inl (leaveLane_holds.mpr held)
  | committed changed ready closed =>
      by_cases same : lease = changed
      · rw [same]
        exact Or.inr ⟨rfl, ready, closed⟩
      · have rows : lease.reqPoolIdx ≠ changed.reqPoolIdx := fun equal =>
          same (held_unique ready.1 held equal)
        exact Or.inl (giveBack_holds rows held)
  | _ => exact Or.inl held

/-- The pending list grows by a deferral and shrinks by a pop. -/
theorem Step.pending {change : Change} (step : Step state change after) :
    after.pendingReleases = state.pendingReleases ∨
      (exists lease, change = .deferred lease ∧ state.slots.Permits lease [.drained] ∧
        lease ∉ state.pendingReleases ∧ after.pendingReleases = state.pendingReleases ++ [lease]) ∨
      exists lease rest, change = .popped lease ∧ state.pendingReleases = lease :: rest ∧
        state.slots.active.contains lease.reqPoolIdx = false ∧ after.pendingReleases = rest := by
  cases step with
  | deferred lease ready opened fresh => exact Or.inr (Or.inl ⟨lease, rfl, ready, fresh, rfl⟩)
  | popped lease rest listed inactive => exact Or.inr (Or.inr ⟨lease, rest, rfl, listed, inactive, rfl⟩)
  | _ => exact Or.inl rfl

theorem Step.commits {change : Change} (step : Step state change after) :
    after.commits = state.commits ∨
      exists lease, change = .committed lease ∧ after.commits = state.commits ++ [lease] := by
  cases step with
  | committed lease ready closed => exact Or.inr ⟨lease, rfl, rfl⟩
  | _ => exact Or.inl rfl

/-- Only a lease that does not wait is deferred. -/
theorem Step.nodup {change : Change} (step : Step state change after)
    (nodup : state.pendingReleases.Nodup) : after.pendingReleases.Nodup := by
  rcases step.pending with same | ⟨lease, _, _, fresh, same⟩ | ⟨lease, rest, _, listed, _, same⟩
  · rw [same]
    exact nodup
  · rw [same]
    refine List.nodup_append.mpr ⟨nodup, List.nodup_singleton lease, ?_⟩
    rintro other member last isLast rfl
    rw [List.mem_singleton] at isLast
    exact fresh (isLast ▸ member)
  · rw [listed] at nodup
    rw [same]
    exact (List.nodup_cons.mp nodup).2

/-- A change that touches no pending lease but by its flush keeps the list. -/
theorem Queued.step {change : Change} (queued : state.Queued) (step : Step state change after)
    (spares : forall lease, lease ∈ state.pendingReleases ->
      change ≠ .handoffFailed lease ∧ change ≠ .committed lease) : after.Queued := by
  have kept : forall lease, lease ∈ state.pendingReleases ->
      after.slots.Permits lease releasedPhases := fun lease member =>
    step.keeps_released (spares lease member).1 (spares lease member).2
      (queued.released lease member)
  refine ⟨queued.valid.step step, step.nodup queued.nodup, ?_⟩
  intro lease member
  rcases step.pending with same | ⟨deferred, rfl, ready, _, same⟩ | ⟨popped, rest, _, listed, _, same⟩
  · rw [same] at member
    exact kept lease member
  · rw [same] at member
    rcases List.mem_append.mp member with old | new
    · exact kept lease old
    · rw [List.mem_singleton.mp new]
      rcases ready with ⟨held, phase, present, inside⟩
      rw [List.mem_singleton] at inside
      exact step.keeps_released nofun nofun ⟨held, phase, present, by rw [inside]; decide⟩
  · rw [same] at member
    exact kept lease (by rw [listed]; exact List.mem_cons_of_mem _ member)

/-- A waiting lease leaves the list only by its commit. -/
theorem Tracks.step {change : Change} (tracks : Tracks lease state)
    (step : Step state change after) : Tracks lease after := by
  rcases tracks with done | ⟨waits, held⟩
  · apply Or.inl
    rcases step.commits with same | ⟨other, _, same⟩
    · rw [same]
      exact done
    · rw [same]
      exact List.mem_append_left _ done
  rcases step.holds_or held with stays | ⟨rfl, _⟩
  · refine Or.inr ⟨?_, stays⟩
    rcases step.pending with same | ⟨_, _, _, _, same⟩ | ⟨popped, rest, _, listed, inactive, same⟩
    · rw [same]
      exact waits
    · rw [same]
      exact List.mem_append_left _ waits
    · rw [same]
      rw [listed] at waits
      rcases List.mem_cons.mp waits with isHead | later
      · have active : state.slots.active.contains popped.reqPoolIdx = true := by
          rw [Dict.contains, decide_eq_true_eq, <- isHead]
          exact Dict.mem_keys_iff.mpr ⟨lease, held⟩
        rw [active] at inactive
        cases inactive
      · exact later
  · cases step with
    | committed _ ready closed =>
        exact Or.inl (List.mem_append_right _ (List.mem_singleton_self lease))

end Tenancy

/-! ## A flush -/

section Flush

variable {δ : Type} (machine : Machine δ) {lease : QSAHiSparseLease}
  {rest : List QSAHiSparseLease}

/-- While a flush is at its head, the head is still released or its row is
free. -/
structure Turning (lease : QSAHiSparseLease) (rest : List QSAHiSparseLease) (state : Tenancy) :
    Prop where
  valid : state.Valid
  listed : state.pendingReleases = lease :: rest
  nodup : (lease :: rest).Nodup
  released : forall other, other ∈ rest -> state.slots.Permits other releasedPhases
  head : state.slots.Permits lease releasedPhases ∨
    state.slots.active.contains lease.reqPoolIdx = false

theorem turning_closed (lease : QSAHiSparseLease) (rest : List QSAHiSparseLease) :
    Closed (commitChanges lease) (Turning lease rest) := by
  intro change before after allowed turning step
  have others : forall other, other ∈ rest -> after.slots.Permits other releasedPhases := by
    intro other member
    have different : other ≠ lease := fun same =>
      (List.nodup_cons.mp turning.nodup).1 (same ▸ member)
    refine step.keeps_released ?_ ?_ (turning.released other member)
    · rcases allowed with rfl | rfl | rfl <;> exact nofun
    · rcases allowed with rfl | rfl | rfl
      · exact nofun
      · exact nofun
      · exact fun same => different (Change.committed.inj same).symm
  have valid := turning.valid.step step
  have listed : after.pendingReleases = lease :: rest := by
    rcases step.pending with same | ⟨other, named, _, fresh, _⟩ | ⟨other, _, named, _⟩
    · rw [same]
      exact turning.listed
    · rcases allowed with rfl | rfl | rfl
      · rw [turning.listed, <- Change.deferred.inj named] at fresh
        exact absurd List.mem_cons_self fresh
      · cases named
      · cases named
    · rcases allowed with rfl | rfl | rfl <;> cases named
  refine ⟨valid, listed, turning.nodup, others, ?_⟩
  rcases allowed with rfl | rfl | rfl
  · cases step
    exact turning.head
  · cases step with
    | flushed _ ready closed =>
        apply Or.inl
        rcases ready.1.setPhase_permits .logicalFlushed with ⟨held, phase, present, inside⟩
        rw [List.mem_singleton] at inside
        exact ⟨held, phase, present, by rw [inside]; decide⟩
  · cases step with
    | committed _ ready closed =>
        apply Or.inr
        rw [Dict.contains, decide_eq_false_iff_not]
        intro member
        rcases Dict.mem_keys_iff.mp member with ⟨other, found⟩
        change (before.slots.active.erase lease.reqPoolIdx).get? lease.reqPoolIdx = _ at found
        rw [Dict.get?_erase_self] at found
        cases found

theorem popReleased_queued :
    Ensures (Idle (Turning lease rest)) (popReleased (δ := δ) lease)
      (fun _ => Idle Tenancy.Queued) (fun _ => Idle Tenancy.Queued) := by
  rintro runtime ⟨turning, unset⟩
  have listed : runtime.pendingReleases = lease :: rest := turning.listed
  unfold popReleased
  apply (Leaves.modify_iff _ _).mpr
  by_cases active : runtime.slots.active.contains lease.reqPoolIdx = true
  · rw [if_pos active]
    refine ⟨⟨turning.valid, ?_, ?_⟩, unset⟩
    · rw [turning.listed]
      exact turning.nodup
    · intro other member
      rw [turning.listed] at member
      rcases List.mem_cons.mp member with rfl | later
      · rcases turning.head with permits | inactive
        · exact permits
        · change runtime.slots.active.contains _ = false at inactive
          rw [active] at inactive
          cases inactive
      · exact turning.released other later
  · rw [if_neg active]
    have popped : Tenancy.Step runtime.tenancy (.popped lease)
        { runtime.tenancy with pendingReleases := rest } :=
      .popped lease rest listed (Bool.eq_false_iff.mpr active)
    have tenancy : ({ runtime with pendingReleases := runtime.pendingReleases.tail } :
        QSAHiSparseRuntime δ).tenancy = { runtime.tenancy with pendingReleases := rest } := by
      unfold QSAHiSparseRuntime.tenancy
      rw [listed]
      rfl
    refine ⟨?_, unset⟩
    rw [tenancy]
    exact ⟨turning.valid.step popped, (List.nodup_cons.mp turning.nodup).2, turning.released⟩

theorem Idle.turning {runtime : QSAHiSparseRuntime δ} (idle : Idle Tenancy.Queued runtime)
    (listed : runtime.pendingReleases = lease :: rest) : Idle (Turning lease rest) runtime := by
  rcases idle with ⟨⟨valid, nodup, released⟩, unset⟩
  have equal : runtime.tenancy.pendingReleases = lease :: rest := listed
  rw [equal] at nodup released
  exact ⟨⟨valid, equal, nodup, fun other member => released other (List.mem_cons_of_mem _ member),
    Or.inl (released lease List.mem_cons_self)⟩, unset⟩

/-- Whether or not a turn raises. -/
theorem flushTurn_queued {runtime : QSAHiSparseRuntime δ} (idle : Idle Tenancy.Queued runtime)
    (listed : runtime.pendingReleases = lease :: rest) :
    Leaves (fun _ => Idle Tenancy.Queued) (fun _ => Idle Tenancy.Queued)
      ((tryFinally (afterRelease machine lease) (popReleased lease) :
        Method (QSAHiSparseRuntime δ) PUnit).run runtime) := by
  have turns := afterRelease_idle machine (turning_closed lease rest) runtime (idle.turning listed)
  apply (Leaves.tryFinally_iff _ _ _).mpr
  apply turns.mono
  · exact fun _ after turning => popReleased_queued after turning
  · exact fun _ after turning => popReleased_queued after turning

theorem flushPending_queued (turns : Nat) :
    Preserves (Idle Tenancy.Queued)
      (flushPending machine turns : Method (QSAHiSparseRuntime δ) PUnit) := by
  induction turns with
  | zero => exact Preserves.pure PUnit.unit
  | succ turns previous =>
      intro runtime idle
      unfold flushPending
      apply (Leaves.bind_iff _ _ _).mpr
      apply (Leaves.get_iff _).mpr
      cases listed : runtime.pendingReleases with
      | nil => exact idle
      | cons lease rest =>
          apply (Leaves.bind_iff _ _ _).mpr
          apply (flushTurn_queued machine idle listed).mono
          · exact fun _ after idle => previous after idle
          · exact fun _ _ idle => idle

/-- A turn that returns has committed its lease and popped it. -/
theorem flushTurn_commits {runtime : QSAHiSparseRuntime δ} (valid : runtime.tenancy.Valid)
    (listed : runtime.pendingReleases = lease :: rest) (closed : runtime.freeGroupOpen = false) :
    Leaves
      (fun _ after => after.pendingReleases = rest ∧ after.freeGroupOpen = false ∧
        after.commits.map Prod.fst = runtime.commits.map Prod.fst ++ [lease])
      (fun _ _ => runtime.slots.Permits lease releasedPhases -> ¬ machine.Reliable)
      ((tryFinally (afterRelease machine lease) (popReleased lease) :
        Method (QSAHiSparseRuntime δ) PUnit).run runtime) := by
  apply (Leaves.tryFinally_iff _ _ _).mpr
  by_cases released : runtime.slots.Permits lease releasedPhases
  · apply (afterRelease_leaves machine released (valid.released lease released) closed).mono
    · intro _ after given
      unfold popReleased
      apply (Leaves.modify_iff _ _).mpr
      rw [if_neg (by rw [given.inactive]; exact Bool.false_ne_true)]
      refine ⟨?_, given.group.trans closed, given.commits⟩
      change after.pendingReleases.tail = rest
      rw [given.pending, listed]
      rfl
    · intro _ after unreliable
      unfold popReleased
      exact (Leaves.modify_iff _ _).mpr fun _ => unreliable
  · unfold afterRelease
    apply (Leaves.bind_iff _ _ _).mpr
    apply Leaves.mono (zoom_require_outcome lease ledger (by simp) runtime)
    · rintro _ here ⟨permits, _⟩
      exact absurd permits released
    · intro _ here _
      unfold popReleased
      exact (Leaves.modify_iff _ _).mpr fun permits => absurd permits released

/-- A flush outside a group that returns has committed the whole list, in
order; it returns when nothing fails and every lease on the list is still
released. -/
theorem flushPending_commits (turns : Nat) {runtime : QSAHiSparseRuntime δ}
    (idle : Idle Tenancy.Valid runtime) (enough : runtime.pendingReleases.length ≤ turns)
    (closed : runtime.freeGroupOpen = false) :
    Leaves
      (fun _ after => after.pendingReleases = [] ∧
        after.commits.map Prod.fst = runtime.commits.map Prod.fst ++ runtime.pendingReleases)
      (fun _ _ => Idle Tenancy.Queued runtime -> ¬ machine.Reliable)
      ((flushPending machine turns).run runtime) := by
  induction turns generalizing runtime with
  | zero =>
      have empty := List.length_eq_zero_iff.mp (Nat.le_zero.mp enough)
      refine ⟨empty, ?_⟩
      rw [empty, List.append_nil]
  | succ turns previous =>
      unfold flushPending
      apply (Leaves.bind_iff _ _ _).mpr
      apply (Leaves.get_iff _).mpr
      cases listed : runtime.pendingReleases with
      | nil =>
          refine ⟨listed, ?_⟩
          rw [List.append_nil]
      | cons lease rest =>
          have member : lease ∈ runtime.pendingReleases := by
            rw [listed]
            exact List.mem_cons_self
          have valid : Closed (flushChanges runtime.pendingReleases) Tenancy.Valid :=
            fun _ _ _ _ valid step => valid.step step
          have queued : Leaves (fun _ after => Idle Tenancy.Queued runtime -> Idle Tenancy.Queued after)
              (fun _ _ => True)
              ((tryFinally (afterRelease machine lease) (popReleased lease) :
                Method (QSAHiSparseRuntime δ) PUnit).run runtime) := by
            by_cases queued : Idle Tenancy.Queued runtime
            · apply (flushTurn_queued machine queued listed).mono
              · exact fun _ _ kept _ => kept
              · exact fun _ _ _ => trivial
            · apply (flushTurn_idle machine member valid listed idle).mono
              · exact fun _ _ _ assumed => absurd assumed queued
              · exact fun _ _ _ => trivial
          apply (Leaves.bind_iff _ _ _).mpr
          apply (((flushTurn_idle machine member valid listed idle).and queued).and
            (flushTurn_commits machine idle.1 listed closed)).mono
          · rintro _ middle ⟨⟨kept, queues⟩, popped, grouped, commits⟩
            rw [listed, List.length_cons] at enough
            have shorter : middle.pendingReleases.length ≤ turns := by
              rw [popped]
              omega
            apply (previous kept shorter grouped).mono
            · rintro _ after ⟨empty, all⟩
              refine ⟨empty, ?_⟩
              rw [all, commits, popped, List.append_assoc]
              rfl
            · exact fun _ _ unreliable queued => unreliable (queues queued)
          · exact fun _ _ both queued => both.2 (queued.1.released lease member)

end Flush

end Runtime
end QSAHiSparse

import QSAHiSparse.Runtime.CallChanges

namespace QSAHiSparse
namespace Runtime

open Foundation
open Ledger

/-!
# Calls in which nothing fails

The runtime checks its own state before it writes.  Once the checks pass, only a
call that leaves the runtime can still raise, so on a machine whose calls all
return the commit of a released lease runs to its end.
-/

section Reliable

variable {δ : Type}

/-- The program returns from every state. -/
def Returns {σ α : Type} (program : Method σ α) : Prop :=
  forall state, Leaves (fun _ _ => True) (fun _ _ => False) (program.run state)

/-- Every call of the machine returns. -/
structure Machine.Reliable (machine : Machine δ) : Prop where
  submit : forall site stream work, Returns (machine.submit site stream work)
  record : forall site stream, Returns (machine.record site stream)
  waitEvent : forall site stream mark, Returns (machine.waitEvent site stream mark)
  synchronize : forall site mark, Returns (machine.synchronize site mark)
  drain : forall site stream, Returns (machine.drain site stream)
  outside : forall site, Returns (machine.outside site)
  ask : forall site, Returns (machine.ask site)

/-- A device call moves only the device, and raises only when it is one that
can. -/
theorem device_leaves {α : Type} (program : Method δ α) (runtime : QSAHiSparseRuntime δ) :
    Leaves (fun _ after => Beside runtime after)
      (fun _ after => Beside runtime after ∧ ¬ Returns program)
      ((device.zoom program).run runtime) := by
  apply (device.leaves_zoom program runtime).mpr
  have answered : Returns program ->
      Leaves (fun _ _ => True) (fun _ _ => False) (program.run (device.get runtime)) :=
    fun returns => returns _
  cases ran : program.run (device.get runtime) with
  | ok value next => exact ⟨next, rfl⟩
  | error cause next =>
      rw [ran] at answered
      exact ⟨⟨next, rfl⟩, answered⟩

variable (machine : Machine δ)

theorem outside_reliable (site : Site) (runtime : QSAHiSparseRuntime δ) :
    Leaves (fun _ after => Beside runtime after) (fun _ _ => ¬ machine.Reliable)
      ((device.zoom (machine.outside site)).run runtime) :=
  (device_leaves _ runtime).mono (fun _ _ beside => beside)
    fun _ _ both reliable => both.2 (reliable.outside site)

/-! ## The commit -/

/-- The slot of the lease is free again and its request is gone. -/
def GivenBack (lease : QSAHiSparseLease) (before after : QSAHiSparseRuntime δ) : Prop :=
  exists slots : QSAHiSparseSlots,
    (slots = before.slots ∨ slots = before.slots.setPhase lease .logicalFlushed) ∧
    after.tenancy =
      { before.tenancy with
        slots := slots.giveBack lease
        requests := before.requests.erase lease.reqPoolIdx
        commits := before.commits.map Prod.fst ++ [lease] }

namespace GivenBack

variable {lease : QSAHiSparseLease} {before after : QSAHiSparseRuntime δ}

theorem gone (given : GivenBack lease before after) : ¬ after.slots.Holds lease := by
  rcases given with ⟨slots, _, same⟩
  have named : after.slots = slots.giveBack lease := congrArg Tenancy.slots same
  rw [named]
  exact fun held => (giveBack_holds_cases held).1 rfl

theorem free (given : GivenBack lease before after) : lease.slot ∈ after.slots.freeSlots := by
  rcases given with ⟨slots, _, same⟩
  have named : after.slots = slots.giveBack lease := congrArg Tenancy.slots same
  rw [named]
  apply (List.mem_insertionSort _).mpr
  exact List.mem_append_right _ (List.mem_singleton_self _)

/-- The row is free. -/
theorem inactive (given : GivenBack lease before after) :
    after.slots.active.contains lease.reqPoolIdx = false := by
  rcases given with ⟨slots, _, same⟩
  have named : after.slots = slots.giveBack lease := congrArg Tenancy.slots same
  rw [named, Dict.contains, decide_eq_false_iff_not]
  intro listed
  rcases Dict.mem_keys_iff.mp listed with ⟨other, found⟩
  change (slots.active.erase lease.reqPoolIdx).get? lease.reqPoolIdx = some other at found
  rw [Dict.get?_erase_self] at found
  cases found

theorem commits (given : GivenBack lease before after) :
    after.commits.map Prod.fst = before.commits.map Prod.fst ++ [lease] := by
  rcases given with ⟨slots, _, same⟩
  exact congrArg Tenancy.commits same

theorem pending (given : GivenBack lease before after) :
    after.pendingReleases = before.pendingReleases := by
  rcases given with ⟨slots, _, same⟩
  exact congrArg Tenancy.pendingReleases same

theorem group (given : GivenBack lease before after) :
    after.freeGroupOpen = before.freeGroupOpen := by
  rcases given with ⟨slots, _, same⟩
  exact congrArg Tenancy.freeGroupOpen same

/-- The other released leases are as they were. -/
theorem others (given : GivenBack lease before after) (held : before.slots.Holds lease)
    {other : QSAHiSparseLease} (different : other ≠ lease) {phases : List Phase}
    (permits : before.slots.Permits other phases) : after.slots.Permits other phases := by
  rcases given with ⟨slots, rfl | rfl, same⟩
  · have named : after.slots = before.slots.giveBack lease := congrArg Tenancy.slots same
    rw [named]
    exact giveBack_permits held different permits
  · have named : after.slots = (before.slots.setPhase lease .logicalFlushed).giveBack lease :=
      congrArg Tenancy.slots same
    rw [named]
    have kept : (before.slots.setPhase lease .logicalFlushed).Holds lease := held
    exact giveBack_permits kept different (setPhase_other held different permits)

end GivenBack

variable {lease : QSAHiSparseLease}

/-- A released lease outside a free group is flushed. -/
theorem flushDrained_leaves {runtime : QSAHiSparseRuntime δ}
    (released : runtime.slots.Permits lease releasedPhases)
    (closed : runtime.freeGroupOpen = false) :
    Leaves
      (fun _ after => exists slots next, after = { runtime with slots, device := next } ∧
        (slots = runtime.slots ∨ slots = runtime.slots.setPhase lease .logicalFlushed) ∧
        slots.Permits lease [.logicalFlushed])
      (fun _ _ => ¬ machine.Reliable) ((flushDrained machine lease).run runtime) := by
  rcases released with ⟨held, phase, found, member⟩
  unfold flushDrained
  apply (Leaves.bind_iff _ _ _).mpr
  apply (Leaves.get_iff _).mpr
  apply (Leaves.bind_iff _ _ _).mpr
  apply (Leaves.getItem_iff _ _ _).mpr
  constructor
  · intro absent
    rw [found] at absent
    cases absent
  intro current present
  rw [found] at present
  cases present
  by_cases drained : phase = .drained
  · rw [if_pos drained]
    apply (Leaves.bind_iff _ _ _).mpr
    apply (outside_reliable machine .flushCheck runtime).mono
    · rintro _ after ⟨next, rfl⟩
      apply (ledger.leaves_zoom _ _).mpr
      have permits : runtime.slots.Permits lease [.drained] :=
        ⟨held, phase, found, List.mem_singleton.mpr drained⟩
      apply Leaves.mono (logicalFlushed_outcome runtime.slots lease runtime.freeGroupOpen)
      · rintro _ slots ⟨_, rfl⟩
        exact ⟨_, next, rfl, Or.inr rfl, held.setPhase_permits .logicalFlushed⟩
      · rintro cause slots ⟨refused, _⟩
        exact absurd ⟨permits, by simp [closed], trivial⟩ refused
    · exact fun _ _ unreliable => unreliable
  · rw [if_neg drained]
    have flushed : phase = .logicalFlushed := by
      rcases List.mem_cons.mp member with first | second
      · exact absurd first drained
      · exact List.mem_singleton.mp second
    exact ⟨runtime.slots, runtime.device, rfl, Or.inl rfl, held, phase, found,
      List.mem_singleton.mpr flushed⟩

theorem commitLease_leaves (runtime : QSAHiSparseRuntime δ)
    (flushed : runtime.slots.Permits lease [.logicalFlushed])
    (listed : runtime.requests.get? lease.reqPoolIdx = some lease) :
    Leaves
      (fun _ after => after.tenancy =
        { runtime.tenancy with
          slots := runtime.slots.giveBack lease
          requests := runtime.requests.erase lease.reqPoolIdx
          commits := runtime.commits.map Prod.fst ++ [lease] })
      (fun _ _ => ¬ machine.Reliable) ((commitLease machine lease).run runtime) := by
  unfold commitLease
  apply (Leaves.bind_iff _ _ _).mpr
  apply (Leaves.get_iff _).mpr
  apply (Leaves.bind_iff _ _ _).mpr
  apply (Leaves.getItem_iff _ _ _).mpr
  constructor
  · intro absent
    rw [listed] at absent
    cases absent
  intro state present
  apply (Leaves.bind_iff _ _ _).mpr
  apply (Leaves.modify_iff _ _).mpr
  apply (Leaves.bind_iff _ _ _).mpr
  apply (Leaves.modify_iff _ _).mpr
  apply (Leaves.bind_iff _ _ _).mpr
  apply (outside_reliable machine .commit _).mono
  · rintro _ before ⟨next, rfl⟩
    apply (Leaves.bind_iff _ _ _).mpr
    apply (ledger.leaves_zoom _ _).mpr
    apply Leaves.mono (commitRelease_outcome runtime.slots lease)
    · rintro _ slots ⟨_, rfl⟩
      apply (Leaves.bind_iff _ _ _).mpr
      apply (Leaves.modify_iff _ _).mpr
      apply (outside_reliable machine .eventLog _).mono
      · rintro _ after ⟨last, rfl⟩
        unfold QSAHiSparseRuntime.tenancy
        rw [List.map_append]
        rfl
      · exact fun _ _ unreliable => unreliable
    · rintro cause slots ⟨refused, _⟩
      exact absurd ⟨flushed, trivial⟩ refused
  · exact fun _ _ unreliable => unreliable

/-- Outside a free group `after_release` of a released lease gives it back,
unless a call that leaves the runtime raises. -/
theorem afterRelease_leaves {runtime : QSAHiSparseRuntime δ}
    (released : runtime.slots.Permits lease releasedPhases)
    (listed : runtime.requests.get? lease.reqPoolIdx = some lease)
    (closed : runtime.freeGroupOpen = false) :
    Leaves (fun _ after => GivenBack lease runtime after) (fun _ _ => ¬ machine.Reliable)
      ((afterRelease machine lease).run runtime) := by
  unfold afterRelease
  apply (Leaves.bind_iff _ _ _).mpr
  apply Leaves.mono (zoom_require_outcome lease ledger (by simp) runtime)
  · rintro _ here ⟨_, rfl⟩
    apply (Leaves.bind_iff _ _ _).mpr
    apply (Leaves.get_iff _).mpr
    rw [if_neg (by rw [closed]; exact Bool.false_ne_true)]
    apply (Leaves.bind_iff _ _ _).mpr
    apply (flushDrained_leaves machine released closed).mono
    · rintro _ flushedHere ⟨slots, next, rfl, either, flushed⟩
      apply (commitLease_leaves machine { here with slots, device := next } flushed listed).mono
      · exact fun _ after same => ⟨slots, either, same⟩
      · exact fun _ _ unreliable => unreliable
    · exact fun _ _ unreliable => unreliable
  · rintro cause here ⟨refused, _⟩
    exact absurd released refused

end Reliable

end Runtime
end QSAHiSparse

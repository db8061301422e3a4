import QSAHiSparse.Ledger.Holders
import QSAHiSparse.Runtime.CopyQueue
import QSAHiSparse.Runtime.Steady

namespace QSAHiSparse
namespace Runtime

open Foundation
open Ledger

/-!
# Every pending copy is awaited

A copy that has not completed belongs to a lease that is still active, and the
release of that lease waits for it: an event of its cache covers the copy, or
the lease is marked for a drain of both streams.  Leases for which a method is
about to record an event are `stray` in the meantime.
-/

/-- A submitted copy of the lease that has not completed. -/
def Pending (queue : CopyQueue) (lease : QSAHiSparseLease) (index : Nat) : Prop :=
  queue.completed ≤ index ∧
    exists work, queue.submitted[index]? = some work ∧ work.lease = lease

/-- Every copy submitted for the lease has completed. -/
def Settled (queue : CopyQueue) (lease : QSAHiSparseLease) : Prop :=
  forall index, ¬ Pending queue lease index

/-- The phases of a lease that copies may be pending for. -/
def livePhases : List Phase := [.copying, .hostReady, .decode, .failed, .releasing]

/-- The release of the lease waits for the copy at this place. -/
def Awaited (runtime : QSAHiSparseRuntime CopyQueue) (lease : QSAHiSparseLease)
    (index : Nat) : Prop :=
  lease ∈ runtime.graphFailedLeases ∨
    exists event mark, event ∈ (runtime.caches lease).events ∧
      runtime.markOf event = some mark ∧ mark.stream = .copy ∧ index < mark.position

structure Secured (stray : QSAHiSparseLease -> Prop)
    (runtime : QSAHiSparseRuntime CopyQueue) : Prop where
  awaited : forall lease index, Pending runtime.device lease index ->
    stray lease ∨ Awaited runtime lease index
  live : forall lease index, Pending runtime.device lease index ->
    runtime.slots.Permits lease livePhases
  shared : forall mark, runtime.graphCopyDone = some mark -> mark.stream = .copy ->
    mark.position ≤ runtime.device.submitted.length
  owned : forall reqIdx lease, runtime.requests.get? reqIdx = some lease ->
    lease.reqPoolIdx = reqIdx ∧ runtime.slots.Holds lease
  committed : forall entry, entry ∈ runtime.commits -> Settled entry.2 entry.1

/-- No lease is stray. -/
abbrev noStray : QSAHiSparseLease -> Prop := fun _ => False

/-! ## Leases and phases -/

section Phases

variable {slots : QSAHiSparseSlots} {lease other : QSAHiSparseLease}

/-- Giving a row a live phase keeps every lease permitted a live phase. -/
theorem setPhase_live {phase : Phase} (live : phase ∈ livePhases)
    (permits : slots.Permits other livePhases) :
    (slots.setPhase lease phase).Permits other livePhases := by
  rcases permits with ⟨held, current, present, member⟩
  by_cases same : other.reqPoolIdx = lease.reqPoolIdx
  · refine ⟨held, phase, ?_, live⟩
    change (slots.phases.set lease.reqPoolIdx phase).get? other.reqPoolIdx = some phase
    rw [same, Dict.get?_set_self]
  · refine ⟨held, current, ?_, member⟩
    change (slots.phases.set lease.reqPoolIdx phase).get? other.reqPoolIdx = some current
    rw [Dict.get?_set_of_ne _ _ same, present]

end Phases

/-! ## What time and unrelated writes preserve -/

section Frames

variable {stray : QSAHiSparseLease -> Prop} {before after : QSAHiSparseRuntime CopyQueue}

theorem Pending.earlier {queue later : CopyQueue} {lease : QSAHiSparseLease} {index : Nat}
    (pending : Pending later lease index) (submitted : later.submitted = queue.submitted)
    (completed : queue.completed ≤ later.completed) : Pending queue lease index := by
  rcases pending with ⟨waiting, work, placed, same⟩
  rw [submitted] at placed
  exact ⟨Nat.le_trans completed waiting, work, placed, same⟩

theorem Settled.later {lease : QSAHiSparseLease} (settled : Settled before.device lease)
    (later : Later before after) : Settled after.device lease := by
  rcases later with ⟨queue, rfl, submitted, completed, _⟩
  exact fun index pending => settled index (pending.earlier submitted completed)

theorem Secured.later (secured : Secured stray before) (later : Later before after) :
    Secured stray after := by
  rcases later with ⟨queue, rfl, submitted, completed, _⟩
  refine ⟨?_, ?_, ?_, secured.owned, secured.committed⟩
  · exact fun lease index pending =>
      secured.awaited lease index (pending.earlier submitted completed)
  · exact fun lease index pending => secured.live lease index (pending.earlier submitted completed)
  · intro mark recorded onCopy
    change mark.position ≤ queue.submitted.length
    rw [submitted]
    exact secured.shared mark recorded onCopy

/-- More leases may be stray. -/
theorem Secured.weaken {wider : QSAHiSparseLease -> Prop} (secured : Secured stray before)
    (widens : forall lease, stray lease -> wider lease) : Secured wider before :=
  { secured with
    awaited := fun lease index pending =>
      (secured.awaited lease index pending).imp_left (widens lease) }

/-- A write to the ledger that keeps the held leases and their live phases. -/
theorem Secured.withSlots (secured : Secured stray before) {slots : QSAHiSparseSlots}
    (holds : forall lease, before.slots.Holds lease -> slots.Holds lease)
    (permits : forall lease, ¬ Settled before.device lease ->
      before.slots.Permits lease livePhases -> slots.Permits lease livePhases) :
    Secured stray { before with slots } where
  awaited := secured.awaited
  live := fun lease index pending =>
    permits lease (fun settled => settled index pending) (secured.live lease index pending)
  shared := secured.shared
  owned := fun reqIdx lease found =>
    ⟨(secured.owned reqIdx lease found).1, holds lease (secured.owned reqIdx lease found).2⟩
  committed := secured.committed

/-- A write to a cache that keeps its events, or whose lease is settled. -/
theorem Secured.withCache (secured : Secured stray before) (lease : QSAHiSparseLease)
    (update : RequestCache -> RequestCache)
    (keeps : Settled before.device lease ∨
      (update (before.caches lease)).events = (before.caches lease).events) :
    Secured stray (before.withCache lease update) where
  awaited := by
    intro other index pending
    rcases secured.awaited other index pending with isStray | marked | ⟨event, mark, member, rest⟩
    · exact Or.inl isStray
    · exact Or.inr (Or.inl marked)
    · refine Or.inr (Or.inr ⟨event, mark, ?_, rest⟩)
      change event ∈ (Function.update before.caches lease (update (before.caches lease))
        other).events
      by_cases same : other = lease
      · rw [same, Function.update_self]
        rcases keeps with settled | equal
        · exact absurd pending (same ▸ settled index)
        · rw [equal, <- same]
          exact member
      · rw [Function.update_of_ne same]
        exact member
  live := secured.live
  shared := secured.shared
  owned := secured.owned
  committed := secured.committed

/-- Once every copy so far has completed no lease is stray. -/
theorem Secured.ofSettled (secured : Secured stray before)
    (settled : forall lease, stray lease -> Settled before.device lease) :
    Secured noStray before :=
  { secured with
    awaited := by
      intro lease index pending
      rcases secured.awaited lease index pending with isStray | awaited
      · exact absurd pending (settled lease isStray index)
      · exact Or.inr awaited }

end Frames

/-! ## A copy is queued, an event is recorded -/

section Queued

variable {stray : QSAHiSparseLease -> Prop} {runtime : QSAHiSparseRuntime CopyQueue}

theorem Pending.submitted {queue : CopyQueue} {work : Work} {lease : QSAHiSparseLease}
    {index : Nat} (pending : Pending (queue.submit .copy work) lease index) :
    Pending queue lease index ∨ lease = work.lease := by
  rcases pending with ⟨waiting, found, placed, same⟩
  change (queue.submitted ++ [work])[index]? = some found at placed
  by_cases old : index < queue.submitted.length
  · rw [List.getElem?_append_left old] at placed
    exact Or.inl ⟨waiting, found, placed, same⟩
  · rw [List.getElem?_append_right (not_lt.mp old)] at placed
    have only := List.mem_of_getElem? placed
    rw [List.mem_singleton] at only
    exact Or.inr (by rw [<- same, only])

/-- A queued copy makes its lease stray. -/
theorem Secured.submitted (secured : Secured stray runtime) {work : Work}
    (permits : runtime.slots.Permits work.lease livePhases) :
    Secured (fun lease => stray lease ∨ lease = work.lease)
      { runtime with device := runtime.device.submit .copy work } where
  awaited := by
    intro lease index pending
    rcases pending.submitted with old | new
    · exact (secured.awaited lease index old).imp_left Or.inl
    · exact Or.inl (Or.inr new)
  live := by
    intro lease index pending
    rcases pending.submitted with old | new
    · exact secured.live lease index old
    · rw [new]
      exact permits
  shared := by
    intro mark recorded onCopy
    have before := secured.shared mark recorded onCopy
    change mark.position ≤ (runtime.device.submitted ++ [work]).length
    rw [List.length_append]
    omega
  owned := secured.owned
  committed := secured.committed

theorem Pending.index_lt {queue : CopyQueue} {lease : QSAHiSparseLease} {index : Nat}
    (pending : Pending queue lease index) : index < queue.submitted.length := by
  rcases pending with ⟨_, work, placed, _⟩
  exact (List.getElem?_eq_some_iff.mp placed).1

/-- An event recorded now, once it is among the events of a lease, covers all
of its copies. -/
theorem Secured.recorded (secured : Secured stray runtime) (lease : QSAHiSparseLease)
    (update : RequestCache -> RequestCache) {event : Event}
    (among : event ∈ (update (runtime.caches lease)).events)
    (now : runtime.markOf event = some (runtime.device.mark .copy)) :
    Secured (fun other => stray other ∧ other ≠ lease) (runtime.withCache lease update) where
  awaited := by
    intro other index pending
    by_cases same : other = lease
    · refine Or.inr (Or.inr ⟨event, runtime.device.mark .copy, ?_, now, rfl, pending.index_lt⟩)
      change event ∈ (Function.update runtime.caches lease (update (runtime.caches lease))
        other).events
      rw [same, Function.update_self]
      exact among
    · rcases secured.awaited other index pending with isStray | marked | ⟨found, mark, member, rest⟩
      · exact Or.inl ⟨isStray, same⟩
      · exact Or.inr (Or.inl marked)
      · refine Or.inr (Or.inr ⟨found, mark, ?_, rest⟩)
        change found ∈ (Function.update runtime.caches lease (update (runtime.caches lease))
          other).events
        rw [Function.update_of_ne same]
        exact member
  live := secured.live
  shared := secured.shared
  owned := secured.owned
  committed := secured.committed

end Queued

/-- What outlasts a wait. -/
def Lasting (invariant : QSAHiSparseRuntime CopyQueue -> Prop) : Prop :=
  forall before after, invariant before -> Later before after -> invariant after

theorem Lasting.and {first second : QSAHiSparseRuntime CopyQueue -> Prop} (left : Lasting first)
    (right : Lasting second) : Lasting fun runtime => first runtime ∧ second runtime :=
  fun before after holds later =>
    ⟨left before after holds.1 later, right before after holds.2 later⟩

/-- What does not look at the machine outlasts a wait. -/
theorem Lasting.ofHost {invariant : QSAHiSparseRuntime CopyQueue -> Prop}
    (host : forall runtime (queue : CopyQueue), invariant runtime ->
      invariant { runtime with device := queue }) : Lasting invariant := by
  rintro before after holds ⟨queue, rfl, _⟩
  exact host before queue holds

/-- No call that queues no copy ends it. -/
theorem Lasting.steady (plan : Plan) {invariant : QSAHiSparseRuntime CopyQueue -> Prop}
    (lasting : Lasting invariant) : Steady (queueMachine plan) invariant where
  submit site work := (submit_compute_waits plan site work).preserves lasting
  record site stream := (record_waits plan site stream).preserves lasting
  waitEvent site stream mark := (waitEvent_waits plan site stream mark).preserves lasting
  synchronize site mark := (synchronize_waits plan site mark).preserves lasting
  drain site stream := (drain_waits plan site stream).preserves lasting
  outside site := (outside_waits plan site).preserves lasting
  ask site := (ask_waits plan site).preserves lasting

theorem secured_lasting (stray : QSAHiSparseLease -> Prop) : Lasting (Secured stray) :=
  fun _ _ secured later => secured.later later

theorem settled_lasting (lease : QSAHiSparseLease) :
    Lasting fun runtime => Settled runtime.device lease :=
  fun _ _ settled later => settled.later later

/-! ## A copy that is lost -/

/-- A call made so far has left a copy without an event that its release waits
for. -/
def Lost (plan : Plan) (runtime : QSAHiSparseRuntime CopyQueue) : Prop :=
  ¬ plan.Contained runtime.device.made

theorem lost_lasting (plan : Plan) : Lasting (Lost plan) := by
  rintro before after lost ⟨queue, rfl, _, _, made⟩ contained
  exact lost (Plan.Contained.earlier contained made)

/-- Every copy is awaited unless one is lost. -/
def Accounted (plan : Plan) (runtime : QSAHiSparseRuntime CopyQueue) : Prop :=
  Secured noStray runtime ∨ Lost plan runtime

theorem accounted_lasting (plan : Plan) : Lasting (Accounted plan) := by
  intro before after accounted later
  rcases accounted with secured | lost
  · exact Or.inl (secured.later later)
  · exact Or.inr (lost_lasting plan before after lost later)

end Runtime
end QSAHiSparse

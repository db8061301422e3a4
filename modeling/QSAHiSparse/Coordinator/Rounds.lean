import QSAHiSparse.Coordinator.Staging
import QSAHiSparse.Runtime.CallChanges
import QSAHiSparse.Runtime.Reliable

namespace QSAHiSparse
namespace Coordinator

open Foundation
open Ledger
open QSAHiSparse.Runtime

/-!
# One scheduling round

A rank whose queued leases are all ready reaches both collective operations, and
what it does afterwards depends only on its state and the votes.
-/

variable {δ : Type} (machine : Machine δ)

/-- The lease of an entry is ready on its rank and still its request's. -/
structure Parked (rank : QSAHiSparseCoordinator δ) (item : Act) : Prop where
  ready : rank.adapter.slots.Permits item.lease [.hostReady]
  listed : rank.adapter.requests.get? item.lease.reqPoolIdx = some item.lease
  current : item.lease.generation = rank.adapter.reqGeneration item.lease.reqPoolIdx

/-- What a round finds on a rank. -/
structure Collectable (rank : QSAHiSparseCoordinator δ) : Prop where
  parked : forall item, item ∈ rank.ackStagingQueue -> Parked rank item
  distinct : (rank.ackStagingQueue.map fun item => item.lease).Nodup

/-- How many entries in front have completed. -/
def readyCount (rank : QSAHiSparseCoordinator δ) : Nat :=
  (rank.ackStagingQueue.takeWhile fun item => rank.completed item.event).length

def signatures (rank : QSAHiSparseCoordinator δ) : List (Int × Int × String × Nat) :=
  rank.ackStagingQueue.map fun item => signature item.lease

def vote (rank : QSAHiSparseCoordinator δ) : Vote where
  signatures := signatures rank
  count := readyCount rank
  target := rank.initialBatchTarget

/-- The counted entries have completed. -/
theorem readyCount_completed {rank : QSAHiSparseCoordinator δ} {count : Nat}
    (small : count ≤ readyCount rank) {item : Act}
    (member : item ∈ rank.ackStagingQueue.take count) : rank.completed item.event = true := by
  have front : rank.ackStagingQueue.take count <+:
      rank.ackStagingQueue.takeWhile fun item => rank.completed item.event := by
    apply List.prefix_of_prefix_length_le (List.take_prefix _ _) (List.takeWhile_prefix _)
    rw [List.length_take]
    exact Nat.le_trans (Nat.min_le_left _ _) small
  exact (List.all_eq_true.mp (List.all_takeWhile ..)) item (front.subset member)

/-! ## The checks before the votes -/

theorem countReady_run {rank : QSAHiSparseCoordinator δ} (items : List Act) (count : Nat)
    (parked : forall item, item ∈ items -> Parked rank item) :
    (countReady items count).run rank =
      .ok (count + (items.takeWhile fun item => rank.completed item.event).length) rank := by
  induction items generalizing count with
  | nil => rfl
  | cons item rest previous =>
      have here := parked item List.mem_cons_self
      have checked : (adapter.zoom (ledger.zoom (require item.lease [.hostReady]))).run rank =
          .ok ⟨⟩ rank := by
        rcases (zoom_require_outcome item.lease ledger (by simp) rank.adapter).returned here.ready
          with ⟨_, after, ran, rfl⟩
        exact adapter.zoom_ok ran
      have found : (adapter.zoom (request item.lease.reqPoolIdx item.lease.rid)).run rank =
          .ok item.lease rank := by
        rcases (request_returns here.listed rfl here.current here.ready.1).exists_ok with
          ⟨value, after, ran, rfl, rfl⟩
        exact adapter.zoom_ok ran
      unfold countReady
      rw [EStateM.run_bind, checked]
      change EStateM.run (adapter.zoom (request item.lease.reqPoolIdx item.lease.rid) >>= _) rank = _
      rw [EStateM.run_bind, found]
      change EStateM.run (if rank.completed item.event = false then pure count
        else countReady rest (count + 1)) rank = _
      by_cases done : rank.completed item.event = true
      · rw [if_neg (by rw [done]; decide),
          previous (count + 1) fun other member => parked other (List.mem_cons_of_mem _ member),
          List.takeWhile_cons_of_pos (by simpa using done), List.length_cons]
        congr 1
        omega
      · rw [if_pos (Bool.eq_false_iff.mpr done), List.takeWhile_cons_of_neg (by simpa using done)]
        rfl

/-- A rank with ready leases meets its peers twice, unless all queues are
empty. -/
theorem collectReadyReqs_run {rank : QSAHiSparseCoordinator δ} (collectable : Collectable rank) :
    (collectReadyReqs machine).run rank =
      .allReduce rank.ackStagingQueue.length fun total =>
        if total = 0 then .ended (.ok [] rank)
        else .allGather (vote rank) fun votes =>
          .ended ((converge machine (signatures rank) votes).run rank) := by
  unfold collectReadyReqs
  rw [Collective.run_lift_bind]
  change (Collective.allReduce rank.ackStagingQueue.length >>= _ :
    Collective Vote (QSAHiSparseCoordinator δ) (List Req)).run rank = _
  rw [Collective.run_allReduce_bind]
  congr 1
  funext total
  by_cases empty : total = 0
  · rw [if_pos empty, if_pos empty]
    rfl
  · rw [if_neg empty, if_neg empty, Collective.run_lift_bind,
      countReady_run _ 0 collectable.parked, Nat.zero_add]
    rfl

/-! ## The admission -/

/-- The ledger once these entries are admitted, in order. -/
def admitAll (slots : QSAHiSparseSlots) (items : List Act) : QSAHiSparseSlots :=
  items.foldl (fun slots item => slots.setPhase item.lease .decode) slots

/-- The entries have left for the decode; nothing else of the rank has changed
but its device. -/
def Admits (items : List Act) (before after : QSAHiSparseCoordinator δ) : Prop :=
  exists device, after =
    { before with
      adapter := { before.adapter with slots := admitAll before.adapter.slots items, device }
      hisparseStaging :=
        items.foldl (fun flags item => Function.update flags item.req false) before.hisparseStaging
      admitted := before.admitted ++ items }

namespace Admits

variable {first second items : List Act} {before middle after : QSAHiSparseCoordinator δ}

theorem slots (admits : Admits items before after) :
    after.adapter.slots = admitAll before.adapter.slots items := by
  rcases admits with ⟨device, rfl⟩
  rfl

theorem trans (one : Admits first before middle) (other : Admits second middle after) :
    Admits (first ++ second) before after := by
  rcases one with ⟨device, rfl⟩
  rcases other with ⟨last, rfl⟩
  refine ⟨last, ?_⟩
  simp only [admitAll, List.foldl_append, List.append_assoc]

end Admits

variable {machine} (writes : Returns (machine.outside .eventLog))

include writes

theorem record_returns (rank : QSAHiSparseCoordinator δ) :
    exists device, (adapter.zoom (Runtime.device.zoom (machine.outside .eventLog))).run rank =
      .ok ⟨⟩ { rank with adapter := { rank.adapter with device } } := by
  rcases (writes rank.adapter.device).exists_ok with ⟨⟨⟩, device, ran, _⟩
  exact ⟨device, adapter.zoom_ok (Runtime.device.zoom_ok ran)⟩

theorem admitReady_run {rank : QSAHiSparseCoordinator δ} {item : Act}
    (ready : rank.adapter.slots.Permits item.lease [.hostReady]) :
    exists after, (admitReady machine item).run rank = .ok ⟨⟩ after ∧ Admits [item] rank after := by
  have admitted : (adapter.zoom (admitLease item.lease)).run rank =
      .ok ⟨⟩ { rank with
        adapter := { rank.adapter with slots := rank.adapter.slots.setPhase item.lease .decode } } := by
    rcases (admitDecode_outcome rank.adapter.slots item.lease).returned ⟨ready, trivial⟩ with
      ⟨_, slots, ran, rfl⟩
    exact adapter.zoom_ok (ledger.zoom_ok ran)
  rcases record_returns writes
    { rank with
      adapter := { rank.adapter with slots := rank.adapter.slots.setPhase item.lease .decode }
      hisparseStaging := Function.update rank.hisparseStaging item.req false
      admitted := rank.admitted ++ [item] } with ⟨device, recorded⟩
  refine ⟨_, ?_, device, rfl⟩
  unfold admitReady
  rw [EStateM.run_bind, admitted]
  exact recorded

/-- Entries with different ready leases are admitted one after another. -/
theorem admitReady_all (rank : QSAHiSparseCoordinator δ) (items : List Act)
    (ready : forall item, item ∈ items -> rank.adapter.slots.Permits item.lease [.hostReady])
    (distinct : (items.map fun item => item.lease).Nodup) :
    exists after, (forM items (admitReady machine) :
      Method (QSAHiSparseCoordinator δ) PUnit).run rank = .ok ⟨⟩ after ∧ Admits items rank after := by
  induction items generalizing rank with
  | nil => exact ⟨rank, rfl, rank.adapter.device, by rw [List.append_nil]; rfl⟩
  | cons item items previous =>
      rw [List.map_cons, List.nodup_cons] at distinct
      have here := ready item List.mem_cons_self
      rcases admitReady_run writes here with ⟨middle, ran, first⟩
      have rest : forall other, other ∈ items ->
          middle.adapter.slots.Permits other.lease [.hostReady] := by
        intro other member
        have different : other.lease ≠ item.lease := fun same =>
          distinct.1 (same ▸ List.mem_map_of_mem member)
        rw [first.slots]
        exact setPhase_other here.1 different (ready other (List.mem_cons_of_mem _ member))
      rcases previous middle rest distinct.2 with ⟨after, looped, others⟩
      refine ⟨after, ?_, first.trans others⟩
      rw [List.forM_cons, EStateM.run_bind, ran]
      exact looped

theorem admitPrefix_run {rank : QSAHiSparseCoordinator δ} (collectable : Collectable rank)
    (count : Nat) :
    exists after, (admitPrefix machine count).run rank =
        .ok ((rank.ackStagingQueue.take count).map fun item => item.req) after ∧
      Admits (rank.ackStagingQueue.take count)
        { rank with ackStagingQueue := rank.ackStagingQueue.drop count } after := by
  have front := List.take_sublist count rank.ackStagingQueue
  rcases admitReady_all writes { rank with ackStagingQueue := rank.ackStagingQueue.drop count }
    (rank.ackStagingQueue.take count)
    (fun item member => (collectable.parked item (front.subset member)).ready)
    ((front.map _).nodup collectable.distinct) with ⟨after, looped, admits⟩
  refine ⟨after, ?_, admits⟩
  unfold admitPrefix
  change EStateM.run (forM (rank.ackStagingQueue.take count) (admitReady machine) >>= _)
    { rank with ackStagingQueue := rank.ackStagingQueue.drop count } = _
  rw [EStateM.run_bind, looped]
  rfl

omit writes in
/-- A vote that differs makes the rank raise before it changes anything. -/
theorem converge_refuses {rank : QSAHiSparseCoordinator δ}
    {signatures : List (Int × Int × String × Nat)} {votes : List Vote} {other : Vote}
    (member : other ∈ votes)
    (differs : other.signatures ≠ signatures ∨ other.target ≠ rank.initialBatchTarget) :
    (converge machine signatures votes).run rank =
      .error (.runtimeError "QSA TP ranks disagree on staging lease identities") rank := by
  unfold converge
  change EStateM.run (raiseIf (exists vote, vote ∈ votes ∧
    (vote.signatures ≠ signatures ∨ vote.target ≠ rank.initialBatchTarget)) _ >>= _) rank = _
  rw [EStateM.run_bind, raiseIf, if_pos ⟨other, member, differs⟩]
  rfl

/-- The first entries of the queue have been admitted, and a rank that was
waiting has waited on or has reached its target. -/
structure Converged (count : Nat) (before after : QSAHiSparseCoordinator δ) : Prop where
  queue : after.ackStagingQueue = before.ackStagingQueue.drop count
  admitted : after.admitted = before.admitted ++ before.ackStagingQueue.take count
  staged : after.staged = before.staged
  tenancy : after.adapter.tenancy =
    { before.adapter.tenancy with
      slots := admitAll before.adapter.slots (before.ackStagingQueue.take count) }
  unset : after.adapter.graphBatch = before.adapter.graphBatch
  patience :
    (after.waitInitialPair = before.waitInitialPair ∧
      after.initialBatchTarget = before.initialBatchTarget ∧
      (before.waitInitialPair = true -> count = 0)) ∨
    (before.waitInitialPair = true ∧ before.initialBatchTarget ≤ count ∧
      after.waitInitialPair = false ∧ after.initialBatchTarget = 0)

omit writes in
theorem Admits.converged {count : Nat} (before begun : QSAHiSparseCoordinator δ)
    {after : QSAHiSparseCoordinator δ}
    (admits : Admits (before.ackStagingQueue.take count)
      { begun with ackStagingQueue := before.ackStagingQueue.drop count } after)
    (tenancy : begun.adapter.tenancy = before.adapter.tenancy)
    (unset : begun.adapter.graphBatch = before.adapter.graphBatch)
    (admitted : begun.admitted = before.admitted) (staged : begun.staged = before.staged)
    (patience :
      (begun.waitInitialPair = before.waitInitialPair ∧
        begun.initialBatchTarget = before.initialBatchTarget ∧
        (before.waitInitialPair = true -> count = 0)) ∨
      (before.waitInitialPair = true ∧ before.initialBatchTarget ≤ count ∧
        begun.waitInitialPair = false ∧ begun.initialBatchTarget = 0)) :
    Converged count before after := by
  rcases admits with ⟨device, rfl⟩
  have slots : begun.adapter.slots = before.adapter.slots := congrArg Tenancy.slots tenancy
  refine ⟨rfl, by rw [<- admitted], staged, ?_, unset, patience⟩
  rw [<- tenancy, <- slots]
  rfl

/-- How many entries a rank admits that knows the common count. -/
def convergedCount (rank : QSAHiSparseCoordinator δ) (count : Nat) : Nat :=
  if rank.waitInitialPair = true ∧ count < rank.initialBatchTarget then 0 else count

theorem converge_admits {rank : QSAHiSparseCoordinator δ} (collectable : Collectable rank)
    {signatures : List (Int × Int × String × Nat)} {votes : List Vote} {count : Nat}
    (agreed : forall vote, vote ∈ votes ->
      vote.signatures = signatures ∧ vote.target = rank.initialBatchTarget)
    (least : (votes.map fun vote => vote.count).min? = some count) :
    exists after, (converge machine signatures votes).run rank =
        .ok ((rank.ackStagingQueue.take (convergedCount rank count)).map fun item => item.req)
          after ∧
      Converged (convergedCount rank count) rank after := by
  have passes : (raiseIf (exists vote, vote ∈ votes ∧
      (vote.signatures ≠ signatures ∨ vote.target ≠ rank.initialBatchTarget))
      (.runtimeError "QSA TP ranks disagree on staging lease identities") :
      Method (QSAHiSparseCoordinator δ) PUnit).run rank = .ok ⟨⟩ rank := by
    rw [raiseIf, if_neg]
    · rfl
    · rintro ⟨other, member, differs⟩
      exact differs.elim (absurd (agreed other member).1) (absurd (agreed other member).2)
  have ran : (converge machine signatures votes).run rank =
      EStateM.run (if rank.waitInitialPair = true then
          if count < rank.initialBatchTarget then return []
          else do
            adapter.zoom (Runtime.device.zoom (machine.outside .eventLog))
            modify fun self => { self with waitInitialPair := false, initialBatchTarget := 0 }
            admitPrefix machine count
        else admitPrefix machine count) rank := by
    unfold converge
    change EStateM.run (raiseIf _ _ >>= _) rank = _
    rw [EStateM.run_bind, passes, least]
  rw [ran]
  unfold convergedCount
  by_cases waits : rank.waitInitialPair = true
  · rw [if_pos waits]
    by_cases short : count < rank.initialBatchTarget
    · rw [if_pos short, if_pos ⟨waits, short⟩]
      refine ⟨rank, rfl, rfl, by simp, rfl, ?_, rfl, Or.inl ⟨rfl, rfl, fun _ => rfl⟩⟩
      rfl
    · rw [if_neg short, if_neg fun both => short both.2]
      rcases record_returns writes rank with ⟨device, recorded⟩
      have begun : Collectable
          { rank with
            adapter := { rank.adapter with device }
            waitInitialPair := false
            initialBatchTarget := 0 } :=
        ⟨fun item member => ⟨(collectable.parked item member).ready,
          (collectable.parked item member).listed, (collectable.parked item member).current⟩,
          collectable.distinct⟩
      rcases admitPrefix_run writes begun count with ⟨after, admitted, admits⟩
      refine ⟨after, ?_, admits.converged rank _ rfl rfl rfl rfl
        (Or.inr ⟨waits, Nat.le_of_not_lt short, rfl, rfl⟩)⟩
      rw [EStateM.run_bind, recorded]
      exact admitted
  · rw [if_neg waits, if_neg fun both => waits both.1]
    rcases admitPrefix_run writes collectable count with ⟨after, admitted, admits⟩
    exact ⟨after, admitted, admits.converged rank rank rfl rfl rfl rfl
      (Or.inl ⟨rfl, rfl, fun waiting => absurd waiting waits⟩)⟩

end Coordinator
end QSAHiSparse

import QSAHiSparse.Coordinator.Handed
import QSAHiSparse.Coordinator.Rounds
import QSAHiSparse.Foundation.Lockstep
import QSAHiSparse.Runtime.NoReuse
import QSAHiSparse.Runtime.ReleaseCalls

namespace QSAHiSparse
namespace Coordinator

open Foundation
open Ledger
open QSAHiSparse.Runtime

/-!
# All ranks admit the same requests

The votes of a round are the same for all ranks, so either every rank sees the
same queue everywhere and admits the same part of it, or every rank sees a vote
that differs from its own.
-/

section Round

variable {δ : Type} {machine : Machine δ} {group : List (QSAHiSparseCoordinator δ)}

/-- Every rank returns the same requests, the first ones of identical queues. -/
def Returned (group : List (QSAHiSparseCoordinator δ))
    (results : List (EStateM.Result PyError (QSAHiSparseCoordinator δ) (List Req))) : Prop :=
  exists leases : List QSAHiSparseLease, exists reqs : List Req, exists count,
    (forall rank, rank ∈ group ->
      rank.ackStagingQueue.map (fun item => item.lease) = leases ∧
      (rank.ackStagingQueue.take count).map (fun item => item.req) = reqs ∧
      (forall item, item ∈ rank.ackStagingQueue.take count -> rank.completed item.event = true) ∧
      (rank.waitInitialPair = true -> count = 0 ∨ rank.initialBatchTarget ≤ count)) ∧
    List.Forall₂ (fun rank result => exists after, result = .ok reqs after ∧
      Converged count rank after) group results

/-- Every rank raises and changes nothing. -/
def Raised (group : List (QSAHiSparseCoordinator δ))
    (results : List (EStateM.Result PyError (QSAHiSparseCoordinator δ) (List Req))) : Prop :=
  List.Forall₂ (fun rank result => exists cause, result = .error cause rank) group results

/-- The request of a lease. -/
def reqOf (lease : QSAHiSparseLease) : Req := ⟨lease.reqPoolIdx, lease.rid, false⟩

/-- What a round needs of all ranks. -/
structure RoundReady (group : List (QSAHiSparseCoordinator δ)) : Prop where
  collectable : forall rank, rank ∈ group -> Collectable rank
  named : forall rank, rank ∈ group -> forall item, item ∈ rank.ackStagingQueue ->
    item.req = reqOf item.lease
  alike : forall first, first ∈ group -> forall second, second ∈ group ->
    first.waitInitialPair = second.waitInitialPair ∧
      first.initialBatchTarget = second.initialBatchTarget

theorem signature_injective : Function.Injective signature := by
  rintro ⟨row, generation, rid, slot⟩ ⟨row', generation', rid', slot'⟩ same
  unfold signature at same
  grind

theorem signatures_leases {first second : QSAHiSparseCoordinator δ}
    (same : signatures first = signatures second) :
    first.ackStagingQueue.map (fun item => item.lease) =
      second.ackStagingQueue.map fun item => item.lease := by
  apply List.map_injective_iff.mpr signature_injective
  rw [List.map_map, List.map_map]
  exact same

/-- The ranks exchange lengths and then, unless all queues are empty, votes. -/
theorem collectAll_eq (collectable : forall rank, rank ∈ group -> Collectable rank) :
    collectAll machine group = some
      (if (group.map fun rank => rank.ackStagingQueue.length).sum = 0 then
        group.map fun rank => .ok [] rank
      else
        group.map fun rank => (converge machine (signatures rank) (group.map vote)).run rank) := by
  unfold collectAll
  have programs : group.map (collectReadyReqs machine).run = group.map fun rank =>
      .allReduce rank.ackStagingQueue.length fun total =>
        if total = 0 then .ended (.ok [] rank)
        else .allGather (vote rank) fun votes =>
          .ended ((converge machine (signatures rank) votes).run rank) :=
    List.map_congr_left fun rank member => collectReadyReqs_run machine (collectable rank member)
  rw [programs, Exchange.meetAll_allReduce]
  by_cases empty : (group.map fun rank => rank.ackStagingQueue.length).sum = 0
  · rw [if_pos empty]
    simp only [if_pos empty]
    exact Exchange.meetAll_ended group _
  · rw [if_neg empty]
    simp only [if_neg empty]
    rw [Exchange.meetAll_allGather]
    exact Exchange.meetAll_ended group _

theorem round_empty (empty : (group.map fun rank => rank.ackStagingQueue.length).sum = 0) :
    Returned group (group.map fun rank => .ok [] rank) := by
  have queues : forall rank, rank ∈ group -> rank.ackStagingQueue = [] := by
    intro rank member
    have zero := List.sum_eq_zero_iff_forall_eq_nat.mp empty _ (List.mem_map_of_mem member)
    exact List.length_eq_zero_iff.mp zero
  refine ⟨[], [], 0, fun rank member => ?_, forall₂_map fun rank member => ?_⟩
  · rw [queues rank member]
    exact ⟨rfl, rfl, fun _ inside => absurd inside List.not_mem_nil, fun _ => Or.inl rfl⟩
  · refine ⟨rank, rfl, rfl, by simp, rfl, rfl, rfl, Or.inl ⟨rfl, rfl, fun _ => rfl⟩⟩

theorem round_differs {first second : QSAHiSparseCoordinator δ} (here : first ∈ group)
    (there : second ∈ group) (differ : signatures first ≠ signatures second) :
    Raised group
      (group.map fun rank => (converge machine (signatures rank) (group.map vote)).run rank) := by
  apply forall₂_map
  intro rank member
  by_cases same : signatures first = signatures rank
  · have other : signatures second ≠ signatures rank := fun equal => differ (same.trans equal.symm)
    exact ⟨_, converge_refuses (List.mem_map_of_mem there) (Or.inl other)⟩
  · exact ⟨_, converge_refuses (List.mem_map_of_mem here) (Or.inl same)⟩

theorem round_agrees (writes : Returns (machine.outside .eventLog)) (ready : RoundReady group)
    {first : QSAHiSparseCoordinator δ} (here : first ∈ group)
    (same : forall rank, rank ∈ group -> signatures rank = signatures first) :
    Returned group
      (group.map fun rank => (converge machine (signatures rank) (group.map vote)).run rank) := by
  have votes : ((group.map vote).map fun vote => vote.count) = group.map readyCount := by
    rw [List.map_map]
    rfl
  have filled : group.map readyCount ≠ [] := List.map_eq_nil_iff.not.mpr (List.ne_nil_of_mem here)
  rcases Option.isSome_iff_exists.mp (List.isSome_min?_of_ne_nil filled) with ⟨count, least⟩
  have below : forall rank, rank ∈ group -> count ≤ readyCount rank := fun rank member =>
    (List.min?_eq_some_iff.mp least).2 _ (List.mem_map_of_mem member)
  have counts : forall rank, rank ∈ group ->
      convergedCount rank count = convergedCount first count := by
    intro rank member
    unfold convergedCount
    rw [(ready.alike rank member first here).1, (ready.alike rank member first here).2]
  have small : convergedCount first count ≤ count := by
    unfold convergedCount
    split
    · exact Nat.zero_le _
    · exact Nat.le_refl _
  have leases : forall rank, rank ∈ group -> rank.ackStagingQueue.map (fun item => item.lease) =
      first.ackStagingQueue.map fun item => item.lease :=
    fun rank member => signatures_leases (same rank member)
  have reqs : forall rank, rank ∈ group ->
      (rank.ackStagingQueue.take (convergedCount first count)).map (fun item => item.req) =
        ((first.ackStagingQueue.map fun item => item.lease).take
          (convergedCount first count)).map reqOf := by
    intro rank member
    rw [<- leases rank member, <- List.map_take, List.map_map]
    apply List.map_congr_left
    intro item inside
    exact ready.named rank member item (List.mem_of_mem_take inside)
  refine ⟨_, _, convergedCount first count, fun rank member => ⟨leases rank member,
    reqs rank member, fun item inside => readyCount_completed
      (Nat.le_trans small (below rank member)) inside, fun waits => ?_⟩,
    forall₂_map fun rank member => ?_⟩
  · unfold convergedCount
    rw [(ready.alike rank member first here).1] at waits
    rw [(ready.alike rank member first here).2]
    by_cases short : count < first.initialBatchTarget
    · rw [if_pos ⟨waits, short⟩]
      exact Or.inl rfl
    · rw [if_neg fun both => short both.2]
      exact Or.inr (Nat.le_of_not_lt short)
  · have agreed : forall vote', vote' ∈ group.map vote ->
        vote'.signatures = signatures rank ∧ vote'.target = rank.initialBatchTarget := by
      intro vote' inside
      rcases List.mem_map.mp inside with ⟨other, place, rfl⟩
      exact ⟨(same other place).trans (same rank member).symm,
        (ready.alike other place rank member).2⟩
    rcases converge_admits writes (ready.collectable rank member) agreed (votes ▸ least) with
      ⟨after, ran, converged⟩
    rw [counts rank member] at ran converged
    rw [reqs rank member] at ran
    exact ⟨after, ran, converged⟩

/-- No rank is stuck, and all leave alike. -/
theorem collectAll_alike (writes : Returns (machine.outside .eventLog)) (ready : RoundReady group) :
    exists results, collectAll machine group = some results ∧
      (Returned group results ∨ Raised group results) := by
  refine ⟨_, collectAll_eq ready.collectable, ?_⟩
  by_cases empty : (group.map fun rank => rank.ackStagingQueue.length).sum = 0
  · rw [if_pos empty]
    exact Or.inl (round_empty empty)
  · rw [if_neg empty]
    cases members : group with
    | nil =>
        rw [members] at empty
        exact absurd rfl empty
    | cons first others =>
        rw [<- members]
        have here : first ∈ group := by
          rw [members]
          exact List.mem_cons_self
        by_cases same : forall rank, rank ∈ group -> signatures rank = signatures first
        · exact Or.inl (round_agrees writes ready here same)
        · push Not at same
          rcases same with ⟨rank, member, differ⟩
          exact Or.inr (round_differs member here differ)

end Round

/-! ## What holds of one rank -/

section Rank

variable {δ : Type} {machine : Machine δ} {config : Config}

/-- Every entry ever queued was handed off under a lease of its own, and is
admitted or waits in the queue, in order. -/
structure Ordered (rank : QSAHiSparseCoordinator δ) : Prop where
  settled : Idle (Settled (rank.staged.map fun item => item.lease)) rank.adapter
  named : forall item, item ∈ rank.staged -> item.req = reqOf item.lease
  distinct : (rank.staged.map fun item => item.lease).Nodup
  conserved : rank.admitted ++ rank.ackStagingQueue = rank.staged
  patient : rank.waitInitialPair = true -> rank.admitted = []

namespace Ordered

variable {rank : QSAHiSparseCoordinator δ}

theorem adapter (ordered : Ordered rank) {adapter : QSAHiSparseRuntime δ}
    (settled : Idle (Settled (rank.staged.map fun item => item.lease)) adapter) :
    Ordered { rank with adapter } :=
  ⟨settled, ordered.named, ordered.distinct, ordered.conserved, ordered.patient⟩

theorem queued (ordered : Ordered rank) {item : Act} (member : item ∈ rank.ackStagingQueue) :
    item ∈ rank.staged := by
  rw [<- ordered.conserved]
  exact List.mem_append_right _ member

/-- A rank of which each queued lease is ready can take part in a round. -/
theorem collectable (ordered : Ordered rank)
    (ready : forall item, item ∈ rank.ackStagingQueue ->
      rank.adapter.slots.Permits item.lease [.hostReady] ∧
        item.lease.generation = rank.adapter.reqGeneration item.lease.reqPoolIdx) :
    Collectable rank := by
  refine ⟨fun item member => ⟨(ready item member).1, ?_, (ready item member).2⟩, ?_⟩
  · have handed := ordered.settled.1.handed item.lease
      (List.mem_map_of_mem (ordered.queued member))
    exact handed.listed (ready item member).1.1
  · have distinct := ordered.distinct
    rw [<- ordered.conserved, List.map_append] at distinct
    exact (List.nodup_append.mp distinct).2.1

end Ordered

theorem device_ordered {α : Type} (program : Method δ α) :
    Preserves (Ordered (δ := δ)) (adapter.zoom (Runtime.device.zoom program)) := by
  intro rank ordered
  apply (Coordinator.adapter.leaves_zoom _ _).mpr
  apply (device_leaves program rank.adapter).mono
  · rintro _ _ ⟨next, rfl⟩
    exact ordered.adapter ordered.settled
  · rintro _ _ ⟨⟨next, rfl⟩, _⟩
    exact ordered.adapter ordered.settled

theorem perform_ordered (call : Call) {rank : QSAHiSparseCoordinator δ} (ordered : Ordered rank) :
    Ordered (finalState ((adapter.zoom (perform machine config call)).run rank)) := by
  have settled := perform_idle machine config ordered.settled.1.valid call
    (fun change before after _ settled step => settled.step step) ordered.settled
  apply Leaves.finalState_iff.mp
  apply (Coordinator.adapter.leaves_zoom _ _).mpr
  apply (Leaves.finalState_iff.mpr settled).mono
  · exact fun _ after settled => ordered.adapter settled
  · exact fun _ after settled => ordered.adapter settled

theorem Ordered.park {rank : QSAHiSparseCoordinator δ} (ordered : Ordered rank)
    {adapter : QSAHiSparseRuntime δ} (item : Act) (flags : Req -> Bool)
    (settled : Idle (Settled ((rank.staged.map fun item => item.lease) ++ [item.lease])) adapter)
    (fresh : item.lease ∉ rank.staged.map fun item => item.lease)
    (named : item.req = reqOf item.lease) :
    Ordered
      { rank with
        adapter
        hisparseStaging := flags
        ackStagingQueue := rank.ackStagingQueue ++ [item]
        staged := rank.staged ++ [item] } := by
  have leases : ((rank.staged ++ [item]).map fun item => item.lease) =
      (rank.staged.map fun item => item.lease) ++ [item.lease] := List.map_append
  refine ⟨?_, fun other member => ?_, ?_, ?_, ordered.patient⟩
  · change Idle (Settled ((rank.staged ++ [item]).map fun item => item.lease)) adapter
    rw [leases]
    exact settled
  · rcases List.mem_append.mp member with old | new
    · exact ordered.named other old
    · rw [List.mem_singleton.mp new]
      exact named
  · change ((rank.staged ++ [item]).map fun item => item.lease).Nodup
    rw [leases]
    apply List.nodup_append.mpr
    refine ⟨ordered.distinct, List.nodup_singleton _, ?_⟩
    rintro other member last isLast rfl
    rw [List.mem_singleton] at isLast
    exact fresh (isLast ▸ member)
  · change rank.admitted ++ (rank.ackStagingQueue ++ [item]) = rank.staged ++ [item]
    rw [<- List.append_assoc, ordered.conserved]

/-- The entry goes to the end of the queue, or the rank raises. -/
theorem admitRequestIntoStaging_ordered (req : Req) :
    Preserves (Ordered (δ := δ)) (admitRequestIntoStaging machine config req) := by
  unfold admitRequestIntoStaging
  intro rank ordered
  apply (Leaves.bind_iff _ _ _).mpr
  apply (Leaves.raiseIf_iff _ _ _).mpr
  refine ⟨fun _ => ordered, fun alone => ?_⟩
  revert rank
  change Preserves Ordered _
  refine Preserves.bind (Preserves.raiseIf _ _) fun _ => ?_
  refine Preserves.bind (device_ordered _) fun producer => ?_
  refine Preserves.bind (device_ordered _) fun _ => ?_
  intro rank ordered
  apply (Leaves.bind_iff _ _ _).mpr
  apply (Coordinator.adapter.leaves_zoom _ _).mpr
  apply (handoff_settled machine config _ req.reqPoolIdx req.rid ordered.settled).mono
  · rintro ⟨lease, event⟩ after ⟨settled, fresh, row, named⟩
    have single : req = reqOf lease := by
      rcases req with ⟨reqPoolIdx, rid, beamGroup⟩
      rw [reqOf, row, named]
      congr 1
      exact Bool.eq_false_iff.mpr alone
    have parked := ordered.park ⟨req, lease, event⟩
      (Function.update rank.hisparseStaging req true) settled fresh single
    exact device_ordered _ _ parked
  · exact fun _ after settled => ordered.adapter settled

/-- Each admission is a change of the tenancy. -/
theorem admitAll_settled {leases : List QSAHiSparseLease} {state : Tenancy} (items : List Act)
    (settled : Settled leases state)
    (ready : forall item, item ∈ items -> state.slots.Permits item.lease [.hostReady])
    (distinct : (items.map fun item => item.lease).Nodup) :
    Settled leases { state with slots := admitAll state.slots items } := by
  induction items generalizing state with
  | nil => exact settled
  | cons item items previous =>
      rw [List.map_cons, List.nodup_cons] at distinct
      have here := ready item List.mem_cons_self
      refine previous (settled.step (.admitted item.lease here)) (fun other member => ?_) distinct.2
      have different : other.lease ≠ item.lease := fun same =>
        distinct.1 (same ▸ List.mem_map_of_mem member)
      exact setPhase_other here.1 different (ready other (List.mem_cons_of_mem _ member))

theorem Ordered.converged {count : Nat} {before after : QSAHiSparseCoordinator δ}
    (ordered : Ordered before) (collectable : Collectable before)
    (converged : Converged count before after) : Ordered after := by
  have front := List.take_sublist count before.ackStagingQueue
  have conserved : after.admitted ++ after.ackStagingQueue = after.staged := by
    rw [converged.admitted, converged.queue, List.append_assoc, List.take_append_drop,
      ordered.conserved, converged.staged]
  refine ⟨⟨?_, converged.unset.trans ordered.settled.2⟩, ?_, ?_, conserved, fun waits => ?_⟩
  · rw [converged.tenancy, converged.staged]
    exact admitAll_settled _ ordered.settled.1
      (fun item member => (collectable.parked item (front.subset member)).ready)
      ((front.map _).nodup collectable.distinct)
  · rw [converged.staged]
    exact ordered.named
  · rw [converged.staged]
    exact ordered.distinct
  · rcases converged.patience with ⟨same, _, none⟩ | ⟨_, _, released, _⟩
    · rw [same] at waits
      rw [converged.admitted, ordered.patient waits, none waits, List.take_zero, List.append_nil]
    · rw [released] at waits
      cases waits

end Rank

/-! ## Runs of a group -/

section Group

variable {δ : Type} {machine : Machine δ} {config : Config} {target : Nat}
  {group : List (QSAHiSparseCoordinator δ)}

/-- A rank after its constructor, with this initial-batch target. -/
def Started (config : Config) (target : Nat) (rank : QSAHiSparseCoordinator δ) : Prop :=
  exists geometry device value,
    QSAHiSparseCoordinator.create (.initial config geometry device) value = .ok rank ∧
      rank.initialBatchTarget = target

/-- Every queued lease is ready on its own rank, and its row was not given to
another request. -/
def QueueReady (rank : QSAHiSparseCoordinator δ) : Prop :=
  forall item, item ∈ rank.ackStagingQueue ->
    rank.adapter.slots.Permits item.lease [.hostReady] ∧
      item.lease.generation = rank.adapter.reqGeneration item.lease.reqPoolIdx

/-- Each round of the run finds the queues of all ranks so. -/
def ReadyRounds (machine : Machine δ) (config : Config) :
    List (QSAHiSparseCoordinator δ) -> List GroupStep -> Prop
  | _, [] => True
  | group, step :: steps =>
      (step = .round -> forall rank, rank ∈ group -> QueueReady rank) ∧
        ReadyRounds machine config (stepGroup machine config group step) steps

theorem readyRounds_append (first second : List GroupStep)
    (group : List (QSAHiSparseCoordinator δ)) :
    ReadyRounds machine config group (first ++ second) <->
      ReadyRounds machine config group first ∧
        ReadyRounds machine config (runGroup machine config group first) second := by
  induction first generalizing group with
  | nil => exact ⟨fun run => ⟨trivial, run⟩, fun both => both.2⟩
  | cons step first previous =>
      change _ ∧ ReadyRounds machine config _ (first ++ second) <-> (_ ∧ _) ∧ _
      rw [previous, and_assoc]
      rfl

/-- What a rank waits for. -/
def Patience (current : Nat) (rank : QSAHiSparseCoordinator δ) : Prop :=
  rank.initialBatchTarget = current ∧ rank.waitInitialPair = decide (current ≠ 0)

/-- All ranks wait for the same target, or none waits any more. -/
structure GroupOrdered (target : Nat) (group : List (QSAHiSparseCoordinator δ)) : Prop where
  ranks : forall rank, rank ∈ group -> Ordered rank
  alike : exists current, (current = target ∨ current = 0) ∧
    forall rank, rank ∈ group -> Patience current rank

namespace GroupOrdered

theorem modify (ordered : GroupOrdered target group) (place : Nat)
    {update : QSAHiSparseCoordinator δ -> QSAHiSparseCoordinator δ}
    (keeps : forall rank, Ordered rank -> Ordered (update rank))
    (waits : forall current rank, Patience current rank -> Patience current (update rank)) :
    GroupOrdered target (group.modify place update) := by
  rcases ordered.alike with ⟨current, aim, patient⟩
  refine ⟨fun rank member => ?_, current, aim, fun rank member => ?_⟩
  · rcases mem_modify member with ⟨original, inside, rfl | rfl⟩
    · exact ordered.ranks rank inside
    · exact keeps original (ordered.ranks original inside)
  · rcases mem_modify member with ⟨original, inside, rfl | rfl⟩
    · exact patient rank inside
    · exact waits current original (patient original inside)

theorem roundReady (ordered : GroupOrdered target group)
    (ready : forall rank, rank ∈ group -> QueueReady rank) : RoundReady group where
  collectable rank member := (ordered.ranks rank member).collectable (ready rank member)
  named rank member item inside :=
    (ordered.ranks rank member).named item ((ordered.ranks rank member).queued inside)
  alike first here second there := by
    rcases ordered.alike with ⟨current, _, patient⟩
    exact ⟨(patient first here).2.trans (patient second there).2.symm,
      (patient first here).1.trans (patient second there).1.symm⟩

/-- All ranks reach their target in the same round. -/
theorem returned (ordered : GroupOrdered target group)
    (ready : forall rank, rank ∈ group -> QueueReady rank)
    {results : List (EStateM.Result PyError (QSAHiSparseCoordinator δ) (List Req))}
    (returned : Returned group results) : GroupOrdered target (results.map finalState) := by
  rcases returned with ⟨_, _, count, _, each⟩
  rcases ordered.alike with ⟨current, aim, patient⟩
  have from_rank : forall after, after ∈ results.map finalState ->
      exists rank, rank ∈ group ∧ Converged count rank after := by
    intro after member
    rcases List.mem_map.mp member with ⟨result, inside, rfl⟩
    rcases exists_of_mem_right each inside with ⟨rank, place, last, rfl, converged⟩
    exact ⟨rank, place, converged⟩
  constructor
  · intro after member
    rcases from_rank after member with ⟨rank, place, converged⟩
    exact (ordered.ranks rank place).converged
      ((ordered.ranks rank place).collectable (ready rank place)) converged
  · by_cases reached : current ≠ 0 ∧ current ≤ count
    · refine ⟨0, Or.inr rfl, fun after member => ?_⟩
      rcases from_rank after member with ⟨rank, place, converged⟩
      rcases converged.patience with ⟨_, _, none⟩ | ⟨_, _, released, zero⟩
      · have waiting : rank.waitInitialPair = true := by
          rw [(patient rank place).2, decide_eq_true_eq]
          exact reached.1
        exact absurd (Nat.le_zero.mp (none waiting ▸ reached.2)) reached.1
      · exact ⟨zero, released⟩
    · refine ⟨current, aim, fun after member => ?_⟩
      rcases from_rank after member with ⟨rank, place, converged⟩
      rcases converged.patience with ⟨waits, same, _⟩ | ⟨waiting, enough, _, _⟩
      · exact ⟨same.trans (patient rank place).1, waits.trans (patient rank place).2⟩
      · rw [(patient rank place).2, decide_eq_true_eq] at waiting
        rw [(patient rank place).1] at enough
        exact absurd ⟨waiting, enough⟩ reached

end GroupOrdered

/-- A round in which every rank raises changes no rank. -/
theorem raised_unchanged
    {results : List (EStateM.Result PyError (QSAHiSparseCoordinator δ) (List Req))}
    (raised : Raised group results) : results.map finalState = group := by
  unfold Raised at raised
  induction raised with
  | nil => rfl
  | cons head _ tail =>
      rcases head with ⟨cause, rfl⟩
      rw [List.map_cons, tail]
      rfl

theorem zoom_patience {α : Type} (current : Nat) (program : Method (QSAHiSparseRuntime δ) α) :
    Preserves (Patience current) (adapter.zoom program) := by
  intro rank patient
  apply (Coordinator.adapter.leaves_zoom _ _).mpr
  cases program.run (Coordinator.adapter.get rank) <;> exact patient

theorem admitRequestIntoStaging_patience (current : Nat) (req : Req) :
    Preserves (Patience (δ := δ) current) (admitRequestIntoStaging machine config req) := by
  unfold admitRequestIntoStaging
  refine Preserves.bind (Preserves.raiseIf _ _) fun _ => ?_
  refine Preserves.bind (Preserves.raiseIf _ _) fun _ => ?_
  refine Preserves.bind (zoom_patience current _) fun producer => ?_
  refine Preserves.bind (zoom_patience current _) fun _ => ?_
  refine Preserves.bind (zoom_patience current _) fun handed => ?_
  refine Preserves.bind (Preserves.modify fun rank patient => patient) fun _ => ?_
  exact zoom_patience current _

/-- One step of the group. -/
theorem stepGroup_ordered (writes : Returns (machine.outside .eventLog)) (step : GroupStep)
    (ordered : GroupOrdered target group)
    (ready : step = .round -> forall rank, rank ∈ group -> QueueReady rank) :
    GroupOrdered target (stepGroup machine config group step) := by
  cases step with
  | call rank call =>
      apply ordered.modify rank
      · exact fun _ ordered => perform_ordered call ordered
      · exact fun current _ patient => (zoom_patience current _).finalState patient
  | progress rank completed =>
      apply ordered.modify rank
      · exact fun _ ordered => ⟨ordered.settled, ordered.named, ordered.distinct,
          ordered.conserved, ordered.patient⟩
      · exact fun _ _ patient => patient
  | stage rank req =>
      apply ordered.modify rank
      · exact fun _ ordered => (admitRequestIntoStaging_ordered req).finalState ordered
      · exact fun current _ patient =>
          (admitRequestIntoStaging_patience current req).finalState patient
  | round =>
      rcases collectAll_alike writes (ordered.roundReady (ready rfl)) with
        ⟨results, met, returned | raised⟩
      · unfold stepGroup
        dsimp only
        rw [met]
        exact ordered.returned (ready rfl) returned
      · unfold stepGroup
        dsimp only
        rw [met]
        change GroupOrdered target (results.map finalState)
        rw [raised_unchanged raised]
        exact ordered

theorem runGroup_ordered (writes : Returns (machine.outside .eventLog)) (steps : List GroupStep)
    (ordered : GroupOrdered target group) (ready : ReadyRounds machine config group steps) :
    GroupOrdered target (runGroup machine config group steps) := by
  induction steps generalizing group with
  | nil => exact ordered
  | cons step steps previous =>
      exact previous (stepGroup_ordered writes step ordered ready.1) ready.2

theorem started_ordered (started : forall rank, rank ∈ group -> Started config target rank) :
    GroupOrdered target group := by
  have each : forall rank, rank ∈ group -> Ordered rank ∧ Patience target rank := by
    intro rank member
    rcases started rank member with ⟨geometry, device, value, created, same⟩
    unfold QSAHiSparseCoordinator.create at created
    split at created
    · cases created
    · split at created
      · cases created
      · cases created
        refine ⟨⟨⟨⟨.initial geometry, fun _ inside => absurd inside List.not_mem_nil⟩, rfl⟩,
          fun _ inside => absurd inside List.not_mem_nil, List.nodup_nil, rfl, fun _ => rfl⟩, same, ?_⟩
        rw [<- same]
  exact ⟨fun rank member => (each rank member).1, target, Or.inl rfl,
    fun rank member => (each rank member).2⟩

/-- What the admissions of a run have in common. -/
structure AdmitAlike (machine : Machine δ) (config : Config) (target : Nat)
    (start : List (QSAHiSparseCoordinator δ)) (steps : List GroupStep) : Prop where
  /-- No round is stuck; all ranks return the same requests, or all raise and
  change nothing. -/
  rounds : forall first rest, steps = first ++ .round :: rest ->
    exists results, collectAll machine (runGroup machine config start first) = some results ∧
      (Returned (runGroup machine config start first) results ∨
        Raised (runGroup machine config start first) results)
  /-- What was staged was admitted or waits, in order, and under a lease of its
  own. -/
  conserved : forall rank, rank ∈ runGroup machine config start steps ->
    rank.admitted ++ rank.ackStagingQueue = rank.staged ∧
      (rank.staged.map fun item => item.lease).Nodup
  /-- While a rank waits it waits for the target, and has admitted nothing. -/
  patient : forall rank, rank ∈ runGroup machine config start steps ->
    rank.waitInitialPair = true -> rank.admitted = [] ∧ rank.initialBatchTarget = target

/-- Ranks with the same target admit the same requests in every round, whenever
their events complete. -/
theorem ranks_admit_alike (writes : Returns (machine.outside .eventLog))
    (start : List (QSAHiSparseCoordinator δ)) (steps : List GroupStep)
    (started : forall rank, rank ∈ start -> Started config target rank)
    (ready : ReadyRounds machine config start steps) :
    AdmitAlike machine config target start steps := by
  have last := runGroup_ordered writes steps (started_ordered started) ready
  refine ⟨fun first rest split => ?_, fun rank member => ?_, fun rank member waits => ?_⟩
  · subst split
    rw [readyRounds_append] at ready
    have here := runGroup_ordered writes first (started_ordered started) ready.1
    exact collectAll_alike writes (here.roundReady (ready.2.1 rfl))
  · exact ⟨(last.ranks rank member).conserved, (last.ranks rank member).distinct⟩
  · refine ⟨(last.ranks rank member).patient waits, ?_⟩
    rcases last.alike with ⟨current, aim, patient⟩
    have waiting := (patient rank member).2
    rw [waits] at waiting
    rcases aim with rfl | rfl
    · exact (patient rank member).1
    · exact absurd rfl (of_decide_eq_true waiting.symm)

/-- A rank that waits for no initial batch. -/
def freshRank : QSAHiSparseCoordinator CopyQueue where
  adapter := .initial offloading oneLane CopyQueue.empty
  ackStagingQueue := []
  initialBatchTarget := 0
  waitInitialPair := false
  hisparseStaging := fun _ => false
  completed := fun _ => false
  staged := []
  admitted := []

/-- A rank prefills a request of three tokens and stages it. -/
def stagesOne (rank : Nat) : List GroupStep :=
  [ .call rank (.regenerate 1 1),
    .call rank (.beginBatch ⟨.extend, 1, some [1], some [3], ["a"], [3]⟩),
    .stage rank ⟨1, "a", false⟩ ]

/-- Two ranks see the copies complete one round apart. -/
def twoRounds : List GroupStep :=
  stagesOne 0 ++ stagesOne 1 ++
    [.progress 0 fun _ => true, .round, .progress 1 fun _ => true, .round]

theorem twoRounds_ready :
    ReadyRounds (queueMachine (lostRecord false)) offloading [freshRank, freshRank] twoRounds := by
  simp only [twoRounds, stagesOne, List.cons_append, List.nil_append, ReadyRounds, reduceCtorEq,
    false_implies, true_and, and_true, forall_const, QueueReady]
  decide +kernel

theorem ranks_admit_alike_two :
    AdmitAlike (queueMachine (lostRecord false)) offloading 0 [freshRank, freshRank] twoRounds := by
  apply ranks_admit_alike
  · exact (queueMachine_reliable fun _ _ => rfl).outside .eventLog
  · intro rank member
    have same : rank = freshRank := by
      simpa using member
    rw [same]
    exact ⟨oneLane, CopyQueue.empty, "0", rfl, rfl⟩
  · exact twoRounds_ready

end Group

end Coordinator
end QSAHiSparse

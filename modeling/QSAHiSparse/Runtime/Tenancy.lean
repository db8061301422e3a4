import QSAHiSparse.Foundation.Transitions
import QSAHiSparse.Ledger.Holders
import QSAHiSparse.Ledger.Invariant

namespace QSAHiSparse
namespace Runtime

open Foundation
open Ledger

/-!
# Who holds which lease

A runtime decides through few of its fields which lease a slot belongs to and
when the slot is given back.  Those fields are a transition system of their own,
whose labels say what happened to which lease.  A statement of the runtime
leaves them alone or takes one of these steps, so what every step preserves
holds between any two statements of any run.
-/

/-- The fields of a runtime that decide who holds what. -/
structure Tenancy where
  slots : QSAHiSparseSlots
  requests : Dict Int QSAHiSparseLease
  /-- `graph_failed_leases`: their streams are still to be drained. -/
  failed : List QSAHiSparseLease
  pendingReleases : List QSAHiSparseLease
  freeGroupOpen : Bool
  commits : List QSAHiSparseLease

inductive Change where
  | granted (lease : QSAHiSparseLease)
  | enlisted (lease : QSAHiSparseLease)
  | copying (lease : QSAHiSparseLease)
  | staged (lease : QSAHiSparseLease)
  | admitted (lease : QSAHiSparseLease)
  /-- The handler of a handoff. -/
  | handoffFailed (lease : QSAHiSparseLease)
  /-- The handler of a replay. -/
  | replayFailed (lease : QSAHiSparseLease)
  /-- The leases of a failed replay wait for a drain of the streams. -/
  | marked (leases : List QSAHiSparseLease)
  /-- The streams have been drained. -/
  | settled (leases : List QSAHiSparseLease)
  | interrupted (lease : QSAHiSparseLease)
  | drainFailed (lease : QSAHiSparseLease)
  | drained (lease : QSAHiSparseLease)
  | flushed (lease : QSAHiSparseLease)
  | committed (lease : QSAHiSparseLease)
  | deferred (lease : QSAHiSparseLease)
  | popped (lease : QSAHiSparseLease)
  | grouped (isOpen : Bool)
deriving DecidableEq, Repr

/-- The phases that `drain` accepts. -/
def drainPhases : List Phase := [.prefill, .copying, .hostReady, .decode, .failed]

/-- The phases of a lease whose release has drained it. -/
def releasedPhases : List Phase := [.drained, .logicalFlushed]

/-- One change, with the checks that the code made before it. -/
inductive Tenancy.Step (before : Tenancy) : Change -> Tenancy -> Prop where
  | granted (lease : QSAHiSparseLease) (rest : List Nat) :
      0 < lease.reqPoolIdx -> 0 < lease.generation -> lease.rid ≠ "" ->
      before.slots.active.get? lease.reqPoolIdx = none ->
      (before.slots.lastGeneration.get? lease.reqPoolIdx).getD 0 < lease.generation ->
      before.slots.prefillOwner = none -> before.slots.freeSlots = lease.slot :: rest ->
      Step before (.granted lease) { before with slots := before.slots.grant lease rest }
  | enlisted (lease : QSAHiSparseLease) : before.slots.Holds lease ->
      Step before (.enlisted lease)
        { before with requests := before.requests.set lease.reqPoolIdx lease }
  | copying (lease : QSAHiSparseLease) : before.slots.Permits lease [.prefill] ->
      before.slots.prefillOwner = some lease ->
      Step before (.copying lease) { before with slots := before.slots.setPhase lease .copying }
  | staged (lease : QSAHiSparseLease) : before.slots.Permits lease [.copying] ->
      before.slots.prefillOwner = some lease ->
      Step before (.staged lease)
        { before with slots := (before.slots.setPhase lease .hostReady).clearLane }
  | admitted (lease : QSAHiSparseLease) : before.slots.Permits lease [.hostReady] ->
      Step before (.admitted lease) { before with slots := before.slots.setPhase lease .decode }
  | handoffFailed (lease : QSAHiSparseLease) : before.slots.Holds lease ->
      Step before (.handoffFailed lease)
        { before with slots := before.slots.setPhase lease .failed }
  | replayFailed (lease : QSAHiSparseLease) : before.slots.Permits lease [.decode, .failed] ->
      Step before (.replayFailed lease)
        { before with slots := before.slots.setPhase lease .failed }
  | marked (leases : List QSAHiSparseLease) :
      (forall lease, lease ∈ leases -> before.slots.Permits lease [.failed]) ->
      Step before (.marked leases) { before with failed := before.failed ∪ leases }
  | settled (leases : List QSAHiSparseLease) :
      Step before (.settled leases)
        { before with failed := before.failed.filter (· ∉ leases) }
  | interrupted (lease : QSAHiSparseLease) : before.slots.Permits lease drainPhases ->
      Step before (.interrupted lease)
        { before with slots := before.slots.setPhase lease .releasing }
  | drainFailed (lease : QSAHiSparseLease) : before.slots.Permits lease drainPhases ->
      Step before (.drainFailed lease)
        { before with slots := (before.slots.setPhase lease .releasing).setPhase lease .failed }
  | drained (lease : QSAHiSparseLease) : before.slots.Permits lease drainPhases ->
      before.requests.get? lease.reqPoolIdx = some lease -> lease ∉ before.failed ->
      Step before (.drained lease)
        { before with
          slots := ((before.slots.setPhase lease .releasing).leaveLane lease).setPhase lease
            .drained }
  | flushed (lease : QSAHiSparseLease) : before.slots.Permits lease [.drained] ->
      before.freeGroupOpen = false ->
      Step before (.flushed lease)
        { before with slots := before.slots.setPhase lease .logicalFlushed }
  | committed (lease : QSAHiSparseLease) : before.slots.Permits lease [.logicalFlushed] ->
      before.freeGroupOpen = false ->
      Step before (.committed lease)
        { before with
          slots := before.slots.giveBack lease
          requests := before.requests.erase lease.reqPoolIdx
          commits := before.commits ++ [lease] }
  | deferred (lease : QSAHiSparseLease) : before.slots.Permits lease [.drained] ->
      before.freeGroupOpen = true -> lease ∉ before.pendingReleases ->
      Step before (.deferred lease)
        { before with pendingReleases := before.pendingReleases ++ [lease] }
  | popped (lease : QSAHiSparseLease) (rest : List QSAHiSparseLease) :
      before.pendingReleases = lease :: rest ->
      before.slots.active.contains lease.reqPoolIdx = false ->
      Step before (.popped lease) { before with pendingReleases := rest }
  | grouped (isOpen : Bool) :
      Step before (.grouped isOpen) { before with freeGroupOpen := isOpen }

/-- No request and no lease. -/
def Tenancy.initial (geometry : Geometry) : Tenancy :=
  ⟨.initial geometry, .empty, [], [], false, []⟩

def tenancies : System Tenancy Change where
  initial state := exists geometry, state = Tenancy.initial geometry
  step := Tenancy.Step

/-- The ledger makes one of its own moves, or none. -/
theorem Tenancy.Step.move {before after : Tenancy} {change : Change}
    (step : Tenancy.Step before change after) : Move before.slots after.slots := by
  cases step with
  | granted lease rest real positive named free newer unowned slots =>
      exact .grant lease rest positive free newer unowned slots
  | enlisted lease held => exact .none
  | copying lease permits owner => exact .copying lease permits owner
  | staged lease permits owner => exact .hostReady lease permits owner
  | admitted lease permits => exact .decode lease permits
  | handoffFailed lease held => exact .failed lease held
  | replayFailed lease permits => exact .failed lease permits.1
  | marked leases failed => exact .none
  | settled leases => exact .none
  | interrupted lease permits => exact .drainInterrupted lease permits
  | drainFailed lease permits => exact .drainFailed lease permits
  | drained lease permits found unmarked => exact .drained lease permits
  | flushed lease permits closed => exact .flushed lease permits
  | committed lease permits closed => exact .giveBack lease permits
  | deferred lease permits opened fresh => exact .none
  | popped lease rest listed inactive => exact .none
  | grouped isOpen => exact .none

/-! ## The ledger's part is a run of the ledger -/

/-- The ledger that a drain without copies leaves, by how its wait ends. -/
def drainResult (lease : QSAHiSparseLease) (ledger : QSAHiSparseSlots) :
    Except PyError Unit -> QSAHiSparseSlots
  | .ok _ => ((ledger.setPhase lease .releasing).leaveLane lease).setPhase lease .drained
  | .error cause =>
      if cause.isException = true then (ledger.setPhase lease .releasing).setPhase lease .failed
      else ledger.setPhase lease .releasing

theorem drain_performed {ledger : QSAHiSparseSlots} {lease : QSAHiSparseLease}
    (permits : ledger.Permits lease drainPhases) (answer : Except PyError Unit) :
    finalState ((Ledger.perform (.drain lease (some answer) [])).run ledger) =
      drainResult lease ledger answer := by
  rw [Ledger.perform, finalState_map]
  apply (@Leaves.finalState_iff _ _ _ (fun after => after = drainResult lease ledger answer) _).mp
  apply Ledger.drain_leaves lease Field.whole (answering answer) [] ledger
  · exact fun refused => absurd ⟨permits, by simp, List.not_mem_nil⟩ refused
  · intro _
    cases answer with
    | ok value => exact rfl
    | error cause =>
        refine ⟨fun caught => ?_, fun passed => ?_⟩
        · exact (if_pos caught).symm
        · have uncaught : ¬ cause.isException = true := by
            rw [passed]
            exact Bool.false_ne_true
          exact (if_neg uncaught).symm

/-- Every step is, on the ledger, one call of one of its methods. -/
theorem Tenancy.Step.performed {before after : Tenancy} {change : Change}
    (step : Tenancy.Step before change after) :
    exists operation, finalState ((Ledger.perform operation).run before.slots) = after.slots := by
  have looks (lease : QSAHiSparseLease) : exists operation,
      finalState ((Ledger.perform operation).run before.slots) = before.slots := by
    refine ⟨.require lease [], ?_⟩
    rw [Ledger.perform, finalState_map]
    exact require_reads lease [] before.slots
  have fails (lease : QSAHiSparseLease) (held : before.slots.Holds lease) : exists operation,
      finalState ((Ledger.perform operation).run before.slots) =
        before.slots.setPhase lease .failed := by
    refine ⟨.markFailed lease, ?_⟩
    rw [Ledger.perform, finalState_map]
    exact if_pos held
  cases step with
  | granted lease rest real positive named free newer unowned slots =>
      refine ⟨.acquire lease.reqPoolIdx lease.generation lease.rid, ?_⟩
      have absent : ¬ before.slots.active.contains lease.reqPoolIdx = true := by
        rw [Dict.contains, decide_eq_true_eq]
        exact Dict.get?_eq_none_iff.mp free
      rcases (acquire_outcome before.slots lease.reqPoolIdx lease.generation lease.rid).returned
        ⟨by rintro (small | small | nameless) <;> [omega; omega; exact named nameless], absent,
          Int.not_le.mpr newer, not_not.mpr unowned, by rw [slots]; exact List.cons_ne_nil _ _⟩ with
        ⟨value, ledger, ran, slot, others, found, same, rfl⟩
      rw [slots] at found
      cases found
      rw [Ledger.perform, finalState_map, ran, same]
      rfl
  | enlisted lease held => exact looks lease
  | copying lease permits owner =>
      rcases (beginHandoff_outcome before.slots lease).returned
        ⟨permits, not_not.mpr owner, trivial⟩ with ⟨_, ledger, ran, rfl⟩
      refine ⟨.beginHandoff lease, ?_⟩
      rw [Ledger.perform, finalState_map, ran]
      rfl
  | staged lease permits owner =>
      refine ⟨.finishHandoff lease (some (.ok true)), ?_⟩
      rw [Ledger.perform, finalState_map]
      change finalState ((finishHandoff Field.whole lease (some (answering (.ok true)))).run _) = _
      have finishes := finishHandoff_returns lease Field.whole before.slots permits owner
        (answering (.ok true)) rfl
      rw [finishes]
      rfl
  | admitted lease permits =>
      rcases (admitDecode_outcome before.slots lease).returned ⟨permits, trivial⟩ with
        ⟨_, ledger, ran, rfl⟩
      refine ⟨.admitDecode lease, ?_⟩
      rw [Ledger.perform, finalState_map, ran]
      rfl
  | handoffFailed lease held => exact fails lease held
  | replayFailed lease permits => exact fails lease permits.1
  | marked leases failed => exact looks ⟨0, 0, "", 0⟩
  | settled leases => exact looks ⟨0, 0, "", 0⟩
  | interrupted lease permits =>
      exact ⟨_, drain_performed permits (.error (.external false ""))⟩
  | drainFailed lease permits => exact ⟨_, drain_performed permits (.error .keyError)⟩
  | drained lease permits found unmarked => exact ⟨_, drain_performed permits (.ok ())⟩
  | flushed lease permits closed =>
      rcases (logicalFlushed_outcome before.slots lease false).returned
        ⟨permits, by simp, trivial⟩ with ⟨_, ledger, ran, rfl⟩
      refine ⟨.logicalFlushed lease false, ?_⟩
      rw [Ledger.perform, finalState_map, ran]
      rfl
  | committed lease permits closed =>
      rcases (commitRelease_outcome before.slots lease).returned ⟨permits, trivial⟩ with
        ⟨_, ledger, ran, rfl⟩
      refine ⟨.commitRelease lease, ?_⟩
      rw [Ledger.perform, finalState_map, ran]
      rfl
  | deferred lease permits opened fresh => exact looks lease
  | popped lease rest listed inactive => exact looks lease
  | grouped isOpen => exact looks ⟨0, 0, "", 0⟩

/-- The ledger of a reachable tenancy is one that calls of its methods reach. -/
theorem tenancies_performAll {state : Tenancy} (reachable : tenancies.Reachable state) :
    exists geometry operations, state.slots = performAll (.initial geometry) operations := by
  apply reachable.invariant
  · rintro first ⟨geometry, rfl⟩
    exact ⟨geometry, [], rfl⟩
  · rintro before change after ⟨geometry, operations, same⟩ step
    rcases Tenancy.Step.performed step with ⟨operation, ran⟩
    refine ⟨geometry, operations ++ [operation], ?_⟩
    rw [performAll, callAll_append]
    change after.slots = callAll Ledger.perform (performAll (.initial geometry) operations) [operation]
    rw [<- same]
    exact ran.symm

/-! ## What holds after every run -/

/-- A request is in the table under the row of its own lease, which is active; a
released lease still has its request; a lease whose streams are to be drained is
not released; and a committed lease is gone for good. -/
structure Tenancy.Valid (state : Tenancy) : Prop where
  ledger : LedgerInvariant state.slots
  owned : forall row lease, state.requests.get? row = some lease ->
    lease.reqPoolIdx = row ∧ state.slots.Holds lease
  released : forall lease, state.slots.Permits lease releasedPhases ->
    state.requests.get? lease.reqPoolIdx = some lease
  marked : forall lease, lease ∈ state.failed ->
    state.slots.Permits lease [.failed, .releasing]
  past : forall lease, lease ∈ state.commits -> ¬ state.slots.Holds lease ∧
    lease.generation ≤ (state.slots.lastGeneration.get? lease.reqPoolIdx).getD 0
  once : state.commits.Nodup

namespace Tenancy.Valid

variable {state : Tenancy}

theorem initial (geometry : Geometry) : Valid (Tenancy.initial geometry) where
  ledger := .initial geometry
  owned _ _ found := nomatch found
  released _ permits := nomatch permits.1
  marked _ member := absurd member List.not_mem_nil
  past _ member := absurd member List.not_mem_nil
  once := List.nodup_nil

/-- The active map and the generations decide most of it. -/
theorem rephase (valid : Valid state) {slots : QSAHiSparseSlots}
    (move : Move state.slots slots) (active : slots.active = state.slots.active)
    (generations : slots.lastGeneration = state.slots.lastGeneration)
    (released : forall lease, slots.Permits lease releasedPhases ->
      state.slots.Permits lease releasedPhases ∨
        state.requests.get? lease.reqPoolIdx = some lease)
    (marked : forall lease, lease ∈ state.failed -> slots.Permits lease [.failed, .releasing]) :
    Valid { state with slots } where
  ledger := valid.ledger.move move
  owned row lease found := by
    rcases valid.owned row lease found with ⟨same, held⟩
    refine ⟨same, ?_⟩
    change slots.active.get? lease.reqPoolIdx = some lease
    rw [active]
    exact held
  released lease permits := (released lease permits).elim (valid.released lease) id
  marked := marked
  past lease member := by
    rcases valid.past lease member with ⟨gone, older⟩
    change ¬ slots.active.get? lease.reqPoolIdx = some lease ∧
      lease.generation ≤ (slots.lastGeneration.get? lease.reqPoolIdx).getD 0
    rw [active, generations]
    exact ⟨gone, older⟩
  once := valid.once

/-- A marked lease is in no other phase. -/
theorem unmarked (valid : Valid state) {lease : QSAHiSparseLease} {phases : List Phase}
    (permits : state.slots.Permits lease phases)
    (apart : forall phase, phase ∈ phases -> phase ∉ [Phase.failed, .releasing]) :
    lease ∉ state.failed :=
  fun member => permits_disjoint permits (valid.marked lease member) apart

/-- The marked leases after a change of phase. -/
theorem marked_setPhase (valid : Valid state) {lease : QSAHiSparseLease} {phase : Phase}
    (held : state.slots.Holds lease)
    (allowed : lease ∈ state.failed -> phase ∈ [Phase.failed, .releasing]) :
    forall other, other ∈ state.failed ->
      (state.slots.setPhase lease phase).Permits other [.failed, .releasing] := by
  intro other member
  by_cases same : other = lease
  · rw [same] at member ⊢
    rcases held.setPhase_permits phase with ⟨heldHere, current, present, inside⟩
    rw [List.mem_singleton] at inside
    exact ⟨heldHere, current, present, inside ▸ allowed member⟩
  · exact setPhase_other held same (valid.marked other member)

/-- A change of phase outside the released phases. -/
theorem setPhase (valid : Valid state) {lease : QSAHiSparseLease} {phase : Phase}
    (held : state.slots.Holds lease) (outside : phase ∉ releasedPhases)
    (allowed : lease ∈ state.failed -> phase ∈ [Phase.failed, .releasing])
    (move : Move state.slots (state.slots.setPhase lease phase)) :
    Valid { state with slots := state.slots.setPhase lease phase } := by
  refine valid.rephase move rfl rfl ?_ (valid.marked_setPhase held allowed)
  intro other permits
  rcases setPhase_cases held permits with ⟨_, inside⟩ | ⟨_, before⟩
  · exact absurd inside outside
  · exact Or.inl before

theorem grant (valid : Valid state) {lease : QSAHiSparseLease} {rest : List Nat}
    (free : state.slots.active.get? lease.reqPoolIdx = none)
    (newer : (state.slots.lastGeneration.get? lease.reqPoolIdx).getD 0 < lease.generation)
    (move : Move state.slots (state.slots.grant lease rest)) :
    Valid { state with slots := state.slots.grant lease rest } where
  ledger := valid.ledger.move move
  owned row other found :=
    ⟨(valid.owned row other found).1, grant_holds free (valid.owned row other found).2⟩
  released other permits := by
    rcases grant_cases permits with ⟨_, inside⟩ | before
    · exact absurd inside (by decide)
    · exact valid.released other before
  marked other member := grant_permits free (valid.marked other member)
  past other member := by
    rcases valid.past other member with ⟨gone, older⟩
    change ¬ (state.slots.grant lease rest).Holds other ∧ other.generation ≤
      ((state.slots.lastGeneration.set lease.reqPoolIdx lease.generation).get?
        other.reqPoolIdx).getD 0
    constructor
    · intro held
      rcases grant_holds_cases held with rfl | ⟨_, before⟩
      · omega
      · exact gone before
    · rw [Dict.get?_set]
      by_cases same : other.reqPoolIdx = lease.reqPoolIdx
      · rw [if_pos same]
        rw [same] at older
        change other.generation ≤ lease.generation
        omega
      · rw [if_neg same]
        exact older
  once := valid.once

theorem enlist (valid : Valid state) {lease : QSAHiSparseLease}
    (held : state.slots.Holds lease) :
    Valid { state with requests := state.requests.set lease.reqPoolIdx lease } :=
  { valid with
    owned := by
      intro row other found
      change (state.requests.set lease.reqPoolIdx lease).get? row = some other at found
      rw [Dict.get?_set] at found
      by_cases same : row = lease.reqPoolIdx
      · rw [if_pos same] at found
        cases found
        exact ⟨same.symm, held⟩
      · rw [if_neg same] at found
        exact valid.owned row other found
    released := by
      intro other permits
      change (state.requests.set lease.reqPoolIdx lease).get? other.reqPoolIdx = some other
      rw [Dict.get?_set]
      by_cases same : other.reqPoolIdx = lease.reqPoolIdx
      · rw [if_pos same, held_unique held permits.1 same]
      · rw [if_neg same]
        exact valid.released other permits }

theorem giveBack (valid : Valid state) {lease : QSAHiSparseLease}
    (flushed : state.slots.Permits lease [.logicalFlushed])
    (move : Move state.slots (state.slots.giveBack lease)) :
    Valid
      { state with
        slots := state.slots.giveBack lease
        requests := state.requests.erase lease.reqPoolIdx
        commits := state.commits ++ [lease] } where
  ledger := valid.ledger.move move
  owned row other found := by
    change (state.requests.erase lease.reqPoolIdx).get? row = some other at found
    rw [Dict.get?_erase] at found
    by_cases same : row = lease.reqPoolIdx
    · rw [if_pos same] at found
      cases found
    · rw [if_neg same] at found
      rcases valid.owned row other found with ⟨named, held⟩
      exact ⟨named, giveBack_holds (named ▸ same) held⟩
  released other permits := by
    rcases giveBack_cases permits with ⟨rows, before⟩
    change (state.requests.erase lease.reqPoolIdx).get? other.reqPoolIdx = some other
    rw [Dict.get?_erase_of_ne _ rows]
    exact valid.released other before
  marked other member := by
    have different : other ≠ lease := fun same =>
      valid.unmarked flushed (by decide) (same ▸ member)
    exact giveBack_permits flushed.1 different (valid.marked other member)
  past other member := by
    rcases List.mem_append.mp member with old | new
    · rcases valid.past other old with ⟨gone, older⟩
      exact ⟨fun held => gone (giveBack_holds_cases held).2, older⟩
    · rw [List.mem_singleton.mp new]
      refine ⟨fun held => (giveBack_holds_cases held).1 rfl, ?_⟩
      change lease.generation ≤ (state.slots.lastGeneration.get? lease.reqPoolIdx).getD 0
      rw [(valid.ledger.own_entry _ lease flushed.1).2]
      exact Int.le_refl _
  once := by
    apply List.nodup_append.mpr
    refine ⟨valid.once, List.nodup_singleton lease, ?_⟩
    rintro other member last isLast rfl
    rw [List.mem_singleton] at isLast
    exact (valid.past other member).1 (isLast ▸ flushed.1)

/-- Every step keeps it. -/
theorem step (valid : Valid state) {change : Change} {after : Tenancy}
    (step : Tenancy.Step state change after) : Valid after := by
  have move := step.move
  cases step with
  | granted lease rest real positive named free newer unowned slots => exact valid.grant free newer move
  | enlisted lease held => exact valid.enlist held
  | copying lease permits owner =>
      have unmarked := valid.unmarked permits (by decide)
      exact valid.setPhase permits.1 (by decide) (fun member => absurd member unmarked) move
  | staged lease permits owner =>
      have unmarked := valid.unmarked permits (by decide)
      refine valid.rephase move rfl rfl (fun other released => ?_)
        (valid.marked_setPhase permits.1 fun member => absurd member unmarked)
      rcases setPhase_cases permits.1 released with ⟨_, inside⟩ | ⟨_, before⟩
      · exact absurd inside (by decide)
      · exact Or.inl before
  | admitted lease permits =>
      have unmarked := valid.unmarked permits (by decide)
      exact valid.setPhase permits.1 (by decide) (fun member => absurd member unmarked) move
  | handoffFailed lease held => exact valid.setPhase held (by decide) (fun _ => by decide) move
  | replayFailed lease permits =>
      exact valid.setPhase permits.1 (by decide) (fun _ => by decide) move
  | marked leases failed =>
      refine { valid with marked := fun lease member => ?_ }
      rcases List.mem_union_iff.mp member with old | new
      · exact valid.marked lease old
      · rcases failed lease new with ⟨held, phase, present, inside⟩
        exact ⟨held, phase, present, List.mem_cons.mpr (Or.inl (List.mem_singleton.mp inside))⟩
  | settled leases =>
      refine { valid with marked := fun lease member => ?_ }
      exact valid.marked lease (List.mem_filter.mp member).1
  | interrupted lease permits =>
      exact valid.setPhase permits.1 (by decide) (fun _ => by decide) move
  | drainFailed lease permits =>
      have held : (state.slots.setPhase lease .releasing).Holds lease := permits.1
      refine valid.rephase move rfl rfl (fun other released => ?_) fun other member => ?_
      · rcases setPhase_cases held released with ⟨_, inside⟩ | ⟨different, before⟩
        · exact absurd inside (by decide)
        · rcases setPhase_cases permits.1 before with ⟨same, _⟩ | ⟨_, earlier⟩
          · exact absurd same different
          · exact Or.inl earlier
      · by_cases same : other = lease
        · rw [same]
          rcases held.setPhase_permits .failed with ⟨heldHere, phase, present, inside⟩
          rw [List.mem_singleton] at inside
          exact ⟨heldHere, phase, present, by rw [inside]; decide⟩
        · exact setPhase_other held same (setPhase_other permits.1 same (valid.marked other member))
  | drained lease permits found unmarked =>
      have active : (((state.slots.setPhase lease .releasing).leaveLane lease).setPhase lease
          .drained).active = state.slots.active := by
        change ((state.slots.setPhase lease .releasing).leaveLane lease).active = _
        unfold QSAHiSparseSlots.leaveLane
        split <;> rfl
      have generations : (((state.slots.setPhase lease .releasing).leaveLane lease).setPhase lease
          .drained).lastGeneration = state.slots.lastGeneration := by
        change ((state.slots.setPhase lease .releasing).leaveLane lease).lastGeneration = _
        unfold QSAHiSparseSlots.leaveLane
        split <;> rfl
      have held : (state.slots.setPhase lease .releasing).Holds lease := permits.1
      refine valid.rephase move active generations (fun other released => ?_) fun other member => ?_
      · rcases setPhase_cases (leaveLane_holds.mpr held) released with
          ⟨rfl, _⟩ | ⟨different, before⟩
        · exact Or.inr found
        · rcases setPhase_cases permits.1 (leaveLane_permits.mp before) with
            ⟨same, _⟩ | ⟨_, earlier⟩
          · exact absurd same different
          · exact Or.inl earlier
      · have different : other ≠ lease := fun same => unmarked (same ▸ member)
        refine setPhase_other (leaveLane_holds.mpr held) different (leaveLane_permits.mpr ?_)
        exact setPhase_other permits.1 different (valid.marked other member)
  | flushed lease permits closed =>
      have unmarked := valid.unmarked permits (by decide)
      refine valid.rephase move rfl rfl (fun other released => ?_)
        (valid.marked_setPhase permits.1 fun member => absurd member unmarked)
      rcases setPhase_cases permits.1 released with ⟨rfl, _⟩ | ⟨_, before⟩
      · rcases permits with ⟨held, phase, present, member⟩
        rw [List.mem_singleton] at member
        exact Or.inl ⟨held, phase, present, member ▸ by decide⟩
      · exact Or.inl before
  | committed lease permits closed => exact valid.giveBack permits move
  | deferred lease permits opened fresh => exact { valid with }
  | popped lease rest listed inactive => exact { valid with }
  | grouped isOpen => exact { valid with }

end Tenancy.Valid

/-- Whatever changes are made, in whatever order. -/
theorem tenancies_valid {state : Tenancy} (reachable : tenancies.Reachable state) :
    state.Valid := by
  apply reachable.invariant
  · rintro first ⟨geometry, rfl⟩
    exact Tenancy.Valid.initial geometry
  · exact fun before change after valid step => Tenancy.Valid.step valid step

/-! ## The phases of a lease -/

section Phases

variable {lease : QSAHiSparseLease}

/-- The phase that a change gives to a lease. -/
def Change.sets : Change -> Option (QSAHiSparseLease × Phase)
  | .granted lease => some (lease, .prefill)
  | .copying lease => some (lease, .copying)
  | .staged lease => some (lease, .hostReady)
  | .admitted lease => some (lease, .decode)
  | .handoffFailed lease => some (lease, .failed)
  | .replayFailed lease => some (lease, .failed)
  | .interrupted lease => some (lease, .releasing)
  | .drainFailed lease => some (lease, .failed)
  | .drained lease => some (lease, .drained)
  | .flushed lease => some (lease, .logicalFlushed)
  | _ => none

/-- A phase that is found was there before or is the one that was set. -/
theorem Tenancy.Step.phase_cases {before after : Tenancy} {change : Change}
    (step : Tenancy.Step before change after) {phases : List Phase}
    (permits : after.slots.Permits lease phases) :
    before.slots.Permits lease phases ∨
      exists phase, phase ∈ phases ∧ change.sets = some (lease, phase) := by
  have rephased {changed : QSAHiSparseLease} {phase : Phase} (held : before.slots.Holds changed)
      (found : (before.slots.setPhase changed phase).Permits lease phases) :
      before.slots.Permits lease phases ∨
        exists given, given ∈ phases ∧ some (changed, phase) = some (lease, given) := by
    rcases setPhase_cases held found with ⟨rfl, inside⟩ | ⟨_, earlier⟩
    · exact Or.inr ⟨phase, inside, rfl⟩
    · exact Or.inl earlier
  cases step with
  | granted changed rest real positive named free newer unowned slots =>
      rcases grant_cases permits with ⟨rfl, inside⟩ | earlier
      · exact Or.inr ⟨.prefill, inside, rfl⟩
      · exact Or.inl earlier
  | enlisted changed held => exact Or.inl permits
  | copying changed ready owner => exact rephased ready.1 permits
  | staged changed ready owner => exact rephased ready.1 permits
  | admitted changed ready => exact rephased ready.1 permits
  | handoffFailed changed held => exact rephased held permits
  | replayFailed changed ready => exact rephased ready.1 permits
  | marked leases failed => exact Or.inl permits
  | settled leases => exact Or.inl permits
  | interrupted changed ready => exact rephased ready.1 permits
  | drainFailed changed ready =>
      have held : (before.slots.setPhase changed .releasing).Holds changed := ready.1
      rcases setPhase_cases held permits with ⟨rfl, inside⟩ | ⟨different, earlier⟩
      · exact Or.inr ⟨.failed, inside, rfl⟩
      · rcases setPhase_cases ready.1 earlier with ⟨same, _⟩ | ⟨_, first⟩
        · exact absurd same different
        · exact Or.inl first
  | drained changed ready found unmarked =>
      have held : (before.slots.setPhase changed .releasing).Holds changed := ready.1
      rcases setPhase_cases (leaveLane_holds.mpr held) permits with ⟨rfl, inside⟩ | ⟨different, earlier⟩
      · exact Or.inr ⟨.drained, inside, rfl⟩
      · rcases setPhase_cases ready.1 (leaveLane_permits.mp earlier) with ⟨same, _⟩ | ⟨_, first⟩
        · exact absurd same different
        · exact Or.inl first
  | flushed changed ready closed => exact rephased ready.1 permits
  | committed changed ready closed => exact Or.inl (giveBack_cases permits).2
  | deferred changed ready opened fresh => exact Or.inl permits
  | popped changed rest listed inactive => exact Or.inl permits
  | grouped isOpen => exact Or.inl permits

/-- Only its drain releases a lease. -/
theorem Tenancy.Step.released_cases {before after : Tenancy} {change : Change}
    (step : Tenancy.Step before change after) (permits : after.slots.Permits lease releasedPhases) :
    before.slots.Permits lease releasedPhases ∨ change = .drained lease := by
  rcases step.phase_cases permits with earlier | ⟨phase, inside, sets⟩
  · exact Or.inl earlier
  · cases step with
    | flushed changed ready closed =>
        cases sets
        rcases ready with ⟨held, current, present, member⟩
        rw [List.mem_singleton] at member
        exact Or.inl ⟨held, current, present, by rw [member]; decide⟩
    | drained changed ready found unmarked =>
        cases sets
        exact Or.inr rfl
    | enlisted => cases sets
    | marked => cases sets
    | settled => cases sets
    | committed => cases sets
    | deferred => cases sets
    | popped => cases sets
    | grouped => cases sets
    | _ =>
        cases sets
        exact absurd inside (by decide)

end Phases

end Runtime
end QSAHiSparse

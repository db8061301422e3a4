import QSAHiSparse.Runtime.SecuredBatches

namespace QSAHiSparse
namespace Runtime

open Foundation
open Ledger

/-!
# Graph replays keep every copy awaited

The copies of a replay are stray until the shared event is recorded and every
closing cache refers to it.  Whatever raises in between, the failure handler
marks the leases of the batch for a drain of both streams.
-/

section Replay

variable (plan : Plan) {config : Config}

theorem prepareGraphReplay_preserves (batch : ForwardBatch) (count : Nat) :
    Preserves (Secured noStray)
      (prepareGraphReplay (queueMachine plan) config batch count) := by
  have lasting := secured_lasting noStray
  unfold prepareGraphReplay
  refine Preserves.get_bind fun self => ?_
  refine Preserves.bind (Preserves.raiseIf _ _) fun _ => ?_
  refine Preserves.bind (beginBatch_preserves plan batch true) fun _ => ?_
  refine Preserves.get_bind fun self => ?_
  refine Preserves.bind ((lasting.steady plan).waitFor _ _ _) fun _ => ?_
  refine Preserves.bind ((outside_waits plan _).preserves lasting) fun _ => ?_
  exact Preserves.modify fun runtime secured => { secured with }

/-! ## Draining both streams -/

theorem attempt_leaves {σ : Type} {program : Method σ PUnit} {state : σ}
    {post : Option PyError -> σ -> Prop} {raised : PyError -> σ -> Prop}
    (outcome : Leaves (fun _ => post none) (fun error => post (some error)) (program.run state)) :
    Leaves post raised ((attempt program).run state) := by
  unfold attempt
  apply (Leaves.tryCatch_iff _ _ _).mpr
  apply (Leaves.bind_iff _ _ _).mpr
  exact outcome

/-- Both streams are drained, or an error is raised. -/
theorem drainGraphStreams_leaves (runtime : QSAHiSparseRuntime CopyQueue) :
    Leaves
      (fun _ after => Later runtime after ∧
        after.device.submitted.length ≤ after.device.completed)
      (fun _ after => Later runtime after)
      ((drainGraphStreams (queueMachine plan)).run runtime) := by
  unfold drainGraphStreams
  apply (Leaves.bind_iff _ _ _).mpr
  apply attempt_leaves
  refine ((drain_waits plan _ _).leaves runtime).mono (fun _ after later => ?_)
    (fun first after later => ?_)
  · -- The producer stream was drained: the copy stream decides.
    apply (Leaves.bind_iff _ _ _).mpr
    apply attempt_leaves
    apply drain_leaves
    · intro last laterLast completed
      exact ⟨later.trans laterLast, completed rfl⟩
    · intro second last _ laterLast
      exact later.trans laterLast
  · -- The first error is raised, however the second drain ends.
    apply (Leaves.bind_iff _ _ _).mpr
    apply attempt_leaves
    apply drain_leaves
    · intro last laterLast _
      exact later.trans laterLast
    · intro second last _ laterLast
      exact later.trans laterLast

/-! ## Containment -/

/-- The failure handler can secure the state: every stray lease is in the graph
batch. -/
def Recoverable (runtime : QSAHiSparseRuntime CopyQueue) : Prop :=
  exists stray, Secured stray runtime ∧ forall lease, stray lease ->
    exists saved, runtime.graphBatch = some saved ∧ lease ∈ saved.map Prod.fst

theorem Secured.recoverable {runtime : QSAHiSparseRuntime CopyQueue}
    (secured : Secured noStray runtime) : Recoverable runtime :=
  ⟨noStray, secured, fun _ absurdity => absurdity.elim⟩

theorem failLeases_active (leases : List QSAHiSparseLease) (slots : QSAHiSparseSlots) :
    (failLeases leases slots).active = slots.active := by
  unfold failLeases
  induction leases generalizing slots with
  | nil => rfl
  | cons lease leases previous => exact previous (slots.setPhase lease .failed)

theorem failLeases_live (leases : List QSAHiSparseLease) {slots : QSAHiSparseSlots}
    {lease : QSAHiSparseLease} (permits : slots.Permits lease livePhases) :
    (failLeases leases slots).Permits lease livePhases := by
  unfold failLeases
  induction leases generalizing slots with
  | nil => exact permits
  | cons failed leases previous =>
      exact previous (@setPhase_live _ _ _ .failed (by decide) permits)

/-- Marking the active leases of the batch secures every stray one. -/
theorem Secured.marked {stray : QSAHiSparseLease -> Prop}
    {runtime : QSAHiSparseRuntime CopyQueue} (secured : Secured stray runtime)
    {saved : List (QSAHiSparseLease × Int)}
    (inBatch : forall lease, stray lease -> lease ∈ saved.map Prod.fst) :
    let leases := (saved.map Prod.fst).filter fun lease =>
      runtime.slots.active.get? lease.reqPoolIdx = some lease
    Secured noStray
      { runtime with
        graphFailedLeases := runtime.graphFailedLeases ∪ leases
        slots := failLeases leases runtime.slots } := by
  intro leases
  refine ⟨?_, ?_, secured.shared, ?_, secured.committed⟩
  · intro lease index pending
    refine Or.inr ?_
    rcases secured.awaited lease index pending with isStray | marked | covered
    · have held := (secured.live lease index pending).1
      refine Or.inl (List.mem_union_iff.mpr (Or.inr (List.mem_filter.mpr ⟨inBatch lease isStray, ?_⟩)))
      exact decide_eq_true held
    · exact Or.inl (List.mem_union_iff.mpr (Or.inl marked))
    · exact Or.inr covered
  · exact fun lease index pending => failLeases_live leases (secured.live lease index pending)
  · intro reqIdx lease found
    refine ⟨(secured.owned reqIdx lease found).1, ?_⟩
    change (failLeases leases runtime.slots).active.get? lease.reqPoolIdx = some lease
    rw [failLeases_active]
    exact (secured.owned reqIdx lease found).2

/-- With no copy pending any lease may leave the failed set. -/
theorem Secured.unmark {runtime : QSAHiSparseRuntime CopyQueue} (secured : Secured noStray runtime)
    (drained : runtime.device.submitted.length ≤ runtime.device.completed)
    (failed : List QSAHiSparseLease) :
    Secured noStray { runtime with graphFailedLeases := failed } where
  awaited := fun lease index pending => by
    have inside := pending.index_lt
    have waiting := pending.1
    change index < runtime.device.submitted.length at inside
    change runtime.device.completed ≤ index at waiting
    omega
  live := secured.live
  shared := secured.shared
  owned := secured.owned
  committed := secured.committed

theorem drainFailed_preserves (cause : Option PyError) (leases : List QSAHiSparseLease) :
    Preserves (Secured noStray) (drainFailed (queueMachine plan) cause leases) := by
  intro runtime secured
  unfold drainFailed
  apply (Leaves.bind_iff _ _ _).mpr
  apply attempt_leaves
  apply (drainGraphStreams_leaves plan runtime).mono
  · rintro _ after ⟨later, drained⟩
    exact (secured.later later).unmark drained _
  · intro error after later
    cases cause with
    | none => exact secured.later later
    | some cause => exact secured.later later

theorem failGraphReplay_leaves (cause : Option PyError)
    {runtime : QSAHiSparseRuntime CopyQueue} (recoverable : Recoverable runtime) :
    Leaves (fun _ => Secured noStray) (fun _ => Secured noStray)
      ((failGraphReplay (queueMachine plan) cause).run runtime) := by
  rcases recoverable with ⟨stray, secured, inBatch⟩
  unfold failGraphReplay
  apply (Leaves.bind_iff _ _ _).mpr
  apply (Leaves.get_iff _).mpr
  cases batch : runtime.graphBatch with
  | none =>
      refine secured.ofSettled fun lease isStray => ?_
      rcases inBatch lease isStray with ⟨saved, present, _⟩
      rw [batch] at present
      cases present
  | some saved =>
      have member (lease : QSAHiSparseLease) (isStray : stray lease) :
          lease ∈ saved.map Prod.fst := by
        rcases inBatch lease isStray with ⟨other, present, member⟩
        rw [batch] at present
        cases present
        exact member
      have closes (leases : List QSAHiSparseLease) : Preserves (Secured noStray)
          (tryFinally (drainFailed (queueMachine plan) cause leases)
            (modify fun self : QSAHiSparseRuntime CopyQueue => { self with graphBatch := none })) :=
        Preserves.tryFinally (drainFailed_preserves plan cause leases)
          (Preserves.modify fun _ secured => { secured with })
      apply (Leaves.bind_iff _ _ _).mpr
      apply (Leaves.modify_iff _ _).mpr
      exact closes _ _ (secured.marked member)

/-- A handler that contains the failure and raises it again. -/
theorem containing_leaves {program : Method (QSAHiSparseRuntime CopyQueue) PUnit}
    {runtime : QSAHiSparseRuntime CopyQueue}
    (body : Leaves (fun _ => Secured noStray) (fun _ => Recoverable) (program.run runtime)) :
    Leaves (fun _ => Secured noStray) (fun _ => Secured noStray)
      ((tryCatch program fun error => do
        failGraphReplay (queueMachine plan) (some error)
        throw error : Method (QSAHiSparseRuntime CopyQueue) PUnit).run runtime) := by
  apply (Leaves.tryCatch_iff _ _ _).mpr
  apply body.mono (fun _ _ secured => secured)
  intro error after recoverable
  apply (Leaves.bind_iff _ _ _).mpr
  exact (failGraphReplay_leaves plan (some error) recoverable).mono (fun _ _ secured => secured)
    (fun _ _ secured => secured)

/-! ## The end of a replay -/

/-- A batch about to be written back: its leases decode. -/
structure Finishing (saved : List (QSAHiSparseLease × Int))
    (runtime : QSAHiSparseRuntime CopyQueue) : Prop where
  secured : Secured noStray runtime
  batch : runtime.graphBatch = some saved

theorem finishing_lasting (saved : List (QSAHiSparseLease × Int)) :
    Lasting (Finishing saved) := by
  intro before after finishing later
  have secured := finishing.secured.later later
  rcases later with ⟨queue, rfl, _, _⟩
  exact ⟨secured, finishing.batch⟩

theorem Finishing.recoverable {saved : List (QSAHiSparseLease × Int)} (_ : PyError)
    (runtime : QSAHiSparseRuntime CopyQueue) (finishing : Finishing saved runtime) :
    Recoverable runtime :=
  finishing.secured.recoverable

theorem checkSaved_leaves (row : QSAHiSparseLease × Int)
    (runtime : QSAHiSparseRuntime CopyQueue) :
    Leaves (fun _ after => after = runtime ∧ runtime.slots.Permits row.1 [.decode])
      (fun _ after => after = runtime) ((checkSaved row).run runtime) := by
  unfold checkSaved
  apply (Leaves.bind_iff _ _ _).mpr
  apply Leaves.mono (request_leaves _ _ runtime)
  · rintro held after ⟨rfl, _, _⟩
    apply (Leaves.bind_iff _ _ _).mpr
    apply Leaves.mono (zoom_require_outcome row.1 ledger (by simp) after)
    · rintro _ last ⟨permits, rfl⟩
      apply (Leaves.bind_iff _ _ _).mpr
      apply (Leaves.get_iff _).mpr
      apply (Leaves.raiseIf_iff _ _ _).mpr
      exact ⟨fun _ => rfl, fun _ => ⟨rfl, permits⟩⟩
    · rintro _ last ⟨_, rfl⟩
      rfl
  · rintro _ _ rfl
    rfl

theorem checkSavedRows_leaves (rows : List (QSAHiSparseLease × Int))
    (runtime : QSAHiSparseRuntime CopyQueue) :
    Leaves
      (fun _ after => after = runtime ∧
        forall row, row ∈ rows -> runtime.slots.Permits row.1 [.decode])
      (fun _ after => after = runtime) ((forM rows checkSaved).run runtime) := by
  induction rows with
  | nil => exact ⟨rfl, fun row member => absurd member List.not_mem_nil⟩
  | cons row rows previous =>
      rw [List.forM_cons]
      apply (Leaves.bind_iff _ _ _).mpr
      apply (checkSaved_leaves row runtime).mono
      · rintro _ _ ⟨rfl, permits⟩
        apply previous.mono
        · rintro _ _ ⟨rfl, others⟩
          refine ⟨rfl, fun other member => ?_⟩
          rcases List.mem_cons.mp member with rfl | later
          · exact permits
          · exact others other later
        · exact fun _ _ same => same
      · exact fun _ _ same => same

/-- A batch whose closing rows are being copied.  A row without layer states
has no copies. -/
structure Copying (saved closing : List (QSAHiSparseLease × Int))
    (caches : QSAHiSparseLease -> RequestCache) (runtime : QSAHiSparseRuntime CopyQueue) :
    Prop where
  secured : Secured
    (fun lease => (exists row, row ∈ closing ∧ row.1 = lease) ∧ (caches lease).states ≠ []) runtime
  batch : runtime.graphBatch = some saved
  decodes : forall row, row ∈ closing -> runtime.slots.Permits row.1 [.decode]
  among : forall row, row ∈ closing -> row.1 ∈ saved.map Prod.fst
  same : runtime.caches = caches

theorem copying_lasting (saved closing : List (QSAHiSparseLease × Int))
    (caches : QSAHiSparseLease -> RequestCache) : Lasting (Copying saved closing caches) := by
  intro before after copying later
  have secured := copying.secured.later later
  rcases later with ⟨queue, rfl, _, _⟩
  exact ⟨secured, copying.batch, copying.decodes, copying.among, copying.same⟩

theorem Copying.recoverable {saved closing : List (QSAHiSparseLease × Int)}
    {caches : QSAHiSparseLease -> RequestCache} (_ : PyError)
    (runtime : QSAHiSparseRuntime CopyQueue) (copying : Copying saved closing caches runtime) :
    Recoverable runtime := by
  refine ⟨_, copying.secured, ?_⟩
  rintro lease ⟨⟨row, member, rfl⟩, _⟩
  exact ⟨saved, copying.batch, copying.among row member⟩

/-- A queued copy of a closing row with layer states leaves the others as they
were. -/
theorem Copying.submitted {saved closing : List (QSAHiSparseLease × Int)}
    {caches : QSAHiSparseLease -> RequestCache} {runtime : QSAHiSparseRuntime CopyQueue}
    (copying : Copying saved closing caches runtime) {row : QSAHiSparseLease × Int}
    (member : row ∈ closing) (states : (caches row.1).states ≠ []) (li : Nat) :
    Copying saved closing caches
      { runtime with device := runtime.device.submit .copy (.writeBack row.1 li row.2) } where
  secured := by
    have queued := @Secured.submitted _ _ copying.secured (.writeBack row.1 li row.2)
      (decode_live (copying.decodes row member))
    apply queued.weaken
    rintro lease (isStray | rfl)
    · exact isStray
    · exact ⟨⟨row, member, rfl⟩, states⟩
  batch := copying.batch
  decodes := copying.decodes
  among := copying.among
  same := copying.same

theorem copyClosing_ensures {saved closing : List (QSAHiSparseLease × Int)}
    {caches : QSAHiSparseLease -> RequestCache} {row : QSAHiSparseLease × Int}
    (member : row ∈ closing) :
    Ensures (Copying saved closing caches) (copyClosing (queueMachine plan) row)
      (fun _ => Copying saved closing caches) (fun _ => Recoverable) := by
  intro runtime copying
  unfold copyClosing
  apply (Leaves.bind_iff _ _ _).mpr
  apply (Leaves.get_iff _).mpr
  rw [copying.same]
  refine Ensures.forEach _ (fun li inRange => ?_) runtime copying
  have states : (caches row.1).states ≠ [] := by
    intro empty
    rw [empty] at inRange
    exact absurd inRange List.not_mem_nil
  intro current copying
  apply submit_copy_leaves
  · intro after next
    exact (copying_lasting _ _ _ _ _ copying next.1).submitted member states li
  · intro fault after _ next
    have here := copying_lasting _ _ _ _ _ copying next.1
    cases fault.took with
    | true => exact (here.submitted member states li).recoverable fault.cause
    | false => exact here.recoverable fault.cause

/-- A new record of the shared event covers at least what the last one did. -/
theorem Secured.shareRecorded {stray : QSAHiSparseLease -> Prop}
    {runtime : QSAHiSparseRuntime CopyQueue} (secured : Secured stray runtime) :
    Secured stray
      { runtime with graphCopyDone := some (runtime.device.mark .copy), graphCopyPending := true }
    where
  awaited := by
    intro lease index pending
    rcases secured.awaited lease index pending with isStray | marked | ⟨event, mark, member, now, rest⟩
    · exact Or.inl isStray
    · exact Or.inr (Or.inl marked)
    · cases event with
      | own recorded => exact Or.inr (Or.inr ⟨.own recorded, mark, member, now, rest⟩)
      | graphCopyDone =>
          exact Or.inr (Or.inr ⟨.graphCopyDone, runtime.device.mark .copy, member, rfl, rfl,
            pending.index_lt⟩)
  live := secured.live
  shared := by
    intro mark recorded _
    cases recorded
    exact Nat.le_refl _
  owned := secured.owned
  committed := secured.committed

theorem sharedDone_mem {cache : RequestCache} (states : cache.states ≠ []) :
    Event.graphCopyDone ∈ cache.sharedDone.events := by
  rcases List.exists_mem_of_ne_nil _ states with ⟨state, member⟩
  apply List.mem_append_left
  apply List.mem_filterMap.mpr
  exact ⟨{ state with done := some .graphCopyDone }, List.mem_map.mpr ⟨state, member, rfl⟩, rfl⟩

/-- A cache without layer states keeps its events. -/
theorem sharedDone_events {cache : RequestCache} (states : cache.states = []) :
    cache.sharedDone.events = cache.events := by
  unfold RequestCache.sharedDone RequestCache.events
  rw [states]
  rfl

/-- Once every closing cache refers to the shared event no lease is stray. -/
theorem shareRows_leaves (rows : List (QSAHiSparseLease × Int))
    {runtime : QSAHiSparseRuntime CopyQueue} {saved : List (QSAHiSparseLease × Int)}
    (secured : Secured (fun lease => (exists row, row ∈ rows ∧ row.1 = lease) ∧
      (runtime.caches lease).states ≠ []) runtime)
    (batch : runtime.graphBatch = some saved)
    (now : runtime.graphCopyDone = some (runtime.device.mark .copy)) :
    Leaves (fun _ => Finishing saved) (fun _ => Recoverable)
      ((forM rows fun row => modify fun self : QSAHiSparseRuntime CopyQueue =>
        self.withCache row.1 RequestCache.sharedDone :
        Method (QSAHiSparseRuntime CopyQueue) PUnit).run runtime) := by
  induction rows generalizing runtime with
  | nil =>
      refine ⟨secured.ofSettled ?_, batch⟩
      rintro lease ⟨⟨row, member, _⟩, _⟩
      exact absurd member List.not_mem_nil
  | cons row rows previous =>
      rw [List.forM_cons]
      apply (Leaves.bind_iff _ _ _).mpr
      apply (Leaves.modify_iff _ _).mpr
      refine previous ?_ batch now
      have states (lease : QSAHiSparseLease) (some : (runtime.caches lease).states ≠ []) :
          ((runtime.withCache row.1 RequestCache.sharedDone).caches lease).states ≠ [] := by
        change (Function.update runtime.caches row.1 (runtime.caches row.1).sharedDone
          lease).states ≠ []
        by_cases same : lease = row.1
        · rw [same, Function.update_self]
          rw [same] at some
          exact fun empty => some (List.map_eq_nil_iff.mp empty)
        · rw [Function.update_of_ne same]
          exact some
      by_cases empty : (runtime.caches row.1).states = []
      · apply (secured.withCache row.1 RequestCache.sharedDone
          (Or.inr (sharedDone_events empty))).weaken
        rintro lease ⟨⟨other, member, rfl⟩, some⟩
        rcases List.mem_cons.mp member with rfl | later
        · exact absurd empty some
        · exact ⟨⟨other, later, rfl⟩, states other.1 some⟩
      · apply (secured.recorded row.1 RequestCache.sharedDone (sharedDone_mem empty) now).weaken
        rintro lease ⟨⟨⟨other, member, rfl⟩, some⟩, different⟩
        rcases List.mem_cons.mp member with rfl | later
        · exact absurd rfl different
        · exact ⟨⟨other, later, rfl⟩, states other.1 some⟩

/-- A batch whose rows have passed their checks. -/
structure Passed (saved : List (QSAHiSparseLease × Int))
    (runtime : QSAHiSparseRuntime CopyQueue) : Prop extends Finishing saved runtime where
  decodes : forall row, row ∈ saved -> runtime.slots.Permits row.1 [.decode]

theorem passed_lasting (saved : List (QSAHiSparseLease × Int)) : Lasting (Passed saved) := by
  intro before after passed later
  have finishing := finishing_lasting saved _ _ passed.toFinishing later
  rcases later with ⟨queue, rfl, _, _⟩
  exact ⟨finishing, passed.decodes⟩

theorem Passed.recoverable {saved : List (QSAHiSparseLease × Int)} (_ : PyError)
    (runtime : QSAHiSparseRuntime CopyQueue) (passed : Passed saved runtime) :
    Recoverable runtime :=
  passed.secured.recoverable

theorem closingRows_mem {saved : List (QSAHiSparseLease × Int)} {row : QSAHiSparseLease × Int}
    (member : row ∈ closingRows saved) : exists original, original ∈ saved ∧ original.1 = row.1 := by
  rcases List.mem_map.mp member with ⟨original, filtered, rfl⟩
  exact ⟨original, List.mem_of_mem_filter filtered, rfl⟩

theorem copyClosings_ensures (saved : List (QSAHiSparseLease × Int)) (producer : Mark) :
    Ensures (Passed saved) (copyClosings (queueMachine plan) producer (closingRows saved))
      (fun _ => Finishing saved) (fun _ => Recoverable) := by
  unfold copyClosings
  by_cases none : closingRows saved = []
  · rw [if_pos none]
    exact fun runtime passed => passed.toFinishing
  rw [if_neg none]
  intro runtime passed
  apply (Leaves.bind_iff _ _ _).mpr
  apply (Leaves.modify_iff _ _).mpr
  have copying : Copying saved (closingRows saved) runtime.caches
      { runtime with graphCopyEpoch := runtime.graphCopyEpoch + 1 } :=
    { secured := { passed.secured.weaken fun _ absurdity => absurdity.elim with }
      batch := passed.batch
      decodes := fun row member => by
        rcases closingRows_mem member with ⟨original, inSaved, same⟩
        rw [<- same]
        exact passed.decodes original inSaved
      among := fun row member => by
        rcases closingRows_mem member with ⟨original, inSaved, same⟩
        exact List.mem_map.mpr ⟨original, inSaved, same⟩
      same := rfl }
  have lasting := copying_lasting saved (closingRows saved) runtime.caches
  refine Preserves.andThen ((waitEvent_waits plan _ _ _).preserves lasting) Copying.recoverable
    (fun _ => ?_) _ copying
  refine Ensures.bind (Ensures.forEach _ fun row member =>
    copyClosing_ensures plan member) fun _ => ?_
  intro copied copying
  apply (Leaves.bind_iff _ _ _).mpr
  apply record_leaves
  · intro recording next
    have here := lasting _ _ copying next.1
    apply (Leaves.bind_iff _ _ _).mpr
    apply (Leaves.modify_iff _ _).mpr
    apply (Leaves.bind_iff _ _ _).mpr
    have recorded := here.secured.shareRecorded
    rw [<- here.same] at recorded
    generalize current : { recording with
      graphCopyDone := some (recording.device.mark .copy)
      graphCopyPending := true } = shared at recorded
    have batch : shared.graphBatch = some saved := by rw [<- current, here.batch]
    have now : shared.graphCopyDone = some (shared.device.mark .copy) := by rw [<- current]
    have caches : recording.caches = shared.caches := by rw [<- current]
    rw [caches] at recorded
    apply Leaves.mono (shareRows_leaves (closingRows saved) recorded batch now)
    · intro _ shared finishing
      exact ((outside_waits plan _).preserves (finishing_lasting saved) shared finishing).mono
        (fun _ _ => id) Finishing.recoverable
    · exact fun _ _ => id
  · intro fault after _ next
    exact (lasting _ _ copying next.1).recoverable fault.cause

theorem finishSaved_ensures (saved : List (QSAHiSparseLease × Int)) :
    Ensures (Finishing saved) (finishSaved (queueMachine plan) config saved)
      (fun _ => Finishing saved) (fun _ => Recoverable) := by
  have lasting := passed_lasting saved
  have lastingEnd := finishing_lasting saved
  have rows : Ensures (Finishing saved) (forM saved checkSaved) (fun _ => Passed saved)
      (fun _ => Recoverable) := by
    intro runtime finishing
    apply (checkSavedRows_leaves saved runtime).mono
    · rintro _ _ ⟨rfl, decodes⟩
      exact ⟨finishing, decodes⟩
    · rintro cause _ rfl
      exact finishing.recoverable cause
  unfold finishSaved
  refine Preserves.andThen ((ask_waits plan _).preserves lastingEnd) Finishing.recoverable
    fun known => ?_
  refine Preserves.andThen (Preserves.raiseIf _ _) Finishing.recoverable fun _ => ?_
  refine Ensures.bind rows fun _ => ?_
  refine Preserves.andThen ((record_waits plan _ _).preserves lasting) Passed.recoverable
    fun producer => ?_
  refine Preserves.andThen (strictly_preserves
    (Preserves.bind ((synchronize_waits plan _ _).preserves lasting) fun _ =>
      (lasting.steady plan).checkBytes _ _)) Passed.recoverable fun _ => ?_
  refine Ensures.bind (copyClosings_ensures plan saved producer) fun _ => ?_
  refine Preserves.andThen (strictly_preserves ((lastingEnd.steady plan).checkCopied _))
    Finishing.recoverable fun _ => ?_
  exact ((outside_waits plan _).preserves lastingEnd).escaping Finishing.recoverable

theorem finishGraphReplay_preserves (count : Nat) :
    Preserves (Secured noStray) (finishGraphReplay (queueMachine plan) config count) := by
  intro runtime secured
  unfold finishGraphReplay
  apply (Leaves.bind_iff _ _ _).mpr
  apply (Leaves.get_iff _).mpr
  cases batch : runtime.graphBatch with
  | none => exact secured
  | some saved =>
      apply (Leaves.bind_iff _ _ _).mpr
      apply (Leaves.raiseIf_iff _ _ _).mpr
      refine ⟨fun _ => secured, fun _ => ?_⟩
      apply (Leaves.tryFinally_iff _ _ _).mpr
      have contained := containing_leaves plan ((@finishSaved_ensures plan config saved
        runtime ⟨secured, batch⟩).mono (fun _ _ finishing => finishing.secured) (fun _ _ => id))
      apply contained.mono
      · exact fun _ _ secured => { secured with }
      · exact fun _ _ secured => { secured with }

theorem graphForward_preserves (batch : ForwardBatch) (count : Nat) :
    Preserves (Secured noStray) (graphForward (queueMachine plan) config batch count) := by
  have body : Preserves (Secured noStray) (do
      prepareGraphReplay (queueMachine plan) config batch count
      replayGraph (queueMachine plan) config
      finishGraphReplay (queueMachine plan) config count) :=
    Preserves.bind (prepareGraphReplay_preserves plan batch count) fun _ =>
      Preserves.bind ((secured_lasting noStray).steady plan).replayGraph fun _ =>
        finishGraphReplay_preserves plan count
  intro runtime secured
  unfold graphForward
  apply containing_leaves
  exact (body runtime secured).mono (fun _ _ => id) (fun _ _ secured => secured.recoverable)

end Replay

end Runtime
end QSAHiSparse

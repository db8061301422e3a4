import QSAHiSparse.PrefixCache.Kept

namespace QSAHiSparse
namespace PrefixCache

open Foundation
open HostPrefix
open QSAHiSparse.Runtime (Machine)

/-!
# Matches and restores keep the invariant

A reader that a lookup acquired is held by the call until it is recorded for the
handle or closed.  A record has the reader its handle was matched with, from the
allocation to the end of the restore.
-/

section Restore

variable {δ υ Element : Type} {cache after : QSAHostPrefixCache δ υ Element}
  (machine : Machine δ) (config : PrefixConfig) (upstream : Upstream δ υ Element)

/-! ## Aborts -/

/-- What an abort of a handle does: its match is closed, unless it is restoring,
and nothing else is. -/
structure Aborted (handle : CacheRequestHandle) (before after : QSAHostPrefixCache δ υ Element) :
    Prop where
  restoring : after.restoring = before.restoring
  captures : after.captures = before.captures
  matched : forall other, after.matched.get? other =
    if other = handle ∧ before.restoring.get? handle = none then none
    else before.matched.get? other
  pinned : before.restoring.get? handle ≠ none -> after.host = before.host
  others : forall reader, before.matched.get? handle ≠ some reader ->
    after.host.snapshotAt reader = before.host.snapshotAt reader
  reservations : after.host.reservations = before.host.reservations
  epoch : after.host.cache.epoch = before.host.cache.epoch

theorem Aborted.reach {handle : CacheRequestHandle} (aborted : Aborted handle cache after)
    (world : World δ υ Element) : Aborted handle cache (after.reach world) :=
  ⟨aborted.restoring, aborted.captures, aborted.matched, aborted.pinned, aborted.others,
    aborted.reservations, aborted.epoch⟩

/-- The part of an abort that is the cache's own. -/
theorem abort_leaves (kept : Kept none cache) (handle : CacheRequestHandle) :
    exists middle, Kept none middle ∧ Aborted handle cache middle ∧
      (releaseAbortedRequest upstream handle).run cache =
        (within (upstream.releaseAbortedRequest handle)).run middle := by
  unfold releaseAbortedRequest
  rw [EStateM.run_bind, EStateM.run_get]
  by_cases restoring : cache.restoring.contains handle = true
  · have recorded := Dict.contains_iff.mp restoring
    refine ⟨cache, kept, ⟨rfl, rfl, fun other => ?_, fun _ => rfl, fun _ _ => rfl, rfl, rfl⟩, ?_⟩
    · rw [if_neg fun both => recorded both.2]
    · simp only [if_pos restoring]
  · have idle : cache.restoring.get? handle = none := by
      apply Classical.byContradiction
      exact fun recorded => restoring (Dict.contains_iff.mpr recorded)
    have erased : forall other, (cache.matched.erase handle).get? other =
        if other = handle ∧ cache.restoring.get? handle = none then none
        else cache.matched.get? other := by
      intro other
      rw [Dict.get?_erase]
      by_cases same : other = handle
      · rw [if_pos same, if_pos ⟨same, idle⟩]
      · rw [if_neg same, if_neg fun both => same both.1]
    have popped := kept.popMatch idle
    simp only [if_neg restoring]
    cases found : cache.matched.get? handle with
    | none =>
        rw [found] at popped
        exact ⟨cache.popMatch handle, popped,
          ⟨rfl, rfl, erased, fun recorded => absurd idle recorded, fun _ _ => rfl, rfl, rfl⟩, rfl⟩
    | some reader =>
        rw [found] at popped
        rcases closeReader_run popped.owned.conserved reader with ⟨host, ran, closed⟩
        refine ⟨_, popped.close closed,
          ⟨rfl, rfl, erased, fun recorded => absurd idle recorded, fun other different => ?_,
            closed.reservations, closed.epoch⟩, ?_⟩
        · change host.snapshotAt other = cache.host.snapshotAt other
          rw [snapshotAt_clear closed.readers, if_neg]
          · rfl
          · rintro rfl
            exact different found
        · simp only [EStateM.run_bind, run_modify, ran]

theorem releaseAborted_leaves (kept : Kept none cache) (handle : CacheRequestHandle) :
    Leaves (fun _ after => Kept none after ∧ Aborted handle cache after)
      (fun _ after => Kept none after ∧ Aborted handle cache after)
      ((releaseAbortedRequest upstream handle).run cache) := by
  rcases abort_leaves upstream kept handle with ⟨middle, keptMiddle, aborted, ran⟩
  rw [ran]
  have apart : Apart fun after : QSAHostPrefixCache δ υ Element =>
      Kept none after ∧ Aborted handle cache after :=
    { reach := fun _ world holds => ⟨holds.1.reach world, holds.2.reach world⟩
      fields := fun _ lease _ same holds =>
        ⟨holds.1.setFields lease same, holds.2.restoring, holds.2.captures, holds.2.matched,
          holds.2.pinned, holds.2.others, holds.2.reservations, holds.2.epoch⟩ }
  exact within_preserves apart _ middle ⟨keptMiddle, aborted⟩

theorem releaseAborted_kept (handle : CacheRequestHandle) :
    Preserves (Kept none) (releaseAbortedRequest upstream handle) := by
  intro cache kept
  exact (releaseAborted_leaves upstream kept handle).mono (fun _ _ => And.left) fun _ _ => And.left

/-! ## Matches -/

/-- The handle has neither a match nor a record. -/
def Free (handle : CacheRequestHandle) (loose : Option Nat)
    (cache : QSAHostPrefixCache δ υ Element) : Prop :=
  Kept loose cache ∧ cache.matched.get? handle = none ∧ cache.restoring.get? handle = none

theorem Free.apart (handle : CacheRequestHandle) (loose : Option Nat) :
    Apart (Free handle loose : QSAHostPrefixCache δ υ Element -> Prop) :=
  Kept.apart loose fun _ matched restoring => matched.get? handle = none ∧
    restoring.get? handle = none

theorem matchNothing_preserves {fact : QSAHostPrefixCache δ υ Element -> Prop} (apart : Apart fact)
    (params : MatchPrefixParams) (handle : CacheRequestHandle)
    (namespaceKey : Option PrefixNamespace) :
    Preserves fact (matchNothing upstream params handle namespaceKey) :=
  Preserves.bind (converge_preserves upstream apart _) fun _ => within_preserves apart _

theorem keepMatch_ensures (params : MatchPrefixParams) (handle : CacheRequestHandle) (reader : Nat) :
    Ensures (Free handle (some reader)) (keepMatch upstream params handle reader)
      (fun _ => Kept none) (fun _ => Kept none) := by
  rintro cache ⟨kept, free, idle⟩
  rcases kept.called_open with ⟨snapshot, isOpen⟩
  apply (Leaves.bind_iff _ _ _).mpr
  rw [readSnapshot_run isOpen]
  apply (Leaves.bind_iff _ _ _).mpr
  apply (Leaves.modify_iff _ _).mpr
  have recorded := kept.keep free idle isOpen
  have rest : Preserves (Kept none : QSAHostPrefixCache δ υ Element -> Prop) (do
      let _ <- within (upstream.matchPrefix params)
      let snapshot <- readSnapshot reader
      return (snapshot.length : Int)) := by
    refine Preserves.bind (within_preserves (Kept.apart_only none) _) fun _ => ?_
    exact Preserves.bind (readSnapshot_reads reader).preserves fun _ => Preserves.pure _
  exact rest _ recorded

theorem lookupMatch_ensures (params : MatchPrefixParams) (req : Nat) (handle : CacheRequestHandle)
    (namespaceKey : PrefixNamespace) :
    Ensures (Free handle none) (lookupMatch upstream params req handle namespaceKey)
      (fun _ => Kept none) (fun _ => Kept none) := by
  rintro cache ⟨kept, free, idle⟩
  apply (Leaves.bind_iff _ _ _).mpr
  apply (Leaves.get_iff _).mpr
  apply (Leaves.bind_iff _ _ _).mpr
  apply ((imageIdentity_reads (cache.request req)).leaves cache).mono
  · intro identity after same
    rw [same]
    apply (Leaves.bind_iff _ _ _).mpr
    apply (acquire_leaves kept.owned.conserved _ _ _ _ _).mono
    · rintro found _ ⟨host, rfl, acquired⟩
      have held : Free handle found { cache with host } := ⟨kept.acquired acquired, free, idle⟩
      apply (Leaves.bind_iff _ _ _).mpr
      apply (Leaves.tryCatch_iff _ _ _).mpr
      have compared : Preserves (Free handle found) (do
          let signature <- readerSignature upstream found
          converge upstream (.matched handle (some namespaceKey) signature)) :=
        Preserves.bind (readerSignature_reads upstream found).preserves fun _ =>
          converge_preserves upstream (Free.apart handle found) _
      apply (compared _ held).mono
      · intro _ after freeAfter
        cases found with
        | none =>
            have rest : Preserves (Free handle none : QSAHostPrefixCache δ υ Element -> Prop)
                (within (upstream.matchPrefix params)) :=
              within_preserves (Free.apart handle none) _
            exact (rest after freeAfter).mono (fun _ _ => And.left) fun _ _ => And.left
        | some reader => exact keepMatch_ensures upstream params handle reader after freeAfter
      · intro cause after freeAfter
        rcases closeAny_leaves freeAfter.1 with ⟨closed, ran, keptClosed, _⟩
        apply (Leaves.bind_iff _ _ _).mpr
        rw [ran]
        exact keptClosed
    · rintro _ _ rfl
      exact kept
  · rintro _ _ rfl
    exact kept

theorem matchRequest_kept (params : MatchPrefixParams) (req : Nat) :
    Preserves (Kept none) (matchRequest config upstream params req) := by
  intro cache kept
  apply (Leaves.bind_iff _ _ _).mpr
  apply (Leaves.get_iff _).mpr
  have apart := @Kept.apart_only δ υ Element none
  by_cases restoring : cache.restoring.contains (cache.handle req) = true
  · simp only [if_pos restoring]
    exact Preserves.bind (converge_preserves upstream apart _) (fun _ => Preserves.throw _) cache kept
  · simp only [if_neg restoring]
    have idle : cache.restoring.get? (cache.handle req) = none := by
      apply Classical.byContradiction
      exact fun recorded => restoring (Dict.contains_iff.mpr recorded)
    apply (Leaves.bind_iff _ _ _).mpr
    apply (releaseAborted_leaves upstream kept (cache.handle req)).mono
    · rintro _ after ⟨keptAfter, aborted⟩
      have free : Free (cache.handle req) none after := by
        refine ⟨keptAfter, ?_, aborted.restoring ▸ idle⟩
        rw [aborted.matched, if_pos ⟨rfl, idle⟩]
      have missed : forall key, Preserves (Free (cache.handle req) none)
          (matchNothing upstream params (cache.handle req) key) :=
        fun key => matchNothing_preserves upstream (Free.apart _ _) params _ key
      have weaker : forall {α : Type} {program : Method (QSAHostPrefixCache δ υ Element) α},
          Preserves (Free (cache.handle req) none) program ->
          Ensures (Free (cache.handle req) none) program (fun _ => Kept none) (fun _ => Kept none) :=
        fun preserves state holds => (preserves state holds).mono (fun _ _ => And.left)
          fun _ _ => And.left
      cases cache.namespaceOf config (cache.request req) with
      | none => exact weaker (missed none) after free
      | some key =>
          apply (Leaves.bind_iff _ _ _).mpr
          apply (Leaves.get_iff _).mpr
          by_cases skipped : (after.request req).skipRadixCacheInsert = true ∨ params.isBigram = true
          · simp only [if_pos skipped]
            exact weaker (missed (some key)) after free
          · simp only [if_neg skipped]
            apply (Leaves.bind_iff _ _ _).mpr
            apply (within_preserves (Free.apart (cache.handle req) none) upstream.forceMiss after
              free).mono
            · intro forced later freeLater
              by_cases miss : forced = true
              · rw [if_pos miss]
                exact weaker (missed (some key)) later freeLater
              · rw [if_neg miss]
                exact lookupMatch_ensures upstream params req _ key later freeLater
            · exact fun _ _ => And.left
    · exact fun _ _ => And.left

theorem matchPrefix_kept (params : MatchPrefixParams) :
    Preserves (Kept none) (matchPrefix config upstream params) := by
  unfold matchPrefix
  cases params.req with
  | none => exact within_preserves (Kept.apart_only none) _
  | some req => exact matchRequest_kept config upstream params req

/-! ## Allocations -/

theorem unrecorded {handle : CacheRequestHandle}
    (absent : ¬ cache.restoring.contains handle = true) : cache.restoring.get? handle = none := by
  apply Classical.byContradiction
  exact fun recorded => absent (Dict.contains_iff.mpr recorded)

theorem checkPrepared_reads (req : Nat) (handle : CacheRequestHandle) (reader : Option Nat) :
    Reads (checkPrepared req handle reader : Method (QSAHostPrefixCache δ υ Element) _) := by
  apply Reads.of_preserves
  intro start
  refine Preserves.get_bind fun state => ?_
  cases reader with
  | none => exact Preserves.raiseIf _ _
  | some reader =>
      refine Preserves.bind (readSnapshot_reads reader).preserves fun snapshot => ?_
      refine Preserves.bind (Preserves.raiseIf _ _) fun _ => ?_
      exact Preserves.bind (Preserves.getItem _ _) fun record => Preserves.raiseIf _ _

theorem prepareRequest_kept (req : Nat) : Preserves (Kept none) (prepareRequest upstream req) := by
  intro cache kept
  apply (Leaves.bind_iff _ _ _).mpr
  apply (Leaves.get_iff _).mpr
  apply (Leaves.bind_iff _ _ _).mpr
  apply (Leaves.raiseIf_iff _ _ _).mpr
  refine ⟨fun _ => kept, fun absent => ?_⟩
  apply (Leaves.bind_iff _ _ _).mpr
  apply (Leaves.modify_iff _ _).mpr
  have recorded : Kept none (cache.setRecord (cache.handle req)
      (.start (cache.request req).kv (cache.matched.get? (cache.handle req)))) :=
    kept.setRecord (unrecorded absent) rfl
  have rest : Preserves (Kept none) (do
      let signature <- readerSignature upstream (cache.matched.get? (cache.handle req))
      converge upstream (.prepared (cache.handle req) signature)
      checkPrepared req (cache.handle req) (cache.matched.get? (cache.handle req))) := by
    refine Preserves.bind (readerSignature_reads upstream _).preserves fun signature => ?_
    refine Preserves.bind (converge_preserves upstream (Kept.apart_only none) _) fun _ => ?_
    exact (checkPrepared_reads req _ _).preserves
  exact rest _ recorded

theorem preparePrefixForExtend_kept (reqs : List Nat) :
    Preserves (Kept none) (preparePrefixForExtend upstream reqs) :=
  Preserves.forEach reqs fun req _ => prepareRequest_kept upstream req

theorem prefixDeviceIndices_kept (req : Nat) :
    Preserves (Kept none) (prefixDeviceIndices upstream req) := by
  refine Preserves.get_bind fun cache => ?_
  dsimp only
  split
  · exact within_preserves (Kept.apart_only none) _
  · split
    · exact within_preserves (Kept.apart_only none) _
    · exact Preserves.pure _
    · refine Preserves.bind (within_preserves (Kept.apart_only none) _) fun indices => ?_
      cases indices with
      | none => exact Preserves.throw _
      | some indices =>
          refine Preserves.bind (Preserves.modify fun state kept => ?_) fun _ => Preserves.pure _
          exact kept.updateRecord _ (fun _ => rfl) fun _ => rfl

/-! ## Restores -/

/-- The handle has a record, and with it the reader it was matched with. -/
def Restoring (handle : CacheRequestHandle) (reader : Option Nat)
    (cache : QSAHostPrefixCache δ υ Element) : Prop :=
  Kept none cache ∧ cache.restoring.get? handle ≠ none ∧ cache.matched.get? handle = reader

theorem Restoring.apart (handle : CacheRequestHandle) (reader : Option Nat) :
    Apart (Restoring handle reader : QSAHostPrefixCache δ υ Element -> Prop) :=
  Kept.apart none fun _ matched restoring => restoring.get? handle ≠ none ∧
    matched.get? handle = reader

/-- The copies of a restore are about to begin. -/
theorem Restoring.begin {handle : CacheRequestHandle} {reader : Nat}
    (restoring : Restoring handle (some reader) cache)
    {snapshot : PrefixSnapshot PrefixNamespace Element}
    (isOpen : cache.host.snapshotAt reader = some snapshot) (stream : Nat) :
    Restoring handle (some reader) ((cache.updateRecord handle fun record =>
      { record with restoreStream := some stream }).log (.restoring reader stream snapshot)) := by
  rcases restoring with ⟨kept, recorded, matched⟩
  rcases Option.ne_none_iff_exists'.mp recorded with ⟨record, found⟩
  have reads : record.reader = some reader :=
    (kept.owned.recorded handle record found).trans matched
  have same : (cache.updateRecord handle fun record =>
      { record with restoreStream := some stream }) =
        cache.setRecord handle { record with restoreStream := some stream } := by
    unfold QSAHostPrefixCache.updateRecord
    simp only [found]
  have drained := kept.drained.beginRestore found reads stream snapshot
  have owned : Owned none (cache.updateRecord handle fun record =>
      { record with restoreStream := some stream }) := kept.owned.updateRecord handle fun _ => rfl
  have dated : Dated none (cache.updateRecord handle fun record =>
      { record with restoreStream := some stream }) := kept.dated.updateRecord handle _
  rw [same] at drained owned dated ⊢
  refine ⟨⟨owned.log fun _ => rfl, drained, dated.logRestoring matched isOpen stream,
    kept.accounted⟩, ?_, matched⟩
  change (cache.restoring.set handle _).get? handle ≠ none
  rw [Dict.get?_set_self]
  exact Option.some_ne_none _

/-- A reader with a record is closed, and both entries leave. -/
theorem Restoring.forget {handle : CacheRequestHandle} {reader : Option Nat}
    (restoring : Restoring handle reader cache)
    (idle : forall position, reader = some position -> awaited cache.history position = none) :
    exists after, (closeAny reader).run cache = .ok ⟨⟩ after ∧
      Kept none ((after.popMatch handle).popRecord handle) := by
  rcases restoring with ⟨kept, recorded, matched⟩
  have unrecorded : Kept none (cache.popRecord handle) := by
    apply kept.popRecord
    intro record found position reads
    apply idle position
    rw [← matched, ← kept.owned.recorded handle record found, reads]
  have loose : Kept reader ((cache.popRecord handle).popMatch handle) := by
    rw [← matched]
    exact unrecorded.popMatch (Dict.get?_erase_self _ _)
  cases reader with
  | none => exact ⟨cache, rfl, loose⟩
  | some position =>
      rcases closeReader_run kept.owned.conserved position with ⟨host, ran, closed⟩
      exact ⟨_, ran, loose.close closed⟩

theorem awaited_reach (world : World δ υ Element) (reader : Nat) :
    awaited (cache.reach world).history reader = awaited cache.history reader := by
  apply awaited_idle
  intro entry member
  rcases List.mem_map.mp member with ⟨lease, _, rfl⟩
  exact ⟨fun _ _ => rfl, nofun⟩

/-- A record whose restore has returned. -/
def Restored (handle : CacheRequestHandle) (reader : Nat)
    (cache : QSAHostPrefixCache δ υ Element) : Prop :=
  Restoring handle (some reader) cache ∧ awaited cache.history reader = none

theorem Restored.apart (handle : CacheRequestHandle) (reader : Nat) :
    Apart (Restored handle reader : QSAHostPrefixCache δ υ Element -> Prop) where
  reach state world holds :=
    ⟨(Restoring.apart handle (some reader)).reach state world holds.1,
      (awaited_reach world reader).trans holds.2⟩
  fields state lease update same holds :=
    ⟨(Restoring.apart handle (some reader)).fields state lease update same holds.1, holds.2⟩

theorem Restoring.restored {handle : CacheRequestHandle} {reader : Nat}
    (restoring : Restoring handle (some reader) cache) :
    Restored handle reader (cache.log (.restored reader)) := by
  rcases restoring with ⟨⟨owned, drained, dated, accounted⟩, recorded, matched⟩
  exact ⟨⟨⟨owned.log fun _ => rfl, drained.logRestored reader, dated.log trivial, accounted⟩,
    recorded, matched⟩, Drained.restored_unawaited cache reader⟩

theorem restoreReader_ensures (req : Nat) (handle : CacheRequestHandle) (reader : Nat) :
    Ensures (Restoring handle (some reader))
      (restoreReader machine config upstream req handle reader)
      (fun _ after => Kept none (after.popRecord handle)) (fun _ => Kept none) := by
  intro cache restoring
  rcases Option.ne_none_iff_exists'.mp
    (restoring.1.owned.sole.held_open (.handle handle) reader restoring.2.2) with ⟨snapshot, isOpen⟩
  apply (Leaves.bind_iff _ _ _).mpr
  rw [readSnapshot_run isOpen]
  apply (Leaves.bind_iff _ _ _).mpr
  apply (Leaves.get_iff _).mpr
  apply (Leaves.bind_iff _ _ _).mpr
  apply (Leaves.raiseIf_iff _ _ _).mpr
  refine ⟨fun _ => restoring.1, fun _ => ?_⟩
  have apart : Apart fun state : QSAHostPrefixCache δ υ Element =>
      Restoring handle (some reader) state ∧ state.host.snapshotAt reader = some snapshot :=
    { reach := fun state world holds =>
        ⟨(Restoring.apart handle (some reader)).reach state world holds.1, holds.2⟩
      fields := fun state lease update same holds =>
        ⟨(Restoring.apart handle (some reader)).fields state lease update same holds.1, holds.2⟩ }
  apply (Leaves.bind_iff _ _ _).mpr
  unfold beginRestore
  apply (Leaves.bind_iff _ _ _).mpr
  apply (within_preserves apart upstream.currentStream cache ⟨restoring, isOpen⟩).mono
  · rintro stream begun ⟨begunRestoring, begunOpen⟩
    apply (Leaves.modify_iff _ _).mpr
    have copying := begunRestoring.begin begunOpen stream
    apply (Leaves.bind_iff _ _ _).mpr
    apply (within_preserves (Restoring.apart handle (some reader)) _ _ copying).mono
    · intro _ copied copiedRestoring
      apply (Leaves.bind_iff _ _ _).mpr
      apply (Leaves.modify_iff _ _).mpr
      have restored := copiedRestoring.restored
      apply (Leaves.bind_iff _ _ _).mpr
      apply (Leaves.get_iff _).mpr
      apply (Leaves.bind_iff _ _ _).mpr
      apply (notePrefixBasis_preserves (Restored.apart handle reader) req snapshot _ _ restored).mono
      · rintro _ noted ⟨notedRestoring, idle⟩
        have late : forall position, some reader = some position ->
            awaited noted.history position = none := by
          rintro position same
          rw [← Option.some.inj same]
          exact idle
        rcases notedRestoring.forget late with ⟨after, ran, kept⟩
        apply (Leaves.bind_iff _ _ _).mpr
        change Leaves _ _ ((closeAny (some reader)).run noted)
        rw [ran]
        exact kept
      · exact fun _ _ holds => holds.1.1
    · exact fun _ _ holds => holds.1
  · exact fun _ _ holds => holds.1.1

theorem maybeHandToSession_kept (req : Nat) :
    Preserves (Kept none) (maybeHandToSession machine config upstream req) := by
  refine Preserves.bind (within_preserves (Kept.apart_only none) _) fun _ => ?_
  intro cache kept
  apply (Leaves.bind_iff _ _ _).mpr
  apply (Leaves.get_iff _).mpr
  dsimp only
  cases found : cache.restoring.get? (cache.handle req) with
  | none => exact kept
  | some record =>
      cases reads : record.reader with
      | none =>
          have forgotten : Kept none (cache.popRecord (cache.handle req)) := by
            apply kept.popRecord
            intro other present reader impossible
            rw [found] at present
            cases present
            rw [reads] at impossible
            cases impossible
          simp only [reads]
          exact forgotten
      | some reader =>
          have restoring : Restoring (cache.handle req) (some reader) cache := by
            refine ⟨kept, ?_, ?_⟩
            · rw [found]
              exact Option.some_ne_none _
            · rw [← kept.owned.recorded _ record found, reads]
          simp only [reads]
          apply (Leaves.bind_iff _ _ _).mpr
          exact restoreReader_ensures machine config upstream req _ reader cache restoring

end Restore

end PrefixCache
end QSAHiSparse

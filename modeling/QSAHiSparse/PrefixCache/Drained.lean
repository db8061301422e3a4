import Mathlib.Data.List.Induction
import QSAHiSparse.Foundation.History
import QSAHiSparse.PrefixCache.Owned

namespace QSAHiSparse
namespace PrefixCache

open Foundation
open HostPrefix

/-!
# Restores that may still be copying

The copies of a restore read host memory until the restore has returned or its
stream has been waited for.  Until then the record of the request names the
reader and the stream, and so the reader is not closed.  A record names one
stream: that of the last restore.
-/

variable {δ υ Element : Type}

/-- The stream on which the last restore of a reader may still be copying, after
an event. -/
def PrefixEvent.awaits (reader : Nat) (waits : Option Nat) : PrefixEvent Element -> Option Nat
  | .restoring other stream _ => if other = reader then some stream else waits
  | .restored other => if other = reader then none else waits
  | .drained stream => if waits = some stream then none else waits
  | _ => waits

/-- The last restore of the reader has begun on this stream, and has neither
returned nor been drained. -/
def awaited (history : List (Nat × PrefixEvent Element)) (reader : Nat) : Option Nat :=
  history.foldl (fun waits entry => entry.2.awaits reader waits) none

theorem awaited_append (history : List (Nat × PrefixEvent Element)) (entry : Nat × PrefixEvent Element)
    (reader : Nat) : awaited (history ++ [entry]) reader =
      entry.2.awaits reader (awaited history reader) := by
  unfold awaited
  rw [List.foldl_append]
  rfl

/-- Nobody closes a reader that is awaited. -/
def ClosesLate (earlier : List (Nat × PrefixEvent Element)) (entry : Nat × PrefixEvent Element) :
    Prop :=
  forall reader, entry.2 = .closed reader -> awaited earlier reader = none

/-- The event starts no restore, ends none, and closes nothing. -/
def PrefixEvent.Idle (event : PrefixEvent Element) : Prop :=
  (forall reader waits, event.awaits reader waits = waits) ∧ forall reader, event ≠ .closed reader

theorem awaited_idle {events : List (Nat × PrefixEvent Element)}
    (idle : forall entry, entry ∈ events -> entry.2.Idle)
    (history : List (Nat × PrefixEvent Element)) (reader : Nat) :
    awaited (history ++ events) reader = awaited history reader := by
  unfold awaited
  rw [List.foldl_append]
  generalize history.foldl _ none = waits
  induction events generalizing waits with
  | nil => rfl
  | cons entry events previous =>
      rw [List.foldl_cons, (idle entry List.mem_cons_self).1]
      exact previous (fun other member => idle other (List.mem_cons_of_mem _ member)) waits

/-! ## Every restore of a reader -/

/-- Whether some restore of a reader, begun on a stream, may still be copying. -/
def PrefixEvent.copies (reader stream : Nat) (before : Bool) : PrefixEvent Element -> Bool
  | .restoring other on _ => before || (decide (other = reader) && decide (on = stream))
  | .restored other => before && decide (other ≠ reader)
  | .drained on => before && decide (on ≠ stream)
  | _ => before

/-- Some restore of the reader has begun on the stream; since then none has
returned, and the stream was not drained. -/
def Copying (history : List (Nat × PrefixEvent Element)) (reader stream : Nat) : Prop :=
  history.foldl (fun before entry => entry.2.copies reader stream before) false = true

/-- Nobody closes a reader that any of its restores may still be copying from. -/
def ClosesIdle (earlier : List (Nat × PrefixEvent Element)) (entry : Nat × PrefixEvent Element) :
    Prop :=
  forall reader, entry.2 = .closed reader -> forall stream, ¬ Copying earlier reader stream

/-- Nobody restores from a reader again while it is awaited. -/
def RestoresOnce (earlier : List (Nat × PrefixEvent Element)) (entry : Nat × PrefixEvent Element) :
    Prop :=
  forall reader stream snapshot, entry.2 = .restoring reader stream snapshot ->
    awaited earlier reader = none

theorem Copying.awaited {history : List (Nat × PrefixEvent Element)}
    (once : Lawful RestoresOnce history) {reader stream : Nat}
    (copying : Copying history reader stream) : awaited history reader = some stream := by
  induction history using List.reverseRecOn with
  | nil => cases copying
  | append_singleton earlier entry previous =>
      have before := previous (once.initial [entry])
      have now := once earlier entry [] rfl
      unfold Copying at copying before
      rw [List.foldl_append] at copying
      change entry.2.copies reader stream _ = true at copying
      rw [awaited_append]
      rcases entry with ⟨epoch, event⟩
      cases event with
      | restoring other on snapshot =>
          change (if other = reader then some on else _) = some stream
          rcases Bool.or_eq_true_iff.mp copying with held | begun
          · have known := before held
            by_cases same : other = reader
            · have unused := now other on snapshot rfl
              rw [same, known] at unused
              cases unused
            · rw [if_neg same]
              exact known
          · rw [Bool.and_eq_true, decide_eq_true_eq, decide_eq_true_eq] at begun
            rw [if_pos begun.1, begun.2]
      | restored other =>
          have both := Bool.and_eq_true_iff.mp copying
          rw [decide_eq_true_eq] at both
          change (if other = reader then none else _) = some stream
          rw [if_neg both.2]
          exact before both.1
      | drained on =>
          have both := Bool.and_eq_true_iff.mp copying
          rw [decide_eq_true_eq] at both
          have known := before both.1
          change (if _ = some on then none else _) = some stream
          rw [known, if_neg fun same => both.2 (Option.some.inj same).symm]
      | _ => exact before copying

/-- When no reader is restored twice at a time, the last restore is the only one. -/
theorem closesIdle {history : List (Nat × PrefixEvent Element)}
    (once : Lawful RestoresOnce history) (late : Lawful ClosesLate history) :
    Lawful ClosesIdle history := by
  intro earlier entry later equal reader closed stream copying
  have begun : Lawful RestoresOnce earlier := by
    rw [equal] at once
    exact once.initial (entry :: later)
  have idle := late earlier entry later equal reader closed
  rw [copying.awaited begun] at idle
  cases idle

/-! ## The invariant -/

structure Drained (cache : QSAHostPrefixCache δ υ Element) : Prop where
  noted : forall reader stream, awaited cache.history reader = some stream ->
    exists handle record, cache.restoring.get? handle = some record ∧
      record.reader = some reader ∧ record.restoreStream = some stream
  late : Lawful ClosesLate cache.history

namespace Drained

variable {loose : Option Nat} {cache after : QSAHostPrefixCache δ υ Element}

theorem initial (limits : CacheLimits) (world : World δ υ Element) :
    Drained (.initial limits world) where
  noted reader stream impossible := by cases impossible
  late := .nil

/-- A reader that no handle holds is not being restored. -/
theorem unawaited (drained : Drained cache) (owned : Owned loose cache) {holder : Holder}
    {reader : Nat} (held : cache.Holds loose holder reader)
    (other : forall handle, holder ≠ .handle handle) : awaited cache.history reader = none := by
  apply Option.eq_none_iff_forall_ne_some.mpr
  intro stream copying
  rcases drained.noted reader stream copying with ⟨handle, record, found, read, _⟩
  have matched : cache.Holds loose (.handle handle) reader :=
    (owned.recorded handle record found).symm.trans read
  exact other handle (owned.sole.eq_of_holds held matched)

/-- The reader of a record whose stream was waited for is not being restored. -/
theorem record_unawaited (drained : Drained cache) (owned : Owned loose cache)
    {handle : CacheRequestHandle} {record : RestoreRecord}
    (found : cache.restoring.get? handle = some record) (waited : record.restoreStream = none)
    {reader : Nat} (reads : record.reader = some reader) : awaited cache.history reader = none := by
  apply Option.eq_none_iff_forall_ne_some.mpr
  intro stream copying
  rcases drained.noted reader stream copying with ⟨other, otherRecord, otherFound, same, on⟩
  have first := (owned.recorded handle record found).symm.trans reads
  have second := (owned.recorded other otherRecord otherFound).symm.trans same
  rw [owned.matched_unique second first, found] at otherFound
  cases otherFound
  exact Option.some_ne_none _ (on.symm.trans waited)

/-! ## Changes that start and end no restore -/

theorem extend (drained : Drained cache) {events : List (Nat × PrefixEvent Element)}
    (restoring : forall handle record, cache.restoring.get? handle = some record ->
      exists kept, after.restoring.get? handle = some kept ∧ kept.reader = record.reader ∧
        kept.restoreStream = record.restoreStream)
    (history : after.history = cache.history ++ events)
    (idle : forall entry, entry ∈ events -> entry.2.Idle) : Drained after where
  noted := by
    intro reader stream copying
    rw [history, awaited_idle idle] at copying
    rcases drained.noted reader stream copying with ⟨handle, record, found, reads, on⟩
    rcases restoring handle record found with ⟨kept, keptFound, sameReader, sameStream⟩
    exact ⟨handle, kept, keptFound, sameReader.trans reads, sameStream.trans on⟩
  late := by
    rw [history]
    apply drained.late.append
    intro entry member earlier reader closed
    exact absurd closed ((idle entry member).2 reader)

/-- Nothing the invariant reads has changed. -/
theorem congr (drained : Drained cache) (restoring : after.restoring = cache.restoring)
    (history : after.history = cache.history) : Drained after := by
  refine drained.extend (fun handle record found => ⟨record, ?_, rfl, rfl⟩)
    (history.trans (List.append_nil _).symm) fun _ member => absurd member List.not_mem_nil
  rw [restoring]
  exact found

theorem reach (drained : Drained cache) (world : World δ υ Element) :
    Drained (cache.reach world) := by
  refine drained.extend (fun handle record found => ⟨record, found, rfl, rfl⟩) rfl
    fun entry member => ?_
  rcases List.mem_map.mp member with ⟨lease, _, rfl⟩
  exact ⟨fun _ _ => rfl, nofun⟩

theorem log (drained : Drained cache) {event : PrefixEvent Element} (idle : event.Idle) :
    Drained (cache.log event) := by
  refine drained.extend (fun handle record found => ⟨record, found, rfl, rfl⟩) rfl
    fun entry member => ?_
  rw [List.mem_singleton.mp member]
  exact idle

/-- A reader is closed that is not being restored. -/
theorem logClosed (drained : Drained cache) {reader : Nat}
    (idle : awaited cache.history reader = none) : Drained (cache.log (.closed reader)) where
  noted := by
    intro other stream copying
    exact drained.noted other stream ((awaited_append _ _ _).symm.trans copying)
  late := by
    apply drained.late.snoc
    intro other same
    cases same
    exact idle

/-- A basis is not being restored. -/
theorem logBasis (drained : Drained cache) (owned : Owned loose cache) (position : Nat) :
    Drained (cache.logBasis position) := by
  unfold QSAHostPrefixCache.logBasis
  cases basis : cache.host.basisAt position with
  | none => exact drained
  | some reader =>
      have held : cache.Holds loose (.reservation position) reader := basis
      exact drained.logClosed (drained.unawaited owned held nofun)

theorem setRecord (drained : Drained cache) {handle : CacheRequestHandle}
    (record : RestoreRecord)
    (kept : forall former, cache.restoring.get? handle = some former ->
      record.reader = former.reader ∧ record.restoreStream = former.restoreStream) :
    Drained (cache.setRecord handle record) := by
  refine drained.extend (fun other former found => ?_) (List.append_nil _).symm
    fun _ member => absurd member List.not_mem_nil
  change exists entry, (cache.restoring.set handle record).get? other = some entry ∧ _
  rw [Dict.get?_set]
  by_cases same : other = handle
  · rw [if_pos same]
    exact ⟨record, rfl, kept former (same ▸ found)⟩
  · rw [if_neg same]
    exact ⟨former, found, rfl, rfl⟩

theorem updateRecord (drained : Drained cache) (handle : CacheRequestHandle)
    {update : RestoreRecord -> RestoreRecord}
    (reader : forall record, (update record).reader = record.reader)
    (stream : forall record, (update record).restoreStream = record.restoreStream) :
    Drained (cache.updateRecord handle update) := by
  unfold QSAHostPrefixCache.updateRecord
  cases found : cache.restoring.get? handle with
  | none => exact drained
  | some record =>
      apply drained.setRecord
      intro former same
      rw [found] at same
      cases same
      exact ⟨reader record, stream record⟩

/-- A record leaves once its reader is not being restored. -/
theorem popRecord (drained : Drained cache) {handle : CacheRequestHandle}
    (idle : forall record, cache.restoring.get? handle = some record ->
      forall reader, record.reader = some reader -> awaited cache.history reader = none) :
    Drained (cache.popRecord handle) where
  noted := by
    intro reader stream copying
    rcases drained.noted reader stream copying with ⟨other, record, found, reads, on⟩
    refine ⟨other, record, ?_, reads, on⟩
    change (cache.restoring.erase handle).get? other = some record
    rw [Dict.get?_erase_of_ne]
    · exact found
    · rintro rfl
      exact Option.some_ne_none _ (Eq.trans (Eq.symm copying) (idle record found reader reads))
  late := drained.late

/-! ## Restores -/

/-- A restore begins, and the record of the handle names its stream. -/
theorem beginRestore (drained : Drained cache) {handle : CacheRequestHandle}
    {record : RestoreRecord} (found : cache.restoring.get? handle = some record) {reader : Nat}
    (reads : record.reader = some reader) (stream : Nat)
    (snapshot : PrefixSnapshot PrefixNamespace Element) :
    Drained ((cache.updateRecord handle fun record =>
      { record with restoreStream := some stream }).log (.restoring reader stream snapshot)) := by
  unfold QSAHostPrefixCache.updateRecord
  simp only [found]
  exact
    { noted := by
        intro other on copying
        change awaited (cache.history ++ [_]) other = some on at copying
        rw [awaited_append] at copying
        change (if reader = other then some stream else awaited cache.history other) = some on
          at copying
        change exists chosen entry, (cache.restoring.set handle _).get? chosen = some entry ∧ _
        by_cases same : reader = other
        · rw [if_pos same] at copying
          exact ⟨handle, { record with restoreStream := some stream }, Dict.get?_set_self _ _ _,
            reads.trans (congrArg some same), copying⟩
        · rw [if_neg same] at copying
          rcases drained.noted other on copying with ⟨chosen, entry, present, read, at_stream⟩
          refine ⟨chosen, entry, ?_, read, at_stream⟩
          rw [Dict.get?_set_of_ne]
          · exact present
          · rintro rfl
            rw [found] at present
            cases present
            exact same (Option.some.inj (reads.symm.trans read))
      late := by
        apply drained.late.snoc
        intro other impossible
        cases impossible }

/-- A restore has returned. -/
theorem logRestored (drained : Drained cache) (reader : Nat) :
    Drained (cache.log (.restored reader)) where
  noted := by
    intro other stream copying
    change awaited (cache.history ++ [_]) other = some stream at copying
    rw [awaited_append] at copying
    change (if reader = other then none else awaited cache.history other) = some stream at copying
    by_cases same : reader = other
    · rw [if_pos same] at copying
      cases copying
    · rw [if_neg same] at copying
      exact drained.noted other stream copying
  late := by
    apply drained.late.snoc
    intro other impossible
    cases impossible

theorem restored_unawaited (cache : QSAHostPrefixCache δ υ Element) (reader : Nat) :
    awaited (cache.log (.restored reader)).history reader = none := by
  change awaited (cache.history ++ [_]) reader = none
  rw [awaited_append]
  exact if_pos rfl

/-- The stream of a record has been waited for. -/
theorem drainRestore (drained : Drained cache) {handle : CacheRequestHandle}
    {record : RestoreRecord} (found : cache.restoring.get? handle = some record) {stream : Nat}
    (used : record.restoreStream = some stream) :
    Drained ((cache.updateRecord handle fun record => { record with restoreStream := none }).log
      (.drained stream)) := by
  unfold QSAHostPrefixCache.updateRecord
  simp only [found]
  exact
    { noted := by
        intro reader on copying
        change awaited (cache.history ++ [_]) reader = some on at copying
        rw [awaited_append] at copying
        change (if awaited cache.history reader = some stream then none
          else awaited cache.history reader) = some on at copying
        by_cases drainedNow : awaited cache.history reader = some stream
        · rw [if_pos drainedNow] at copying
          cases copying
        · rw [if_neg drainedNow] at copying
          rcases drained.noted reader on copying with ⟨chosen, entry, present, same, at_stream⟩
          refine ⟨chosen, entry, ?_, same, at_stream⟩
          change (cache.restoring.set handle _).get? chosen = some entry
          rw [Dict.get?_set_of_ne]
          · exact present
          · rintro rfl
            rw [found] at present
            cases present
            rw [used] at at_stream
            cases at_stream
            exact drainedNow copying
      late := by
        apply drained.late.snoc
        intro other impossible
        cases impossible }

end Drained

end PrefixCache
end QSAHiSparse

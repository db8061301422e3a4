import QSAHiSparse.PrefixCache.Carried
import QSAHiSparse.PrefixCache.RollbackKept

namespace QSAHiSparse
namespace PrefixCache

open Foundation
open HostPrefix
open QSAHiSparse.Runtime (Machine)

/-!
# Who begins a restore

Only `maybe_hand_to_session` begins a restore.  It does not ask whether the
record still names the stream of an earlier one, as `match_prefix` and
`prepare_prefix_for_extend` do.  In a run in which it finds no such record, no
reader is restored again while it is awaited.
-/

section HandsOnce

variable {δ υ Element : Type} (machine : Machine δ) (config : PrefixConfig)
  (upstream : Upstream δ υ Element)

/-- No restore so far began while an earlier one of its reader was awaited. -/
def Once (δ υ Element : Type) (cache : QSAHostPrefixCache δ υ Element) : Prop :=
  Lawful RestoresOnce cache.history

variable {cache : QSAHostPrefixCache δ υ Element}

theorem Once.logged (once : Once δ υ Element cache) {event : PrefixEvent Element}
    (other : event.BeginsNoRestore) : Once δ υ Element (cache.log event) :=
  once.snoc fun reader stream snapshot same => absurd same (other reader stream snapshot)

theorem Once.reach (once : Once δ υ Element cache) (world : World δ υ Element) : Once δ υ Element (cache.reach world) := by
  apply once.append
  intro entry member earlier reader stream snapshot same
  rcases List.mem_map.mp member with ⟨lease, _, rfl⟩
  cases same

theorem Once.logBasis (once : Once δ υ Element cache) (reservation : Nat) :
    Once δ υ Element (cache.logBasis reservation) := by
  unfold QSAHostPrefixCache.logBasis
  cases cache.host.basisAt reservation with
  | none => exact once
  | some reader => exact once.logged nofun

theorem Once.apart : Apart (Once δ υ Element) where
  reach _ world once := once.reach world
  fields _ _ _ _ once := once

theorem Once.carried : Carried machine config upstream (Once δ υ Element) where
  outward _ := within_preserves Once.apart _
  host _ _ _ once := once
  books _ _ _ once := once
  logged _ _ other once := once.logged other

/-! ## Captures -/

section Captures

theorem zoom_once {α : Type} (program : Method (PrefixObjects PrefixNamespace Element) α) :
    Preserves (Once δ υ Element) (hostObjects.zoom program) := by
  intro cache once
  apply (hostObjects.leaves_zoom _ _).mpr
  cases program.run (hostObjects.get cache) <;> exact once

theorem closeReader_once (reader : Nat) :
    Preserves (Once δ υ Element) (PrefixCache.closeReader reader) := by
  refine Preserves.bind (Preserves.modify fun _ once => ?_) fun _ => zoom_once _
  exact Once.logged once nofun

theorem closeAny_once (reader : Option Nat) :
    Preserves (Once δ υ Element) (closeAny reader) := by
  cases reader with
  | none => exact Preserves.pure _
  | some reader => exact closeReader_once reader

theorem keepBasis_once (fields : PrefixFields) (reader : Option Nat) :
    Preserves (Once δ υ Element) (keepBasis fields reader) := by
  cases reader with
  | none => exact Preserves.pure _
  | some reader =>
      refine Preserves.get_bind fun self => ?_
      refine Preserves.ite (fun _ => Preserves.pure _) fun _ => ?_
      exact Preserves.bind (closeReader_once reader) fun _ => Preserves.pure _

theorem ancestorOf_once (reader : Option Nat) :
    Preserves (Once δ υ Element) (ancestorOf reader) := by
  cases reader with
  | none => exact Preserves.pure _
  | some reader =>
      change Preserves _ (some <$> readSnapshot reader)
      rw [map_eq_pure_bind]
      exact Preserves.bind (Carried.readSnapshot reader) fun _ => Preserves.pure _

theorem reserveBeyond_once (identity : Option ImagePrefixIdentity) (length : Nat)
    (basis : Option Nat) :
    Preserves (Once δ υ Element)
      (reserveBeyond config identity length basis) := by
  refine Preserves.bind (ancestorOf_once basis) fun ancestor => ?_
  refine Preserves.bind (zoom_once _) fun reserved => ?_
  cases reserved with
  | none => exact Preserves.bind (closeAny_once basis) fun _ => Preserves.pure _
  | some reservation =>
      refine Preserves.bind (Preserves.modify fun _ once => Once.logged once nofun) fun _ => ?_
      exact Preserves.bind (zoom_once _) fun _ => Preserves.pure _

theorem reserveCheckpoint_once (lease : Ledger.QSAHiSparseLease) (req : Nat)
    (namespaceKey : PrefixNamespace) (tokens : BytesObject) :
    Preserves (Once δ υ Element)
      (reserveCheckpoint config lease req namespaceKey tokens) := by
  refine Preserves.bind (boundaryOf_reads lease).preserves fun length => ?_
  cases length with
  | none => exact Preserves.pure _
  | some length =>
      refine Preserves.get_bind fun self => ?_
      refine Preserves.ite (fun _ => Preserves.pure _) fun _ => ?_
      refine Preserves.bind (Preserves.raiseIf _ _) fun _ => ?_
      refine Preserves.bind (Carried.imageIdentity _) fun identity => ?_
      refine Preserves.bind (zoom_once _) fun longest => ?_
      refine Preserves.bind (ancestorOf_once longest) fun ancestor => ?_
      refine Preserves.ite (fun _ => ?_) fun _ => ?_
      · exact Preserves.bind (closeAny_once longest) fun _ => Preserves.pure _
      · refine Preserves.bind ?_ fun basis => reserveBeyond_once config _ _ basis
        refine Preserves.bind (keepBasis_once _ longest) fun kept => ?_
        refine Preserves.ite (fun _ => ?_) fun _ => Preserves.pure _
        exact Preserves.bind (zoom_once _) fun shorter => keepBasis_once _ shorter

theorem beginCapture_once (req : Nat) :
    Preserves (Once δ υ Element)
      (beginCapture config upstream req) := by
  refine Preserves.get_bind fun self => ?_
  cases self.namespaceOf config (self.request req) with
  | none => exact Preserves.pure _
  | some namespaceKey =>
      refine Preserves.ite (fun _ => Preserves.pure _) fun _ => ?_
      refine Preserves.bind (captureRow_reads req).preserves fun length => ?_
      cases length with
      | none => exact Preserves.pure _
      | some length =>
          refine Preserves.bind (within_preserves Once.apart _) fun identity => ?_
          refine Preserves.bind ?_ fun lease => ?_
          · refine Preserves.get_bind fun self => ?_
            split
            · exact Preserves.throw _
            · exact within_preserves Once.apart _
          · refine Preserves.bind (reserveCheckpoint_once config lease req _ _) fun stage => ?_
            exact fun state once => once

theorem abandonCapture_once (frame : Nat) (reservation : Option Nat) :
    Preserves (Once δ υ Element)
      (abandonCapture frame reservation) := by
  refine Preserves.bind (Preserves.modify fun _ once => once) fun _ => ?_
  cases reservation with
  | none => exact Preserves.pure _
  | some reservation =>
      exact Preserves.bind (Preserves.modify fun _ once => Once.logBasis once reservation)
        fun _ => zoom_once _

theorem copyCapture_once (frame : Nat) :
    Preserves (Once δ υ Element)
      (copyCapture machine config upstream frame) := by
  refine Preserves.get_bind fun self => ?_
  split
  · split
    · refine Preserves.tryCatch ?_ fun cause => ?_
      · refine Preserves.bind (within_preserves Once.apart _) fun snapshot => ?_
        exact Preserves.modify fun _ once => Once.logged once nofun
      · exact Preserves.bind (abandonCapture_once frame _) fun _ => Preserves.throw _
    · exact Preserves.pure _
  · exact Preserves.pure _

theorem convergeCapture_once (frame : Nat) :
    Preserves (Once δ υ Element)
      (convergeCapture upstream frame) := by
  refine Preserves.get_bind fun self => ?_
  split
  · split
    · refine Preserves.tryCatch ?_ fun cause => ?_
      · refine Preserves.bind (checkpointSignature_reads upstream _ _).preserves fun signature => ?_
        refine Preserves.bind (converge_preserves upstream Once.apart signature) fun _ => ?_
        exact Preserves.modify fun _ once => once
      · exact Preserves.bind (abandonCapture_once frame _) fun _ => Preserves.throw _
    · exact Preserves.pure _
  · exact Preserves.pure _

theorem publishCapture_once (frame : Nat) :
    Preserves (Once δ υ Element) (publishCapture machine frame) := by
  refine Preserves.get_bind fun self => ?_
  split
  · split
    · exact Preserves.modify fun _ once => once
    · refine Preserves.tryFinally ?_ (abandonCapture_once frame _)
      refine Preserves.bind (Preserves.modify fun _ once => Once.logBasis once _) fun _ => ?_
      refine Preserves.bind (zoom_once _) fun entryId => ?_
      refine Preserves.bind (Preserves.modify fun _ once => Once.logged once nofun) fun _ => ?_
      refine Preserves.bind (notePrefixBasis_preserves Once.apart _ _ _) fun _ => ?_
      exact within_preserves Once.apart _
    · exact Preserves.pure _
  · exact Preserves.pure _

theorem checkpoint_once (req : Nat) (limit : Int) :
    Preserves (Once δ υ Element)
      (checkpoint machine config upstream req limit) := by
  refine Preserves.bind ?_ fun _ => within_preserves Once.apart _
  refine Preserves.bind (beginCapture_once config upstream req) fun frame => ?_
  cases frame with
  | none => exact Preserves.pure _
  | some frame =>
      refine Preserves.bind (copyCapture_once machine config upstream frame) fun _ => ?_
      refine Preserves.bind (convergeCapture_once upstream frame) fun _ => ?_
      exact publishCapture_once machine frame

end Captures

/-! ## Restores -/

section Restores

/-- The record of a handle whose stream was waited for. -/
def DrainedRecord (handle : CacheRequestHandle) (record : RestoreRecord)
    (cache : QSAHostPrefixCache δ υ Element) : Prop :=
  (Kept none cache ∧ cache.restoring.get? handle = some record) ∧ Once δ υ Element cache

theorem DrainedRecord.apart (handle : CacheRequestHandle) (record : RestoreRecord) :
    Apart (DrainedRecord handle record : QSAHostPrefixCache δ υ Element -> Prop) where
  reach state world holds :=
    ⟨(Kept.apart none fun _ _ restoring => restoring.get? handle = some record).reach state world
      holds.1, holds.2.reach world⟩
  fields state lease update same holds :=
    ⟨(Kept.apart none fun _ _ restoring => restoring.get? handle = some record).fields state lease
      update same holds.1, holds.2⟩

variable {handle : CacheRequestHandle} {record : RestoreRecord} {reader : Nat}

/-- A restore begins from a reader that is not awaited. -/
theorem DrainedRecord.begin (drained : DrainedRecord handle record cache)
    (waited : record.restoreStream = none) (reads : record.reader = some reader) (stream : Nat)
    (snapshot : PrefixSnapshot PrefixNamespace Element) :
    Once δ υ Element ((cache.updateRecord handle fun record =>
      { record with restoreStream := some stream }).log (.restoring reader stream snapshot)) := by
  rcases drained with ⟨⟨kept, found⟩, once⟩
  unfold QSAHostPrefixCache.updateRecord
  simp only [found]
  apply Lawful.snoc once
  rintro other on restored ⟨⟩
  exact kept.drained.record_unawaited kept.owned found waited reads

theorem restoreReader_once (req : Nat) (drained : DrainedRecord handle record cache)
    (waited : record.restoreStream = none) (reads : record.reader = some reader) :
    Leaves (fun _ => Once δ υ Element) (fun _ => Once δ υ Element)
      ((restoreReader machine config upstream req handle reader).run cache) := by
  have begins (snapshot : PrefixSnapshot PrefixNamespace Element) :
      Leaves (fun _ => Once δ υ Element) (fun _ => Once δ υ Element)
        ((beginRestore upstream handle reader snapshot).run cache) := by
    apply (Leaves.bind_iff _ _ _).mpr
    apply (within_preserves (DrainedRecord.apart handle record) _ cache drained).mono
    · exact fun stream begun holds => holds.begin waited reads stream snapshot
    · exact fun _ _ holds => holds.2
  have ends (snapshot : PrefixSnapshot PrefixNamespace Element) :
      Preserves (Once δ υ Element) (do
        within (restorePrefix machine config upstream req snapshot)
        modify fun self => self.log (.restored reader)
        let self <- get
        notePrefixBasis req snapshot (self.host.readers[reader]?.map PrefixReader.entryId)
        PrefixCache.closeReader reader
        modify fun self => self.popMatch handle) := by
    refine Preserves.bind (within_preserves Once.apart _) fun _ => ?_
    refine Preserves.bind (Preserves.modify fun _ once => Once.logged once nofun) fun _ => ?_
    refine Preserves.get_bind fun self => ?_
    refine Preserves.bind (notePrefixBasis_preserves Once.apart _ _ _) fun _ => ?_
    refine Preserves.bind (closeReader_once reader) fun _ => ?_
    exact Preserves.modify fun _ once => once
  unfold restoreReader
  apply (Leaves.bind_iff _ _ _).mpr
  apply (readSnapshot_leaves reader cache).mono
  · rintro snapshot _ ⟨rfl, _⟩
    apply (Leaves.bind_iff _ _ _).mpr
    apply (Leaves.get_iff _).mpr
    apply (Leaves.bind_iff _ _ _).mpr
    apply (Leaves.raiseIf_iff _ _ _).mpr
    refine ⟨fun _ => drained.2, fun _ => ?_⟩
    apply (Leaves.bind_iff _ _ _).mpr
    exact (begins snapshot).mono (fun _ => ends snapshot) fun _ _ => id
  · rintro _ _ rfl
    exact drained.2

end Restores

/-! ## Runs -/

/-- The record that a handover finds names no stream that was not waited for. -/
def Operation.findsDrained (cache : QSAHostPrefixCache δ υ Element) :
    Operation δ υ Element -> Bool
  | .maybeHandToSession req =>
      match (within (upstream.maybeHandToSession req)).run cache with
      | .ok _ found => (found.restoring.get? (found.handle req)).all fun record =>
          record.restoreStream.isNone
      | .error _ _ => true
  | _ => true

/-- A handover that finds no undrained record begins no second restore. -/
theorem maybeHandToSession_once (req : Nat) (kept : Kept none cache) (once : Once δ υ Element cache)
    (drained : (Operation.maybeHandToSession req).findsDrained upstream cache = true) :
    Once δ υ Element
      (finalState ((maybeHandToSession machine config upstream req).run cache)) := by
  apply Leaves.finalState_iff.mp
  unfold maybeHandToSession
  apply (Leaves.bind_iff _ _ _).mpr
  have bothApart : Apart fun state : QSAHostPrefixCache δ υ Element =>
      Kept none state ∧ Once δ υ Element state :=
    { reach := fun _ world holds => ⟨holds.1.reach world, holds.2.reach world⟩
      fields := fun _ lease _ same holds => ⟨holds.1.setFields lease same, holds.2⟩ }
  have first := within_preserves bothApart (upstream.maybeHandToSession req) cache ⟨kept, once⟩
  dsimp only [Operation.findsDrained] at drained
  cases ran : (within (upstream.maybeHandToSession req)).run cache with
  | error cause found =>
      rw [ran] at first
      exact first.2
  | ok _ found =>
      rw [ran] at first drained
      apply (Leaves.bind_iff _ _ _).mpr
      apply (Leaves.get_iff _).mpr
      dsimp only at drained ⊢
      cases recorded : found.restoring.get? (found.handle req) with
      | none => exact first.2
      | some record =>
          rw [recorded] at drained
          have waited : record.restoreStream = none := Option.isNone_iff_eq_none.mp drained
          have pops : Preserves (Once δ υ Element) (modify fun self =>
              self.popRecord (found.handle req) : Method (QSAHostPrefixCache δ υ Element) PUnit) :=
            Preserves.modify fun _ once => once
          dsimp only
          cases reads : record.reader with
          | none => exact pops found first.2
          | some reader =>
              apply (Leaves.bind_iff _ _ _).mpr
              exact (restoreReader_once machine config upstream req ⟨⟨first.1, recorded⟩, first.2⟩
                waited reads).mono (fun _ => pops) fun _ _ => id

theorem perform_once {operation : Operation δ υ Element} (kept : Kept none cache)
    (once : Once δ υ Element cache) (drained : operation.findsDrained upstream cache = true) :
    Once δ υ Element (finalState ((perform machine config upstream operation).run cache)) := by
  have carried := Once.carried machine config upstream
  cases operation with
  | maybeHandToSession req =>
      exact maybeHandToSession_once machine config upstream req kept once drained
  | beginCapture req =>
      exact (Preserves.bind (beginCapture_once config upstream req) fun _ =>
        Preserves.pure _).finalState once
  | copyCapture frame => exact (copyCapture_once machine config upstream frame).finalState once
  | convergeCapture frame => exact (convergeCapture_once upstream frame).finalState once
  | publishCapture frame => exact (publishCapture_once machine frame).finalState once
  | checkpoint req limit => exact (checkpoint_once machine config upstream req limit).finalState once
  | outside change => exact (within_preserves Once.apart (modify change)).finalState once
  | _ => exact (carried.perform rfl).finalState once

/-- In the run every handover finds its record, if it has one, drained. -/
def HandsOnce (limits : CacheLimits) (world : World δ υ Element)
    (operations : List (Operation δ υ Element)) : Prop :=
  forall first operation rest, operations = first ++ operation :: rest ->
    operation.findsDrained upstream
      (afterCalls machine config upstream limits world first) = true

/-- It is enough to look at every turn. -/
theorem handsOnce_of_turns {limits : CacheLimits} {world : World δ υ Element}
    {operations : List (Operation δ υ Element)}
    (turns : forall turn, turn < operations.length ->
      (operations[turn]?.all fun operation => operation.findsDrained upstream
        (afterCalls machine config upstream limits world (operations.take turn))) = true) :
    HandsOnce machine config upstream limits world operations := by
  rintro first operation rest rfl
  have here := turns first.length (by simp)
  rw [List.take_left, List.getElem?_append_right (Nat.le_refl _), Nat.sub_self] at here
  exact here

/-- Such a run restores from no reader that is awaited. -/
theorem restores_once (limits : CacheLimits) {world : World δ υ Element}
    (unused : world.runtime.requests.values = []) (operations : List (Operation δ υ Element))
    (hands : HandsOnce machine config upstream limits world operations) :
    Once δ υ Element (afterCalls machine config upstream limits world operations) := by
  induction operations using List.reverseRecOn with
  | nil => exact Lawful.nil
  | append_singleton operations operation previous =>
      have earlier := previous fun first other rest split =>
        hands first other (rest ++ [operation]) (by rw [split, List.append_assoc, List.cons_append])
      have kept := afterCalls_kept machine config upstream limits unused operations
      unfold afterCalls
      rw [callAll_append]
      exact perform_once machine config upstream kept earlier (hands operations operation [] rfl)

end HandsOnce

end PrefixCache
end QSAHiSparse

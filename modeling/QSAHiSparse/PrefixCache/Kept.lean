import QSAHiSparse.PrefixCache.Dated

namespace QSAHiSparse
namespace PrefixCache

open Foundation
open Ledger (QSAHiSparseLease)
open HostPrefix

/-!
# The invariant of every run

An open reader has one holder, a restore that may still be copying is recorded,
a snapshot is of its epoch, and the counters of the host cache are those of its
reservations.  This file carries all four through the changes
of the state and through the small programs; the calls on the cache follow in
the next files.
-/

variable {δ υ Element : Type}

structure Kept (loose : Option Nat) (cache : QSAHostPrefixCache δ υ Element) : Prop where
  owned : Owned loose cache
  drained : Drained cache
  dated : Dated loose cache
  accounted : exists limits, HostPrefix.Accounted limits cache.host

namespace Kept

variable {loose : Option Nat} {cache : QSAHostPrefixCache δ υ Element}

theorem initial (limits : CacheLimits) {world : World δ υ Element}
    (unused : world.runtime.requests.values = []) : Kept none (.initial limits world) :=
  ⟨.initial limits world, .initial limits world, .initial limits unused, limits, .initial⟩

theorem reach (kept : Kept loose cache) (world : World δ υ Element) :
    Kept loose (cache.reach world) :=
  ⟨kept.owned.reach world, kept.drained.reach world, kept.dated.reach world, kept.accounted⟩

theorem setFields (kept : Kept loose cache) (lease : QSAHiSparseLease)
    {update : PrefixFields -> PrefixFields}
    (same : forall fields, (update fields).prefixEpoch = fields.prefixEpoch) :
    Kept loose (cache.setFields lease update) :=
  ⟨kept.owned.setFields lease update, kept.drained.congr rfl rfl, kept.dated.setFields lease same,
    kept.accounted⟩

theorem setCaptures (kept : Kept loose cache) {captures : List (CaptureFrame Element)}
    (frames : forall frame, frame ∈ captures -> frame.Dated cache.history) :
    Kept loose { cache with captures } :=
  ⟨kept.owned.setCaptures captures, kept.drained.congr rfl rfl, kept.dated.setCaptures frames,
    kept.accounted⟩

/-! ## Records and matches -/

theorem updateRecord (kept : Kept loose cache) (handle : CacheRequestHandle)
    {update : RestoreRecord -> RestoreRecord}
    (reader : forall record, (update record).reader = record.reader)
    (stream : forall record, (update record).restoreStream = record.restoreStream) :
    Kept loose (cache.updateRecord handle update) :=
  ⟨kept.owned.updateRecord handle reader, kept.drained.updateRecord handle reader stream,
    kept.dated.updateRecord handle update, by
      unfold QSAHostPrefixCache.updateRecord
      cases cache.restoring.get? handle <;> exact kept.accounted⟩

theorem popRecord (kept : Kept loose cache) {handle : CacheRequestHandle}
    (idle : forall record, cache.restoring.get? handle = some record ->
      forall reader, record.reader = some reader -> awaited cache.history reader = none) :
    Kept loose (cache.popRecord handle) :=
  ⟨kept.owned.popRecord handle, kept.drained.popRecord idle, kept.dated.popRecord handle,
    kept.accounted⟩

theorem popMatch (kept : Kept none cache) {handle : CacheRequestHandle}
    (idle : cache.restoring.get? handle = none) :
    Kept (cache.matched.get? handle) (cache.popMatch handle) :=
  ⟨kept.owned.popMatch idle, kept.drained.congr rfl rfl, kept.dated.popMatch handle,
    kept.accounted⟩

/-- An allocation begins for a handle that has no record. -/
theorem setRecord (kept : Kept loose cache) {handle : CacheRequestHandle} {record : RestoreRecord}
    (unrecorded : cache.restoring.get? handle = none)
    (same : record.reader = cache.matched.get? handle) :
    Kept loose (cache.setRecord handle record) := by
  refine ⟨kept.owned.setRecord same, kept.drained.setRecord record fun former found => ?_,
    kept.dated.setRecord handle record, kept.accounted⟩
  exact absurd (found.symm.trans unrecorded) (Option.some_ne_none _)

/-! ## Readers and reservations -/

theorem counts (kept : Kept loose cache) {host : PrefixObjects PrefixNamespace Element}
    (lessens : Lessens cache.host host) : exists limits, HostPrefix.Accounted limits host :=
  kept.accounted.imp lessens.accounted

theorem acquired (kept : Kept none cache) {host : PrefixObjects PrefixNamespace Element}
    {found : Option Nat} (acquired : Acquired cache.host host found) :
    Kept found { cache with host } :=
  ⟨kept.owned.acquired acquired, kept.drained.congr rfl rfl, kept.dated.acquired kept.owned acquired,
    kept.counts acquired.toLessens⟩

theorem keep {reader : Nat} (kept : Kept (some reader) cache) {handle : CacheRequestHandle}
    (free : cache.matched.get? handle = none) (idle : cache.restoring.get? handle = none)
    {snapshot : PrefixSnapshot PrefixNamespace Element}
    (isOpen : cache.host.snapshotAt reader = some snapshot) :
    Kept none ((cache.setMatch handle reader).log (.matched handle reader snapshot)) := by
  refine ⟨kept.owned.keep free idle snapshot, ?_, kept.dated.keep handle isOpen, kept.accounted⟩
  have matched : Drained (cache.setMatch handle reader) := kept.drained.congr rfl rfl
  exact matched.log ⟨fun _ _ => rfl, nofun⟩

theorem close {reader : Nat} (kept : Kept (some reader) cache)
    {host : PrefixObjects PrefixNamespace Element} (closed : ReaderClosed cache.host host reader) :
    Kept none { cache.log (.closed reader) with host } := by
  refine ⟨kept.owned.close closed, ?_, kept.dated.close closed, kept.counts closed.toLessens⟩
  have held : cache.Holds (some reader) .call reader := rfl
  have idle := kept.drained.unawaited kept.owned held nofun
  exact (kept.drained.logClosed idle).congr rfl rfl

theorem closeReservation (kept : Kept loose cache) {position : Nat}
    {host : PrefixObjects PrefixNamespace Element} (lessens : Lessens cache.host host)
    (closed : ReservationClosed cache.host host position) :
    Kept loose { cache.logBasis position with host } := by
  refine ⟨kept.owned.closeReservation lessens.conserved closed, ?_,
    kept.dated.closeReservation lessens closed, kept.counts lessens⟩
  exact (kept.drained.logBasis kept.owned position).congr rfl rfl

/-- A reservation is made and noted. -/
theorem reserve (kept : Kept loose cache) {host : PrefixObjects PrefixNamespace Element}
    {position : Nat} (reserved : Reserved cache.host host (some position)) :
    Kept loose (({ cache with host } : QSAHostPrefixCache δ υ Element).log
      (.reserved position)) := by
  have owned : Owned loose { cache with host } := kept.owned.reserved reserved
  have drained : Drained { cache with host } := kept.drained.congr rfl rfl
  exact ⟨owned.log fun _ => rfl, drained.log ⟨fun _ _ => rfl, nofun⟩, kept.dated.reserve reserved,
    kept.counts reserved.toLessens⟩

/-- A reservation is refused; entries may have been evicted for it. -/
theorem refuse (kept : Kept loose cache) {host : PrefixObjects PrefixNamespace Element}
    (reserved : Reserved cache.host host none) : Kept loose { cache with host } := by
  refine ⟨kept.owned.reserved reserved, kept.drained.congr rfl rfl, ?_,
    kept.counts reserved.toLessens⟩
  apply kept.dated.setHost reserved.toLessens
  · rw [reserved.refused rfl]
    exact fun _ => rfl
  · intro handle reader snapshot _ isOpen
    rw [snapshotAt_congr reserved.readers] at isOpen
    exact isOpen
  · intro reader snapshot held isOpen
    rw [snapshotAt_congr reserved.readers] at isOpen
    exact kept.dated.called reader snapshot held isOpen

/-- The reader of the call becomes the basis of a reservation. -/
theorem setBasis (kept : Kept loose cache) {position : Nat} {reservation : PrefixReservation}
    (found : cache.host.reservations[position]? = some reservation)
    (active : reservation.active = true) (unset : reservation.basisReader = none)
    {host : PrefixObjects PrefixNamespace Element} (set : BasisSet cache.host host position loose) :
    Kept none { cache with host } :=
  ⟨kept.owned.setBasis found active unset set.conserved set.readers set.reservations,
    kept.drained.congr rfl rfl, kept.dated.setBasis set.toLessens set.readers set.reservations,
    kept.counts set.toLessens⟩

/-- A capture under a reservation of the present epoch is published. -/
theorem publish (kept : Kept loose cache) {lease : QSAHiSparseLease} {position entryId : Nat}
    {snapshot : PrefixSnapshot PrefixNamespace Element}
    {host : PrefixObjects PrefixNamespace Element}
    (captured : CapturedIn cache.host.cache.epoch lease position snapshot cache.history)
    (published : Published cache.host host position entryId snapshot)
    (counts : forall limits, HostPrefix.Accounted limits cache.host -> HostPrefix.Accounted limits host) :
    Kept loose (({ cache.logBasis position with host } : QSAHostPrefixCache δ υ Element).log
      (.published position entryId snapshot)) := by
  refine ⟨?_, ?_, kept.dated.publish captured published, kept.accounted.imp counts⟩
  · exact (kept.owned.closeReservation published.conserved published.closed).log fun _ => rfl
  · have logged := kept.drained.logBasis kept.owned position
    have closed : Drained ({ cache.logBasis position with host } : QSAHostPrefixCache δ υ Element) :=
      logged.congr rfl rfl
    exact closed.log ⟨fun _ _ => rfl, nofun⟩

/-- A flush, once nothing is matched. -/
theorem flush (kept : Kept none cache)
    (unmatched : forall handle, cache.matched.get? handle = none) :
    Kept none { cache with host := cache.host.flush } :=
  ⟨kept.owned.flush, kept.drained.congr rfl rfl, kept.dated.flush unmatched,
    kept.accounted.imp fun _ => (Shrinks.flush cache.host).accounted⟩

end Kept

/-! ## Small programs -/

/-- A fact about the cache in which the world and the basis of a request have no
part. -/
structure Apart (fact : QSAHostPrefixCache δ υ Element -> Prop) : Prop where
  reach : forall cache world, fact cache -> fact (cache.reach world)
  fields : forall cache lease update,
    (forall fields : PrefixFields, (update fields).prefixEpoch = fields.prefixEpoch) ->
      fact cache -> fact (cache.setFields lease update)

/-- The invariant, with what is known of the host cache and of the dictionaries. -/
theorem Kept.apart (loose : Option Nat)
    (facts : PrefixObjects PrefixNamespace Element -> Dict CacheRequestHandle Nat ->
      Dict CacheRequestHandle RestoreRecord -> Prop) :
    Apart fun cache : QSAHostPrefixCache δ υ Element =>
      Kept loose cache ∧ facts cache.host cache.matched cache.restoring where
  reach _ world holds := ⟨holds.1.reach world, holds.2⟩
  fields _ lease _ same holds := ⟨holds.1.setFields lease same, holds.2⟩

theorem Kept.apart_only (loose : Option Nat) :
    Apart (Kept loose : QSAHostPrefixCache δ υ Element -> Prop) where
  reach _ world kept := kept.reach world
  fields _ lease _ same kept := kept.setFields lease same

section Programs

variable {fact : QSAHostPrefixCache δ υ Element -> Prop} {α : Type}
  (upstream : Upstream δ υ Element)

/-- A program of the world leaves in a cache with another world. -/
theorem within_leaves (program : Method (World δ υ Element) α)
    (cache : QSAHostPrefixCache δ υ Element) {post : α -> World δ υ Element -> Prop}
    {raised : PyError -> World δ υ Element -> Prop}
    (leaves : Leaves post raised (program.run cache.world)) :
    Leaves (fun value after => exists world, after = cache.reach world ∧ post value world)
      (fun cause after => exists world, after = cache.reach world ∧ raised cause world)
      ((within program).run cache) := by
  change Leaves _ _ (within program cache)
  unfold within
  cases ran : program.run cache.world with
  | ok value world =>
      rw [ran] at leaves
      exact ⟨world, rfl, leaves⟩
  | error cause world =>
      rw [ran] at leaves
      exact ⟨world, rfl, leaves⟩

theorem within_preserves (apart : Apart fact) (program : Method (World δ υ Element) α) :
    Preserves fact (within program) := by
  intro cache holds
  have anywhere : Leaves (fun _ _ => True) (fun _ _ => True) (program.run cache.world) := by
    cases program.run cache.world <;> exact trivial
  apply (within_leaves program cache anywhere).mono
  · rintro _ _ ⟨world, rfl, _⟩
    exact apart.reach cache world holds
  · rintro _ _ ⟨world, rfl, _⟩
    exact apart.reach cache world holds

theorem converge_preserves (apart : Apart fact) (signature : Signature) :
    Preserves fact (converge upstream signature) := by
  refine Preserves.bind (within_preserves apart _) fun votes => ?_
  cases votes with
  | none => exact Preserves.pure _
  | some votes => exact Preserves.raiseIf _ _

theorem notePrefixBasis_preserves (apart : Apart fact) (req : Nat)
    (snapshot : PrefixSnapshot PrefixNamespace Element) (entryId : Option Nat) :
    Preserves fact (notePrefixBasis req snapshot entryId : Method (QSAHostPrefixCache δ υ Element) _) := by
  refine Preserves.get_bind fun cache => ?_
  split
  · exact Preserves.throw _
  · refine Preserves.bind (within_preserves apart _) fun lease => ?_
    exact Preserves.modify fun other => apart.fields other lease _ fun _ => rfl

theorem readSnapshot_leaves (reader : Nat) (cache : QSAHostPrefixCache δ υ Element) :
    Leaves (fun snapshot after => after = cache ∧ cache.host.snapshotAt reader = some snapshot)
      (fun _ after => after = cache) ((readSnapshot reader).run cache) := by
  unfold readSnapshot
  apply (Leaves.bind_iff _ _ _).mpr
  apply (Leaves.get_iff _).mpr
  cases isOpen : cache.host.snapshotAt reader with
  | none => exact rfl
  | some snapshot => exact ⟨rfl, rfl⟩

theorem readSnapshot_reads (reader : Nat) :
    Reads (readSnapshot reader : Method (QSAHostPrefixCache δ υ Element) _) := by
  apply Keeps.of_leaves
  intro cache
  exact (readSnapshot_leaves reader cache).mono (fun _ _ found => found.1) fun _ _ => id

theorem imageIdentity_reads (request : Req) :
    Reads (imageIdentity request : Method (QSAHostPrefixCache δ υ Element) _) := by
  unfold imageIdentity
  cases request.identity <;> exact fun cache => rfl

theorem readerSignature_reads (reader : Option Nat) :
    Reads (readerSignature upstream reader) := by
  cases reader with
  | none => exact fun cache => rfl
  | some reader =>
      apply Reads.of_preserves
      intro start
      exact Preserves.bind (readSnapshot_reads reader).preserves fun _ => Preserves.pure _

/-- A close of a reader does not raise. -/
theorem closeReader_run {cache : QSAHostPrefixCache δ υ Element} (conserved : Conserved cache.host)
    (reader : Nat) :
    exists host, (PrefixCache.closeReader reader).run cache =
        .ok ⟨⟩ { cache.log (.closed reader) with host } ∧
      ReaderClosed cache.host host reader := by
  rcases closeReader_closes conserved reader with ⟨host, ran, closed⟩
  refine ⟨host, ?_, closed⟩
  unfold PrefixCache.closeReader
  rw [EStateM.run_bind, run_modify]
  exact hostObjects.zoom_ok ran

theorem closeReservation_run {cache : QSAHostPrefixCache δ υ Element}
    (conserved : Conserved cache.host) (position : Nat) :
    exists host, (PrefixCache.closeReservation position).run cache =
        .ok ⟨⟩ { cache.logBasis position with host } ∧
      Lessens cache.host host ∧ ReservationClosed cache.host host position := by
  rcases closeReservation_closes conserved position with ⟨host, ran, lessens, closed⟩
  refine ⟨host, ?_, lessens, closed⟩
  unfold PrefixCache.closeReservation
  rw [EStateM.run_bind, run_modify]
  apply hostObjects.zoom_ok
  change (HostPrefix.closeReservation position).run (cache.logBasis position).host = _
  rw [cache.host_logBasis]
  exact ran

theorem readSnapshot_run {cache : QSAHostPrefixCache δ υ Element} {reader : Nat}
    {snapshot : PrefixSnapshot PrefixNamespace Element}
    (isOpen : cache.host.snapshotAt reader = some snapshot) :
    (readSnapshot reader).run cache = .ok snapshot cache := by
  unfold readSnapshot
  rw [EStateM.run_bind, EStateM.run_get]
  simp only [isOpen]
  rfl

/-- The reader of the call is open. -/
theorem Kept.called_open {reader : Nat} {cache : QSAHostPrefixCache δ υ Element}
    (kept : Kept (some reader) cache) :
    exists snapshot, cache.host.snapshotAt reader = some snapshot :=
  Option.ne_none_iff_exists'.mp (kept.owned.sole.held_open .call reader rfl)

/-- A lookup of the host cache. -/
theorem acquire_leaves {cache : QSAHostPrefixCache δ υ Element} (conserved : Conserved cache.host)
    (namespaceKey : PrefixNamespace) (tokens : Bytes) (limit : Option Int) (count : Bool)
    (identity : Option ImagePrefixIdentity) :
    Leaves
      (fun found after => exists host, after = { cache with host } ∧
        Acquired cache.host host found)
      (fun _ after => after = cache)
      ((hostObjects.zoom (acquire namespaceKey tokens limit count identity)).run cache) := by
  apply (hostObjects.leaves_zoom _ _).mpr
  apply (acquire_hands conserved namespaceKey tokens limit count identity).mono
  · exact fun found host acquired => ⟨host, rfl, acquired⟩
  · rintro _ _ rfl
    rfl

/-- What a call does to the cache when it closes the reader it holds. -/
theorem closeAny_leaves {loose : Option Nat} {cache : QSAHostPrefixCache δ υ Element}
    (kept : Kept loose cache) :
    exists after, (closeAny loose).run cache = .ok ⟨⟩ after ∧ Kept none after ∧
      after.matched = cache.matched ∧ after.restoring = cache.restoring := by
  cases loose with
  | none => exact ⟨cache, rfl, kept, rfl, rfl⟩
  | some reader =>
      rcases closeReader_run kept.owned.conserved reader with ⟨host, ran, closed⟩
      exact ⟨_, ran, kept.close closed, rfl, rfl⟩

end Programs

end PrefixCache
end QSAHiSparse

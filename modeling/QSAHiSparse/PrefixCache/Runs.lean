import QSAHiSparse.PrefixCache.HandsOnce
import QSAHiSparse.PrefixCache.PrefillPasses
import QSAHiSparse.Runtime.CopyQueue

namespace QSAHiSparse
namespace PrefixCache

open Foundation
open Ledger (QSAHiSparseLease)
open HostPrefix
open QSAHiSparse.Runtime (Machine QSAHiSparseRuntime)

/-!
# Readers and epochs over any run

A run is any list of calls on the cache, with the steps of captures and any other
changes of the world between them.  Calls may raise.
-/

section Runs

variable {δ υ Element : Type} (machine : Machine δ) (config : PrefixConfig)
  (upstream : Upstream δ υ Element)

/-- The world when the cache is built: the runtime is new. -/
def World.initial (geometry : Ledger.Geometry) (device : δ) (requests : Nat -> Req)
    (pools : Pools Element) (state : υ) : World δ υ Element where
  runtime := .initial config.runtime geometry device
  requests := requests
  pools := pools
  upstream := state

/-- The handle that a call aborts. -/
def Operation.aborts (cache : QSAHostPrefixCache δ υ Element) :
    Operation δ υ Element -> Option CacheRequestHandle
  | .releaseAbortedRequest handle => some handle
  | .onRelease req _ => some (cache.handle req)
  | _ => none

/-- The calls that drop the host prefixes. -/
def Operation.flushes : Operation δ υ Element -> Bool
  | .reset | .releaseHostResources | .invalidateModel => true
  | _ => false

/-! ## Readers -/

/-- Who holds the open readers, between two calls. -/
structure ReadersOwned (cache : QSAHostPrefixCache δ υ Element) : Prop where
  /-- A reader that no reservation holds is recorded for exactly one handle. -/
  recorded_once : forall reader, cache.Open reader ->
    (forall reservation, cache.host.basisAt reservation ≠ some reader) ->
      ∃! handle, cache.matched.get? handle = some reader
  /-- A recorded reader is open, and no reservation holds it. -/
  recorded_open : forall handle reader, cache.matched.get? handle = some reader ->
    cache.Open reader ∧ forall reservation, cache.host.basisAt reservation ≠ some reader
  /-- What is recorded for a handle is what it was last matched with. -/
  last_matched : forall handle reader, cache.matched.get? handle = some reader ->
    lastMatched handle cache.history = some reader
  /-- A handle that is restoring holds the reader it was matched with. -/
  restoring_holds : forall handle record, cache.restoring.get? handle = some record ->
    record.reader = cache.matched.get? handle
  /-- The closes in the history are all the closes. -/
  closes_logged : forall reader, reader < cache.host.readers.length -> ¬ cache.Open reader ->
    exists epoch, (epoch, PrefixEvent.closed reader) ∈ cache.history

theorem Kept.readersOwned {cache : QSAHostPrefixCache δ υ Element} (kept : Kept none cache) :
    ReadersOwned cache where
  recorded_once := by
    intro reader opened unheld
    rcases kept.owned.sole.unique reader opened with ⟨holder, held, only⟩
    cases holder with
    | handle handle =>
        refine ⟨handle, held, fun other otherHeld => ?_⟩
        exact Holder.handle.inj (only (.handle other) otherHeld)
    | reservation position => exact absurd held (unheld position)
    | call => cases held
  recorded_open := by
    intro handle reader matched
    refine ⟨kept.owned.sole.held_open (.handle handle) reader matched, ?_⟩
    intro reservation basis
    have same := @SoleOwner.eq_of_holds _ _ _ _ kept.owned.sole (.handle handle)
      (.reservation reservation) reader matched basis
    cases same
  last_matched := kept.owned.last
  restoring_holds := kept.owned.recorded
  closes_logged := kept.owned.logged

/-- The handle still has the reader, which was not touched, and no record has
changed. -/
structure Spared (handle : CacheRequestHandle) (reader : Nat)
    (before after : QSAHostPrefixCache δ υ Element) : Prop where
  matched : after.matched.get? handle = some reader
  snapshot : after.host.snapshotAt reader = before.host.snapshotAt reader
  restoring : after.restoring = before.restoring

/-- An abort of one handle leaves the reader of another one as it was. -/
theorem abort_spares {cache : QSAHostPrefixCache δ υ Element} (kept : Kept none cache)
    {operation : Operation δ υ Element} {handle other : CacheRequestHandle}
    (aborts : operation.aborts cache = some handle) (different : other ≠ handle) {reader : Nat}
    (matched : cache.matched.get? other = some reader) :
    Spared other reader cache
      (finalState ((perform machine config upstream operation).run cache)) := by
  have spared : forall after, Aborted handle cache after -> Spared other reader cache after := by
    intro after aborted
    refine ⟨?_, ?_, aborted.restoring⟩
    · rw [aborted.matched, if_neg fun both => different both.1]
      exact matched
    · apply aborted.others
      intro held
      exact different (kept.owned.matched_unique matched held)
  have released := releaseAborted_leaves upstream kept handle
  cases operation with
  | releaseAbortedRequest chosen =>
      cases aborts
      apply Leaves.finalState_iff.mp
      exact released.mono (fun _ _ both => spared _ both.2) fun _ _ both => spared _ both.2
  | onRelease req checkpointed =>
      cases aborts
      apply Leaves.finalState_iff.mp
      apply (Leaves.bind_iff _ _ _).mpr
      apply (Leaves.get_iff _).mpr
      apply (Leaves.bind_iff _ _ _).mpr
      apply released.mono
      · rintro _ after ⟨_, aborted⟩
        have apart : Apart (Aborted (cache.handle req) cache) :=
          { reach := fun _ world holds => holds.reach world
            fields := fun _ _ _ _ holds => ⟨holds.restoring, holds.captures, holds.matched,
              holds.pinned, holds.others, holds.reservations, holds.epoch⟩ }
        apply (within_preserves apart (upstream.onRelease req checkpointed) after aborted).mono
        · exact fun _ _ => spared _
        · exact fun _ _ => spared _
      · exact fun _ _ both => spared _ both.2
  | _ => cases aborts

/-- While an allocation is recorded, a flush raises and changes nothing. -/
theorem flush_refused {cache : QSAHostPrefixCache δ υ Element}
    {operation : Operation δ υ Element} (flushes : operation.flushes = true)
    (recorded : cache.restoring.size ≠ 0) :
    (perform machine config upstream operation).run cache =
      .error (.runtimeError "QSA prefix flush cannot race a restore") cache := by
  have refused := dropHostPrefixes_refused upstream recorded
  cases operation with
  | reset =>
      change (PrefixCache.reset upstream).run cache = _
      unfold PrefixCache.reset
      rw [EStateM.run_bind, refused]
  | releaseHostResources =>
      change (PrefixCache.releaseHostResources upstream).run cache = _
      unfold PrefixCache.releaseHostResources
      rw [EStateM.run_bind, refused]
  | invalidateModel => exact refused
  | _ => cases flushes

/-- In every run: an open reader that no reservation holds is recorded for
exactly one handle, a restoring handle holds the reader it was matched with, an
abort spares the readers of all other handles, no reader is closed before its
last restore has returned or its stream was drained, and a flush during a
restore is refused.  In a run whose handovers find no undrained record, no
reader is closed while any restore of it may be copying. -/
theorem readers_owned (limits : CacheLimits) (geometry : Ledger.Geometry) (device : δ)
    (requests : Nat -> Req) (pools : Pools Element) (state : υ)
    (operations : List (Operation δ υ Element)) :
    let world := World.initial config geometry device requests pools state
    let cache := afterCalls machine config upstream limits world operations
    ReadersOwned cache ∧
      (forall operation handle other reader, Operation.aborts cache operation = some handle ->
        other ≠ handle -> cache.matched.get? other = some reader ->
          Spared other reader cache
            (finalState ((perform machine config upstream operation).run cache))) ∧
      Lawful ClosesLate cache.history ∧
      (HandsOnce machine config upstream limits world operations ->
        Lawful ClosesIdle cache.history) ∧
      forall operation, Operation.flushes operation = true -> cache.restoring.size ≠ 0 ->
        (perform machine config upstream operation).run cache =
          .error (.runtimeError "QSA prefix flush cannot race a restore") cache := by
  intro world cache
  have kept : Kept none cache := afterCalls_kept machine config upstream limits rfl operations
  refine ⟨kept.readersOwned, ?_, kept.drained.late, fun hands => ?_, ?_⟩
  · exact fun operation handle other reader aborts different matched =>
      abort_spares machine config upstream kept aborts different matched
  · have once : Once δ υ Element cache :=
      restores_once machine config upstream limits rfl operations hands
    exact closesIdle once kept.drained.late
  · exact fun operation flushes recorded => flush_refused machine config upstream flushes recorded

end Runs

/-! ## A restore on two streams -/

section Streams

open QSAHiSparse.Runtime (CopyQueue queueMachine)

/-- The current stream, whether waits fail, and how much has been handed out. -/
structure Streams where
  current : Nat
  broken : Bool
  handed : Nat

/-- The address or the identity of a new object. -/
def Streams.next : Method (World CopyQueue Streams Unit) Nat := do
  let world <- get
  set { world with upstream := { world.upstream with handed := world.upstream.handed + 1 } }
  return world.upstream.handed + 1

def Streams.upstream : Upstream CopyQueue Streams Unit where
  sha256 _ := ""
  keyDigest _ := ""
  votes _ := pure none
  forceMiss := pure false
  matchPrefix _ := pure 0
  prefixDeviceIndices _ := pure []
  maybeHandToSession _ := pure ⟨⟩
  releaseAbortedRequest _ := pure ⟨⟩
  claimKvRow _ := pure true
  checkpoint _ _ := pure ⟨⟩
  onRelease _ _ := pure ⟨⟩
  reset := pure ⟨⟩
  releaseHostResources := pure ⟨⟩
  alloc _ := pure none
  free _ := pure ⟨⟩
  releaseStateSlot _ := pure ⟨⟩
  freeRow _ := pure ⟨⟩
  markKvReleased _ := pure ⟨⟩
  currentStream := do
    let world <- get
    return world.upstream.current
  synchronizeStream _ := do
    let world <- get
    raiseIf (world.upstream.broken = true)
      (.runtimeError "CUDA error: unspecified launch failure")
  newStorage count := do
    let address <- Streams.next
    return ⟨address, count⟩
  newBytes := Streams.next

def streamMachine : Machine CopyQueue := queueMachine fun _ _ => ⟨0, none, true⟩

def callRuntime (calls : List Runtime.Call) (world : World CopyQueue Streams Unit) :
    World CopyQueue Streams Unit :=
  { world with
    runtime := callAll (Runtime.perform streamMachine plainConfig.runtime) world.runtime calls }

def useStream (current : Nat) (broken : Bool) (world : World CopyQueue Streams Unit) :
    World CopyQueue Streams Unit :=
  { world with upstream := { world.upstream with current, broken } }

/-- Two requests with one prompt, one after the other on the same row. -/
def streamRequests : Nat -> Req
  | 0 => { promptReq 64 with kv := ⟨some 1, some 1, false, 64, 64⟩ }
  | _ => { promptReq 64 with
      cacheRequestHandle := ⟨"b", 1⟩
      rid := "b"
      kv := ⟨some 1, some 1, false, 0, 0⟩ }

/-- The first page is captured; the second request is restored from it on stream
7, and the wait at the end of its copies fails. -/
def failedRestore : List (Operation CopyQueue Streams Unit) :=
  [ .outside (callRuntime
      [.regenerate 1 1, .beginBatch ⟨.extend, 1, some [1], some [64], ["a"], [64]⟩]),
    .checkpoint 0 64,
    .outside (callRuntime
      [.release 1 "a", .afterRelease (some ⟨1, 1, "a", 0⟩), .regenerate 1 2]),
    .matchPrefix ⟨some 1, List.replicate 70 0, false⟩,
    .preparePrefixForExtend [1],
    .outside (useStream 7 true),
    .maybeHandToSession 1,
    .outside (useStream 8 false) ]

def streamLimits : CacheLimits := ⟨2000000, 1, by decide, Nat.one_pos⟩

def streamWorld : World CopyQueue Streams Unit :=
  .initial plainConfig .onePage CopyQueue.empty streamRequests plainPools ⟨0, false, 0⟩

def streamCache (operations : List (Operation CopyQueue Streams Unit)) :
    QSAHostPrefixCache CopyQueue Streams Unit :=
  afterCalls streamMachine plainConfig Streams.upstream streamLimits streamWorld operations

/-- The reader that an event closes. -/
def PrefixEvent.closes {Element : Type} : PrefixEvent Element -> Option Nat
  | .closed reader => some reader
  | _ => none

theorem PrefixEvent.closes_eq {Element : Type} {event : PrefixEvent Element} {reader : Nat}
    (closes : event.closes = some reader) : event = .closed reader := by
  cases event with
  | closed other => exact congrArg _ (Option.some.inj closes)
  | _ => cases closes

/-- The rollback drains stream 7 before it closes the reader. -/
theorem readers_owned_drained :
    HandsOnce streamMachine plainConfig Streams.upstream streamLimits streamWorld
        (failedRestore ++ [.rollbackPrefixForExtend [1]]) ∧
      (streamCache (failedRestore ++ [.rollbackPrefixForExtend [1]])).history.getLast?.bind
        (fun entry => entry.2.closes) = some 0 ∧
      Lawful ClosesIdle (streamCache (failedRestore ++ [.rollbackPrefixForExtend [1]])).history := by
  have hands : HandsOnce streamMachine plainConfig Streams.upstream streamLimits streamWorld
      (failedRestore ++ [.rollbackPrefixForExtend [1]]) := by
    apply handsOnce_of_turns
    decide +kernel
  have owned := readers_owned streamMachine plainConfig Streams.upstream streamLimits .onePage
    CopyQueue.empty streamRequests plainPools ⟨0, false, 0⟩
    (failedRestore ++ [.rollbackPrefixForExtend [1]])
  refine ⟨hands, by decide +kernel, ?_⟩
  unfold streamWorld at hands
  unfold streamCache streamWorld
  exact owned.2.2.2.1 hands

/-- A second handover overwrites the stream of the record, the rollback drains
stream 8, and the reader is closed while stream 7 may still be copying. -/
theorem reader_closed_undrained :
    ¬ Lawful ClosesIdle (streamCache
      (failedRestore ++ [.maybeHandToSession 1, .rollbackPrefixForExtend [1]])).history := by
  intro idle
  have last : (streamCache (failedRestore ++
      [.maybeHandToSession 1, .rollbackPrefixForExtend [1]])).history[9]?.bind
        (fun entry => entry.2.closes) = some 0 := by
    decide +kernel
  have copying : Copying ((streamCache (failedRestore ++
      [.maybeHandToSession 1, .rollbackPrefixForExtend [1]])).history.take 9) 0 7 := by
    unfold Copying
    decide +kernel
  revert idle last copying
  generalize (streamCache (failedRestore ++
    [.maybeHandToSession 1, .rollbackPrefixForExtend [1]])).history = history
  intro idle last copying
  rcases Option.bind_eq_some_iff.mp last with ⟨entry, found, closes⟩
  rcases List.getElem?_eq_some_iff.mp found with ⟨inside, rfl⟩
  have split : history = history.take 9 ++ history[9] :: history.drop 10 := by
    rw [← List.drop_eq_getElem_cons inside, List.take_append_drop]
  exact idle _ _ _ split 0 (PrefixEvent.closes_eq closes) 7 copying

end Streams

/-! ## Epochs -/

section Epochs

variable {δ υ Element : Type} (machine : Machine δ) (config : PrefixConfig)
  (upstream : Upstream δ υ Element)

/-- What the stamps of a history say, in the present epoch. -/
structure EpochsApart (cache : QSAHostPrefixCache δ υ Element) : Prop where
  /-- The stamps grow up to the present epoch. -/
  ordered : (cache.history.map Prod.fst).Pairwise (· ≤ ·)
  stamped : forall entry, entry ∈ cache.history -> entry.1 ≤ cache.host.cache.epoch
  /-- A publication, a match and a restore each have the whole way of their
  snapshot, from the lease on, in their own epoch. -/
  lawful : Lawful InEpoch cache.history
  /-- A reservation is published in the epoch it was made in, if at all. -/
  reserved_published : forall reservedAt publishedAt reservation entryId snapshot,
    (reservedAt, PrefixEvent.reserved reservation) ∈ cache.history ->
      (publishedAt, PrefixEvent.published reservation entryId snapshot) ∈ cache.history ->
        publishedAt = reservedAt
  /-- A capture is not published in a later epoch. -/
  captured_published : forall capturedAt publishedAt lease reservation captured entryId snapshot,
    (capturedAt, PrefixEvent.captured lease reservation captured) ∈ cache.history ->
      (publishedAt, PrefixEvent.published reservation entryId snapshot) ∈ cache.history ->
        publishedAt ≤ capturedAt
  /-- What may still be looked up or restored is of the present epoch. -/
  live : forall entryId entry, cache.host.cache.entries.get? entryId = some entry ->
    PublishedIn cache.host.cache.epoch entry.snapshot cache.history
  matched : forall handle reader snapshot, cache.matched.get? handle = some reader ->
    cache.host.snapshotAt reader = some snapshot ->
      MatchedIn cache.host.cache.epoch handle reader snapshot cache.history

namespace Dated

variable {loose : Option Nat} {cache : QSAHostPrefixCache δ υ Element}

/-- A published reservation was made in the same epoch. -/
theorem published_reserved (dated : Dated loose cache) {epoch reservation entryId : Nat}
    {snapshot : PrefixSnapshot PrefixNamespace Element}
    (published : (epoch, PrefixEvent.published reservation entryId snapshot) ∈ cache.history) :
    (epoch, PrefixEvent.reserved reservation) ∈ cache.history := by
  rcases List.append_of_mem published with ⟨earlier, later, equal⟩
  rcases dated.lawful earlier _ later equal with ⟨lease, chain⟩
  have member : (epoch, PrefixEvent.reserved reservation) ∈ earlier :=
    chain.subset (List.mem_cons_of_mem _ List.mem_cons_self)
  rw [equal]
  exact List.mem_append_left _ member

/-- A reservation has one epoch. -/
theorem reserved_once (dated : Dated loose cache) {first second reservation : Nat}
    (one : (first, PrefixEvent.reserved reservation) ∈ cache.history)
    (other : (second, PrefixEvent.reserved reservation) ∈ cache.history) : first = second := by
  rcases (dated.reserved reservation first).mp one with ⟨made, found, rfl⟩
  rcases (dated.reserved reservation second).mp other with ⟨again, present, rfl⟩
  rw [found] at present
  rw [Option.some.inj present]

/-- A copy is taken under a reservation of its epoch or an earlier one. -/
theorem captured_reserved (dated : Dated loose cache) {epoch reservation : Nat}
    {lease : QSAHiSparseLease} {snapshot : PrefixSnapshot PrefixNamespace Element}
    (captured : (epoch, PrefixEvent.captured lease reservation snapshot) ∈ cache.history) :
    exists reservedAt, reservedAt ≤ epoch ∧
      (reservedAt, PrefixEvent.reserved reservation) ∈ cache.history := by
  rcases List.append_of_mem captured with ⟨earlier, later, equal⟩
  rcases dated.lawful earlier _ later equal with ⟨reservedAt, chain⟩
  have member : (reservedAt, PrefixEvent.reserved reservation) ∈ earlier :=
    chain.subset (List.mem_cons_of_mem _ List.mem_cons_self)
  have sorted := dated.ordered
  rw [equal, List.map_append, List.pairwise_append] at sorted
  refine ⟨reservedAt, ?_, ?_⟩
  · exact sorted.2.2 reservedAt (List.mem_map_of_mem member) epoch List.mem_cons_self
  · rw [equal]
    exact List.mem_append_left _ member

theorem epochsApart (dated : Dated loose cache) : EpochsApart cache where
  ordered := dated.ordered
  stamped := dated.stamped
  lawful := dated.lawful
  reserved_published := fun _ _ _ _ _ reserved published =>
    dated.reserved_once (dated.published_reserved published) reserved
  captured_published := by
    intro capturedAt publishedAt lease reservation captured entryId snapshot copied published
    rcases dated.captured_reserved copied with ⟨reservedAt, early, reserved⟩
    rw [dated.reserved_once (dated.published_reserved published) reserved]
    exact early
  live := dated.live
  matched := dated.matched

end Dated

/-- A flush that drops the host prefixes begins a new epoch; one that raised
before it did so stays in the old one. -/
theorem flush_begins {cache : QSAHostPrefixCache δ υ Element} (kept : Kept none cache)
    {operation : Operation δ υ Element} (flushes : operation.flushes = true) :
    Leaves (fun _ after => after.host.cache.epoch = cache.host.cache.epoch + 1)
      (fun _ after => after.host.cache.epoch = cache.host.cache.epoch ∨
        after.host.cache.epoch = cache.host.cache.epoch + 1)
      ((perform machine config upstream operation).run cache) := by
  have dropped := dropHostPrefixes_leaves upstream kept
  have apart : Apart fun after : QSAHostPrefixCache δ υ Element =>
      after.host.cache.epoch = cache.host.cache.epoch + 1 :=
    { reach := fun _ _ begun => begun
      fields := fun _ _ _ _ begun => begun }
  have then_within : forall program : Method (World δ υ Element) PUnit,
      Leaves (fun _ after => after.host.cache.epoch = cache.host.cache.epoch + 1)
        (fun _ after => after.host.cache.epoch = cache.host.cache.epoch ∨
          after.host.cache.epoch = cache.host.cache.epoch + 1)
        (EStateM.run (do
          dropHostPrefixes upstream
          within program) cache) := by
    intro program
    apply (Leaves.bind_iff _ _ _).mpr
    apply dropped.mono
    · rintro _ after ⟨_, begun⟩
      exact (within_preserves apart program after begun).mono (fun _ _ => id) fun _ _ => Or.inr
    · exact fun _ _ both => Or.inl both.2
  cases operation with
  | reset => exact then_within upstream.reset
  | releaseHostResources => exact then_within upstream.releaseHostResources
  | invalidateModel => exact dropped.mono (fun _ _ => And.right) fun _ _ both => Or.inl both.2
  | _ => cases flushes

/-- In every run, a snapshot is published, matched and restored only in the
epoch in which the lease it was captured from was granted; what was reserved or
captured before a flush is not published after it, and every flush that returns
begins a new epoch. -/
theorem epochs_isolated (limits : CacheLimits) (geometry : Ledger.Geometry) (device : δ)
    (requests : Nat -> Req) (pools : Pools Element) (state : υ)
    (operations : List (Operation δ υ Element)) :
    let cache := afterCalls machine config upstream limits
      (.initial config geometry device requests pools state) operations
    EpochsApart cache ∧
      forall operation, Operation.flushes operation = true ->
        Leaves (fun _ after => after.host.cache.epoch = cache.host.cache.epoch + 1)
          (fun _ after => after.host.cache.epoch = cache.host.cache.epoch ∨
            after.host.cache.epoch = cache.host.cache.epoch + 1)
          ((perform machine config upstream operation).run cache) := by
  intro cache
  have kept : Kept none cache := afterCalls_kept machine config upstream limits rfl operations
  exact ⟨kept.dated.epochsApart, fun operation flushes =>
    flush_begins machine config upstream kept flushes⟩

end Epochs

end PrefixCache
end QSAHiSparse

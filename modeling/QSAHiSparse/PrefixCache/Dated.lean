import QSAHiSparse.PrefixCache.Drained

namespace QSAHiSparse
namespace PrefixCache

open Foundation
open Ledger (QSAHiSparseLease)
open HostPrefix

/-!
# The epoch of a snapshot

A lease, a reservation, a capture, a publication and a match each belong to the
epoch in which they happen.  The invariant says that they agree along the way of
a snapshot: a live entry was published in the present epoch, under a reservation
of that epoch, from a capture in it, by a lease that was granted in it.
-/

variable {δ υ Element : Type}

/-- The lease was granted, the reservation made and the copy taken in one epoch,
in this order. -/
def CapturedIn (epoch : Nat) (lease : QSAHiSparseLease) (reservation : Nat)
    (snapshot : PrefixSnapshot PrefixNamespace Element)
    (history : List (Nat × PrefixEvent Element)) : Prop :=
  List.Sublist
    [(epoch, .granted lease), (epoch, .reserved reservation),
      (epoch, .captured lease reservation snapshot)] history

/-- The snapshot was captured and then published in one epoch. -/
def PublishedIn (epoch : Nat) (snapshot : PrefixSnapshot PrefixNamespace Element)
    (history : List (Nat × PrefixEvent Element)) : Prop :=
  exists lease reservation entryId, List.Sublist
    [(epoch, .granted lease), (epoch, .reserved reservation),
      (epoch, .captured lease reservation snapshot),
      (epoch, .published reservation entryId snapshot)] history

/-- The snapshot was captured, published and then matched in one epoch. -/
def MatchedIn (epoch : Nat) (handle : CacheRequestHandle) (reader : Nat)
    (snapshot : PrefixSnapshot PrefixNamespace Element)
    (history : List (Nat × PrefixEvent Element)) : Prop :=
  exists lease reservation entryId, List.Sublist
    [(epoch, .granted lease), (epoch, .reserved reservation),
      (epoch, .captured lease reservation snapshot),
      (epoch, .published reservation entryId snapshot),
      (epoch, .matched handle reader snapshot)] history

/-- What must have happened before a capture, and in the epoch of a publication,
a match or a restore. -/
def InEpoch (earlier : List (Nat × PrefixEvent Element)) :
    Nat × PrefixEvent Element -> Prop
  | (_, .captured lease reservation _) =>
      exists epoch, List.Sublist [(epoch, .granted lease), (epoch, .reserved reservation)] earlier
  | (epoch, .published reservation _ snapshot) =>
      exists lease, CapturedIn epoch lease reservation snapshot earlier
  | (epoch, .matched _ _ snapshot) => PublishedIn epoch snapshot earlier
  | (epoch, .restoring reader _ snapshot) =>
      exists handle, MatchedIn epoch handle reader snapshot earlier
  | _ => True

/-- What has happened for a capture to stand where it stands. -/
def CaptureFrame.Dated (history : List (Nat × PrefixEvent Element))
    (frame : CaptureFrame Element) : Prop :=
  match frame.stage with
  | .reserved reservation _ _ _ =>
      exists epoch, List.Sublist
        [(epoch, .granted frame.lease), (epoch, .reserved reservation)] history
  | .captured (some (reservation, snapshot)) | .converged (some (reservation, snapshot)) =>
      exists epoch stamp, List.Sublist
        [(epoch, .granted frame.lease), (epoch, .reserved reservation),
          (stamp, .captured frame.lease reservation snapshot)] history
  | _ => True

/-! ## Longer histories -/

section Histories

variable {epoch : Nat} {snapshot : PrefixSnapshot PrefixNamespace Element}
  {history : List (Nat × PrefixEvent Element)}

theorem CapturedIn.append {lease : QSAHiSparseLease} {reservation : Nat}
    (captured : CapturedIn epoch lease reservation snapshot history)
    (events : List (Nat × PrefixEvent Element)) :
    CapturedIn epoch lease reservation snapshot (history ++ events) :=
  captured.trans (List.sublist_append_left _ _)

theorem PublishedIn.append (published : PublishedIn epoch snapshot history)
    (events : List (Nat × PrefixEvent Element)) :
    PublishedIn epoch snapshot (history ++ events) := by
  rcases published with ⟨lease, reservation, entryId, chain⟩
  exact ⟨lease, reservation, entryId, chain.trans (List.sublist_append_left _ _)⟩

theorem MatchedIn.append {handle : CacheRequestHandle} {reader : Nat}
    (matched : MatchedIn epoch handle reader snapshot history)
    (events : List (Nat × PrefixEvent Element)) :
    MatchedIn epoch handle reader snapshot (history ++ events) := by
  rcases matched with ⟨lease, reservation, entryId, chain⟩
  exact ⟨lease, reservation, entryId, chain.trans (List.sublist_append_left _ _)⟩

theorem CaptureFrame.Dated.append {frame : CaptureFrame Element} (dated : frame.Dated history)
    (events : List (Nat × PrefixEvent Element)) : frame.Dated (history ++ events) := by
  unfold CaptureFrame.Dated at dated ⊢
  split at dated
  case h_1 =>
      rcases dated with ⟨epoch, chain⟩
      exact ⟨epoch, chain.trans (List.sublist_append_left _ _)⟩
  case h_2 =>
      rcases dated with ⟨epoch, stamp, chain⟩
      exact ⟨epoch, stamp, chain.trans (List.sublist_append_left _ _)⟩
  case h_3 =>
      rcases dated with ⟨epoch, stamp, chain⟩
      exact ⟨epoch, stamp, chain.trans (List.sublist_append_left _ _)⟩
  case h_4 => exact trivial

/-- A chain of events is continued by the event that is added. -/
theorem sublist_concat {chain : List (Nat × PrefixEvent Element)} (held : chain.Sublist history)
    (event : Nat × PrefixEvent Element) : (chain ++ [event]).Sublist (history ++ [event]) :=
  held.append (List.Sublist.refl _)

/-- What was matched was published. -/
theorem MatchedIn.published {handle : CacheRequestHandle} {reader : Nat}
    (matched : MatchedIn epoch handle reader snapshot history) :
    PublishedIn epoch snapshot history := by
  rcases matched with ⟨lease, reservation, entryId, chain⟩
  exact ⟨lease, reservation, entryId, (List.sublist_append_left _ [_]).trans chain⟩

theorem PublishedIn.matched (published : PublishedIn epoch snapshot history)
    (handle : CacheRequestHandle) (reader : Nat) :
    MatchedIn epoch handle reader snapshot (history ++ [(epoch, .matched handle reader snapshot)]) := by
  rcases published with ⟨lease, reservation, entryId, chain⟩
  exact ⟨lease, reservation, entryId, sublist_concat chain _⟩

theorem CapturedIn.published {lease : QSAHiSparseLease} {reservation : Nat}
    (captured : CapturedIn epoch lease reservation snapshot history) (entryId : Nat) :
    PublishedIn epoch snapshot (history ++ [(epoch, .published reservation entryId snapshot)]) :=
  ⟨lease, reservation, entryId, sublist_concat captured _⟩

end Histories

/-- An event about which the invariant says nothing. -/
def PrefixEvent.Undated : PrefixEvent Element -> Prop
  | .granted _ | .restored _ | .drained _ | .closed _ => True
  | _ => False

structure Dated (loose : Option Nat) (cache : QSAHostPrefixCache δ υ Element) : Prop where
  ordered : (cache.history.map Prod.fst).Pairwise (· ≤ ·)
  stamped : forall entry, entry ∈ cache.history -> entry.1 ≤ cache.host.cache.epoch
  granted : forall lease, lease ∈ cache.world.runtime.requests.values ->
    ((cache.prefixes lease).prefixEpoch, PrefixEvent.granted lease) ∈ cache.history
  reserved : forall position epoch, (epoch, PrefixEvent.reserved position) ∈ cache.history <->
    exists reservation, cache.host.reservations[position]? = some reservation ∧
      reservation.epoch = epoch
  frames : forall frame, frame ∈ cache.captures -> frame.Dated cache.history
  live : forall entryId entry, cache.host.cache.entries.get? entryId = some entry ->
    PublishedIn cache.host.cache.epoch entry.snapshot cache.history
  matched : forall handle reader snapshot, cache.matched.get? handle = some reader ->
    cache.host.snapshotAt reader = some snapshot ->
    MatchedIn cache.host.cache.epoch handle reader snapshot cache.history
  called : forall reader snapshot, loose = some reader ->
    cache.host.snapshotAt reader = some snapshot ->
    PublishedIn cache.host.cache.epoch snapshot cache.history
  lawful : Lawful InEpoch cache.history

namespace Dated

variable {loose : Option Nat} {cache after : QSAHostPrefixCache δ υ Element}

theorem initial (limits : CacheLimits) {world : World δ υ Element}
    (unused : world.runtime.requests.values = []) : Dated none (.initial limits world) where
  ordered := List.Pairwise.nil
  stamped entry member := absurd member List.not_mem_nil
  granted lease member := by
    change lease ∈ world.runtime.requests.values at member
    rw [unused] at member
    cases member
  reserved position epoch := by
    constructor
    · exact fun member => absurd member List.not_mem_nil
    · rintro ⟨reservation, found, _⟩
      cases found
  frames frame member := absurd member List.not_mem_nil
  live entryId entry found := by cases found
  matched handle reader snapshot found := by cases found
  called reader snapshot impossible := by cases impossible
  lawful := .nil

/-! ## Events -/

/-- Events are added in the present epoch. -/
theorem ordered_append {history events : List (Nat × PrefixEvent Element)} {epoch : Nat}
    (ordered : (history.map Prod.fst).Pairwise (· ≤ ·))
    (stamped : forall entry, entry ∈ history -> entry.1 ≤ epoch)
    (present : forall entry, entry ∈ events -> entry.1 = epoch) :
    ((history ++ events).map Prod.fst).Pairwise (· ≤ ·) := by
  rw [List.map_append, List.pairwise_append]
  refine ⟨ordered, ?_, ?_⟩
  · apply List.pairwise_of_forall_mem_list
    intro first firstMember second secondMember
    rcases List.mem_map.mp firstMember with ⟨entry, member, rfl⟩
    rcases List.mem_map.mp secondMember with ⟨other, otherMember, rfl⟩
    rw [present entry member, present other otherMember]
  · intro first firstMember second secondMember
    rcases List.mem_map.mp firstMember with ⟨entry, member, rfl⟩
    rcases List.mem_map.mp secondMember with ⟨other, otherMember, rfl⟩
    rw [present other otherMember]
    exact stamped entry member

/-- The part of the invariant that every change below shares: events of the
present epoch are added, and the host cache stays. -/
theorem extend (dated : Dated loose cache) {events : List (Nat × PrefixEvent Element)}
    (host : after.host = cache.host) (matched : after.matched = cache.matched)
    (history : after.history = cache.history ++ events)
    (present : forall entry, entry ∈ events -> entry.1 = cache.host.cache.epoch)
    (unreserved : forall entry, entry ∈ events -> forall position, entry.2 ≠ .reserved position)
    (lawful : Lawful InEpoch (cache.history ++ events))
    (granted : forall lease, lease ∈ after.world.runtime.requests.values ->
      ((after.prefixes lease).prefixEpoch, PrefixEvent.granted lease) ∈ after.history)
    (frames : forall frame, frame ∈ after.captures -> frame.Dated after.history) :
    Dated loose after where
  ordered := by
    rw [history]
    exact ordered_append dated.ordered dated.stamped present
  stamped := by
    rw [history, host]
    intro entry member
    rcases List.mem_append.mp member with before | new
    · exact dated.stamped entry before
    · exact Nat.le_of_eq (present entry new)
  granted := granted
  reserved := by
    rw [history, host]
    intro position epoch
    rw [List.mem_append, ← dated.reserved position epoch]
    exact ⟨fun either => either.resolve_right fun new => unreserved _ new position rfl, Or.inl⟩
  frames := frames
  live := by
    rw [host, history]
    exact fun entryId entry found => (dated.live entryId entry found).append events
  matched := by
    rw [host, matched, history]
    exact fun handle reader snapshot found isOpen =>
      (dated.matched handle reader snapshot found isOpen).append events
  called := by
    rw [host, history]
    exact fun reader snapshot held isOpen =>
      (dated.called reader snapshot held isOpen).append events
  lawful := by
    rw [history]
    exact lawful

theorem frames_append (dated : Dated loose cache) (events : List (Nat × PrefixEvent Element)) :
    forall frame, frame ∈ cache.captures -> frame.Dated (cache.history ++ events) :=
  fun frame member => (dated.frames frame member).append events

theorem granted_append (dated : Dated loose cache) (events : List (Nat × PrefixEvent Element)) :
    forall lease, lease ∈ cache.world.runtime.requests.values ->
      ((cache.prefixes lease).prefixEpoch, PrefixEvent.granted lease) ∈ cache.history ++ events :=
  fun lease member => List.mem_append_left _ (dated.granted lease member)

/-- One event is added under its law. -/
theorem event (dated : Dated loose cache) {event : PrefixEvent Element}
    (unreserved : forall position, event ≠ .reserved position)
    (allowed : InEpoch cache.history (cache.host.cache.epoch, event)) :
    Dated loose (cache.log event) := by
  refine dated.extend rfl rfl rfl ?_ ?_ (dated.lawful.snoc allowed) (dated.granted_append _)
    (dated.frames_append _)
  · intro entry member
    rw [List.mem_singleton.mp member]
  · intro entry member
    rw [List.mem_singleton.mp member]
    exact unreserved

theorem log (dated : Dated loose cache) {event : PrefixEvent Element} (undated : event.Undated) :
    Dated loose (cache.log event) := by
  apply dated.event
  · rintro position rfl
    exact undated
  · cases event <;> first | exact trivial | exact absurd undated id

/-- A request cache that is new gets the present epoch. -/
theorem reach (dated : Dated loose cache) (world : World δ υ Element) :
    Dated loose (cache.reach world) := by
  have grants : forall entry, entry ∈ (cache.newLeases world).map
      (fun lease => (cache.host.cache.epoch, (PrefixEvent.granted lease : PrefixEvent Element))) ->
      exists lease, entry = (cache.host.cache.epoch, .granted lease) := by
    intro entry member
    rcases List.mem_map.mp member with ⟨lease, _, rfl⟩
    exact ⟨lease, rfl⟩
  refine dated.extend rfl rfl rfl ?_ ?_ ?_ ?_ (dated.frames_append _)
  · intro entry member
    rcases grants entry member with ⟨lease, rfl⟩
    rfl
  · intro entry member
    rcases grants entry member with ⟨lease, rfl⟩
    exact nofun
  · apply dated.lawful.append
    intro entry member earlier
    rcases grants entry member with ⟨lease, rfl⟩
    exact trivial
  · intro lease member
    change ((if lease ∈ cache.newLeases world then _ else _ : PrefixFields).prefixEpoch, _) ∈ _
    by_cases new : lease ∈ cache.newLeases world
    · rw [if_pos new]
      exact List.mem_append_right _ (List.mem_map.mpr ⟨lease, new, rfl⟩)
    · rw [if_neg new]
      apply List.mem_append_left
      apply dated.granted
      apply Classical.byContradiction
      intro absent
      exact new (List.mem_filter.mpr ⟨member, decide_eq_true absent⟩)

/-- The records, and the basis of a lease, are no part of the invariant. -/
theorem congr (dated : Dated loose cache) (host : after.host = cache.host)
    (matched : after.matched = cache.matched) (history : after.history = cache.history)
    (world : after.world = cache.world) (captures : after.captures = cache.captures)
    (prefixes : forall lease, (after.prefixes lease).prefixEpoch =
      (cache.prefixes lease).prefixEpoch) : Dated loose after := by
  refine dated.extend host matched (history.trans (List.append_nil _).symm)
    (fun _ member => absurd member List.not_mem_nil)
    (fun _ member => absurd member List.not_mem_nil) ?_ ?_ ?_
  · rw [List.append_nil]
    exact dated.lawful
  · rw [world, history]
    intro lease member
    rw [prefixes]
    exact dated.granted lease member
  · rw [captures, history]
    exact dated.frames

theorem setRecord (dated : Dated loose cache) (handle : CacheRequestHandle)
    (record : RestoreRecord) : Dated loose (cache.setRecord handle record) :=
  dated.congr rfl rfl rfl rfl rfl fun _ => rfl

theorem updateRecord (dated : Dated loose cache) (handle : CacheRequestHandle)
    (update : RestoreRecord -> RestoreRecord) : Dated loose (cache.updateRecord handle update) := by
  unfold QSAHostPrefixCache.updateRecord
  cases cache.restoring.get? handle with
  | none => exact dated
  | some record => exact dated.setRecord handle _

theorem popRecord (dated : Dated loose cache) (handle : CacheRequestHandle) :
    Dated loose (cache.popRecord handle) :=
  dated.congr rfl rfl rfl rfl rfl fun _ => rfl

theorem setFields (dated : Dated loose cache) (lease : QSAHiSparseLease)
    {update : PrefixFields -> PrefixFields}
    (same : forall fields, (update fields).prefixEpoch = fields.prefixEpoch) :
    Dated loose (cache.setFields lease update) := by
  refine dated.congr rfl rfl rfl rfl rfl fun other => ?_
  change (Function.update cache.prefixes lease _ other).prefixEpoch = _
  by_cases equal : other = lease
  · rw [equal, Function.update_self]
    exact same _
  · rw [Function.update_of_ne equal]

theorem setCaptures (dated : Dated loose cache) {captures : List (CaptureFrame Element)}
    (frames : forall frame, frame ∈ captures -> frame.Dated cache.history) :
    Dated loose { cache with captures } := by
  refine dated.extend rfl rfl (List.append_nil _).symm
    (fun _ member => absurd member List.not_mem_nil)
    (fun _ member => absurd member List.not_mem_nil) ?_ dated.granted frames
  rw [List.append_nil]
  exact dated.lawful

/-! ## The host cache -/

/-- The host cache keeps its epoch and its reservations and gains no entry; the
recorded readers are as before or closed. -/
theorem setHost (dated : Dated loose cache) {host : PrefixObjects PrefixNamespace Element}
    {left : Option Nat} (lessens : Lessens cache.host host)
    (reservations : forall position : Nat, host.reservations[position]?.map PrefixReservation.epoch =
      cache.host.reservations[position]?.map PrefixReservation.epoch)
    (matched : forall handle reader snapshot, cache.matched.get? handle = some reader ->
      host.snapshotAt reader = some snapshot -> cache.host.snapshotAt reader = some snapshot)
    (called : forall reader snapshot, left = some reader -> host.snapshotAt reader = some snapshot ->
      PublishedIn cache.host.cache.epoch snapshot cache.history) :
    Dated left { cache with host } where
  ordered := dated.ordered
  stamped := by
    change forall entry, entry ∈ cache.history -> entry.1 ≤ host.cache.epoch
    rw [lessens.epoch]
    exact dated.stamped
  granted := dated.granted
  reserved := by
    intro position epoch
    change _ <-> exists reservation, host.reservations[position]? = some reservation ∧ _
    rw [← Option.map_eq_some_iff, reservations position, Option.map_eq_some_iff]
    exact dated.reserved position epoch
  frames := dated.frames
  live := by
    intro entryId entry found
    change PublishedIn host.cache.epoch entry.snapshot cache.history
    rcases lessens.live entryId entry found with ⟨former, present, same⟩
    rw [lessens.epoch, ← same]
    exact dated.live entryId former present
  matched := by
    intro handle reader snapshot found isOpen
    change MatchedIn host.cache.epoch handle reader snapshot cache.history
    rw [lessens.epoch]
    exact dated.matched handle reader snapshot found (matched handle reader snapshot found isOpen)
  called := by
    change forall reader snapshot, _ -> host.snapshotAt reader = some snapshot ->
      PublishedIn host.cache.epoch snapshot cache.history
    rw [lessens.epoch]
    exact called
  lawful := dated.lawful

/-- A lookup finds a live entry, which is of the present epoch. -/
theorem acquired (dated : Dated none cache) (owned : Owned none cache)
    {host : PrefixObjects PrefixNamespace Element} {found : Option Nat}
    (acquired : Acquired cache.host host found) : Dated found { cache with host } := by
  apply dated.setHost acquired.toLessens
  · rw [acquired.reservations]
    exact fun _ => rfl
  · intro handle reader snapshot matched isOpen
    cases found with
    | none =>
        rw [snapshotAt_congr (acquired.missed rfl)] at isOpen
        exact isOpen
    | some position =>
        rcases acquired.hit position rfl with ⟨_, entryId, entry, _, appended⟩
        rcases owned.matched_open matched with ⟨held, heldOpen⟩
        rw [snapshotAt_append appended, if_neg (Nat.ne_of_lt (snapshotAt_lt heldOpen))] at isOpen
        exact isOpen
  · intro reader snapshot held isOpen
    rcases acquired.hit reader held with ⟨isLast, entryId, entry, live, appended⟩
    rw [snapshotAt_append appended, if_pos isLast] at isOpen
    cases isOpen
    exact dated.live entryId entry live

/-- A reader is closed by the call that holds it. -/
theorem close (dated : Dated loose cache) {reader : Nat}
    {host : PrefixObjects PrefixNamespace Element} (closed : ReaderClosed cache.host host reader) :
    Dated none { cache.log (.closed reader) with host } := by
  have logged : Dated loose (cache.log (.closed reader)) := dated.log trivial
  apply logged.setHost closed.toLessens
  · rw [closed.reservations]
    exact fun _ => rfl
  · intro handle other snapshot _ isOpen
    rw [snapshotAt_clear closed.readers] at isOpen
    by_cases same : other = reader
    · rw [if_pos same] at isOpen
      cases isOpen
    · rw [if_neg same] at isOpen
      exact isOpen
  · intro other snapshot impossible
    cases impossible

/-- The close of a basis is logged. -/
theorem logBasis (dated : Dated loose cache) (position : Nat) :
    Dated loose (cache.logBasis position) := by
  unfold QSAHostPrefixCache.logBasis
  cases cache.host.basisAt position with
  | none => exact dated
  | some reader => exact dated.log trivial

/-- A reservation is closed with its basis. -/
theorem closeReservation (dated : Dated loose cache) {position : Nat}
    {host : PrefixObjects PrefixNamespace Element} (lessens : Lessens cache.host host)
    (closed : ReservationClosed cache.host host position) :
    Dated loose { cache.logBasis position with host } := by
  have before := cache.host_logBasis position
  apply (dated.logBasis position).setHost
  · rw [before]
    exact lessens
  · rw [before]
    exact closed.epochs
  · rw [before]
    exact fun handle reader snapshot _ isOpen => closed.opens isOpen
  · intro reader snapshot held isOpen
    apply (dated.logBasis position).called reader snapshot held
    rw [before]
    exact closed.opens isOpen

theorem setBasis (dated : Dated loose cache) {position : Nat} {basis : Option Nat}
    {host : PrefixObjects PrefixNamespace Element} (lessens : Lessens cache.host host)
    (readers : host.readers = cache.host.readers)
    (reservations : host.reservations = cache.host.reservations.modify position
      fun state => { state with basisReader := basis }) :
    Dated none { cache with host } := by
  apply dated.setHost lessens
  · intro other
    rw [reservations, List.getElem?_modify]
    cases cache.host.reservations[other]? with
    | none => rfl
    | some reservation => by_cases same : position = other <;> simp [same]
  · intro handle reader snapshot _ isOpen
    rw [snapshotAt_congr readers] at isOpen
    exact isOpen
  · intro reader snapshot impossible
    cases impossible

/-! ## Events with a date -/

/-- The match of a handle is forgotten. -/
theorem popMatch (dated : Dated none cache) (handle : CacheRequestHandle) :
    Dated (cache.matched.get? handle) (cache.popMatch handle) where
  ordered := dated.ordered
  stamped := dated.stamped
  granted := dated.granted
  reserved := dated.reserved
  frames := dated.frames
  live := dated.live
  matched := by
    intro other reader snapshot found isOpen
    change (cache.matched.erase handle).get? other = some reader at found
    rw [Dict.get?_erase] at found
    by_cases same : other = handle
    · rw [if_pos same] at found
      cases found
    · rw [if_neg same] at found
      exact dated.matched other reader snapshot found isOpen
  called := fun reader snapshot held isOpen =>
    (dated.matched handle reader snapshot held isOpen).published
  lawful := dated.lawful

/-- The call records its reader, whose snapshot is of the present epoch. -/
theorem keep {reader : Nat} (dated : Dated (some reader) cache) (handle : CacheRequestHandle)
    {snapshot : PrefixSnapshot PrefixNamespace Element}
    (isOpen : cache.host.snapshotAt reader = some snapshot) :
    Dated none ((cache.setMatch handle reader).log (.matched handle reader snapshot)) := by
  have published := dated.called reader snapshot rfl isOpen
  have logged : Dated (some reader) (cache.log (.matched handle reader snapshot)) :=
    dated.event nofun published
  exact
    { ordered := logged.ordered
      stamped := logged.stamped
      granted := logged.granted
      reserved := logged.reserved
      frames := logged.frames
      live := logged.live
      matched := by
        intro other found otherSnapshot matched otherOpen
        change (cache.matched.set handle reader).get? other = some found at matched
        rw [Dict.get?_set] at matched
        by_cases same : other = handle
        · rw [if_pos same] at matched
          cases matched
          have equal : otherSnapshot = snapshot :=
            Option.some.inj (Eq.trans (Eq.symm otherOpen) isOpen)
          rw [same, equal]
          exact published.matched handle reader
        · rw [if_neg same] at matched
          exact logged.matched other found otherSnapshot matched otherOpen
      called := by
        intro other found impossible
        cases impossible
      lawful := logged.lawful }

/-- A restore begins with a matched reader. -/
theorem logRestoring (dated : Dated loose cache) {handle : CacheRequestHandle} {reader : Nat}
    {snapshot : PrefixSnapshot PrefixNamespace Element}
    (matched : cache.matched.get? handle = some reader)
    (isOpen : cache.host.snapshotAt reader = some snapshot) (stream : Nat) :
    Dated loose (cache.log (.restoring reader stream snapshot)) :=
  dated.event nofun ⟨handle, dated.matched handle reader snapshot matched isOpen⟩

/-- A reservation is of the present epoch. -/
theorem reserve (dated : Dated loose cache) {host : PrefixObjects PrefixNamespace Element}
    {position : Nat} (reserved : Reserved cache.host host (some position)) :
    Dated loose (({ cache with host } : QSAHostPrefixCache δ υ Element).log
      (.reserved position)) := by
  rcases reserved.granted position rfl with ⟨isLast, size, appended⟩
  have snapshots := snapshotAt_congr reserved.readers
  exact
    { ordered := by
        apply ordered_append dated.ordered dated.stamped
        intro entry member
        rw [List.mem_singleton.mp member]
        exact reserved.epoch
      stamped := by
        intro entry member
        change entry.1 ≤ host.cache.epoch
        rw [reserved.epoch]
        rcases List.mem_append.mp member with before | new
        · exact dated.stamped entry before
        · rw [List.mem_singleton.mp new]
          exact Nat.le_of_eq reserved.epoch
      granted := dated.granted_append _
      reserved := by
        intro other epoch
        change _ ∈ cache.history ++ [_] <-> exists reservation,
          host.reservations[other]? = some reservation ∧ reservation.epoch = epoch
        rw [List.mem_append, List.mem_singleton, dated.reserved other epoch, appended]
        rcases Nat.lt_trichotomy other cache.host.reservations.length with old | last | beyond
        · rw [List.getElem?_append_left old]
          refine ⟨fun either => either.resolve_right fun new => ?_, Or.inl⟩
          simp only [Prod.mk.injEq, PrefixEvent.reserved.injEq] at new
          omega
        · rw [last, List.getElem?_append_right (Nat.le_refl _), Nat.sub_self,
            List.getElem?_eq_none (Nat.le_refl _)]
          constructor
          · rintro (⟨reservation, impossible, _⟩ | new)
            · cases impossible
            · refine ⟨_, rfl, ?_⟩
              simp only [Prod.mk.injEq] at new
              rw [new.1]
              exact reserved.epoch.symm
          · rintro ⟨reservation, found, same⟩
            cases found
            refine Or.inr ?_
            rw [← same, isLast]
            simp only [Prod.mk.injEq, and_true]
            exact reserved.epoch.symm
        · rw [List.getElem?_append_right (Nat.le_of_lt beyond),
            List.getElem?_eq_none (Nat.le_of_lt beyond), List.getElem?_eq_none]
          · constructor
            · rintro (⟨reservation, impossible, _⟩ | new)
              · cases impossible
              · simp only [Prod.mk.injEq, PrefixEvent.reserved.injEq] at new
                omega
            · rintro ⟨reservation, impossible, _⟩
              cases impossible
          · rw [List.length_singleton]
            omega
      frames := dated.frames_append _
      live := by
        intro entryId entry found
        change PublishedIn host.cache.epoch entry.snapshot _
        rcases reserved.live entryId entry found with ⟨former, present, same⟩
        rw [reserved.epoch, ← same]
        exact (dated.live entryId former present).append _
      matched := by
        intro handle reader snapshot found isOpen
        change MatchedIn host.cache.epoch handle reader snapshot _
        change host.snapshotAt reader = some snapshot at isOpen
        rw [snapshots] at isOpen
        rw [reserved.epoch]
        exact (dated.matched handle reader snapshot found isOpen).append _
      called := by
        intro reader snapshot held isOpen
        change PublishedIn host.cache.epoch snapshot _
        change host.snapshotAt reader = some snapshot at isOpen
        rw [snapshots] at isOpen
        rw [reserved.epoch]
        exact (dated.called reader snapshot held isOpen).append _
      lawful := dated.lawful.snoc trivial }

/-- A capture that may still be published was made in the present epoch. -/
theorem captured_now (dated : Dated loose cache) {lease : QSAHiSparseLease} {position : Nat}
    {snapshot : PrefixSnapshot PrefixNamespace Element} {epoch stamp : Nat}
    (chain : List.Sublist
      [(epoch, PrefixEvent.granted lease), (epoch, .reserved position),
        (stamp, .captured lease position snapshot)] cache.history)
    {reservation : PrefixReservation}
    (found : cache.host.reservations[position]? = some reservation)
    (current : reservation.epoch = cache.host.cache.epoch) :
    CapturedIn cache.host.cache.epoch lease position snapshot cache.history := by
  have member : (epoch, PrefixEvent.reserved position) ∈ cache.history :=
    chain.subset (List.mem_cons_of_mem _ List.mem_cons_self)
  rcases (dated.reserved position epoch).mp member with ⟨other, present, same⟩
  rw [found] at present
  cases present
  have now : epoch = cache.host.cache.epoch := same.symm.trans current
  have sorted := dated.ordered.sublist (chain.map Prod.fst)
  have late : epoch ≤ stamp := by
    simp only [List.map_cons, List.pairwise_cons] at sorted
    exact sorted.1 stamp (by simp)
  have known := dated.stamped _
    (chain.subset (List.mem_cons_of_mem _ (List.mem_cons_of_mem _ List.mem_cons_self)))
  have stampNow : stamp = cache.host.cache.epoch := Nat.le_antisymm known (now ▸ late)
  rw [now, stampNow] at chain
  exact chain

/-- A publication under a reservation of the present epoch. -/
theorem publish (dated : Dated loose cache) {lease : QSAHiSparseLease} {position entryId : Nat}
    {snapshot : PrefixSnapshot PrefixNamespace Element}
    {host : PrefixObjects PrefixNamespace Element}
    (captured : CapturedIn cache.host.cache.epoch lease position snapshot cache.history)
    (published : Published cache.host host position entryId snapshot) :
    Dated loose (({ cache.logBasis position with host } : QSAHostPrefixCache δ υ Element).log
      (.published position entryId snapshot)) := by
  have before := cache.host_logBasis position
  have logged := dated.logBasis position
  have longer : CapturedIn cache.host.cache.epoch lease position snapshot
      (cache.logBasis position).history := by
    unfold QSAHostPrefixCache.logBasis
    cases cache.host.basisAt position with
    | none => exact captured
    | some reader => exact captured.append _
  have noted : Dated loose ((cache.logBasis position).log (.published position entryId snapshot)) := by
    apply logged.event
    · intro other impossible
      cases impossible
    · rw [before]
      exact ⟨lease, longer⟩
  have history : (({ cache.logBasis position with host } : QSAHostPrefixCache δ υ Element).log
      (.published position entryId snapshot)).history =
      ((cache.logBasis position).log (.published position entryId snapshot)).history := by
    change _ ++ [(host.cache.epoch, _)] = _ ++ [((cache.logBasis position).host.cache.epoch, _)]
    rw [published.epoch, before]
  have present : ((cache.logBasis position).log
      (.published position entryId snapshot)).host = cache.host := before
  exact
    { ordered := history ▸ noted.ordered
      stamped := by
        rw [history]
        intro entry member
        change entry.1 ≤ host.cache.epoch
        rw [published.epoch, ← before]
        exact noted.stamped entry member
      granted := by
        rw [history]
        exact noted.granted
      reserved := by
        rw [history]
        intro other epoch
        change _ <-> exists reservation, host.reservations[other]? = some reservation ∧ _
        rw [← Option.map_eq_some_iff, published.closed.epochs other, Option.map_eq_some_iff,
          ← present]
        exact noted.reserved other epoch
      frames := by
        rw [history]
        exact noted.frames
      live := by
        rw [history]
        intro otherId entry found
        change PublishedIn host.cache.epoch entry.snapshot _
        rw [published.epoch]
        rcases published.live otherId entry found with ⟨_, same⟩ | ⟨former, live, same⟩
        · rw [same]
          change PublishedIn _ snapshot (_ ++ [((cache.logBasis position).host.cache.epoch, _)])
          rw [before]
          exact longer.published entryId
        · rw [← same, ← present]
          apply noted.live otherId former
          rw [present]
          exact live
      matched := by
        rw [history]
        intro handle reader other found isOpen
        change MatchedIn host.cache.epoch handle reader other _
        rw [published.epoch, ← present]
        apply noted.matched handle reader other found
        rw [present]
        exact published.closed.opens isOpen
      called := by
        rw [history]
        intro reader other held isOpen
        change PublishedIn host.cache.epoch other _
        rw [published.epoch, ← present]
        apply noted.called reader other held
        rw [present]
        exact published.closed.opens isOpen
      lawful := by
        rw [history]
        exact noted.lawful }

/-- A flush begins a new epoch; nothing may be recorded for it. -/
theorem flush (dated : Dated loose cache)
    (unmatched : forall handle, cache.matched.get? handle = none) :
    Dated none { cache with host := cache.host.flush } where
  ordered := dated.ordered
  stamped := fun entry member => Nat.le_succ_of_le (dated.stamped entry member)
  granted := dated.granted
  reserved := dated.reserved
  frames := dated.frames
  live := by
    intro entryId entry impossible
    cases impossible
  matched := by
    intro handle reader snapshot found
    exact absurd (found.symm.trans (unmatched handle)) (Option.some_ne_none _)
  called := by
    intro reader snapshot impossible
    cases impossible
  lawful := dated.lawful

end Dated

end PrefixCache
end QSAHiSparse

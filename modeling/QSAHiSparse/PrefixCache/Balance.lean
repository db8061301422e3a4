import QSAHiSparse.PrefixCache.Runs

namespace QSAHiSparse
namespace PrefixCache

open Foundation
open HostPrefix
open QSAHiSparse.Runtime (Machine)

/-!
# Captures give back what they took

A capture borrows one reader and one reservation.  While it runs, every other
reader and every other reservation is what it was; once it holds nothing, all
counts are what they were.
-/

variable {Element : Type}

/-- The reader at a position, while it is open. -/
def openAt (objects : PrefixObjects PrefixNamespace Element) (position : Nat) :
    Option (PrefixReader PrefixNamespace Element) :=
  objects.readers[position]?.filter fun reader => reader.snapshot.isSome

/-- The reservation at a position, while it is active. -/
def activeAt (objects : PrefixObjects PrefixNamespace Element) (position : Nat) :
    Option PrefixReservation :=
  objects.reservations[position]?.filter PrefixReservation.active

section Positions

variable {before after : PrefixObjects PrefixNamespace Element}

theorem openAt_congr (same : after.readers = before.readers) (position : Nat) :
    openAt after position = openAt before position := by
  unfold openAt
  rw [same]

theorem openAt_clear {closed : Nat}
    (cleared : after.readers = before.readers.modify closed PrefixReader.clear) (position : Nat) :
    openAt after position = if position = closed then none else openAt before position := by
  unfold openAt
  rw [cleared]
  by_cases same : position = closed
  · rw [if_pos same, same, List.getElem?_modify_eq]
    cases before.readers[closed]? <;> rfl
  · rw [if_neg same, List.getElem?_modify_ne _ _ (Ne.symm same)]

theorem activeAt_congr (same : after.reservations = before.reservations) (position : Nat) :
    activeAt after position = activeAt before position := by
  unfold activeAt
  rw [same]

theorem activeAt_deactivate {closed : Nat}
    (deactivated : after.reservations =
      before.reservations.modify closed PrefixReservation.deactivate) (position : Nat) :
    activeAt after position = if position = closed then none else activeAt before position := by
  unfold activeAt
  rw [deactivated]
  by_cases same : position = closed
  · rw [if_pos same, same, List.getElem?_modify_eq]
    cases before.reservations[closed]? <;> rfl
  · rw [if_neg same, List.getElem?_modify_ne _ _ (Ne.symm same)]

/-- A reservation and its basis are closed, and nothing else. -/
theorem ReservationClosed.openAt {closed : Nat} (shut : ReservationClosed before after closed)
    (position : Nat) :
    openAt after position =
      if before.basisAt closed = some position then none else openAt before position := by
  have readers := shut.readers
  unfold PrefixObjects.readersWithout at readers
  cases basis : before.basisAt closed with
  | none =>
      rw [basis] at readers
      rw [openAt_congr readers, if_neg nofun]
  | some held =>
      rw [basis] at readers
      rw [openAt_clear readers]
      by_cases same : position = held
      · rw [if_pos same, if_pos (congrArg some same.symm)]
      · rw [if_neg same, if_neg fun equal => same (Option.some.inj equal).symm]

end Positions

/-- What has changed since the capture began is what it holds, and an entry that
it published. -/
structure Borrowed (start : PrefixObjects PrefixNamespace Element) (held : Possession)
    (now : PrefixObjects PrefixNamespace Element) : Prop where
  readers : forall position, held.reader ≠ some position ->
    (forall reservation, held.reservation = some reservation ->
      now.basisAt reservation ≠ some position) -> openAt now position = openAt start position
  reader_new : forall position, held.reader = some position -> openAt start position = none
  basis_new : forall reservation position, held.reservation = some reservation ->
    now.basisAt reservation = some position -> openAt start position = none
  reservations : forall position, held.reservation ≠ some position ->
    activeAt now position = activeAt start position
  reservation_new : forall position, held.reservation = some position ->
    activeAt start position = none
  live : forall entryId entry, now.cache.entries.get? entryId = some entry ->
    held.entry = some entryId ∨ exists former,
      start.cache.entries.get? entryId = some former ∧ former.snapshot = entry.snapshot

namespace Borrowed

variable {start before after : PrefixObjects PrefixNamespace Element}

theorem nothing (start : PrefixObjects PrefixNamespace Element) : Borrowed start .nothing start where
  readers _ _ _ := rfl
  reader_new _ impossible := by cases impossible
  basis_new _ _ impossible := by cases impossible
  reservations _ _ := rfl
  reservation_new _ impossible := by cases impossible
  live _ entry found := Or.inr ⟨entry, found, rfl⟩

/-- Fewer entries are live. -/
theorem live_lessens {held : Possession} (borrowed : Borrowed start held before)
    (live : forall entryId entry, after.cache.entries.get? entryId = some entry ->
      exists former, before.cache.entries.get? entryId = some former ∧
        former.snapshot = entry.snapshot) :
    forall entryId entry, after.cache.entries.get? entryId = some entry ->
      held.entry = some entryId ∨ exists former,
        start.cache.entries.get? entryId = some former ∧ former.snapshot = entry.snapshot := by
  intro entryId entry found
  rcases live entryId entry found with ⟨former, present, same⟩
  rcases borrowed.live entryId former present with published | ⟨first, known, equal⟩
  · exact Or.inl published
  · exact Or.inr ⟨first, known, equal.trans same⟩

theorem acquired {found : Option Nat} (borrowed : Borrowed start .nothing before)
    (acquired : Acquired before after found) : Borrowed start ⟨found, none, none⟩ after where
  readers := by
    intro position other _
    rw [← borrowed.readers position nofun nofun]
    cases found with
    | none => exact openAt_congr (acquired.missed rfl) position
    | some new =>
        rcases acquired.hit new rfl with ⟨isLast, entryId, entry, _, appended⟩
        unfold openAt
        rw [appended]
        rcases Nat.lt_trichotomy position before.readers.length with old | last | beyond
        · rw [List.getElem?_append_left old]
        · exact absurd (congrArg some (isLast.trans last.symm)) other
        · rw [List.getElem?_append_right (Nat.le_of_lt beyond),
            List.getElem?_eq_none (Nat.le_of_lt beyond), List.getElem?_eq_none]
          rw [List.length_singleton]
          omega
  reader_new := by
    rintro position same
    rcases acquired.hit position same with ⟨isLast, _⟩
    rw [← borrowed.readers position nofun nofun, openAt,
      List.getElem?_eq_none (Nat.le_of_eq isLast.symm)]
    rfl
  basis_new _ _ impossible := by cases impossible
  reservations := by
    intro position _
    rw [activeAt_congr acquired.reservations]
    exact borrowed.reservations position nofun
  reservation_new _ impossible := by cases impossible
  live := borrowed.live_lessens acquired.live

theorem closed {reader : Nat} (borrowed : Borrowed start ⟨some reader, none, none⟩ before)
    (closed : ReaderClosed before after reader) : Borrowed start .nothing after where
  readers := by
    intro position _ _
    rw [openAt_clear closed.readers]
    by_cases same : position = reader
    · rw [if_pos same, same, borrowed.reader_new reader rfl]
    · rw [if_neg same]
      exact borrowed.readers position (fun equal => same (Option.some.inj equal).symm) nofun
  reader_new _ impossible := by cases impossible
  basis_new _ _ impossible := by cases impossible
  reservations := by
    intro position _
    rw [activeAt_congr closed.reservations]
    exact borrowed.reservations position nofun
  reservation_new _ impossible := by cases impossible
  live := borrowed.live_lessens closed.live

theorem reserved {reader made : Option Nat} (borrowed : Borrowed start ⟨reader, none, none⟩ before)
    (reserved : Reserved before after made) : Borrowed start ⟨reader, made, none⟩ after where
  readers := by
    intro position other _
    rw [openAt_congr reserved.readers]
    exact borrowed.readers position other nofun
  reader_new := borrowed.reader_new
  basis_new := by
    rintro reservation position same basis
    rcases reserved.granted reservation same with ⟨isLast, size, appended⟩
    unfold PrefixObjects.basisAt at basis
    rw [appended, isLast, List.getElem?_append_right (Nat.le_refl _), Nat.sub_self] at basis
    cases basis
  reservations := by
    intro position other
    rw [← borrowed.reservations position nofun]
    cases made with
    | none => exact activeAt_congr (reserved.refused rfl) position
    | some new =>
        rcases reserved.granted new rfl with ⟨isLast, size, appended⟩
        unfold activeAt
        rw [appended]
        rcases Nat.lt_trichotomy position before.reservations.length with old | last | beyond
        · rw [List.getElem?_append_left old]
        · exact absurd (congrArg some (isLast.trans last.symm)) other
        · rw [List.getElem?_append_right (Nat.le_of_lt beyond),
            List.getElem?_eq_none (Nat.le_of_lt beyond), List.getElem?_eq_none]
          rw [List.length_singleton]
          omega
  reservation_new := by
    rintro position same
    rcases reserved.granted position same with ⟨isLast, _⟩
    rw [← borrowed.reservations position nofun, activeAt,
      List.getElem?_eq_none (Nat.le_of_eq isLast.symm)]
    rfl
  live := borrowed.live_lessens reserved.live

theorem based {reader : Option Nat} {made : Nat} {reservation : PrefixReservation}
    (borrowed : Borrowed start ⟨reader, some made, none⟩ before)
    (found : before.reservations[made]? = some reservation) (active : reservation.active = true)
    (unset : reservation.basisReader = none) (set : BasisSet before after made reader) :
    Borrowed start ⟨none, some made, none⟩ after := by
  have former : before.basisAt made = none := by
    unfold PrefixObjects.basisAt
    rw [found, Option.bind_some, if_pos active, unset]
  have basis : after.basisAt made = reader := by
    unfold PrefixObjects.basisAt
    rw [set.reservations, List.getElem?_modify_eq, found]
    exact if_pos active
  exact
    { readers := by
        intro position _ other
        rw [openAt_congr set.readers]
        apply borrowed.readers position
        · rw [← basis]
          exact other made rfl
        · intro chosen same impossible
          rw [← Option.some.inj same, former] at impossible
          cases impossible
      reader_new := fun _ impossible => by cases impossible
      basis_new := by
        intro chosen position same held
        rw [← Option.some.inj same, basis] at held
        exact borrowed.reader_new position held
      reservations := by
        intro position other
        have different : made ≠ position := fun same => other (congrArg some same)
        rw [← borrowed.reservations position other, activeAt, activeAt, set.reservations,
          List.getElem?_modify_ne _ _ different]
      reservation_new := borrowed.reservation_new
      live := borrowed.live_lessens set.live }

/-- The reservation is closed, by the publication or at the end. -/
theorem shut {made : Nat} {entry : Option Nat}
    (borrowed : Borrowed start ⟨none, some made, entry⟩ before)
    (closed : ReservationClosed before after made) (last : Option Nat)
    (entries : Option Nat)
    (live : forall entryId entry, after.cache.entries.get? entryId = some entry ->
      entries = some entryId ∨ exists former,
        start.cache.entries.get? entryId = some former ∧ former.snapshot = entry.snapshot)
    (either : last = some made ∨ last = none) : Borrowed start ⟨none, last, entries⟩ after := by
  have basis : after.basisAt made = none := by
    rw [basisAt_deactivate closed.reservations, if_pos rfl]
  have readers : forall position, openAt after position = openAt start position := by
    intro position
    rw [ReservationClosed.openAt closed]
    by_cases held : before.basisAt made = some position
    · rw [if_pos held, borrowed.basis_new made position rfl held]
    · rw [if_neg held]
      apply borrowed.readers position nofun
      intro chosen same
      rw [← Option.some.inj same]
      exact held
  have reservations : forall position, activeAt after position = activeAt start position := by
    intro position
    rw [activeAt_deactivate closed.reservations]
    by_cases same : position = made
    · rw [if_pos same, same, borrowed.reservation_new made rfl]
    · rw [if_neg same]
      exact borrowed.reservations position fun equal => same (Option.some.inj equal).symm
  exact
    { readers := fun position _ _ => readers position
      reader_new := fun _ impossible => by cases impossible
      basis_new := by
        intro chosen position same held
        rcases either with kept | gone
        · rw [kept] at same
          rw [← Option.some.inj same, basis] at held
          cases held
        · rw [gone] at same
          cases same
      reservations := fun position _ => reservations position
      reservation_new := by
        intro position same
        rcases either with kept | gone
        · rw [kept] at same
          rw [← Option.some.inj same]
          exact borrowed.reservation_new made rfl
        · rw [gone] at same
          cases same
      live := live }

/-- What was borrowed follows the capture. -/
theorem account (start : PrefixObjects PrefixNamespace Element) : Account (Borrowed start) where
  acquired _ _ _ borrowed found := borrowed.acquired found
  closed _ _ _ borrowed shut := borrowed.closed shut
  reserved _ _ _ _ borrowed made := borrowed.reserved made
  based _ _ _ _ _ borrowed found active unset set := borrowed.based found active unset set
  published before after position entryId snapshot borrowed published := by
    refine borrowed.shut published.closed (some position) (some entryId) ?_ (Or.inl rfl)
    intro otherId entry found
    rcases published.live otherId entry found with ⟨new, _⟩ | ⟨former, live, same⟩
    · exact Or.inl (congrArg some new.symm)
    · rcases borrowed.live otherId former live with impossible | ⟨first, known, equal⟩
      · cases impossible
      · exact Or.inr ⟨first, known, equal.trans same⟩
  released before after position entry borrowed lessens closed :=
    ⟨borrowed.shut closed _ _ (borrowed.live_lessens lessens.live) (Or.inl rfl),
      borrowed.shut closed _ _ (borrowed.live_lessens lessens.live) (Or.inr rfl)⟩

end Borrowed

/-! ## The counts -/

/-- The counts of the host cache are what they were, but for one new entry that
nobody reads. -/
structure Balanced (before after : PrefixObjects PrefixNamespace Element) : Prop where
  pending_bytes : after.cache.pendingBytes = before.cache.pendingBytes
  pending_entries : after.cache.pendingEntries = before.cache.pendingEntries
  /-- An entry that is still there, live or retired, has as many readers. -/
  counts : forall entryId former entry, before.cache.Held entryId former ->
    after.cache.Held entryId entry -> entry.readers = former.readers
  /-- An entry that is read is still there, with the same snapshot. -/
  pinned : forall entryId former, before.cache.Held entryId former -> former.readers ≠ 0 ->
    exists entry, after.cache.Held entryId entry ∧ entry.snapshot = former.snapshot
  /-- An entry that was not there has no reader. -/
  unread : forall entryId entry, after.cache.Held entryId entry ->
    (forall former, ¬ before.cache.Held entryId former) -> entry.readers = 0
  /-- The live entries have gained at most one. -/
  gained : exists published : Option Nat, forall entryId entry,
    after.cache.entries.get? entryId = some entry -> published = some entryId ∨
      exists former, before.cache.entries.get? entryId = some former ∧
        former.snapshot = entry.snapshot

namespace Borrowed

variable {before after : PrefixObjects PrefixNamespace Element}

/-- An entry is read as often as before. -/
theorem openReaders {entry : Option Nat} (borrowed : Borrowed before ⟨none, none, entry⟩ after)
    (entryId : Nat) : after.openReaders entryId = before.openReaders entryId := by
  refine tally_eq_of_positions _ (fun reader => reader.snapshot.isSome) ?_ ?_
  · intro reader closed
    apply if_neg
    rintro ⟨isOpen, _⟩
    rw [closed] at isOpen
    cases isOpen
  · exact fun position => borrowed.readers position nofun nofun

/-- What was promised is promised, for any weight of the active reservations. -/
theorem promises {entry : Option Nat} (borrowed : Borrowed before ⟨none, none, entry⟩ after)
    {weight : PrefixReservation -> Int}
    (settled : forall reservation, reservation.active = false -> weight reservation = 0) :
    tally weight after.reservations = tally weight before.reservations :=
  tally_eq_of_positions weight PrefixReservation.active settled fun position => borrowed.reservations position nofun

/-- An entry with readers has an open one. -/
theorem exists_open {objects : PrefixObjects PrefixNamespace Element} (valid : Conserved objects)
    {entryId : Nat} {entry : CacheEntry PrefixNamespace Element}
    (held : objects.cache.Held entryId entry) (read : entry.readers ≠ 0) :
    exists position reader snapshot, openAt objects position = some reader ∧
      reader.entryId = entryId ∧ reader.snapshot = some snapshot := by
  have counted := valid.counted entryId entry held
  have positive : 0 < objects.openReaders entryId := by
    have nonneg := objects.openReaders_nonneg entryId
    omega
  rcases PrefixObjects.exists_open_reader positive with ⟨reader, member, isOpen, reads⟩
  rcases List.mem_iff_getElem?.mp member with ⟨position, found⟩
  rcases Option.isSome_iff_exists.mp isOpen with ⟨snapshot, held⟩
  refine ⟨position, reader, snapshot, ?_, reads, held⟩
  unfold openAt
  rw [found]
  exact Option.filter_eq_some_iff.mpr ⟨rfl, isOpen⟩

/-- An open reader finds its entry. -/
theorem held_of_open {objects : PrefixObjects PrefixNamespace Element} (valid : Conserved objects)
    {position : Nat} {reader : PrefixReader PrefixNamespace Element}
    {snapshot : PrefixSnapshot PrefixNamespace Element}
    (isOpen : openAt objects position = some reader) (reads : reader.snapshot = some snapshot) :
    exists entry, objects.cache.Held reader.entryId entry ∧ entry.snapshot = snapshot :=
  valid.reader_held position reader snapshot (Option.filter_eq_some_iff.mp isOpen).1 reads

/-- An id is held once. -/
theorem held_unique {objects : PrefixObjects PrefixNamespace Element} (valid : Conserved objects)
    {entryId : Nat} {first second : CacheEntry PrefixNamespace Element}
    (one : objects.cache.Held entryId first) (other : objects.cache.Held entryId second) :
    first = second := by
  rcases one with live | retired
  · rcases other with present | present
    · exact Option.some.inj (live.symm.trans present)
    · exact absurd present (valid.apart entryId first second live)
  · rcases other with present | present
    · exact absurd retired (valid.apart entryId second first present)
    · exact Option.some.inj (retired.symm.trans present)

theorem balanced {entry : Option Nat} (borrowed : Borrowed before ⟨none, none, entry⟩ after)
    (valid : Conserved before) (validAfter : Conserved after)
    (accounted : exists limits, HostPrefix.Accounted limits before)
    (accountedAfter : exists limits, HostPrefix.Accounted limits after) : Balanced before after where
  pending_bytes := by
    rcases accounted with ⟨_, first⟩
    rcases accountedAfter with ⟨_, last⟩
    rw [first.pending_bytes, last.pending_bytes]
    apply borrowed.promises
    intro reservation inactive
    unfold PrefixReservation.openBytes
    rw [inactive]
    rfl
  pending_entries := by
    rcases accounted with ⟨_, first⟩
    rcases accountedAfter with ⟨_, last⟩
    rw [first.pending_entries, last.pending_entries]
    apply borrowed.promises
    intro reservation inactive
    unfold PrefixReservation.openEntries
    rw [inactive]
    rfl
  counts := by
    intro entryId former other held heldAfter
    rw [validAfter.counted entryId other heldAfter, valid.counted entryId former held,
      borrowed.openReaders]
  pinned := by
    intro entryId former held read
    rcases exists_open valid held read with ⟨position, reader, snapshot, isOpen, reads, holds⟩
    rcases held_of_open valid isOpen holds with ⟨found, foundHeld, same⟩
    rw [reads] at foundHeld
    have isOpenAfter := (borrowed.readers position nofun nofun).trans isOpen
    rcases held_of_open validAfter isOpenAfter holds with ⟨last, lastHeld, equal⟩
    rw [reads] at lastHeld
    refine ⟨last, lastHeld, equal.trans ?_⟩
    rw [held_unique valid held foundHeld, same]
  unread := by
    intro entryId last held absent
    by_cases read : last.readers ≠ 0
    · rcases exists_open validAfter held read with ⟨position, reader, snapshot, isOpen, reads, holds⟩
      have isOpenBefore := (borrowed.readers position nofun nofun).symm.trans isOpen
      rcases held_of_open valid isOpenBefore holds with ⟨found, foundHeld, _⟩
      rw [reads] at foundHeld
      exact absurd foundHeld (absent found)
    · exact not_not.mp read
  gained := ⟨entry, borrowed.live⟩

end Borrowed

/-- In every reachable state, and however a capture ends: the pending bytes and
entries and every reader count are what they were, and at most one entry is new. -/
theorem capture_balanced {δ υ : Type} (machine : Machine δ) (config : PrefixConfig)
    (upstream : Upstream δ υ Element) (limits : CacheLimits) (geometry : Ledger.Geometry)
    (device : δ) (requests : Nat -> Req) (pools : Pools Element) (state : υ)
    (operations : List (Operation δ υ Element)) (req : Nat) :
    let cache := afterCalls machine config upstream limits
      (.initial config geometry device requests pools state) operations
    Balanced cache.host
      (finalState ((capture machine config upstream req).run cache)).host := by
  intro cache
  have kept : Kept none cache := afterCalls_kept machine config upstream limits rfl operations
  have whole := capture_ensures machine config upstream (Borrowed.account cache.host) req cache
    ⟨kept, .nothing cache.host⟩
  have finished : Finished (Borrowed cache.host)
      (finalState ((capture machine config upstream req).run cache)) :=
    Leaves.finalState_iff.mp whole
  rcases finished with ⟨entry, keptAfter, borrowed⟩
  exact borrowed.balanced kept.owned.conserved keptAfter.owned.conserved kept.accounted
    keptAfter.accounted

end PrefixCache
end QSAHiSparse

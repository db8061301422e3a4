import QSAHiSparse.HostPrefix.Readers

namespace QSAHiSparse
namespace HostPrefix

open Foundation

/-!
# What each method does to the readers and the reservations

The users of the cache hold readers and reservations by their positions.  Each
method has one law here: which of them are new, which are closed, and that every
other one is what it was.  The live entries only lose members, except by a
publication.
-/

variable {Namespace Element : Type}

namespace PrefixObjects

variable (objects : PrefixObjects Namespace Element)

/-- The snapshot of the reader at a position, while it is open. -/
def snapshotAt (position : Nat) : Option (PrefixSnapshot Namespace Element) :=
  objects.readers[position]?.bind PrefixReader.snapshot

/-- The basis reader of the reservation at a position, while that is active. -/
def basisAt (position : Nat) : Option Nat :=
  objects.reservations[position]?.bind fun reservation =>
    if reservation.active = true then reservation.basisReader else none

end PrefixObjects

/-- `self.active = False`. -/
def PrefixReservation.deactivate (reservation : PrefixReservation) : PrefixReservation :=
  { reservation with active := false }

/-! ## Positions of the lists -/

section Positions

variable {objects other : PrefixObjects Namespace Element}

theorem snapshotAt_eq_some {position : Nat} {snapshot : PrefixSnapshot Namespace Element} :
    objects.snapshotAt position = some snapshot <->
      exists reader, objects.readers[position]? = some reader ∧
        reader.snapshot = some snapshot :=
  Option.bind_eq_some_iff

theorem snapshotAt_lt {position : Nat} {snapshot : PrefixSnapshot Namespace Element}
    (isOpen : objects.snapshotAt position = some snapshot) :
    position < objects.readers.length := by
  rcases snapshotAt_eq_some.mp isOpen with ⟨reader, found, _⟩
  exact (List.getElem?_eq_some_iff.mp found).1

theorem snapshotAt_congr (same : other.readers = objects.readers) (position : Nat) :
    other.snapshotAt position = objects.snapshotAt position := by
  unfold PrefixObjects.snapshotAt
  rw [same]

/-- A cleared reader is closed, every other one is what it was. -/
theorem snapshotAt_clear {closed : Nat}
    (cleared : other.readers = objects.readers.modify closed PrefixReader.clear)
    (position : Nat) :
    other.snapshotAt position = if position = closed then none else objects.snapshotAt position := by
  unfold PrefixObjects.snapshotAt
  rw [cleared]
  by_cases same : position = closed
  · rw [if_pos same, same, List.getElem?_modify_eq]
    cases objects.readers[closed]? <;> rfl
  · rw [if_neg same, List.getElem?_modify_ne _ _ (Ne.symm same)]

/-- A new reader stands at the end. -/
theorem snapshotAt_append {reader : PrefixReader Namespace Element}
    (appended : other.readers = objects.readers ++ [reader]) (position : Nat) :
    other.snapshotAt position =
      if position = objects.readers.length then reader.snapshot
      else objects.snapshotAt position := by
  unfold PrefixObjects.snapshotAt
  rw [appended]
  rcases Nat.lt_trichotomy position objects.readers.length with old | last | beyond
  · rw [List.getElem?_append_left old, if_neg (Nat.ne_of_lt old)]
  · rw [if_pos last, last, List.getElem?_append_right (Nat.le_refl _), Nat.sub_self]
    rfl
  · rw [if_neg (Nat.ne_of_gt beyond), List.getElem?_append_right (Nat.le_of_lt beyond),
      List.getElem?_eq_none (Nat.le_of_lt beyond), List.getElem?_eq_none]
    rw [List.length_singleton]
    omega

theorem basisAt_eq_some {position reader : Nat} :
    objects.basisAt position = some reader <->
      exists reservation, objects.reservations[position]? = some reservation ∧
        reservation.active = true ∧ reservation.basisReader = some reader := by
  unfold PrefixObjects.basisAt
  rw [Option.bind_eq_some_iff]
  constructor
  · rintro ⟨reservation, found, basis⟩
    by_cases active : reservation.active = true
    · rw [if_pos active] at basis
      exact ⟨reservation, found, active, basis⟩
    · rw [if_neg active] at basis
      cases basis
  · rintro ⟨reservation, found, active, basis⟩
    exact ⟨reservation, found, by rw [if_pos active, basis]⟩

theorem basisAt_congr (same : other.reservations = objects.reservations) (position : Nat) :
    other.basisAt position = objects.basisAt position := by
  unfold PrefixObjects.basisAt
  rw [same]

theorem basisAt_deactivate {closed : Nat}
    (deactivated : other.reservations =
      objects.reservations.modify closed PrefixReservation.deactivate) (position : Nat) :
    other.basisAt position = if position = closed then none else objects.basisAt position := by
  unfold PrefixObjects.basisAt
  rw [deactivated]
  by_cases same : position = closed
  · rw [if_pos same, same, List.getElem?_modify_eq]
    cases objects.reservations[closed]? <;> rfl
  · rw [if_neg same, List.getElem?_modify_ne _ _ (Ne.symm same)]

end Positions

/-! ## Closes -/

/-- What no close, lookup or reservation does: they keep the epoch and the
counters true, add no live entry and hold no further snapshot. -/
structure Lessens (before after : PrefixObjects Namespace Element) : Prop where
  conserved : Conserved after
  accounted : forall limits, Accounted limits before -> Accounted limits after
  epoch : after.cache.epoch = before.cache.epoch
  live : forall entryId entry, after.cache.entries.get? entryId = some entry ->
    exists former, before.cache.entries.get? entryId = some former ∧
      former.snapshot = entry.snapshot
  within : Within before after

theorem Lessens.refl {objects : PrefixObjects Namespace Element} (valid : Conserved objects) :
    Lessens objects objects :=
  ⟨valid, fun _ => id, rfl, fun _ entry live => ⟨entry, live, rfl⟩, fun _ member => member⟩

/-- The reader at a position is closed and nothing else is handed out or closed. -/
structure ReaderClosed (before after : PrefixObjects Namespace Element) (position : Nat) : Prop
    extends Lessens before after where
  readers : after.readers = before.readers.modify position PrefixReader.clear
  reservations : after.reservations = before.reservations

variable {objects : PrefixObjects Namespace Element}

/-- A change that leaves the item at a position alone leaves the list alone. -/
theorem modify_eq_self {α : Type} {items : List α} {position : Nat} {change : α -> α}
    (unchanged : forall item, items[position]? = some item -> change item = item) :
    items.modify position change = items := by
  apply List.ext_getElem?
  intro other
  by_cases same : position = other
  · subst same
    rw [List.getElem?_modify_eq]
    cases found : items[position]? with
    | none => rfl
    | some item => exact congrArg some (unchanged item found)
  · rw [List.getElem?_modify_ne _ _ same]

/-- Clearing a closed reader, or one that is not there, changes nothing. -/
theorem readers_clear_closed {position : Nat} (closed : objects.snapshotAt position = none) :
    objects.readers.modify position PrefixReader.clear = objects.readers := by
  apply modify_eq_self
  intro reader found
  have cleared : reader.snapshot = none := by
    rw [PrefixObjects.snapshotAt, found] at closed
    exact closed
  rw [PrefixReader.clear, ← cleared]

theorem closeReader_closes (valid : Conserved objects) (position : Nat) :
    exists after, (closeReader position).run objects = .ok ⟨⟩ after ∧
      ReaderClosed objects after position := by
  cases isOpen : objects.snapshotAt position with
  | none =>
      refine ⟨objects, ?_, Lessens.refl valid, (readers_clear_closed isOpen).symm, rfl⟩
      unfold closeReader
      rw [EStateM.run_bind, EStateM.run_get]
      unfold PrefixObjects.snapshotAt at isOpen
      cases found : objects.readers[position]? with
      | none =>
          simp only [found]
          rfl
      | some reader =>
          rw [found] at isOpen
          have cleared : reader.snapshot = none := isOpen
          simp only [found, cleared]
          rfl
  | some snapshot =>
      rcases snapshotAt_eq_some.mp isOpen with ⟨reader, found, held⟩
      have isSome : reader.snapshot.isSome = true := by rw [held]; rfl
      have positive := PrefixObjects.openReaders_positive found isSome
      rcases valid.reader_held position reader snapshot found held with ⟨entry, entryHeld, _⟩
      have count := valid.counted reader.entryId entry entryHeld
      rcases (releaseEntry_returns valid entryHeld (by omega)).exists_ok with
        ⟨_, released, ran, either⟩
      have returned : (closeReader position).run objects =
          .ok ⟨⟩ (released.clearReader position) := by
        unfold closeReader
        rw [EStateM.run_bind, EStateM.run_get]
        simp only [found, held]
        rw [EStateM.run_bind, ran]
        rfl
      have shrinks : Shrinks objects (released.clearReader position) := by
        have ends := closeReader_shrinks position objects
        rw [returned] at ends
        exact ends
      have accounted : forall limits, Accounted limits objects ->
          Accounted limits (released.clearReader position) := fun _ => shrinks.accounted
      refine ⟨released.clearReader position, returned, ?_⟩
      · rcases either with ⟨live, rfl⟩ | ⟨retired, rfl⟩
        · refine ⟨⟨valid.closeLive found isSome live, accounted, rfl, ?_, shrinks.within⟩, rfl, rfl⟩
          intro entryId other present
          change (objects.cache.entries.set reader.entryId _).get? entryId = some other at present
          rw [Dict.get?_set] at present
          by_cases same : entryId = reader.entryId
          · rw [if_pos same] at present
            cases present
            exact ⟨entry, same ▸ live, rfl⟩
          · rw [if_neg same] at present
            exact ⟨other, present, rfl⟩
        · exact ⟨⟨valid.closeRetired found isSome retired, accounted, rfl,
            fun _ other present => ⟨other, present, rfl⟩, shrinks.within⟩, rfl, rfl⟩

/-- The readers once the reservation at a position has closed its basis. -/
def PrefixObjects.readersWithout (objects : PrefixObjects Namespace Element) (position : Nat) :
    List (PrefixReader Namespace Element) :=
  match objects.basisAt position with
  | none => objects.readers
  | some reader => objects.readers.modify reader PrefixReader.clear

/-- The reservation at a position and its basis are closed, and nothing else. -/
structure ReservationClosed (before after : PrefixObjects Namespace Element) (position : Nat) :
    Prop where
  readers : after.readers = before.readersWithout position
  reservations : after.reservations =
    before.reservations.modify position PrefixReservation.deactivate

namespace ReservationClosed

variable {before after : PrefixObjects Namespace Element} {position : Nat}

/-- What is open afterwards was open before. -/
theorem opens (closed : ReservationClosed before after position) {reader : Nat}
    {snapshot : PrefixSnapshot Namespace Element}
    (isOpen : after.snapshotAt reader = some snapshot) :
    before.snapshotAt reader = some snapshot := by
  have readers := closed.readers
  unfold PrefixObjects.readersWithout at readers
  cases basis : before.basisAt position with
  | none =>
      rw [basis] at readers
      rw [snapshotAt_congr readers] at isOpen
      exact isOpen
  | some held =>
      rw [basis] at readers
      rw [snapshotAt_clear readers] at isOpen
      by_cases same : reader = held
      · rw [if_pos same] at isOpen
        cases isOpen
      · rw [if_neg same] at isOpen
        exact isOpen

/-- A closed reservation keeps its epoch. -/
theorem epochs (closed : ReservationClosed before after position) (other : Nat) :
    after.reservations[other]?.map PrefixReservation.epoch =
      before.reservations[other]?.map PrefixReservation.epoch := by
  rw [closed.reservations, List.getElem?_modify]
  cases before.reservations[other]? with
  | none => rfl
  | some reservation =>
      by_cases same : position = other <;> simp [same, PrefixReservation.deactivate]

end ReservationClosed

theorem reservations_deactivate_closed {position : Nat}
    (closed : forall reservation, objects.reservations[position]? = some reservation ->
      reservation.active = false) :
    objects.reservations.modify position PrefixReservation.deactivate = objects.reservations := by
  apply modify_eq_self
  intro reservation found
  rw [PrefixReservation.deactivate, ← closed reservation found]

theorem closeReservation_closes (valid : Conserved objects) (position : Nat) :
    exists after, (closeReservation position).run objects = .ok ⟨⟩ after ∧
      Lessens objects after ∧ ReservationClosed objects after position := by
  cases found : objects.reservations[position]? with
  | none =>
      refine ⟨objects, ?_, .refl valid, ?_, ?_⟩
      · unfold closeReservation
        rw [EStateM.run_bind, EStateM.run_get]
        simp only [found]
        rfl
      · unfold PrefixObjects.readersWithout PrefixObjects.basisAt
        rw [found]
        rfl
      · refine (reservations_deactivate_closed fun reservation present => ?_).symm
        rw [found] at present
        cases present
  | some reservation =>
      cases active : reservation.active with
      | false =>
          refine ⟨objects, ?_, .refl valid, ?_, ?_⟩
          · unfold closeReservation
            rw [EStateM.run_bind, EStateM.run_get]
            simp only [found, active]
            rfl
          · unfold PrefixObjects.readersWithout PrefixObjects.basisAt
            simp only [found, Option.bind_some, active]
            rfl
          · refine (reservations_deactivate_closed fun other present => ?_).symm
            rw [found] at present
            cases present
            exact active
      | true =>
          have settled : Conserved (objects.settle position reservation.size) :=
            valid.congr rfl rfl rfl rfl
          have basis : objects.basisAt position = reservation.basisReader := by
            unfold PrefixObjects.basisAt
            simp only [found, Option.bind_some, active, if_true]
          have accounted : forall limits after,
              (closeReservation position).run objects = .ok ⟨⟩ after ->
                Accounted limits objects -> Accounted limits after := by
            intro limits after returned counted
            have kept := closeReservation_keeps_accounted counted position
            rw [returned] at kept
            exact kept
          have within : forall after, (closeReservation position).run objects = .ok ⟨⟩ after ->
              Within objects after := by
            intro after returned
            have kept := closeReservation_within position objects
            rw [returned] at kept
            exact kept
          cases reader : reservation.basisReader with
          | none =>
              have returned : (closeReservation position).run objects =
                  .ok ⟨⟩ (objects.settle position reservation.size) := by
                unfold closeReservation
                rw [EStateM.run_bind, EStateM.run_get]
                simp only [found, active, if_true, reader]
                rfl
              refine ⟨objects.settle position reservation.size, returned,
                ⟨settled, fun limits => accounted limits _ returned, rfl,
                  fun _ entry live => ⟨entry, live, rfl⟩, within _ returned⟩, ?_, rfl⟩
              · unfold PrefixObjects.readersWithout
                rw [basis, reader]
                rfl
          | some held =>
              rcases closeReader_closes settled held with ⟨after, ran, closed⟩
              have returned : (closeReservation position).run objects = .ok ⟨⟩ after := by
                unfold closeReservation
                rw [EStateM.run_bind, EStateM.run_get]
                simp only [found, active, if_true, reader]
                exact ran
              refine ⟨after, returned, ⟨closed.conserved, fun limits => accounted limits _ returned,
                closed.epoch, closed.live, within _ returned⟩, ?_, closed.reservations⟩
              · unfold PrefixObjects.readersWithout
                rw [basis, reader]
                exact closed.readers

/-! ## Lookups, reservations, publications and flushes -/

/-- What a lookup hands out: a reader of a live entry at the next position. -/
structure Acquired (before after : PrefixObjects Namespace Element) (found : Option Nat) : Prop
    extends Lessens before after where
  reservations : after.reservations = before.reservations
  missed : found = none -> after.readers = before.readers
  hit : forall position, found = some position -> position = before.readers.length ∧
    exists entryId entry, before.cache.entries.get? entryId = some entry ∧
      after.readers = before.readers ++ [⟨entryId, some entry.snapshot⟩]

theorem acquire_hands [DecidableEq Namespace] (valid : Conserved objects)
    (namespaceKey : Namespace) (tokens : Bytes) (limit : Option Int) (count : Bool)
    (identity : Option ImagePrefixIdentity) :
    Leaves (fun found after => Acquired objects after found) (fun _ after => after = objects)
      ((acquire namespaceKey tokens limit count identity).run objects) := by
  unfold acquire
  apply (Leaves.bind_iff _ _ _).mpr
  apply (Leaves.get_iff _).mpr
  cases longestMatch objects.cache namespaceKey tokens limit identity with
  | error cause => exact rfl
  | ok best =>
      cases best with
      | none =>
          have counts : Shrinks objects (objects.countMiss count) := { Shrinks.refl objects with }
          refine ⟨⟨valid.congr rfl rfl rfl rfl, fun _ => counts.accounted, rfl,
            fun _ entry live => ⟨entry, live, rfl⟩, counts.within⟩, rfl, fun _ => rfl,
            fun position impossible => ?_⟩
          cases impossible
      | some best =>
          apply (Leaves.bind_iff _ _ _).mpr
          apply (Leaves.getItem_iff _ _ _).mpr
          refine ⟨fun _ => rfl, fun entry present => ?_⟩
          have pinned : Shrinks objects (objects.pin best.1 entry) := .pin objects present
          have counts : Shrinks objects ((objects.pin best.1 entry).countHit count) :=
            { pinned with }
          refine ⟨⟨(valid.pin present).congr rfl rfl rfl rfl, fun _ => counts.accounted, rfl, ?_,
            counts.within⟩, rfl, ?_, ?_⟩
          · intro entryId other live
            change ((objects.cache.entries.set best.1 _).moveToEnd best.1).get? entryId =
              some other at live
            rw [Dict.get?_moveToEnd, Dict.get?_set] at live
            by_cases same : entryId = best.1
            · rw [if_pos same] at live
              cases live
              exact ⟨entry, same ▸ present, rfl⟩
            · rw [if_neg same] at live
              exact ⟨other, live, rfl⟩
          · intro impossible
            cases impossible
          · intro position equal
            cases equal
            exact ⟨rfl, best.1, entry, present, rfl⟩

/-- What a reservation hands out: an active reservation of this epoch, without a
basis, at the next position. -/
structure Reserved (before after : PrefixObjects Namespace Element) (made : Option Nat) : Prop
    extends Lessens before after where
  readers : after.readers = before.readers
  refused : made = none -> after.reservations = before.reservations
  granted : forall position, made = some position -> position = before.reservations.length ∧
    exists size, after.reservations =
      before.reservations ++ [⟨size, before.cache.epoch, true, none⟩]

/-- Evictions keep the epoch and add no entry. -/
theorem makeRoom_lessens (size : Int) (fuel : Nat) :
    forall cache : HostPrefixCache Namespace Element,
      (makeRoom size fuel cache).2.epoch = cache.epoch ∧
        forall entryId entry, (makeRoom size fuel cache).2.entries.get? entryId = some entry ->
          cache.entries.get? entryId = some entry := by
  induction fuel with
  | zero => exact fun cache => ⟨rfl, fun _ _ live => live⟩
  | succ fuel previous =>
      intro cache
      unfold makeRoom
      by_cases room : cache.hasRoom size
      · rw [if_pos room]
        exact ⟨rfl, fun _ _ live => live⟩
      · rw [if_neg room]
        unfold HostPrefixCache.evictOne
        cases search : cache.entries.items.find? (fun item => item.2.readers = 0) with
        | none => exact ⟨rfl, fun _ _ live => live⟩
        | some item =>
            rcases previous
              { cache with
                entries := cache.entries.erase item.1
                evictions := cache.evictions + 1 } with ⟨epoch, kept⟩
            refine ⟨epoch, fun entryId entry live => ?_⟩
            have remaining := kept entryId entry live
            change (cache.entries.erase item.1).get? entryId = some entry at remaining
            rw [Dict.get?_erase] at remaining
            by_cases same : entryId = item.1
            · rw [if_pos same] at remaining
              cases remaining
            · rw [if_neg same] at remaining
              exact remaining

theorem reserve_hands (valid : Conserved objects) (size : Int) :
    exists made after, (reserve size).run objects = .ok made after ∧
      Reserved objects after made := by
  have conserved := (reserve_conserved valid size).1
  have accounted : forall limits, Accounted limits objects ->
      Accounted limits (finalState ((reserve size).run objects)) :=
    fun _ counted => reserve_accounted counted size
  have within := reserve_within size objects
  unfold reserve at conserved accounted within ⊢
  rw [EStateM.run_bind, EStateM.run_get] at conserved accounted within ⊢
  by_cases refused : size ≤ 0 ∨ size > objects.cache.limits.budgetBytes
  · simp only [if_pos refused]
    refine ⟨none, objects, rfl, .refl valid, rfl, fun _ => rfl, fun position impossible => ?_⟩
    cases impossible
  · simp only [if_neg refused] at conserved accounted within ⊢
    have smaller := makeRoom_lessens size (objects.cache.entries.size + 1) objects.cache
    cases made : (makeRoom size (objects.cache.entries.size + 1) objects.cache).1 with
    | false =>
        simp only [made] at conserved accounted within
        refine ⟨none, _, rfl,
          ⟨conserved, accounted, smaller.1, fun entryId entry live => ?_, within⟩, rfl,
          fun _ => rfl, fun position impossible => ?_⟩
        · exact ⟨entry, smaller.2 entryId entry live, rfl⟩
        · cases impossible
    | true =>
        simp only [made] at conserved accounted within
        refine ⟨some objects.reservations.length, _, rfl,
          ⟨conserved, accounted, smaller.1, fun entryId entry live => ?_, within⟩, rfl,
          fun impossible => ?_, fun position equal => ?_⟩
        · exact ⟨entry, smaller.2 entryId entry live, rfl⟩
        · cases impossible
        · cases equal
          refine ⟨rfl, size, ?_⟩
          rw [← smaller.1]
          rfl

/-- What a publication adds: one entry, under an active reservation of this
epoch. -/
structure Published (before after : PrefixObjects Namespace Element) (position entryId : Nat)
    (snapshot : PrefixSnapshot Namespace Element) : Prop where
  conserved : Conserved after
  epoch : after.cache.epoch = before.cache.epoch
  current : exists reservation, before.reservations[position]? = some reservation ∧
    reservation.epoch = before.cache.epoch
  live : forall otherId entry, after.cache.entries.get? otherId = some entry ->
    (otherId = entryId ∧ entry.snapshot = snapshot) ∨
      exists former, before.cache.entries.get? otherId = some former ∧
        former.snapshot = entry.snapshot
  closed : ReservationClosed before after position
  checked : checkSnapshot snapshot = .ok ⟨⟩
  held : forall other, other ∈ after.cache.snapshots ->
    other ∈ before.cache.snapshots ∨ other = snapshot

/-- The body of a publication inserts the entry or leaves the objects alone. -/
theorem publishBody_inserts (reservation : PrefixReservation)
    (snapshot : PrefixSnapshot Namespace Element) (completed : Bool) :
    Leaves
      (fun entryId after => reservation.epoch = objects.cache.epoch ∧
        entryId = objects.cache.nextId + 1 ∧ checkSnapshot snapshot = .ok ⟨⟩ ∧
        exists resident : snapshot.hostResident = true, after = objects.insert snapshot resident)
      (fun _ after => after = objects)
      ((publishBody reservation snapshot completed).run objects) := by
  unfold publishBody
  apply (Leaves.bind_iff _ _ _).mpr
  apply (Leaves.raiseIf_iff _ _ _).mpr
  refine ⟨fun _ => rfl, fun _ => ?_⟩
  apply (Leaves.bind_iff _ _ _).mpr
  apply (Leaves.get_iff _).mpr
  apply (Leaves.bind_iff _ _ _).mpr
  apply (Leaves.raiseIf_iff _ _ _).mpr
  refine ⟨fun _ => rfl, fun current => ?_⟩
  cases checked : checkSnapshot snapshot with
  | error cause => exact rfl
  | ok _ =>
      by_cases resident : snapshot.hostResident = true
      · simp only [dif_pos resident]
        apply (Leaves.bind_iff _ _ _).mpr
        apply (Leaves.raiseIf_iff _ _ _).mpr
        exact ⟨fun _ => rfl, fun _ => ⟨not_not.mp current, rfl, trivial, resident, rfl⟩⟩
      · simp only [dif_neg resident]
        exact rfl

theorem publish_hands (valid : Conserved objects) (position : Nat)
    (snapshot : PrefixSnapshot Namespace Element) (completed : Bool) :
    Leaves (fun entryId after => Published objects after position entryId snapshot)
      (fun _ after => Lessens objects after ∧ ReservationClosed objects after position)
      ((publish position snapshot completed).run objects) := by
  unfold publish
  apply (Leaves.bind_iff _ _ _).mpr
  apply (Leaves.get_iff _).mpr
  have closing := closeReservation_closes valid position
  cases found : objects.reservations[position]? with
  | none =>
      refine ⟨.refl valid, ?_, ?_⟩
      · unfold PrefixObjects.readersWithout PrefixObjects.basisAt
        rw [found]
        rfl
      · refine (reservations_deactivate_closed fun reservation present => ?_).symm
        rw [found] at present
        cases present
  | some reservation =>
      apply (Leaves.bind_iff _ _ _).mpr
      apply (Leaves.raiseIf_iff _ _ _).mpr
      refine ⟨fun inactive => ⟨.refl valid, ?_, ?_⟩, fun _ => ?_⟩
      · unfold PrefixObjects.readersWithout PrefixObjects.basisAt
        simp only [found, Option.bind_some, inactive]
        rfl
      · refine (reservations_deactivate_closed fun other present => ?_).symm
        rw [found] at present
        cases present
        exact inactive
      · apply (Leaves.tryFinally_iff _ _ _).mpr
        apply (publishBody_inserts reservation snapshot completed).mono
        · rintro entryId _ ⟨current, rfl, checked, resident, rfl⟩
          have inserted := valid.insert resident
          rcases closeReservation_closes inserted position with ⟨after, ran, lessens, closed⟩
          rw [ran]
          refine ⟨lessens.conserved, lessens.epoch, ⟨reservation, found, current⟩, ?_,
            ⟨closed.readers, closed.reservations⟩, checked,
            fun other member => insert_snapshots resident (lessens.within member)⟩
          intro otherId entry live
          rcases lessens.live otherId entry live with ⟨former, present, same⟩
          change (objects.cache.entries.set (objects.cache.nextId + 1) _).get? otherId =
            some former at present
          rw [Dict.get?_set] at present
          by_cases new : otherId = objects.cache.nextId + 1
          · rw [if_pos new] at present
            cases present
            exact Or.inl ⟨new, same.symm⟩
          · rw [if_neg new] at present
            exact Or.inr ⟨former, present, same⟩
        · rintro cause _ rfl
          rcases closing with ⟨after, ran, lessens, closed⟩
          rw [ran]
          exact ⟨lessens, closed⟩

/-- A publication keeps the counters true, whichever way it leaves. -/
theorem publish_counts (position : Nat) (snapshot : PrefixSnapshot Namespace Element)
    (completed : Bool) :
    Leaves (fun _ after => forall limits, Accounted limits objects -> Accounted limits after)
      (fun _ after => forall limits, Accounted limits objects -> Accounted limits after)
      ((publish position snapshot completed).run objects) := by
  apply Leaves.finalState_iff.mpr
  exact fun limits counted => publish_accounted counted position snapshot completed

/-- What `reservation.basis_reader = reader` does. -/
structure BasisSet (before after : PrefixObjects Namespace Element) (position : Nat)
    (basis : Option Nat) : Prop extends Lessens before after where
  readers : after.readers = before.readers
  reservations : after.reservations = before.reservations.modify position
    fun state => { state with basisReader := basis }

theorem setBasisReader_sets (valid : Conserved objects) (position : Nat) (basis : Option Nat) :
    exists after, (setBasisReader position basis).run objects = .ok ⟨⟩ after ∧
      BasisSet objects after position basis := by
  refine ⟨_, rfl, ⟨valid.congr rfl rfl rfl rfl, ?_, rfl, fun _ entry live => ⟨entry, live, rfl⟩,
    fun _ member => member⟩, rfl, rfl⟩
  have shrinks : Shrinks objects _ := setBasisReader_shrinks position basis objects
  exact fun _ => shrinks.accounted

/-! ## Every run -/

section Conserved

variable [DecidableEq Namespace] (limits : CacheLimits)
  (operations : List (CacheOperation Namespace Element))

/-- After any operations: every count is the number of open readers and not
negative; an open reader's entry is live or retired, not both, and still holds
the reader's snapshot; a retired entry has an open reader; no close raises,
and each closes what it names and nothing else; a reservation evicts no entry
that is read; no id is handed out twice; and once a reset and closes have left
nothing open, nothing is held or promised. -/
theorem readers_conserved :
    (forall entryId entry, (cacheAfter limits operations).cache.Held entryId entry ->
      entry.readers = (cacheAfter limits operations).openReaders entryId ∧ 0 ≤ entry.readers) ∧
    (forall reader snapshot, reader ∈ (cacheAfter limits operations).readers ->
      reader.snapshot = some snapshot ->
      (exists entry, (cacheAfter limits operations).cache.Held reader.entryId entry ∧
        entry.snapshot = snapshot) ∧
      Xor (reader.entryId ∈ (cacheAfter limits operations).cache.entries.keys)
        (reader.entryId ∈ (cacheAfter limits operations).cache.retired.keys)) ∧
    (forall entryId, entryId ∈ (cacheAfter limits operations).cache.retired.keys ->
      exists reader, reader ∈ (cacheAfter limits operations).readers ∧
        reader.snapshot.isSome = true ∧ reader.entryId = entryId) ∧
    (forall position,
      (exists after, (closeReader position).run (cacheAfter limits operations) = .ok ⟨⟩ after ∧
        after.readers =
          (cacheAfter limits operations).readers.modify position PrefixReader.clear ∧
        after.reservations = (cacheAfter limits operations).reservations) ∧
      (exists after,
        (closeReservation position).run (cacheAfter limits operations) = .ok ⟨⟩ after ∧
        ReservationClosed (cacheAfter limits operations) after position)) ∧
    (forall size entryId entry,
      (cacheAfter limits operations).cache.entries.get? entryId = some entry ->
      0 < (cacheAfter limits operations).openReaders entryId ->
      (finalState ((reserve size).run (cacheAfter limits operations))).cache.entries.get?
        entryId = some entry) ∧
    (picked returnedValue performCache (.initial (.initial limits)) operations).Nodup ∧
    (forall closings : List (CacheOperation Namespace Element),
      (forall operation, operation ∈ closings -> operation.isClose = true) ->
      (cacheAfter limits (operations ++ .reset :: closings)).AllClosed ->
      (cacheAfter limits (operations ++ .reset :: closings)).Empty) := by
  have conserved := cacheAfter_conserved limits operations
  refine ⟨?_, ?_, ?_, ?_, ?_, ids_fresh.picked_nodup operations _, ?_⟩
  · intro entryId entry held
    have count := conserved.counted entryId entry held
    exact ⟨count, count ▸ PrefixObjects.openReaders_nonneg _ entryId⟩
  · intro reader snapshot member isOpen
    rcases List.mem_iff_getElem?.mp member with ⟨position, found⟩
    rcases conserved.reader_held position reader snapshot found isOpen with ⟨entry, held, equal⟩
    refine ⟨⟨entry, held, equal⟩, ?_⟩
    rcases held with live | retired
    · refine Or.inl ⟨Dict.mem_keys_iff.mpr ⟨entry, live⟩, fun both => ?_⟩
      rcases Dict.mem_keys_iff.mp both with ⟨other, retired⟩
      exact conserved.apart reader.entryId entry other live retired
    · refine Or.inr ⟨Dict.mem_keys_iff.mpr ⟨entry, retired⟩, fun both => ?_⟩
      rcases Dict.mem_keys_iff.mp both with ⟨other, live⟩
      exact conserved.apart reader.entryId other entry live retired
  · intro entryId member
    rcases Dict.mem_keys_iff.mp member with ⟨entry, retired⟩
    have positive := conserved.retired_read entryId entry retired
    rw [conserved.counted entryId entry (Or.inr retired)] at positive
    exact PrefixObjects.exists_open_reader positive
  · intro position
    rcases closeReader_closes conserved position with ⟨afterReader, ran, closed⟩
    rcases closeReservation_closes conserved position with ⟨afterReservation, ranToo, _, closedToo⟩
    exact ⟨⟨afterReader, ran, closed.readers, closed.reservations⟩,
      ⟨afterReservation, ranToo, closedToo⟩⟩
  · intro size entryId entry live positive
    apply (reserve_conserved conserved size).2 entryId entry live
    have count := conserved.counted entryId entry (Or.inl live)
    omega
  · intro closings closing allClosed
    have accounted := callAll_induction (Accounted limits)
      (fun _ operation valid => performCache_accounted valid operation)
      (operations ++ .reset :: closings)
      (.initial (.initial limits : HostPrefixCache Namespace Element)) .initial
    have valid := cacheAfter_conserved limits (operations ++ .reset :: closings)
    apply empty_of_allClosed accounted valid _ allClosed
    rw [callAll_append, callAll_cons]
    exact closes_keep_empty closing _ (performCache_conserved conserved .reset) rfl

end Conserved

end HostPrefix
end QSAHiSparse

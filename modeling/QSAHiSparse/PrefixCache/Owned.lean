import QSAHiSparse.Foundation.Ownership
import QSAHiSparse.PrefixCache.Rollback

namespace QSAHiSparse
namespace PrefixCache

open Foundation
open HostPrefix

/-!
# Who holds a reader

An open reader is held by the handle it is recorded for, by a reservation whose
basis it is, or for a moment by the call that has just acquired it.  The
invariant says that it always has exactly one holder, and that a restore record
carries the reader its handle was matched with.  Each section below is one kind
of change.
-/

variable {δ υ Element : Type}

inductive Holder where
  | handle (handle : CacheRequestHandle)
  | reservation (position : Nat)
  /-- A local variable of the call that is running. -/
  | call
deriving DecidableEq, Repr

/-- What a holder holds, given the reader of the running call. -/
def QSAHostPrefixCache.Holds (self : QSAHostPrefixCache δ υ Element) (loose : Option Nat) :
    Holder -> Nat -> Prop
  | .handle handle, reader => self.matched.get? handle = some reader
  | .reservation position, reader => self.host.basisAt position = some reader
  | .call, reader => loose = some reader

def QSAHostPrefixCache.Open (self : QSAHostPrefixCache δ υ Element) (reader : Nat) : Prop :=
  self.host.snapshotAt reader ≠ none

/-- Whether an event is a match of the handle, and of what. -/
def PrefixEvent.matchOf (handle : CacheRequestHandle) : PrefixEvent Element -> Option Nat
  | .matched other reader _ => if other = handle then some reader else none
  | _ => none

/-- The reader that the handle was last matched with. -/
def lastMatched (handle : CacheRequestHandle) (history : List (Nat × PrefixEvent Element)) :
    Option Nat :=
  (history.filterMap fun entry => entry.2.matchOf handle).getLast?

/-- Events that match nothing. -/
def Unmatching (events : List (Nat × PrefixEvent Element)) : Prop :=
  forall entry, entry ∈ events -> forall handle, entry.2.matchOf handle = none

theorem lastMatched_append {events : List (Nat × PrefixEvent Element)}
    (unmatching : Unmatching events) (handle : CacheRequestHandle)
    (history : List (Nat × PrefixEvent Element)) :
    lastMatched handle (history ++ events) = lastMatched handle history := by
  have nothing : events.filterMap (fun entry => entry.2.matchOf handle) = [] :=
    List.filterMap_eq_nil_iff.mpr fun entry member => unmatching entry member handle
  unfold lastMatched
  rw [List.filterMap_append, nothing, List.append_nil]

theorem lastMatched_matched (epoch : Nat) (handle other : CacheRequestHandle) (reader : Nat)
    (snapshot : PrefixSnapshot PrefixNamespace Element)
    (history : List (Nat × PrefixEvent Element)) :
    lastMatched other (history ++ [(epoch, .matched handle reader snapshot)]) =
      if handle = other then some reader else lastMatched other history := by
  unfold lastMatched
  rw [List.filterMap_append]
  by_cases same : handle = other
  · have one : [(epoch, PrefixEvent.matched handle reader snapshot)].filterMap
        (fun entry => entry.2.matchOf other) = [reader] := by
      simp only [List.filterMap_cons, PrefixEvent.matchOf, if_pos same, List.filterMap_nil]
    rw [one, List.getLast?_concat, if_pos same]
  · have nothing : [(epoch, PrefixEvent.matched handle reader snapshot)].filterMap
        (fun entry => entry.2.matchOf other) = [] := by
      simp only [List.filterMap_cons, PrefixEvent.matchOf, if_neg same, List.filterMap_nil]
    rw [nothing, List.append_nil, if_neg same]

structure Owned (loose : Option Nat) (cache : QSAHostPrefixCache δ υ Element) : Prop where
  conserved : Conserved cache.host
  sole : SoleOwner cache.Open (cache.Holds loose)
  recorded : forall handle record, cache.restoring.get? handle = some record ->
    record.reader = cache.matched.get? handle
  last : forall handle reader, cache.matched.get? handle = some reader ->
    lastMatched handle cache.history = some reader
  logged : forall reader, reader < cache.host.readers.length -> ¬ cache.Open reader ->
    exists epoch, (epoch, PrefixEvent.closed reader) ∈ cache.history

namespace Owned

variable {loose : Option Nat} {cache after : QSAHostPrefixCache δ υ Element}

theorem initial (limits : CacheLimits) (world : World δ υ Element) :
    Owned none (.initial limits world) where
  conserved := .initial limits
  sole :=
    { held_open := by
        intro holder reader holds
        cases holder with
        | handle handle => cases holds
        | reservation position => cases holds
        | call => cases holds
      unique := fun reader opened => absurd rfl opened }
  recorded handle record found := by cases found
  last handle reader found := by cases found
  logged reader within := absurd within (Nat.not_lt_zero _)

/-- A matched reader is open. -/
theorem matched_open (owned : Owned loose cache) {handle : CacheRequestHandle} {reader : Nat}
    (matched : cache.matched.get? handle = some reader) :
    exists snapshot, cache.host.snapshotAt reader = some snapshot :=
  Option.ne_none_iff_exists'.mp (owned.sole.held_open (.handle handle) reader matched)

theorem matched_unique (owned : Owned loose cache) {first second : CacheRequestHandle}
    {reader : Nat} (one : cache.matched.get? first = some reader)
    (other : cache.matched.get? second = some reader) : first = second :=
  Holder.handle.inj (@SoleOwner.eq_of_holds _ _ _ _ owned.sole (.handle first) (.handle second)
    reader one other)

/-! ## Changes of other parts -/

/-- New events that match nothing change no part of the invariant. -/
theorem extend (owned : Owned loose cache) {events : List (Nat × PrefixEvent Element)}
    (host : after.host = cache.host) (matched : after.matched = cache.matched)
    (restoring : forall handle record, after.restoring.get? handle = some record ->
      record.reader = cache.matched.get? handle)
    (history : after.history = cache.history ++ events) (unmatching : Unmatching events) :
    Owned loose after where
  conserved := host ▸ owned.conserved
  sole := by
    apply owned.sole.congr
    · intro reader
      unfold QSAHostPrefixCache.Open
      rw [host]
    · intro holder reader
      unfold QSAHostPrefixCache.Holds
      rw [host, matched]
  recorded := by
    intro handle record found
    rw [matched]
    exact restoring handle record found
  last := by
    rw [matched, history]
    intro handle reader found
    rw [lastMatched_append unmatching]
    exact owned.last handle reader found
  logged := by
    unfold QSAHostPrefixCache.Open
    rw [host, history]
    intro reader within closed
    rcases owned.logged reader within closed with ⟨epoch, member⟩
    exact ⟨epoch, List.mem_append_left _ member⟩

theorem reach (owned : Owned loose cache) (world : World δ υ Element) :
    Owned loose (cache.reach world) := by
  refine owned.extend rfl rfl owned.recorded rfl fun entry member handle => ?_
  rcases List.mem_map.mp member with ⟨lease, _, rfl⟩
  rfl

theorem log (owned : Owned loose cache) {event : PrefixEvent Element}
    (unmatching : forall handle, event.matchOf handle = none) : Owned loose (cache.log event) := by
  refine owned.extend rfl rfl owned.recorded rfl fun entry member => ?_
  rw [List.mem_singleton.mp member]
  exact unmatching

theorem setFields (owned : Owned loose cache) (lease : Ledger.QSAHiSparseLease)
    (update : PrefixFields -> PrefixFields) : Owned loose (cache.setFields lease update) :=
  owned.extend rfl rfl owned.recorded (List.append_nil _).symm
    fun _ member => absurd member List.not_mem_nil

theorem setCaptures (owned : Owned loose cache) (captures : List (CaptureFrame Element)) :
    Owned loose { cache with captures } :=
  owned.extend rfl rfl owned.recorded (List.append_nil _).symm
    fun _ member => absurd member List.not_mem_nil

/-! ## Records -/

theorem setRecord (owned : Owned loose cache) {handle : CacheRequestHandle}
    {record : RestoreRecord} (same : record.reader = cache.matched.get? handle) :
    Owned loose (cache.setRecord handle record) := by
  refine owned.extend rfl rfl (fun other found present => ?_) (List.append_nil _).symm
    fun _ member => absurd member List.not_mem_nil
  change (cache.restoring.set handle record).get? other = some found at present
  rw [Dict.get?_set] at present
  by_cases equal : other = handle
  · rw [if_pos equal] at present
    cases present
    rw [equal]
    exact same
  · rw [if_neg equal] at present
    exact owned.recorded other found present

theorem updateRecord (owned : Owned loose cache) (handle : CacheRequestHandle)
    {update : RestoreRecord -> RestoreRecord}
    (same : forall record, (update record).reader = record.reader) :
    Owned loose (cache.updateRecord handle update) := by
  unfold QSAHostPrefixCache.updateRecord
  cases found : cache.restoring.get? handle with
  | none => exact owned
  | some record =>
      apply owned.setRecord
      rw [same record, owned.recorded handle record found]

theorem popRecord (owned : Owned loose cache) (handle : CacheRequestHandle) :
    Owned loose (cache.popRecord handle) := by
  refine owned.extend rfl rfl (fun other found present => ?_) (List.append_nil _).symm
    fun _ member => absurd member List.not_mem_nil
  change (cache.restoring.erase handle).get? other = some found at present
  rw [Dict.get?_erase] at present
  by_cases equal : other = handle
  · rw [if_pos equal] at present
    cases present
  · rw [if_neg equal] at present
    exact owned.recorded other found present

/-! ## Readers of the running call -/

/-- A lookup gives its reader to the call. -/
theorem acquired (owned : Owned none cache) {host : PrefixObjects PrefixNamespace Element}
    {found : Option Nat} (acquired : Acquired cache.host host found) :
    Owned found { cache with host } := by
  have matched : forall handle reader, cache.matched.get? handle = some reader ->
      lastMatched handle cache.history = some reader := owned.last
  cases found with
  | none =>
      have same := acquired.missed rfl
      exact
        { conserved := acquired.conserved
          sole := by
            apply owned.sole.congr
            · intro reader
              change host.snapshotAt reader ≠ none <-> _
              rw [snapshotAt_congr same]
              exact Iff.rfl
            · intro holder reader
              cases holder with
              | reservation position =>
                  change host.basisAt position = some reader <-> _
                  rw [basisAt_congr acquired.reservations]
                  exact Iff.rfl
              | _ => exact Iff.rfl
          recorded := owned.recorded
          last := matched
          logged := by
            intro reader within closed
            change reader < host.readers.length at within
            change ¬ host.snapshotAt reader ≠ none at closed
            rw [same] at within
            rw [snapshotAt_congr same] at closed
            exact owned.logged reader within closed }
  | some position =>
      rcases acquired.hit position rfl with ⟨isLast, entryId, entry, _, appended⟩
      have opens : forall reader, host.snapshotAt reader ≠ none <->
          reader = position ∨ cache.host.snapshotAt reader ≠ none := by
        intro reader
        rw [snapshotAt_append appended, ← isLast]
        by_cases same : reader = position
        · rw [if_pos same]
          exact ⟨fun _ => Or.inl same, fun _ => Option.some_ne_none _⟩
        · rw [if_neg same]
          exact ⟨Or.inr, fun either => either.resolve_left same⟩
      exact
        { conserved := acquired.conserved
          sole := by
            refine owned.sole.grant position .call ?_ opens ?_
            · intro opened
              rcases Option.ne_none_iff_exists'.mp opened with ⟨snapshot, isOpen⟩
              have small := snapshotAt_lt isOpen
              omega
            · intro holder reader
              cases holder with
              | call =>
                  constructor
                  · intro equal
                    exact Or.inl ⟨rfl, (Option.some.inj equal).symm⟩
                  · rintro (⟨_, rfl⟩ | impossible)
                    · rfl
                    · cases impossible
              | reservation position =>
                  change host.basisAt position = some reader <-> _
                  rw [basisAt_congr acquired.reservations]
                  exact ⟨Or.inr, fun either => either.resolve_left (by rintro ⟨_, _⟩; contradiction)⟩
              | handle handle =>
                  exact ⟨Or.inr, fun either => either.resolve_left (by rintro ⟨_, _⟩; contradiction)⟩
          recorded := owned.recorded
          last := matched
          logged := by
            intro reader within closed
            change reader < host.readers.length at within
            change ¬ host.snapshotAt reader ≠ none at closed
            rw [opens] at closed
            rw [appended, List.length_append, List.length_singleton, ← isLast] at within
            apply owned.logged reader _ (fun opened => closed (Or.inr opened))
            have different : reader ≠ position := fun same => closed (Or.inl same)
            omega }

/-! ## Readers that move -/

/-- The reader of a handle that is not restoring goes to the call. -/
theorem popMatch (owned : Owned none cache) {handle : CacheRequestHandle}
    (idle : cache.restoring.get? handle = none) :
    Owned (cache.matched.get? handle) (cache.popMatch handle) := by
  have lookup : forall other reader, (cache.popMatch handle).matched.get? other = some reader <->
      other ≠ handle ∧ cache.matched.get? other = some reader := by
    intro other reader
    change (cache.matched.erase handle).get? other = some reader <-> _
    rw [Dict.get?_erase]
    by_cases same : other = handle <;> simp [same]
  exact
    { conserved := owned.conserved
      sole := by
        cases found : cache.matched.get? handle with
        | none =>
            apply owned.sole.congr (fun reader => Iff.rfl)
            intro holder reader
            cases holder with
            | handle other =>
                refine (lookup other reader).trans ⟨And.right, fun held => ⟨?_, held⟩⟩
                rintro rfl
                exact Option.some_ne_none _ (held.symm.trans found)
            | _ => exact Iff.rfl
        | some moved =>
            apply owned.sole.transfer (.handle handle) .call found
            intro holder reader
            cases holder with
            | handle other =>
                refine (lookup other reader).trans ⟨fun both => Or.inr ⟨?_, both.2⟩, ?_⟩
                · rintro rfl
                  exact both.1 (owned.matched_unique both.2 found)
                · rintro (⟨impossible, _⟩ | ⟨different, held⟩)
                  · cases impossible
                  · refine ⟨?_, held⟩
                    rintro rfl
                    exact different (Option.some.inj (held.symm.trans found))
            | reservation position =>
                refine ⟨fun held => Or.inr ⟨?_, held⟩, ?_⟩
                · rintro rfl
                  have same := @SoleOwner.eq_of_holds _ _ _ _ owned.sole (.handle handle)
                    (.reservation position) reader found held
                  cases same
                · rintro (⟨impossible, _⟩ | ⟨_, held⟩)
                  · cases impossible
                  · exact held
            | call =>
                constructor
                · intro equal
                  exact Or.inl ⟨rfl, (Option.some.inj equal).symm⟩
                · rintro (⟨_, rfl⟩ | ⟨_, impossible⟩)
                  · rfl
                  · cases impossible
      recorded := by
        intro other record found
        rw [owned.recorded other record found]
        refine (Dict.get?_erase_of_ne _ ?_).symm
        rintro rfl
        exact Option.some_ne_none _ (found.symm.trans idle)
      last := fun other reader found => owned.last other reader ((lookup other reader).mp found).2
      logged := owned.logged }

/-- The reader of the call becomes the match of a handle. -/
theorem keep {reader : Nat} (owned : Owned (some reader) cache) {handle : CacheRequestHandle}
    (free : cache.matched.get? handle = none) (idle : cache.restoring.get? handle = none)
    (snapshot : PrefixSnapshot PrefixNamespace Element) :
    Owned none ((cache.setMatch handle reader).log (.matched handle reader snapshot)) := by
  have lookup : forall other found,
      ((cache.setMatch handle reader).log (.matched handle reader snapshot)).matched.get? other =
          some found <->
        (other = handle ∧ found = reader) ∨
          (other ≠ handle ∧ cache.matched.get? other = some found) := by
    intro other found
    change (cache.matched.set handle reader).get? other = some found <-> _
    rw [Dict.get?_set]
    by_cases same : other = handle
    · simp [same, eq_comm]
    · simp [same]
  exact
    { conserved := owned.conserved
      sole := by
        apply @SoleOwner.transfer _ _ _ _ _ owned.sole .call (.handle handle) reader rfl
        intro holder found
        cases holder with
        | handle other =>
            refine (lookup other found).trans ⟨?_, ?_⟩
            · rintro (⟨rfl, same⟩ | ⟨_, held⟩)
              · exact Or.inl ⟨rfl, same⟩
              · refine Or.inr ⟨?_, held⟩
                rintro rfl
                have same := @SoleOwner.eq_of_holds _ _ _ _ owned.sole (.handle other) .call
                  found held rfl
                cases same
            · rintro (⟨equal, same⟩ | ⟨_, held⟩)
              · exact Or.inl ⟨Holder.handle.inj equal, same⟩
              · refine Or.inr ⟨?_, held⟩
                rintro rfl
                exact Option.some_ne_none _
                  ((show cache.matched.get? other = some found from held).symm.trans free)
        | reservation position =>
            refine ⟨fun held => Or.inr ⟨?_, held⟩, ?_⟩
            · rintro rfl
              have same := @SoleOwner.eq_of_holds _ _ _ _ owned.sole (.reservation position) .call
                found held rfl
              cases same
            · rintro (⟨impossible, _⟩ | ⟨_, held⟩)
              · cases impossible
              · exact held
        | call =>
            refine ⟨fun impossible => ?_, ?_⟩
            · cases impossible
            · rintro (⟨impossible, _⟩ | ⟨different, held⟩)
              · cases impossible
              · exact absurd (Option.some.inj held).symm different
      recorded := by
        intro other record found
        rw [owned.recorded other record found]
        refine (Dict.get?_set_of_ne _ _ ?_).symm
        rintro rfl
        exact Option.some_ne_none _ (found.symm.trans idle)
      last := by
        intro other found matched
        change lastMatched other (cache.history ++ [_]) = some found
        rw [lastMatched_matched]
        rcases (lookup other found).mp matched with ⟨rfl, rfl⟩ | ⟨different, held⟩
        · rw [if_pos rfl]
        · rw [if_neg (Ne.symm different)]
          exact owned.last other found held
      logged := by
        intro other within closed
        rcases owned.logged other within closed with ⟨epoch, member⟩
        exact ⟨epoch, List.mem_append_left _ member⟩ }

/-! ## Readers that are closed -/

/-- One reader is closed and let go by its holder. -/
theorem drop (owned : Owned loose cache) {left : Option Nat} {closed : Nat}
    {events : List (Nat × PrefixEvent Element)} (conserved : Conserved after.host)
    (snapshots : forall reader, after.host.snapshotAt reader =
      if reader = closed then none else cache.host.snapshotAt reader)
    (length : after.host.readers.length = cache.host.readers.length)
    (holds : forall holder reader,
      after.Holds left holder reader <-> reader ≠ closed ∧ cache.Holds loose holder reader)
    (matched : after.matched = cache.matched) (restoring : after.restoring = cache.restoring)
    (history : after.history = cache.history ++ events) (unmatching : Unmatching events)
    (logged : exists epoch, (epoch, PrefixEvent.closed closed) ∈ events) : Owned left after where
  conserved := conserved
  sole := by
    apply owned.sole.release closed _ holds
    intro reader
    unfold QSAHostPrefixCache.Open
    rw [snapshots]
    by_cases same : reader = closed <;> simp [same]
  recorded := by
    rw [restoring, matched]
    exact owned.recorded
  last := by
    rw [matched, history]
    intro handle reader found
    rw [lastMatched_append unmatching]
    exact owned.last handle reader found
  logged := by
    intro reader within shut
    rw [history]
    by_cases same : reader = closed
    · rcases logged with ⟨epoch, member⟩
      exact ⟨epoch, List.mem_append_right _ (same ▸ member)⟩
    · unfold QSAHostPrefixCache.Open at shut
      rw [snapshots, if_neg same] at shut
      rw [length] at within
      rcases owned.logged reader within shut with ⟨epoch, member⟩
      exact ⟨epoch, List.mem_append_left _ member⟩

/-- The call closes its reader. -/
theorem close {reader : Nat} (owned : Owned (some reader) cache)
    {host : PrefixObjects PrefixNamespace Element} (closed : ReaderClosed cache.host host reader) :
    Owned none { cache.log (.closed reader) with host } := by
  refine owned.drop closed.conserved (snapshotAt_clear closed.readers) ?_ ?_ rfl rfl rfl ?_
    ⟨_, List.mem_singleton_self _⟩
  · change host.readers.length = cache.host.readers.length
    rw [closed.readers, List.length_modify]
  · have others : forall holder, holder ≠ .call ->
        forall found, cache.Holds (some reader) holder found -> found ≠ reader := by
      rintro holder different found held rfl
      exact different (owned.sole.eq_of_holds held (show cache.Holds (some found) .call found from
        rfl))
    intro holder found
    cases holder with
    | handle handle =>
        exact ⟨fun held => ⟨others (.handle handle) (by simp) found held, held⟩, And.right⟩
    | reservation position =>
        change host.basisAt position = some found <-> _
        rw [basisAt_congr closed.reservations]
        exact ⟨fun held => ⟨others (.reservation position) (by simp) found held, held⟩, And.right⟩
    | call =>
        refine ⟨fun impossible => ?_, fun both => ?_⟩
        · cases impossible
        · exact absurd (Option.some.inj both.2).symm both.1
  · intro entry member
    rw [List.mem_singleton.mp member]
    exact fun _ => rfl

/-- A reservation is closed with its basis. -/
theorem closeReservation (owned : Owned loose cache) {position : Nat}
    {host : PrefixObjects PrefixNamespace Element} (conserved : Conserved host)
    (closed : ReservationClosed cache.host host position) :
    Owned loose { cache.logBasis position with host } := by
  have bases := basisAt_deactivate closed.reservations
  have readers := closed.readers
  unfold PrefixObjects.readersWithout at readers
  unfold QSAHostPrefixCache.logBasis
  cases basis : cache.host.basisAt position with
  | none =>
      rw [basis] at readers
      have same : forall reader, host.snapshotAt reader = cache.host.snapshotAt reader :=
        snapshotAt_congr readers
      exact
        { conserved := conserved
          sole := by
            apply owned.sole.congr
            · intro reader
              change host.snapshotAt reader ≠ none <-> _
              rw [same]
              exact Iff.rfl
            · intro holder reader
              cases holder with
              | reservation other =>
                  change host.basisAt other = some reader <-> cache.host.basisAt other = some reader
                  rw [bases]
                  by_cases equal : other = position
                  · rw [if_pos equal, equal, basis]
                  · rw [if_neg equal]
              | _ => exact Iff.rfl
          recorded := owned.recorded
          last := owned.last
          logged := by
            intro reader within shut
            change reader < host.readers.length at within
            change ¬ host.snapshotAt reader ≠ none at shut
            rw [readers] at within
            rw [same] at shut
            exact owned.logged reader within shut }
  | some reader =>
      rw [basis] at readers
      have held : cache.Holds loose (.reservation position) reader := basis
      refine owned.drop conserved (snapshotAt_clear readers) ?_ ?_ rfl rfl rfl ?_
        ⟨_, List.mem_singleton_self _⟩
      · change host.readers.length = cache.host.readers.length
        rw [readers, List.length_modify]
      · have others : forall holder, holder ≠ .reservation position ->
            forall found, cache.Holds loose holder found -> found ≠ reader := by
          rintro holder different found holding rfl
          exact different (owned.sole.eq_of_holds holding held)
        intro holder found
        cases holder with
        | handle handle =>
            exact ⟨fun holding => ⟨others (.handle handle) (by simp) found holding, holding⟩,
              And.right⟩
        | call => exact ⟨fun holding => ⟨others .call (by simp) found holding, holding⟩, And.right⟩
        | reservation other =>
            change host.basisAt other = some found <->
              found ≠ reader ∧ cache.host.basisAt other = some found
            rw [bases]
            by_cases equal : other = position
            · rw [if_pos equal, equal, basis]
              simp [eq_comm]
            · rw [if_neg equal]
              refine ⟨fun holding => ⟨?_, holding⟩, And.right⟩
              exact others (.reservation other) (by simpa using equal) found holding
      · intro entry member
        rw [List.mem_singleton.mp member]
        exact fun _ => rfl

/-! ## Reservations and flushes -/

/-- A new reservation has no basis. -/
theorem reserved (owned : Owned loose cache) {host : PrefixObjects PrefixNamespace Element}
    {made : Option Nat} (reserved : Reserved cache.host host made) :
    Owned loose { cache with host } := by
  have bases : forall position, host.basisAt position = cache.host.basisAt position := by
    intro position
    cases made with
    | none => exact basisAt_congr (reserved.refused rfl) position
    | some new =>
        rcases reserved.granted new rfl with ⟨_, size, appended⟩
        unfold PrefixObjects.basisAt
        rw [appended]
        rcases Nat.lt_trichotomy position cache.host.reservations.length with old | last | beyond
        · rw [List.getElem?_append_left old]
        · rw [last, List.getElem?_append_right (Nat.le_refl _), Nat.sub_self,
            List.getElem?_eq_none (Nat.le_refl _)]
          rfl
        · rw [List.getElem?_append_right (Nat.le_of_lt beyond),
            List.getElem?_eq_none (Nat.le_of_lt beyond), List.getElem?_eq_none]
          rw [List.length_singleton]
          omega
  have snapshots := snapshotAt_congr reserved.readers
  exact
    { conserved := reserved.conserved
      sole := by
        apply owned.sole.congr
        · intro reader
          change host.snapshotAt reader ≠ none <-> _
          rw [snapshots]
          exact Iff.rfl
        · intro holder reader
          cases holder with
          | reservation position =>
              change host.basisAt position = some reader <-> _
              rw [bases]
              exact Iff.rfl
          | _ => exact Iff.rfl
      recorded := owned.recorded
      last := owned.last
      logged := by
        intro reader within shut
        change reader < host.readers.length at within
        change ¬ host.snapshotAt reader ≠ none at shut
        rw [reserved.readers] at within
        rw [snapshots] at shut
        exact owned.logged reader within shut }

/-- The reader of the call becomes the basis of an active reservation that has
none. -/
theorem setBasis (owned : Owned loose cache) {position : Nat} {reservation : PrefixReservation}
    (found : cache.host.reservations[position]? = some reservation)
    (active : reservation.active = true) (unset : reservation.basisReader = none)
    {host : PrefixObjects PrefixNamespace Element} (conserved : Conserved host)
    (readers : host.readers = cache.host.readers)
    (reservations : host.reservations = cache.host.reservations.modify position
      fun state => { state with basisReader := loose }) :
    Owned none { cache with host } := by
  have bases : forall other, host.basisAt other =
      if other = position then loose else cache.host.basisAt other := by
    intro other
    unfold PrefixObjects.basisAt
    rw [reservations]
    by_cases same : other = position
    · rw [if_pos same, same, List.getElem?_modify_eq, found]
      exact if_pos active
    · rw [if_neg same, List.getElem?_modify_ne _ _ (Ne.symm same)]
  have none : cache.host.basisAt position = none := by
    unfold PrefixObjects.basisAt
    rw [found, Option.bind_some, if_pos active, unset]
  have snapshots := snapshotAt_congr readers
  exact
    { conserved := conserved
      sole := by
        have opens : forall reader, ({ cache with host } : QSAHostPrefixCache δ υ Element).Open
            reader <-> cache.Open reader := by
          intro reader
          change host.snapshotAt reader ≠ Option.none <-> _
          rw [snapshots]
          exact Iff.rfl
        cases loose with
        | none =>
            apply owned.sole.congr opens
            intro holder reader
            cases holder with
            | reservation other =>
                change host.basisAt other = some reader <-> cache.host.basisAt other = some reader
                rw [bases]
                by_cases same : other = position
                · rw [if_pos same, same, none]
                · rw [if_neg same]
            | _ => exact Iff.rfl
        | some moved =>
            have others : forall holder, holder ≠ .call ->
                forall reader, cache.Holds (some moved) holder reader -> reader ≠ moved := by
              rintro holder different reader held rfl
              exact different (owned.sole.eq_of_holds held
                (show cache.Holds (some reader) .call reader from rfl))
            have moves := @SoleOwner.transfer _ _ _ _
              (({ cache with host } : QSAHostPrefixCache δ υ Element).Holds Option.none) owned.sole
              .call (.reservation position) moved rfl
            refine (moves ?_).congr opens fun _ _ => Iff.rfl
            intro holder reader
            cases holder with
            | reservation other =>
                change host.basisAt other = some reader <-> _
                rw [bases]
                by_cases same : other = position
                · rw [if_pos same, same]
                  constructor
                  · intro equal
                    exact Or.inl ⟨rfl, (Option.some.inj equal).symm⟩
                  · rintro (⟨_, rfl⟩ | ⟨_, impossible⟩)
                    · rfl
                    · exact absurd (none.symm.trans impossible) (by simp)
                · rw [if_neg same]
                  constructor
                  · exact fun held =>
                      Or.inr ⟨others (.reservation other) (by simp) reader held, held⟩
                  · rintro (⟨equal, _⟩ | ⟨_, held⟩)
                    · exact absurd (Holder.reservation.inj equal) same
                    · exact held
            | handle handle =>
                constructor
                · exact fun held => Or.inr ⟨others (.handle handle) (by simp) reader held, held⟩
                · rintro (⟨impossible, _⟩ | ⟨_, held⟩)
                  · cases impossible
                  · exact held
            | call =>
                constructor
                · intro impossible
                  cases impossible
                · rintro (⟨impossible, _⟩ | ⟨different, held⟩)
                  · cases impossible
                  · exact absurd (Option.some.inj held).symm different
      recorded := owned.recorded
      last := owned.last
      logged := by
        intro reader within shut
        change reader < host.readers.length at within
        change ¬ host.snapshotAt reader ≠ Option.none at shut
        rw [readers] at within
        rw [snapshots] at shut
        exact owned.logged reader within shut }

/-- A flush touches no reader and no reservation. -/
theorem flush (owned : Owned loose cache) :
    Owned loose { cache with host := cache.host.flush } where
  conserved := owned.conserved.flush
  sole := by
    apply owned.sole.congr (fun reader => Iff.rfl)
    intro holder reader
    cases holder <;> exact Iff.rfl
  recorded := owned.recorded
  last := owned.last
  logged := owned.logged

end Owned

end PrefixCache
end QSAHiSparse

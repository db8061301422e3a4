import QSAHiSparse.HostPrefix.Budget

namespace QSAHiSparse
namespace HostPrefix

open Foundation

/-!
# Conservation of readers

An entry counts its readers, and a reader knows its entry; the invariant says
that both agree.  It is what makes a close safe: a reader that is still open
finds its entry among the live or the retired ones, with a positive count, so
the close neither raises nor takes away the pin of another reader.

A reset retires the entries that are read.  They stay outside the budgeted
lookup and leave with their last reader.
-/

variable {Namespace Element : Type}

/-- One for an open reader of the entry. -/
def PrefixReader.reads (entryId : Nat) (reader : PrefixReader Namespace Element) : Int :=
  if reader.snapshot.isSome = true ∧ reader.entryId = entryId then 1 else 0

theorem PrefixReader.reads_nonneg (entryId : Nat) (reader : PrefixReader Namespace Element) :
    0 ≤ reader.reads entryId := by
  unfold PrefixReader.reads
  split <;> decide

/-- The number of open readers of an entry. -/
def PrefixObjects.openReaders (objects : PrefixObjects Namespace Element) (entryId : Nat) : Int :=
  tally (PrefixReader.reads entryId) objects.readers

theorem PrefixObjects.openReaders_nonneg (objects : PrefixObjects Namespace Element)
    (entryId : Nat) : 0 ≤ objects.openReaders entryId :=
  tally_nonneg _ (fun reader _ => reader.reads_nonneg entryId)

theorem PrefixObjects.openReaders_positive {objects : PrefixObjects Namespace Element}
    {position : Nat} {reader : PrefixReader Namespace Element}
    (found : objects.readers[position]? = some reader) (isOpen : reader.snapshot.isSome = true) :
    0 < objects.openReaders reader.entryId := by
  have within := weight_le_tally (PrefixReader.reads reader.entryId)
    (fun other _ => other.reads_nonneg reader.entryId) (List.mem_of_getElem? found)
  have one : reader.reads reader.entryId = 1 := if_pos ⟨isOpen, rfl⟩
  rw [one] at within
  exact within

/-- A positive number of open readers has one. -/
theorem PrefixObjects.exists_open_reader {objects : PrefixObjects Namespace Element}
    {entryId : Nat} (positive : 0 < objects.openReaders entryId) :
    exists reader, reader ∈ objects.readers ∧ reader.snapshot.isSome = true ∧
      reader.entryId = entryId := by
  apply Classical.byContradiction
  intro noReader
  have zero : objects.openReaders entryId = 0 := by
    apply tally_eq_zero
    intro reader member
    apply if_neg
    rintro ⟨isOpen, reads⟩
    exact noReader ⟨reader, member, isOpen, reads⟩
  omega

structure Conserved (objects : PrefixObjects Namespace Element) : Prop where
  counted : forall entryId entry, objects.cache.Held entryId entry ->
    entry.readers = objects.openReaders entryId
  retired_read : forall entryId entry, objects.cache.retired.get? entryId = some entry ->
    0 < entry.readers
  reader_held : forall (position : Nat) (reader : PrefixReader Namespace Element) snapshot,
    objects.readers[position]? = some reader -> reader.snapshot = some snapshot ->
    exists entry, objects.cache.Held reader.entryId entry ∧ entry.snapshot = snapshot
  apart : forall entryId live retired, objects.cache.entries.get? entryId = some live ->
    objects.cache.retired.get? entryId ≠ some retired
  known : forall entryId entry, objects.cache.Held entryId entry ->
    entryId ≤ objects.cache.nextId

namespace Conserved

variable {objects : PrefixObjects Namespace Element}

theorem initial (limits : CacheLimits) :
    Conserved (PrefixObjects.initial (.initial limits : HostPrefixCache Namespace Element)) where
  counted entryId entry held := by rcases held with found | found <;> cases found
  retired_read entryId entry found := by cases found
  reader_held position reader snapshot found := by cases found
  apart entryId live retired found := by cases found
  known entryId entry held := by rcases held with found | found <;> cases found

/-- The pending counters, the epoch, the statistics and the reservations are no
part of the invariant. -/
theorem congr (valid : Conserved objects) {other : PrefixObjects Namespace Element}
    (entries : other.cache.entries = objects.cache.entries)
    (retired : other.cache.retired = objects.cache.retired)
    (nextId : other.cache.nextId = objects.cache.nextId)
    (readers : other.readers = objects.readers) : Conserved other where
  counted := by
    unfold HostPrefixCache.Held PrefixObjects.openReaders
    rw [entries, retired, readers]
    exact valid.counted
  retired_read := by
    rw [retired]
    exact valid.retired_read
  reader_held := by
    unfold HostPrefixCache.Held
    rw [entries, retired, readers]
    exact valid.reader_held
  apart := by
    rw [entries, retired]
    exact valid.apart
  known := by
    unfold HostPrefixCache.Held
    rw [entries, retired, nextId]
    exact valid.known

theorem pin (valid : Conserved objects) {entryId : Nat} {entry : CacheEntry Namespace Element}
    (found : objects.cache.entries.get? entryId = some entry) :
    Conserved (objects.pin entryId entry) := by
  have live : forall otherId,
      (objects.pin entryId entry).cache.entries.get? otherId =
        if otherId = entryId then some { entry with readers := entry.readers + 1 }
        else objects.cache.entries.get? otherId := by
    intro otherId
    change ((objects.cache.entries.set entryId _).moveToEnd entryId).get? otherId = _
    rw [Dict.get?_moveToEnd, Dict.get?_set]
  have readers : forall otherId, (objects.pin entryId entry).openReaders otherId =
      objects.openReaders otherId + if entryId = otherId then 1 else 0 := by
    intro otherId
    change tally _ (objects.readers ++ [⟨entryId, some entry.snapshot⟩]) = _
    have one : PrefixReader.reads otherId
        (⟨entryId, some entry.snapshot⟩ : PrefixReader Namespace Element) =
        if entryId = otherId then 1 else 0 := by
      simp [PrefixReader.reads]
    rw [tally_append, tally_cons, tally_nil, one, Int.add_zero]
    rfl
  exact
    { counted := by
        intro otherId other held
        rw [readers otherId]
        rcases held with present | present
        · rw [live otherId] at present
          by_cases same : otherId = entryId
          · rw [if_pos same] at present
            cases present
            rw [if_pos same.symm, same, ← valid.counted entryId entry (Or.inl found)]
          · rw [if_neg same] at present
            rw [if_neg (Ne.symm same), valid.counted otherId other (Or.inl present)]
            omega
        · have different : entryId ≠ otherId := by
            rintro rfl
            exact valid.apart entryId entry other found present
          rw [if_neg different, valid.counted otherId other (Or.inr present)]
          omega
      retired_read := valid.retired_read
      reader_held := by
        intro position reader snapshot present isOpen
        have held : exists former, objects.cache.Held reader.entryId former ∧
            former.snapshot = snapshot := by
          change (objects.readers ++ [_])[position]? = some reader at present
          rcases Nat.lt_or_ge position objects.readers.length with old | new
          · rw [List.getElem?_append_left old] at present
            exact valid.reader_held position reader snapshot present isOpen
          · rw [List.getElem?_append_right new] at present
            have last := List.mem_singleton.mp (List.mem_of_getElem? present)
            subst last
            cases isOpen
            exact ⟨entry, Or.inl found, rfl⟩
        rcases held with ⟨former, formerHeld, equal⟩
        rcases formerHeld with wasLive | wasRetired
        · by_cases same : reader.entryId = entryId
          · rw [same, found] at wasLive
            cases wasLive
            refine ⟨{ entry with readers := entry.readers + 1 }, Or.inl ?_, equal⟩
            rw [live, if_pos same]
          · refine ⟨former, Or.inl ?_, equal⟩
            rw [live, if_neg same]
            exact wasLive
        · exact ⟨former, Or.inr wasRetired, equal⟩
      apart := by
        intro otherId other retired present retiredToo
        rw [live otherId] at present
        by_cases same : otherId = entryId
        · rw [same] at retiredToo
          exact valid.apart entryId entry retired found retiredToo
        · rw [if_neg same] at present
          exact valid.apart otherId other retired present retiredToo
      known := by
        intro otherId other held
        rcases held with present | present
        · rw [live otherId] at present
          by_cases same : otherId = entryId
          · rw [same]
            exact valid.known entryId entry (Or.inl found)
          · rw [if_neg same] at present
            exact valid.known otherId other (Or.inl present)
        · exact valid.known otherId other (Or.inr present) }

/-- A cleared reader no longer reads its entry. -/
theorem openReaders_clear {position : Nat} {reader : PrefixReader Namespace Element}
    (found : objects.readers[position]? = some reader) (isOpen : reader.snapshot.isSome = true)
    (entryId : Nat) :
    tally (PrefixReader.reads entryId) (objects.readers.modify position PrefixReader.clear) =
      objects.openReaders entryId - if reader.entryId = entryId then 1 else 0 := by
  rw [tally_modify _ _ found]
  have cleared : reader.clear.reads entryId = 0 := by
    apply if_neg
    rintro ⟨impossible, _⟩
    cases impossible
  have before : reader.reads entryId = if reader.entryId = entryId then 1 else 0 := by
    unfold PrefixReader.reads
    simp only [isOpen, true_and]
  rw [cleared, before, Int.add_zero]
  rfl

/-- A reader that is open after another one was cleared was open before. -/
theorem open_before_clear {position other : Nat} {reader : PrefixReader Namespace Element}
    {snapshot : PrefixSnapshot Namespace Element}
    (present : (objects.readers.modify position PrefixReader.clear)[other]? = some reader)
    (isOpen : reader.snapshot = some snapshot) : objects.readers[other]? = some reader := by
  rw [List.getElem?_modify] at present
  rcases Option.map_eq_some_iff.mp present with ⟨former, found, equal⟩
  by_cases same : position = other
  · simp only [same, if_true] at equal
    rw [← equal] at isOpen
    cases isOpen
  · simp only [same, if_false] at equal
    rw [found]
    exact congrArg some equal

theorem closeLive (valid : Conserved objects) {position : Nat}
    {reader : PrefixReader Namespace Element} {entry : CacheEntry Namespace Element}
    (found : objects.readers[position]? = some reader) (isOpen : reader.snapshot.isSome = true)
    (live : objects.cache.entries.get? reader.entryId = some entry) :
    Conserved ((objects.unpinLive reader.entryId entry).clearReader position) where
  counted := by
    intro otherId other held
    change other.readers = tally _ (objects.readers.modify position _)
    rw [openReaders_clear found isOpen]
    rcases held with present | present
    · change (objects.cache.entries.set reader.entryId _).get? otherId = some other at present
      rw [Dict.get?_set] at present
      by_cases same : otherId = reader.entryId
      · rw [if_pos same] at present
        cases present
        rw [if_pos same.symm, same, ← valid.counted reader.entryId entry (Or.inl live)]
      · rw [if_neg same] at present
        rw [if_neg (Ne.symm same), valid.counted otherId other (Or.inl present)]
        omega
    · have different : reader.entryId ≠ otherId := by
        intro same
        exact valid.apart reader.entryId entry other live (same ▸ present)
      rw [if_neg different, valid.counted otherId other (Or.inr present)]
      omega
  retired_read := valid.retired_read
  reader_held := by
    intro other otherReader snapshot present otherOpen
    rcases valid.reader_held other otherReader snapshot (open_before_clear present otherOpen)
      otherOpen with ⟨former, wasLive | wasRetired, equal⟩
    · by_cases same : otherReader.entryId = reader.entryId
      · rw [same, live] at wasLive
        cases wasLive
        refine ⟨{ entry with readers := entry.readers - 1 }, Or.inl ?_, equal⟩
        change (objects.cache.entries.set reader.entryId _).get? otherReader.entryId = _
        rw [Dict.get?_set, if_pos same]
      · refine ⟨former, Or.inl ?_, equal⟩
        change (objects.cache.entries.set reader.entryId _).get? otherReader.entryId = _
        rw [Dict.get?_set_of_ne _ _ same]
        exact wasLive
    · exact ⟨former, Or.inr wasRetired, equal⟩
  apart := by
    intro otherId other retired present retiredToo
    change (objects.cache.entries.set reader.entryId _).get? otherId = some other at present
    rw [Dict.get?_set] at present
    by_cases same : otherId = reader.entryId
    · exact valid.apart reader.entryId entry retired live (same ▸ retiredToo)
    · rw [if_neg same] at present
      exact valid.apart otherId other retired present retiredToo
  known := by
    intro otherId other held
    rcases held with present | present
    · change (objects.cache.entries.set reader.entryId _).get? otherId = some other at present
      rw [Dict.get?_set] at present
      by_cases same : otherId = reader.entryId
      · rw [same]
        exact valid.known reader.entryId entry (Or.inl live)
      · rw [if_neg same] at present
        exact valid.known otherId other (Or.inl present)
    · exact valid.known otherId other (Or.inr present)

theorem closeRetired (valid : Conserved objects) {position : Nat}
    {reader : PrefixReader Namespace Element} {entry : CacheEntry Namespace Element}
    (found : objects.readers[position]? = some reader) (isOpen : reader.snapshot.isSome = true)
    (retired : objects.cache.retired.get? reader.entryId = some entry) :
    Conserved ((objects.unpinRetired reader.entryId entry).clearReader position) := by
  have lookup : forall otherId other,
      ((objects.unpinRetired reader.entryId entry).clearReader position).cache.retired.get?
          otherId = some other <->
        if otherId = reader.entryId then
          entry.readers - 1 ≠ 0 ∧ { entry with readers := entry.readers - 1 } = other
        else objects.cache.retired.get? otherId = some other := by
    intro otherId other
    change Dict.get? (if entry.readers - 1 = 0 then _ else _) otherId = some other <-> _
    by_cases last : entry.readers - 1 = 0
    · rw [if_pos last, Dict.get?_erase]
      by_cases same : otherId = reader.entryId <;> simp [same, last]
    · rw [if_neg last, Dict.get?_set]
      by_cases same : otherId = reader.entryId <;> simp [same, last]
  have count := valid.counted reader.entryId entry (Or.inr retired)
  have positive := valid.retired_read reader.entryId entry retired
  exact
    { counted := by
        intro otherId other held
        change other.readers = tally _ (objects.readers.modify position _)
        rw [openReaders_clear found isOpen]
        rcases held with present | present
        · have different : reader.entryId ≠ otherId := by
            intro same
            exact valid.apart reader.entryId other entry (same ▸ present) retired
          rw [if_neg different, valid.counted otherId other (Or.inl present)]
          omega
        · have facts := (lookup otherId other).mp present
          by_cases same : otherId = reader.entryId
          · rw [if_pos same] at facts
            rw [if_pos same.symm, same, ← facts.2, ← count]
          · rw [if_neg same] at facts
            rw [if_neg (Ne.symm same), valid.counted otherId other (Or.inr facts)]
            omega
      retired_read := by
        intro otherId other present
        have facts := (lookup otherId other).mp present
        by_cases same : otherId = reader.entryId
        · rw [if_pos same] at facts
          rw [← facts.2]
          change 0 < entry.readers - 1
          omega
        · rw [if_neg same] at facts
          exact valid.retired_read otherId other facts
      reader_held := by
        intro other otherReader snapshot present otherOpen
        rcases valid.reader_held other otherReader snapshot (open_before_clear present otherOpen)
          otherOpen with ⟨former, wasLive | wasRetired, equal⟩
        · exact ⟨former, Or.inl wasLive, equal⟩
        · by_cases same : otherReader.entryId = reader.entryId
          · rw [same, retired] at wasRetired
            cases wasRetired
            -- Another open reader of the entry keeps it from being dropped.
            have another := PrefixObjects.openReaders_positive present (by rw [otherOpen]; rfl)
            change 0 < tally _ (objects.readers.modify position _) at another
            rw [openReaders_clear found isOpen, if_pos same.symm, same, ← count] at another
            refine ⟨{ entry with readers := entry.readers - 1 }, Or.inr ((lookup _ _).mpr ?_), equal⟩
            rw [if_pos same]
            exact ⟨by omega, rfl⟩
          · refine ⟨former, Or.inr ((lookup _ _).mpr ?_), equal⟩
            rw [if_neg same]
            exact wasRetired
      apart := by
        intro otherId other otherRetired present retiredToo
        have facts := (lookup otherId otherRetired).mp retiredToo
        by_cases same : otherId = reader.entryId
        · exact valid.apart reader.entryId other entry (same ▸ present) retired
        · rw [if_neg same] at facts
          exact valid.apart otherId other otherRetired present facts
      known := by
        intro otherId other held
        rcases held with present | present
        · exact valid.known otherId other (Or.inl present)
        · have facts := (lookup otherId other).mp present
          by_cases same : otherId = reader.entryId
          · rw [same]
            exact valid.known reader.entryId entry (Or.inr retired)
          · rw [if_neg same] at facts
            exact valid.known otherId other (Or.inr facts) }

/-- An entry without readers can be dropped. -/
theorem dropLive (valid : Conserved objects) {entryId : Nat}
    {entry : CacheEntry Namespace Element}
    (found : objects.cache.entries.get? entryId = some entry) (unread : entry.readers = 0) :
    Conserved { objects with
      cache := { objects.cache with entries := objects.cache.entries.erase entryId } } := by
  have live : forall otherId other,
      (objects.cache.entries.erase entryId).get? otherId = some other ->
        objects.cache.entries.get? otherId = some other := by
    intro otherId other present
    rw [Dict.get?_erase] at present
    by_cases same : otherId = entryId
    · rw [if_pos same] at present
      cases present
    · rwa [if_neg same] at present
  have held : forall otherId other,
      (objects.cache.entries.erase entryId).get? otherId = some other ∨
        objects.cache.retired.get? otherId = some other -> objects.cache.Held otherId other :=
    fun otherId other either => either.imp_left (live otherId other)
  exact
    { counted := fun otherId other present => valid.counted otherId other (held _ _ present)
      retired_read := valid.retired_read
      reader_held := by
        intro position reader snapshot present isOpen
        rcases valid.reader_held position reader snapshot present isOpen with
          ⟨former, wasLive | wasRetired, equal⟩
        · refine ⟨former, Or.inl ?_, equal⟩
          change (objects.cache.entries.erase entryId).get? reader.entryId = some former
          rw [Dict.get?_erase_of_ne]
          · exact wasLive
          · intro same
            change objects.readers[position]? = some reader at present
            have positive := PrefixObjects.openReaders_positive present (by rw [isOpen]; rfl)
            rw [same, ← valid.counted entryId entry (Or.inl found), unread] at positive
            exact absurd positive (Int.lt_irrefl 0)
        · exact ⟨former, Or.inr wasRetired, equal⟩
      apart := fun otherId other retired present =>
        valid.apart otherId other retired (live otherId other present)
      known := fun otherId other present => valid.known otherId other (held _ _ present) }

/-- A published entry is new: no id that large was given out. -/
theorem insert (valid : Conserved objects) {snapshot : PrefixSnapshot Namespace Element}
    (resident : snapshot.hostResident = true) :
    Conserved (objects.insert snapshot resident) := by
  have unheld : forall entry, ¬ objects.cache.Held (objects.cache.nextId + 1) entry := by
    intro entry held
    have small := valid.known _ entry held
    omega
  have lookup : forall otherId other,
      (objects.insert snapshot resident).cache.Held otherId other ->
        (otherId = objects.cache.nextId + 1 ∧ other.readers = 0) ∨
          objects.cache.Held otherId other := by
    intro otherId other held
    rcases held with present | present
    · change (objects.cache.entries.set (objects.cache.nextId + 1) _).get? otherId = _ at present
      rw [Dict.get?_set] at present
      by_cases new : otherId = objects.cache.nextId + 1
      · rw [if_pos new] at present
        cases present
        exact Or.inl ⟨new, rfl⟩
      · rw [if_neg new] at present
        exact Or.inr (Or.inl present)
    · exact Or.inr (Or.inr present)
  have unread : objects.openReaders (objects.cache.nextId + 1) = 0 := by
    apply Classical.byContradiction
    intro positive
    have nonneg := objects.openReaders_nonneg (objects.cache.nextId + 1)
    have some : 0 < objects.openReaders (objects.cache.nextId + 1) := by omega
    rcases PrefixObjects.exists_open_reader some with ⟨reader, member, isOpen, reads⟩
    rcases List.mem_iff_getElem?.mp member with ⟨position, present⟩
    rcases Option.isSome_iff_exists.mp isOpen with ⟨held, equal⟩
    rcases valid.reader_held position reader held present equal with ⟨entry, entryHeld, _⟩
    exact unheld entry (reads ▸ entryHeld)
  exact
    { counted := by
        intro otherId other held
        change other.readers = objects.openReaders otherId
        rcases lookup otherId other held with ⟨new, none⟩ | before
        · rw [none, new, unread]
        · exact valid.counted otherId other before
      retired_read := valid.retired_read
      reader_held := by
        intro position reader held present isOpen
        rcases valid.reader_held position reader held present isOpen with
          ⟨former, wasLive | wasRetired, equal⟩
        · refine ⟨former, Or.inl ?_, equal⟩
          change (objects.cache.entries.set _ _).get? reader.entryId = some former
          rw [Dict.get?_set_of_ne]
          · exact wasLive
          · intro new
            exact unheld former (Or.inl (new ▸ wasLive))
        · exact ⟨former, Or.inr wasRetired, equal⟩
      apart := by
        intro otherId other retired present retiredToo
        change (objects.cache.entries.set _ _).get? otherId = some other at present
        rw [Dict.get?_set] at present
        by_cases new : otherId = objects.cache.nextId + 1
        · exact unheld retired (Or.inr (new ▸ retiredToo))
        · rw [if_neg new] at present
          exact valid.apart otherId other retired present retiredToo
      known := by
        intro otherId other held
        change otherId ≤ objects.cache.nextId + 1
        rcases lookup otherId other held with ⟨new, _⟩ | before
        · omega
        · have small := valid.known otherId other before
          omega }

theorem flush (valid : Conserved objects) : Conserved objects.flush := by
  have nodup : ((objects.cache.entries.items.filter (fun item => item.2.readers ≠ 0)).map
      Prod.fst).Nodup :=
    objects.cache.entries.nodup.sublist (List.filter_sublist.map Prod.fst)
  -- After a flush everything held is retired: the read entries and the old ones.
  have lookup : forall entryId entry,
      objects.flush.cache.retired.get? entryId = some entry <->
        (objects.cache.entries.get? entryId = some entry ∧ entry.readers ≠ 0) ∨
          objects.cache.retired.get? entryId = some entry := by
    intro entryId entry
    change (objects.cache.retired.update _).get? entryId = some entry <-> _
    rw [Dict.get?_update_iff nodup, List.mem_filter, decide_eq_true_eq]
    constructor
    · intro either
      rcases either with ⟨live, read⟩ | ⟨_, before⟩
      · exact Or.inl ⟨Dict.get?_eq_some_iff.mpr live, read⟩
      · exact Or.inr before
    · intro either
      rcases either with ⟨live, read⟩ | before
      · exact Or.inl ⟨Dict.get?_eq_some_iff.mp live, read⟩
      · refine Or.inr ⟨?_, before⟩
        intro member
        rcases List.mem_map.mp member with ⟨item, kept, equal⟩
        have live := Dict.get?_eq_some_iff.mpr (List.mem_filter.mp kept).1
        rw [equal] at live
        exact valid.apart entryId item.2 entry live before
  have held : forall entryId entry, objects.flush.cache.Held entryId entry ->
      objects.cache.Held entryId entry := by
    intro entryId entry either
    rcases either with impossible | present
    · cases impossible
    · exact ((lookup entryId entry).mp present).imp_left And.left
  exact
    { counted := fun entryId entry present => valid.counted entryId entry (held _ _ present)
      retired_read := by
        intro entryId entry present
        rcases (lookup entryId entry).mp present with ⟨live, read⟩ | before
        · have nonneg := objects.openReaders_nonneg entryId
          have count := valid.counted entryId entry (Or.inl live)
          omega
        · exact valid.retired_read entryId entry before
      reader_held := by
        intro position reader snapshot present isOpen
        rcases valid.reader_held position reader snapshot present isOpen with
          ⟨former, formerHeld, equal⟩
        refine ⟨former, Or.inr ((lookup _ _).mpr ?_), equal⟩
        change objects.readers[position]? = some reader at present
        have positive := PrefixObjects.openReaders_positive present (by rw [isOpen]; rfl)
        have count := valid.counted reader.entryId former formerHeld
        exact formerHeld.imp_left (fun live => ⟨live, by omega⟩)
      apart := fun entryId live retired present => by cases present
      known := fun entryId entry present => valid.known entryId entry (held _ _ present) }

end Conserved

/-! ## Closes never raise -/

variable {objects : PrefixObjects Namespace Element}

/-- What a close leaves: the invariant, and the same live ids. -/
structure ClosedWell (before after : PrefixObjects Namespace Element) : Prop where
  conserved : Conserved after
  same_keys : after.cache.entries.keys = before.cache.entries.keys

theorem releaseEntry_returns {entryId : Nat} {entry : CacheEntry Namespace Element}
    (valid : Conserved objects) (held : objects.cache.Held entryId entry)
    (read : 0 < entry.readers) :
    Leaves
      (fun _ after =>
        (objects.cache.entries.get? entryId = some entry ∧
          after = objects.unpinLive entryId entry) ∨
        (objects.cache.retired.get? entryId = some entry ∧
          after = objects.unpinRetired entryId entry))
      (fun _ _ => False) ((releaseEntry entryId).run objects) := by
  have unique : forall table : Dict Nat (CacheEntry Namespace Element),
      table.get? entryId = some entry -> forall other, table.get? entryId = some other ->
        other = entry := by
    intro table first other second
    rw [first] at second
    exact (Option.some.inj second).symm
  unfold releaseEntry
  apply (Leaves.bind_iff _ _ _).mpr
  apply (Leaves.get_iff _).mpr
  by_cases present : objects.cache.entries.contains entryId = true
  · rw [if_pos present]
    rcases Dict.mem_keys_iff.mp (of_decide_eq_true present) with ⟨other, found⟩
    have live : objects.cache.entries.get? entryId = some entry := by
      rcases held with live | retired
      · exact live
      · exact absurd retired (valid.apart entryId other entry found)
    apply (Leaves.bind_iff _ _ _).mpr
    apply (Leaves.getItem_iff _ _ _).mpr
    refine ⟨fun absent => Option.some_ne_none _ (live.symm.trans absent), fun value looked => ?_⟩
    rw [unique _ live value looked]
    apply (Leaves.bind_iff _ _ _).mpr
    apply (Leaves.raiseIf_iff _ _ _).mpr
    exact ⟨fun none => by omega, fun _ => Or.inl ⟨live, rfl⟩⟩
  · rw [if_neg present]
    have retired : objects.cache.retired.get? entryId = some entry := by
      rcases held with live | retired
      · exact absurd (decide_eq_true (Dict.mem_keys_iff.mpr ⟨entry, live⟩)) present
      · exact retired
    apply (Leaves.bind_iff _ _ _).mpr
    apply (Leaves.getItem_iff _ _ _).mpr
    refine ⟨fun absent => Option.some_ne_none _ (retired.symm.trans absent), fun value looked => ?_⟩
    rw [unique _ retired value looked]
    apply (Leaves.bind_iff _ _ _).mpr
    apply (Leaves.raiseIf_iff _ _ _).mpr
    exact ⟨fun none => by omega, fun _ => Or.inr ⟨retired, rfl⟩⟩

theorem closeReader_returns (valid : Conserved objects) (position : Nat) :
    Leaves (fun _ after => ClosedWell objects after) (fun _ _ => False)
      ((closeReader position).run objects) := by
  unfold closeReader
  apply (Leaves.bind_iff _ _ _).mpr
  apply (Leaves.get_iff _).mpr
  cases found : objects.readers[position]? with
  | none => exact ⟨valid, rfl⟩
  | some reader =>
      cases isOpen : reader.snapshot with
      | none =>
          simp only [isOpen]
          exact ⟨valid, rfl⟩
      | some snapshot =>
          simp only [isOpen]
          have isSome : reader.snapshot.isSome = true := by rw [isOpen]; rfl
          have positive := PrefixObjects.openReaders_positive found isSome
          rcases valid.reader_held position reader snapshot found isOpen with ⟨entry, held, _⟩
          have count := valid.counted reader.entryId entry held
          apply (Leaves.bind_iff _ _ _).mpr
          apply (releaseEntry_returns valid held (by omega)).mono
          · intro _ after released
            apply (Leaves.modify_iff _ _).mpr
            rcases released with ⟨live, rfl⟩ | ⟨retired, rfl⟩
            · exact ⟨valid.closeLive found isSome live,
                Dict.keys_set_of_present _ (Dict.mem_keys_iff.mpr ⟨entry, live⟩)⟩
            · exact ⟨valid.closeRetired found isSome retired, rfl⟩
          · exact fun _ _ impossible => impossible

theorem closeReservation_returns (valid : Conserved objects) (position : Nat) :
    Leaves (fun _ after => ClosedWell objects after) (fun _ _ => False)
      ((closeReservation position).run objects) := by
  unfold closeReservation
  apply (Leaves.bind_iff _ _ _).mpr
  apply (Leaves.get_iff _).mpr
  cases objects.reservations[position]? with
  | none => exact ⟨valid, rfl⟩
  | some reservation =>
      cases isOpen : reservation.active with
      | false =>
          simp only [isOpen]
          exact ⟨valid, rfl⟩
      | true =>
          simp only [isOpen, if_true]
          have settled : Conserved (objects.settle position reservation.size) :=
            valid.congr rfl rfl rfl rfl
          apply (Leaves.bind_iff _ _ _).mpr
          apply (Leaves.set_iff _ _).mpr
          cases reservation.basisReader with
          | none => exact ⟨settled, rfl⟩
          | some reader =>
              apply (closeReader_returns settled reader).mono
              · exact fun _ after closed => ⟨closed.conserved, closed.same_keys⟩
              · exact fun _ _ impossible => impossible

/-! ## The other methods -/

theorem acquire_conserved [DecidableEq Namespace] (valid : Conserved objects)
    (namespaceKey : Namespace) (tokens : Bytes) (limit : Option Int) (count : Bool)
    (identity : Option ImagePrefixIdentity) :
    Conserved (finalState ((acquire namespaceKey tokens limit count identity).run objects)) := by
  apply Leaves.finalState_iff.mp
  unfold acquire
  apply (Leaves.bind_iff _ _ _).mpr
  apply (Leaves.get_iff _).mpr
  cases longestMatch objects.cache namespaceKey tokens limit identity with
  | error cause => exact valid
  | ok best =>
      cases best with
      | none => exact valid.congr rfl rfl rfl rfl
      | some found =>
          apply (Leaves.bind_iff _ _ _).mpr
          apply (Leaves.getItem_iff _ _ _).mpr
          refine ⟨fun _ => valid, fun entry present => ?_⟩
          exact (valid.pin present).congr rfl rfl rfl rfl

/-- Evictions keep the invariant and every entry that is read. -/
theorem makeRoom_conserved (size : Int) (readers : List (PrefixReader Namespace Element))
    (reservations : List PrefixReservation) (fuel : Nat) :
    forall cache : HostPrefixCache Namespace Element,
      Conserved ⟨cache, readers, reservations⟩ ->
      Conserved ⟨(makeRoom size fuel cache).2, readers, reservations⟩ ∧
        forall entryId entry, cache.entries.get? entryId = some entry -> entry.readers ≠ 0 ->
          (makeRoom size fuel cache).2.entries.get? entryId = some entry := by
  induction fuel with
  | zero => exact fun cache valid => ⟨valid, fun _ _ live _ => live⟩
  | succ fuel inductionHypothesis =>
      intro cache valid
      unfold makeRoom
      by_cases room : cache.hasRoom size
      · rw [if_pos room]
        exact ⟨valid, fun _ _ live _ => live⟩
      · rw [if_neg room]
        unfold HostPrefixCache.evictOne
        cases search : cache.entries.items.find? (fun item => item.2.readers = 0) with
        | none => exact ⟨valid, fun _ _ live _ => live⟩
        | some item =>
            have found : cache.entries.get? item.1 = some item.2 :=
              Dict.get?_eq_some_iff.mpr (List.mem_of_find?_eq_some search)
            have unread := List.find?_some search
            rw [decide_eq_true_eq] at unread
            have dropped : Conserved (⟨{ cache with
                entries := cache.entries.erase item.1
                evictions := cache.evictions + 1 }, readers, reservations⟩ :
                PrefixObjects Namespace Element) :=
              (valid.dropLive found unread).congr rfl rfl rfl rfl
            rcases inductionHypothesis _ dropped with ⟨conserved, kept⟩
            refine ⟨conserved, fun entryId entry live read => kept entryId entry ?_ read⟩
            change (cache.entries.erase item.1).get? entryId = some entry
            rw [Dict.get?_erase_of_ne]
            · exact live
            · rintro rfl
              rw [found] at live
              cases live
              exact read unread

theorem reserve_conserved (valid : Conserved objects) (size : Int) :
    Conserved (finalState ((reserve size).run objects)) ∧
      forall entryId entry, objects.cache.entries.get? entryId = some entry ->
        entry.readers ≠ 0 ->
        (finalState ((reserve size).run objects)).cache.entries.get? entryId = some entry := by
  unfold reserve
  rw [EStateM.run_bind, EStateM.run_get]
  by_cases refused : size ≤ 0 ∨ size > objects.cache.limits.budgetBytes
  · simp only [if_pos refused]
    exact ⟨valid, fun _ _ live _ => live⟩
  · simp only [if_neg refused]
    rcases makeRoom_conserved size objects.readers objects.reservations
      (objects.cache.entries.size + 1) objects.cache valid with ⟨conserved, kept⟩
    cases (makeRoom size (objects.cache.entries.size + 1) objects.cache).1 with
    | false => exact ⟨conserved, kept⟩
    | true => exact ⟨conserved.congr rfl rfl rfl rfl, kept⟩

theorem publishBody_conserved (valid : Conserved objects) (reservation : PrefixReservation)
    (snapshot : PrefixSnapshot Namespace Element) (completed : Bool) :
    Conserved (finalState ((publishBody reservation snapshot completed).run objects)) := by
  apply Leaves.finalState_iff.mp
  unfold publishBody
  apply (Leaves.bind_iff _ _ _).mpr
  apply (Leaves.raiseIf_iff _ _ _).mpr
  refine ⟨fun _ => valid, fun _ => ?_⟩
  apply (Leaves.bind_iff _ _ _).mpr
  apply (Leaves.get_iff _).mpr
  apply (Leaves.bind_iff _ _ _).mpr
  apply (Leaves.raiseIf_iff _ _ _).mpr
  refine ⟨fun _ => valid, fun _ => ?_⟩
  cases checkSnapshot snapshot with
  | error cause => exact valid
  | ok _ =>
      by_cases resident : snapshot.hostResident = true
      · simp only [resident, dite_true]
        apply (Leaves.bind_iff _ _ _).mpr
        apply (Leaves.raiseIf_iff _ _ _).mpr
        exact ⟨fun _ => valid, fun _ => valid.insert resident⟩
      · simp only [resident]
        exact valid

theorem publish_conserved (valid : Conserved objects) (position : Nat)
    (snapshot : PrefixSnapshot Namespace Element) (completed : Bool) :
    Conserved (finalState ((publish position snapshot completed).run objects)) := by
  apply Leaves.finalState_iff.mp
  unfold publish
  apply (Leaves.bind_iff _ _ _).mpr
  apply (Leaves.get_iff _).mpr
  cases objects.reservations[position]? with
  | none => exact valid
  | some reservation =>
      apply (Leaves.bind_iff _ _ _).mpr
      apply (Leaves.raiseIf_iff _ _ _).mpr
      refine ⟨fun _ => valid, fun _ => ?_⟩
      apply (Leaves.tryFinally_iff _ _ _).mpr
      have closes : forall after, Conserved after ->
          Leaves (fun _ last => Conserved last)
            (fun _ (last : PrefixObjects Namespace Element) => Conserved last)
            ((closeReservation position).run after) := by
        intro after conserved
        apply (closeReservation_returns conserved position).mono
        · exact fun _ _ closed => closed.conserved
        · exact fun _ _ impossible => absurd impossible id
      have body := publishBody_conserved valid reservation snapshot completed
      apply (Leaves.finalState_iff.mpr body).mono
      · exact fun _ after conserved => closes after conserved
      · exact fun _ after conserved => closes after conserved

theorem performCache_conserved [DecidableEq Namespace] (valid : Conserved objects)
    (operation : CacheOperation Namespace Element) :
    Conserved (finalState ((performCache operation).run objects)) := by
  cases operation with
  | acquire namespaceKey tokens limit count identity =>
      rw [performCache, finalState_map]
      exact acquire_conserved valid namespaceKey tokens limit count identity
  | reserve size =>
      rw [performCache, finalState_map]
      exact (reserve_conserved valid size).1
  | setBasisReader reservation reader =>
      rw [performCache, finalState_map]
      exact valid.congr rfl rfl rfl rfl
  | publish reservation snapshot completed =>
      rw [performCache, finalState_map]
      exact publish_conserved valid reservation snapshot completed
  | closeReservation reservation =>
      rw [performCache, finalState_map]
      rcases (closeReservation_returns valid reservation).exists_ok with ⟨_, after, ran, closed⟩
      rw [ran]
      exact closed.conserved
  | closeReader reader =>
      rw [performCache, finalState_map]
      rcases (closeReader_returns valid reader).exists_ok with ⟨_, after, ran, closed⟩
      rw [ran]
      exact closed.conserved
  | reset =>
      rw [performCache, finalState_map]
      exact valid.flush

/-! ## Entry ids -/

theorem closeReservation_nextId (position : Nat) :
    Keeps (fun before after : PrefixObjects Namespace Element =>
      after.cache.nextId = before.cache.nextId) (closeReservation position) := by
  apply Keeps.of_leaves
  intro objects
  unfold closeReservation
  apply (Leaves.bind_iff _ _ _).mpr
  apply (Leaves.get_iff _).mpr
  cases objects.reservations[position]? with
  | none => exact rfl
  | some reservation =>
      cases isOpen : reservation.active with
      | false =>
          simp only [isOpen]
          exact rfl
      | true =>
          simp only [isOpen, if_true]
          apply (Leaves.bind_iff _ _ _).mpr
          apply (Leaves.set_iff _ _).mpr
          cases reservation.basisReader with
          | none => exact rfl
          | some reader =>
              apply ((closeReader_shrinks reader).leaves _).mono
              · exact fun _ _ shrinks => shrinks.nextId
              · exact fun _ _ shrinks => shrinks.nextId

/-- A publication hands out the next id; one that raises leaves the counter. -/
theorem publish_nextId (objects : PrefixObjects Namespace Element) (position : Nat) (snapshot : PrefixSnapshot Namespace Element)
    (completed : Bool) :
    Leaves
      (fun entryId after => entryId = objects.cache.nextId + 1 ∧ after.cache.nextId = entryId)
      (fun _ after => objects.cache.nextId ≤ after.cache.nextId)
      ((publish position snapshot completed).run objects) := by
  unfold publish
  apply (Leaves.bind_iff _ _ _).mpr
  apply (Leaves.get_iff _).mpr
  cases objects.reservations[position]? with
  | none => exact Nat.le_refl objects.cache.nextId
  | some reservation =>
      apply (Leaves.bind_iff _ _ _).mpr
      apply (Leaves.raiseIf_iff _ _ _).mpr
      refine ⟨fun _ => Nat.le_refl _, fun _ => ?_⟩
      apply (Leaves.tryFinally_iff _ _ _).mpr
      have body : Leaves
          (fun entryId after => entryId = objects.cache.nextId + 1 ∧
            after.cache.nextId = entryId)
          (fun _ after => after = objects)
          ((publishBody reservation snapshot completed).run objects) := by
        unfold publishBody
        apply (Leaves.bind_iff _ _ _).mpr
        apply (Leaves.raiseIf_iff _ _ _).mpr
        refine ⟨fun _ => rfl, fun _ => ?_⟩
        apply (Leaves.bind_iff _ _ _).mpr
        apply (Leaves.get_iff _).mpr
        apply (Leaves.bind_iff _ _ _).mpr
        apply (Leaves.raiseIf_iff _ _ _).mpr
        refine ⟨fun _ => rfl, fun _ => ?_⟩
        cases checkSnapshot snapshot with
        | error cause => exact rfl
        | ok _ =>
            by_cases resident : snapshot.hostResident = true
            · simp only [resident, dite_true]
              apply (Leaves.bind_iff _ _ _).mpr
              apply (Leaves.raiseIf_iff _ _ _).mpr
              exact ⟨fun _ => rfl, fun _ => ⟨rfl, rfl⟩⟩
            · simp only [resident]
              exact rfl
      apply body.mono
      · rintro entryId after ⟨isNext, counter⟩
        have same := closeReservation_nextId position after
        cases ran : (closeReservation position).run after with
        | ok value last =>
            rw [ran] at same
            exact ⟨isNext, same.trans counter⟩
        | error cause last =>
            rw [ran] at same
            change objects.cache.nextId ≤ last.cache.nextId
            rw [finalState_error] at same
            omega
      · rintro _ after rfl
        have same := closeReservation_nextId position after
        cases ran : (closeReservation position).run after with
        | ok value last =>
            rw [ran] at same
            exact Nat.le_of_eq same.symm
        | error cause last =>
            rw [ran] at same
            exact Nat.le_of_eq same.symm

theorem reserve_nextId (size : Int) :
    (finalState ((reserve size).run objects)).cache.nextId = objects.cache.nextId := by
  unfold reserve
  rw [EStateM.run_bind, EStateM.run_get]
  by_cases refused : size ≤ 0 ∨ size > objects.cache.limits.budgetBytes
  · simp only [if_pos refused]
    rfl
  · simp only [if_neg refused]
    have same := (makeRoom_shrinks size objects.readers objects.reservations
      (objects.cache.entries.size + 1) objects.cache).nextId
    cases (makeRoom size (objects.cache.entries.size + 1) objects.cache).1 with
    | false => exact same
    | true => exact same

theorem performCache_returns [DecidableEq Namespace]
    {operation : CacheOperation Namespace Element} {entryId : Nat}
    (returns : outcome ((performCache operation).run objects) = .ok (some entryId)) :
    entryId = objects.cache.nextId + 1 ∧
      (finalState ((performCache operation).run objects)).cache.nextId = entryId := by
  cases operation with
  | publish reservation snapshot completed =>
      rcases outcome_map_ok returns with ⟨result, after, ran, equal⟩
      cases equal
      have counted := publish_nextId objects reservation snapshot completed
      rw [performCache, finalState_map]
      rw [ran] at counted
      rw [ran]
      exact counted
  | _ =>
      rcases outcome_map_ok returns with ⟨_, _, _, impossible⟩
      cases impossible

theorem performCache_nextId [DecidableEq Namespace]
    (operation : CacheOperation Namespace Element) :
    objects.cache.nextId ≤
      (finalState ((performCache operation).run objects)).cache.nextId := by
  cases operation with
  | acquire namespaceKey tokens limit count identity =>
      rw [performCache, finalState_map]
      exact Nat.le_of_eq (acquire_shrinks namespaceKey tokens limit count identity objects).nextId.symm
  | reserve size =>
      rw [performCache, finalState_map]
      exact Nat.le_of_eq (reserve_nextId size).symm
  | setBasisReader reservation reader =>
      rw [performCache, finalState_map]
      exact Nat.le_refl objects.cache.nextId
  | publish reservation snapshot completed =>
      rw [performCache, finalState_map]
      have counted := publish_nextId objects reservation snapshot completed
      cases ran : (publish reservation snapshot completed).run objects with
      | ok value after =>
          rw [ran] at counted
          change objects.cache.nextId ≤ after.cache.nextId
          rw [counted.2, counted.1]
          exact Nat.le_succ _
      | error cause after =>
          rw [ran] at counted
          exact counted
  | closeReservation reservation =>
      rw [performCache, finalState_map]
      exact Nat.le_of_eq (closeReservation_nextId reservation objects).symm
  | closeReader reader =>
      rw [performCache, finalState_map]
      exact Nat.le_of_eq (closeReader_shrinks reader objects).nextId.symm
  | reset =>
      rw [performCache, finalState_map]
      exact Nat.le_refl objects.cache.nextId

theorem ids_fresh [DecidableEq Namespace] :
    HandsOutFresh returnedValue
      (fun (objects : PrefixObjects Namespace Element) entryId => entryId ≤ objects.cache.nextId)
      performCache where
  new objects operation entryId returns := by
    rw [returnedValue_iff] at returns
    rw [(performCache_returns returns).1]
    exact Nat.not_succ_le_self _
  records objects operation entryId returns := by
    rw [returnedValue_iff] at returns
    exact Nat.le_of_eq (performCache_returns returns).2.symm
  remembers objects operation entryId known :=
    Nat.le_trans known (performCache_nextId operation)

/-! ## Every run -/

/-- The operations that only close readers and reservations. -/
def CacheOperation.isClose : CacheOperation Namespace Element -> Bool
  | .closeReservation _ => true
  | .closeReader _ => true
  | _ => false

/-- Closing adds no live entry. -/
theorem closes_keep_empty [DecidableEq Namespace]
    {closings : List (CacheOperation Namespace Element)}
    (closing : forall operation, operation ∈ closings -> operation.isClose = true) :
    forall objects : PrefixObjects Namespace Element, Conserved objects ->
      objects.cache.entries.keys = [] ->
      (callAll performCache objects closings).cache.entries.keys = [] := by
  induction closings with
  | nil => exact fun _ _ empty => empty
  | cons operation rest inductionHypothesis =>
      intro objects valid empty
      have closed : ClosedWell objects (finalState ((performCache operation).run objects)) := by
        cases operation with
        | closeReservation reservation =>
            rcases (closeReservation_returns valid reservation).exists_ok with
              ⟨_, after, ran, closed⟩
            rw [performCache, finalState_map, ran]
            exact closed
        | closeReader reader =>
            rcases (closeReader_returns valid reader).exists_ok with ⟨_, after, ran, closed⟩
            rw [performCache, finalState_map, ran]
            exact closed
        | _ => cases closing _ List.mem_cons_self
      exact inductionHypothesis
        (fun other member => closing other (List.mem_cons_of_mem _ member)) _ closed.conserved
        (closed.same_keys.trans empty)

/-- Everything handed out is closed. -/
def PrefixObjects.AllClosed (objects : PrefixObjects Namespace Element) : Prop :=
  (forall reader, reader ∈ objects.readers -> reader.snapshot = none) ∧
    forall reservation, reservation ∈ objects.reservations -> reservation.active = false

/-- Nothing is held or promised any more. -/
def PrefixObjects.Empty (objects : PrefixObjects Namespace Element) : Prop :=
  objects.cache.usedBytes = 0 ∧ objects.cache.pendingBytes = 0 ∧
    objects.cache.pendingEntries = 0 ∧ objects.cache.entries.items = [] ∧
    objects.cache.retired.items = []

/-- With no live entry left, closing everything leaves nothing behind. -/
theorem empty_of_allClosed {limits : CacheLimits} (accounted : Accounted limits objects)
    (conserved : Conserved objects) (noLive : objects.cache.entries.keys = [])
    (closed : objects.AllClosed) : objects.Empty := by
  have entries : objects.cache.entries.items = [] := List.map_eq_nil_iff.mp noLive
  have retired : objects.cache.retired.items = [] := by
    apply List.eq_nil_iff_forall_not_mem.mpr
    rintro ⟨entryId, entry⟩ member
    have found := Dict.get?_eq_some_iff.mpr member
    have positive := conserved.retired_read entryId entry found
    rw [conserved.counted entryId entry (Or.inr found)] at positive
    rcases PrefixObjects.exists_open_reader positive with ⟨reader, present, isOpen, _⟩
    rw [closed.1 reader present] at isOpen
    cases isOpen
  refine ⟨?_, ?_, ?_, entries, retired⟩
  · unfold HostPrefixCache.usedBytes HostPrefixCache.snapshots Dict.values
    rw [entries, retired]
    rfl
  · rw [accounted.pending_bytes]
    apply tally_eq_zero
    intro reservation member
    unfold PrefixReservation.openBytes
    rw [closed.2 reservation member]
    rfl
  · rw [accounted.pending_entries]
    apply tally_eq_zero
    intro reservation member
    unfold PrefixReservation.openEntries
    rw [closed.2 reservation member]
    rfl

section Runs

variable [DecidableEq Namespace] (limits : CacheLimits)
  (operations : List (CacheOperation Namespace Element))

/-- The objects after a run from a new cache. -/
abbrev cacheAfter : PrefixObjects Namespace Element :=
  callAll performCache (.initial (.initial limits)) operations

theorem cacheAfter_conserved : Conserved (cacheAfter limits operations) :=
  callAll_induction Conserved (fun _ operation valid => performCache_conserved valid operation)
    operations _ (.initial limits)

end Runs

end HostPrefix
end QSAHiSparse

import QSAHiSparse.Foundation.Calls
import QSAHiSparse.Foundation.Tally
import QSAHiSparse.HostPrefix.Cache

namespace QSAHiSparse
namespace HostPrefix

open Foundation

/-!
# The host budget

The bytes a cache answers for are those its entries reach, live or retired, and
those it has promised to open reservations.  A promise is made only when both
together leave room.  A publication adds at most its promise, which it then
gives up; everything else only lets go of storage.

Evicting an entry whose storages another entry shares frees nothing.  The bound
therefore speaks of the reached storages and never of a sum over entries.
-/

variable {Namespace Element : Type}

/-- The entry is live or retired under this id. -/
def HostPrefixCache.Held (cache : HostPrefixCache Namespace Element) (entryId : Nat)
    (entry : CacheEntry Namespace Element) : Prop :=
  cache.entries.get? entryId = some entry ∨ cache.retired.get? entryId = some entry

theorem HostPrefixCache.mem_snapshots {cache : HostPrefixCache Namespace Element}
    {snapshot : PrefixSnapshot Namespace Element} :
    snapshot ∈ cache.snapshots <->
      exists entryId entry, cache.Held entryId entry ∧ entry.snapshot = snapshot := by
  unfold HostPrefixCache.snapshots HostPrefixCache.Held
  simp only [List.mem_append, List.mem_map, Dict.mem_values_iff]
  constructor
  · intro either
    rcases either with ⟨entry, ⟨entryId, found⟩, equal⟩ | ⟨entry, ⟨entryId, found⟩, equal⟩
    · exact ⟨entryId, entry, Or.inl found, equal⟩
    · exact ⟨entryId, entry, Or.inr found, equal⟩
  · rintro ⟨entryId, entry, found | found, equal⟩
    · exact Or.inl ⟨entry, ⟨entryId, found⟩, equal⟩
    · exact Or.inr ⟨entry, ⟨entryId, found⟩, equal⟩

/-- The number of live and retired entries. -/
def HostPrefixCache.entryCount (cache : HostPrefixCache Namespace Element) : Nat :=
  cache.entries.size + cache.retired.size

/-- What an open reservation holds of the budget. -/
def PrefixReservation.openBytes (reservation : PrefixReservation) : Int :=
  if reservation.active then reservation.size else 0

def PrefixReservation.openEntries (reservation : PrefixReservation) : Int :=
  if reservation.active then 1 else 0

/-- The pending counters are those of the open reservations, and together with
the entries they keep within both limits. -/
structure Accounted (limits : CacheLimits) (objects : PrefixObjects Namespace Element) :
    Prop where
  same_limits : objects.cache.limits = limits
  pending_bytes : objects.cache.pendingBytes =
    tally PrefixReservation.openBytes objects.reservations
  pending_entries : objects.cache.pendingEntries =
    tally PrefixReservation.openEntries objects.reservations
  positive : forall size, size ∈ objects.reservations.map PrefixReservation.size -> 0 < size
  within_budget : (objects.cache.usedBytes : Int) + objects.cache.pendingBytes ≤
    limits.budgetBytes
  within_entries : (objects.cache.entryCount : Int) + objects.cache.pendingEntries ≤
    limits.maxEntries

/-! ## Letting go of storage -/

/-- Nothing is promised or settled, and no storage is newly reached. -/
structure Shrinks (before after : PrefixObjects Namespace Element) : Prop where
  limits : after.cache.limits = before.cache.limits
  nextId : after.cache.nextId = before.cache.nextId
  pending_bytes : after.cache.pendingBytes = before.cache.pendingBytes
  pending_entries : after.cache.pendingEntries = before.cache.pendingEntries
  promises : after.reservations.map (fun reservation => (reservation.size, reservation.active)) =
    before.reservations.map (fun reservation => (reservation.size, reservation.active))
  snapshots : after.cache.snapshots ⊆ before.cache.snapshots
  count : after.cache.entryCount ≤ before.cache.entryCount

namespace Shrinks

theorem refl (objects : PrefixObjects Namespace Element) : Shrinks objects objects where
  limits := rfl
  nextId := rfl
  pending_bytes := rfl
  pending_entries := rfl
  promises := rfl
  snapshots := fun _ member => member
  count := Nat.le_refl _

theorem trans (first second third : PrefixObjects Namespace Element)
    (left : Shrinks first second) (right : Shrinks second third) : Shrinks first third where
  limits := right.limits.trans left.limits
  nextId := right.nextId.trans left.nextId
  pending_bytes := right.pending_bytes.trans left.pending_bytes
  pending_entries := right.pending_entries.trans left.pending_entries
  promises := right.promises.trans left.promises
  snapshots := fun _ member => left.snapshots (right.snapshots member)
  count := Nat.le_trans right.count left.count

variable {limits : CacheLimits} {before after : PrefixObjects Namespace Element}

theorem usedBytes_le (shrinks : Shrinks before after) :
    after.cache.usedBytes ≤ before.cache.usedBytes :=
  PrefixSnapshot.footprintBytes_mono shrinks.snapshots

theorem tally_eq (shrinks : Shrinks before after) (weight : Int × Bool -> Int) :
    tally (fun reservation : PrefixReservation => weight (reservation.size, reservation.active))
        after.reservations =
      tally (fun reservation => weight (reservation.size, reservation.active))
        before.reservations := by
  have same := congrArg (List.map weight) shrinks.promises
  rw [List.map_map, List.map_map] at same
  exact congrArg List.sum same

theorem accounted (shrinks : Shrinks before after) (valid : Accounted limits before) :
    Accounted limits after where
  same_limits := shrinks.limits.trans valid.same_limits
  pending_bytes := by
    rw [shrinks.pending_bytes, valid.pending_bytes]
    exact (shrinks.tally_eq (fun promise => if promise.2 then promise.1 else 0)).symm
  pending_entries := by
    rw [shrinks.pending_entries, valid.pending_entries]
    exact (shrinks.tally_eq (fun promise => if promise.2 then 1 else 0)).symm
  positive := by
    have same := congrArg (List.map Prod.fst) shrinks.promises
    rw [List.map_map, List.map_map] at same
    change after.reservations.map PrefixReservation.size =
      before.reservations.map PrefixReservation.size at same
    rw [same]
    exact valid.positive
  within_budget := by
    have less := shrinks.usedBytes_le
    have within := valid.within_budget
    rw [shrinks.pending_bytes]
    omega
  within_entries := by
    have less := shrinks.count
    have within := valid.within_entries
    rw [shrinks.pending_entries]
    omega

/-- Rewriting entries in place, deleting or retiring them. -/
theorem of_entries {entries retired : Dict Nat (CacheEntry Namespace Element)} {epoch : Nat}
    {readers : List (PrefixReader Namespace Element)}
    (held : forall entryId entry,
      entries.get? entryId = some entry ∨ retired.get? entryId = some entry ->
      exists former, before.cache.Held entryId former ∧ former.snapshot = entry.snapshot)
    (count : entries.size + retired.size ≤ before.cache.entryCount) :
    Shrinks before
      { before with
        cache := { before.cache with entries := entries, retired := retired, epoch := epoch }
        readers := readers } where
  limits := rfl
  nextId := rfl
  pending_bytes := rfl
  pending_entries := rfl
  promises := rfl
  snapshots := by
    intro snapshot member
    rcases HostPrefixCache.mem_snapshots.mp member with ⟨entryId, entry, present, equal⟩
    rcases held entryId entry present with ⟨former, presentBefore, same⟩
    exact HostPrefixCache.mem_snapshots.mpr ⟨entryId, former, presentBefore, same.trans equal⟩
  count := count

variable (objects : PrefixObjects Namespace Element)

theorem pin {entryId : Nat} {entry : CacheEntry Namespace Element}
    (found : objects.cache.entries.get? entryId = some entry) :
    Shrinks objects (objects.pin entryId entry) := by
  apply of_entries
  · intro otherId other present
    rw [Dict.get?_moveToEnd, Dict.get?_set] at present
    by_cases same : otherId = entryId
    · rw [if_pos same] at present
      rcases present with equal | retired
      · cases equal
        rw [same]
        exact ⟨entry, Or.inl found, rfl⟩
      · exact ⟨other, Or.inr retired, rfl⟩
    · rw [if_neg same] at present
      exact ⟨other, present, rfl⟩
  · rw [Dict.size_moveToEnd,
      Dict.size_set_of_present _ (Dict.mem_keys_iff.mpr ⟨entry, found⟩)]
    exact Nat.le_refl _

theorem unpinLive {entryId : Nat} {entry : CacheEntry Namespace Element}
    (found : objects.cache.entries.get? entryId = some entry) :
    Shrinks objects (objects.unpinLive entryId entry) := by
  apply of_entries
  · intro otherId other present
    rw [Dict.get?_set] at present
    by_cases same : otherId = entryId
    · rw [if_pos same] at present
      rcases present with equal | retired
      · cases equal
        rw [same]
        exact ⟨entry, Or.inl found, rfl⟩
      · exact ⟨other, Or.inr retired, rfl⟩
    · rw [if_neg same] at present
      exact ⟨other, present, rfl⟩
  · rw [Dict.size_set_of_present _ (Dict.mem_keys_iff.mpr ⟨entry, found⟩)]
    exact Nat.le_refl _

theorem unpinRetired {entryId : Nat} {entry : CacheEntry Namespace Element}
    (found : objects.cache.retired.get? entryId = some entry) :
    Shrinks objects (objects.unpinRetired entryId entry) := by
  have sizes := Dict.size_erase_of_present found
  apply of_entries
  · intro otherId other present
    rcases present with live | retired
    · exact ⟨other, Or.inl live, rfl⟩
    · by_cases last : entry.readers - 1 = 0
      · simp only [if_pos last] at retired
        rw [Dict.get?_erase] at retired
        by_cases same : otherId = entryId
        · rw [if_pos same] at retired
          cases retired
        · rw [if_neg same] at retired
          exact ⟨other, Or.inr retired, rfl⟩
      · simp only [if_neg last] at retired
        rw [Dict.get?_set] at retired
        by_cases same : otherId = entryId
        · rw [if_pos same] at retired
          cases retired
          rw [same]
          exact ⟨entry, Or.inr found, rfl⟩
        · rw [if_neg same] at retired
          exact ⟨other, Or.inr retired, rfl⟩
  · change objects.cache.entries.size + Dict.size _ ≤
      objects.cache.entries.size + objects.cache.retired.size
    by_cases last : entry.readers - 1 = 0
    · simp only [if_pos last]
      omega
    · simp only [if_neg last]
      rw [Dict.size_set_of_present _ (Dict.mem_keys_iff.mpr ⟨entry, found⟩)]

theorem clearReader (position : Nat) : Shrinks objects (objects.clearReader position) :=
  of_entries (fun _ entry present => ⟨entry, present, rfl⟩) (Nat.le_refl _)

theorem flush : Shrinks objects objects.flush := by
  have nodup : ((objects.cache.entries.items.filter (fun item => item.2.readers ≠ 0)).map
      Prod.fst).Nodup :=
    objects.cache.entries.nodup.sublist (List.filter_sublist.map Prod.fst)
  apply of_entries
  · intro entryId entry present
    rcases present with live | retired
    · cases live
    · rcases (Dict.get?_update_iff nodup _ _ _).mp retired with moved | ⟨_, before⟩
      · exact ⟨entry, Or.inl (Dict.get?_eq_some_iff.mpr (List.mem_filter.mp moved).1), rfl⟩
      · exact ⟨entry, Or.inr before, rfl⟩
  · have grown := Dict.size_update_le
      (objects.cache.entries.items.filter (fun item => item.2.readers ≠ 0)) objects.cache.retired
    have fewer : (objects.cache.entries.items.filter (fun item => item.2.readers ≠ 0)).length ≤
        objects.cache.entries.size := List.length_filter_le _ _
    change 0 + Dict.size (Dict.update _ _) ≤
      objects.cache.entries.size + objects.cache.retired.size
    omega

end Shrinks

/-! ## Methods that only let go -/

theorem releaseEntry_shrinks (entryId : Nat) :
    Keeps (@Shrinks Namespace Element) (releaseEntry entryId) := by
  intro objects
  apply Leaves.finalState_iff.mp
  unfold releaseEntry
  apply (Leaves.bind_iff _ _ _).mpr
  apply (Leaves.get_iff _).mpr
  split
  · apply (Leaves.bind_iff _ _ _).mpr
    apply (Leaves.getItem_iff _ _ _).mpr
    refine ⟨fun _ => .refl objects, fun entry found => ?_⟩
    apply (Leaves.bind_iff _ _ _).mpr
    apply (Leaves.raiseIf_iff _ _ _).mpr
    exact ⟨fun _ => .refl objects, fun _ => .unpinLive objects found⟩
  · apply (Leaves.bind_iff _ _ _).mpr
    apply (Leaves.getItem_iff _ _ _).mpr
    refine ⟨fun _ => .refl objects, fun entry found => ?_⟩
    apply (Leaves.bind_iff _ _ _).mpr
    apply (Leaves.raiseIf_iff _ _ _).mpr
    exact ⟨fun _ => .refl objects, fun _ => .unpinRetired objects found⟩

theorem closeReader_shrinks (position : Nat) :
    Keeps (@Shrinks Namespace Element) (closeReader position) := by
  intro objects
  apply Leaves.finalState_iff.mp
  unfold closeReader
  apply (Leaves.bind_iff _ _ _).mpr
  apply (Leaves.get_iff _).mpr
  cases objects.readers[position]? with
  | none => exact .refl objects
  | some reader =>
      cases isOpen : reader.snapshot with
      | none =>
          simp only [isOpen]
          exact .refl objects
      | some snapshot =>
          simp only [isOpen]
          apply (Leaves.bind_iff _ _ _).mpr
          apply ((releaseEntry_shrinks reader.entryId).leaves objects).mono
          · exact fun _ after released => .trans _ _ _ released (.clearReader after position)
          · exact fun _ _ released => released

theorem setBasisReader_shrinks (position : Nat) (reader : Option Nat) :
    Keeps (@Shrinks Namespace Element)
      (setBasisReader position reader) := by
  intro objects
  exact
    { Shrinks.refl objects with
      promises := by
        change (objects.reservations.modify position _).map _ = _
        exact map_modify_same (fun _ => by rfl) _ _ }

theorem acquire_shrinks [DecidableEq Namespace] (namespaceKey : Namespace) (tokens : Bytes)
    (limit : Option Int) (count : Bool) (identity : Option ImagePrefixIdentity) :
    Keeps (@Shrinks Namespace Element)
      (acquire namespaceKey tokens limit count identity) := by
  intro objects
  apply Leaves.finalState_iff.mp
  unfold acquire
  apply (Leaves.bind_iff _ _ _).mpr
  apply (Leaves.get_iff _).mpr
  cases longestMatch objects.cache namespaceKey tokens limit identity with
  | error cause => exact .refl objects
  | ok best =>
      cases best with
      | none => exact { Shrinks.refl objects with }
      | some found =>
          apply (Leaves.bind_iff _ _ _).mpr
          apply (Leaves.getItem_iff _ _ _).mpr
          refine ⟨fun _ => .refl objects, fun entry present => ?_⟩
          have pinned : Shrinks objects (objects.pin found.1 entry) := .pin objects present
          exact { pinned with }

theorem reset_shrinks :
    Keeps (@Shrinks Namespace Element) reset :=
  fun objects => .flush objects

/-! ## Promises and publications -/

namespace Accounted

variable {limits : CacheLimits} {objects : PrefixObjects Namespace Element}

theorem initial :
    Accounted limits
      (PrefixObjects.initial (.initial limits : HostPrefixCache Namespace Element)) where
  same_limits := rfl
  pending_bytes := rfl
  pending_entries := rfl
  positive := fun _ member => absurd member List.not_mem_nil
  within_budget := by
    change ((0 : Nat) : Int) + 0 ≤ limits.budgetBytes
    omega
  within_entries := by
    change ((0 : Nat) : Int) + 0 ≤ limits.maxEntries
    omega

theorem promise (valid : Accounted limits objects) {size : Int} (positive : 0 < size)
    (room : objects.cache.hasRoom size) : Accounted limits (objects.promise size) where
  same_limits := valid.same_limits
  pending_bytes := by
    change objects.cache.pendingBytes + size =
      tally _ (objects.reservations ++ [⟨size, objects.cache.epoch, true, none⟩])
    rw [tally_append, valid.pending_bytes, tally_cons, tally_nil]
    change _ = _ + (size + 0)
    omega
  pending_entries := by
    change objects.cache.pendingEntries + 1 =
      tally _ (objects.reservations ++ [⟨size, objects.cache.epoch, true, none⟩])
    rw [tally_append, valid.pending_entries, tally_cons, tally_nil]
    rfl
  positive := by
    intro other member
    change other ∈ List.map _ (objects.reservations ++ [_]) at member
    rw [List.map_append] at member
    rcases List.mem_append.mp member with old | last
    · exact valid.positive other old
    · rw [List.mem_singleton.mp last]
      exact positive
  within_budget := by
    unfold HostPrefixCache.hasRoom at room
    rw [valid.same_limits] at room
    change (objects.cache.usedBytes : Int) + (objects.cache.pendingBytes + size) ≤
      limits.budgetBytes
    omega
  within_entries := by
    unfold HostPrefixCache.hasRoom at room
    rw [valid.same_limits] at room
    change ((objects.cache.entries.size + objects.cache.retired.size : Nat) : Int) +
      (objects.cache.pendingEntries + 1) ≤ limits.maxEntries
    omega

theorem settle (valid : Accounted limits objects) {position : Nat} {reservation : PrefixReservation}
    (found : objects.reservations[position]? = some reservation)
    (isOpen : reservation.active = true) :
    Accounted limits (objects.settle position reservation.size) := by
  have positive := valid.positive reservation.size
    (List.mem_map_of_mem (List.mem_of_getElem? found))
  exact
    { same_limits := valid.same_limits
      pending_bytes := by
        change objects.cache.pendingBytes - reservation.size =
          tally _ (objects.reservations.modify position _)
        rw [tally_modify _ _ found, valid.pending_bytes]
        simp only [PrefixReservation.openBytes, isOpen, if_true]
        change _ = _ + 0
        omega
      pending_entries := by
        change objects.cache.pendingEntries - 1 =
          tally _ (objects.reservations.modify position _)
        rw [tally_modify _ _ found, valid.pending_entries]
        simp only [PrefixReservation.openEntries, isOpen, if_true]
        change _ = _ + 0
        omega
      positive := by
        change forall size, size ∈ (objects.reservations.modify position _).map _ -> 0 < size
        rw [map_modify_same (fun _ => by rfl)]
        exact valid.positive
      within_budget := by
        have within := valid.within_budget
        change (objects.cache.usedBytes : Int) +
          (objects.cache.pendingBytes - reservation.size) ≤ limits.budgetBytes
        omega
      within_entries := by
        have within := valid.within_entries
        change (objects.cache.entryCount : Int) + (objects.cache.pendingEntries - 1) ≤
          limits.maxEntries
        omega }

/-- A publication within a free part of both limits. -/
theorem insert (valid : Accounted limits objects) {snapshot : PrefixSnapshot Namespace Element}
    (resident : snapshot.hostResident = true)
    (bytes : (PrefixSnapshot.footprintBytes (objects.cache.snapshots ++ [snapshot]) : Int) +
      objects.cache.pendingBytes ≤ limits.budgetBytes)
    (room : (objects.cache.entryCount : Int) + 1 + objects.cache.pendingEntries ≤
      limits.maxEntries) :
    Accounted limits (objects.insert snapshot resident) where
  same_limits := valid.same_limits
  pending_bytes := valid.pending_bytes
  pending_entries := valid.pending_entries
  positive := valid.positive
  within_budget := by
    have fewer : (objects.insert snapshot resident).cache.usedBytes ≤
        PrefixSnapshot.footprintBytes (objects.cache.snapshots ++ [snapshot]) := by
      apply PrefixSnapshot.footprintBytes_mono
      intro other member
      rcases HostPrefixCache.mem_snapshots.mp member with ⟨entryId, entry, held, equal⟩
      rw [List.mem_append, List.mem_singleton]
      rcases held with live | retired
      · change (objects.cache.entries.set _ _).get? entryId = some entry at live
        rw [Dict.get?_set] at live
        by_cases new : entryId = objects.cache.nextId + 1
        · rw [if_pos new] at live
          cases live
          exact Or.inr equal.symm
        · rw [if_neg new] at live
          exact Or.inl (HostPrefixCache.mem_snapshots.mpr ⟨entryId, entry, Or.inl live, equal⟩)
      · exact Or.inl (HostPrefixCache.mem_snapshots.mpr ⟨entryId, entry, Or.inr retired, equal⟩)
    change ((objects.insert snapshot resident).cache.usedBytes : Int) +
      objects.cache.pendingBytes ≤ limits.budgetBytes
    omega
  within_entries := by
    have grown := Dict.size_set_le objects.cache.entries (objects.cache.nextId + 1)
      ⟨snapshot, resident, 0⟩
    unfold HostPrefixCache.entryCount at room
    change ((Dict.size (objects.cache.entries.set _ _) + objects.cache.retired.size : Nat) : Int) +
      objects.cache.pendingEntries ≤ limits.maxEntries
    omega

end Accounted

variable {limits : CacheLimits} {objects : PrefixObjects Namespace Element}

/-- Every eviction lets go of an entry. -/
theorem evictOne_shrinks {cache smaller : HostPrefixCache Namespace Element}
    (evicted : cache.evictOne = some smaller) (readers : List (PrefixReader Namespace Element))
    (reservations : List PrefixReservation) :
    Shrinks ⟨cache, readers, reservations⟩ ⟨smaller, readers, reservations⟩ := by
  unfold HostPrefixCache.evictOne at evicted
  cases search : cache.entries.items.find? (fun item => item.2.readers = 0) with
  | none =>
      rw [search] at evicted
      cases evicted
  | some item =>
      rw [search] at evicted
      cases evicted
      have found : cache.entries.get? item.1 = some item.2 :=
        Dict.get?_eq_some_iff.mpr (List.mem_of_find?_eq_some search)
      have sizes := Dict.size_erase_of_present found
      have shrinks : Shrinks ⟨cache, readers, reservations⟩
          ⟨{ cache with entries := cache.entries.erase item.1 }, readers, reservations⟩ := by
        apply Shrinks.of_entries
        · intro entryId entry present
          rw [Dict.get?_erase] at present
          by_cases same : entryId = item.1
          · rw [if_pos same] at present
            rcases present with impossible | retired
            · cases impossible
            · exact ⟨entry, Or.inr retired, rfl⟩
          · rw [if_neg same] at present
            exact ⟨entry, present, rfl⟩
        · change _ ≤ cache.entries.size + cache.retired.size
          omega
      exact { shrinks with }

theorem makeRoom_shrinks (size : Int) (readers : List (PrefixReader Namespace Element))
    (reservations : List PrefixReservation) (fuel : Nat) :
    forall cache : HostPrefixCache Namespace Element,
      Shrinks ⟨cache, readers, reservations⟩
        ⟨(makeRoom size fuel cache).2, readers, reservations⟩ := by
  induction fuel with
  | zero => exact fun cache => .refl _
  | succ fuel inductionHypothesis =>
      intro cache
      unfold makeRoom
      by_cases room : cache.hasRoom size
      · rw [if_pos room]
        exact .refl _
      · rw [if_neg room]
        cases evicted : cache.evictOne with
        | none => exact .refl _
        | some smaller =>
            exact .trans _ _ _ (evictOne_shrinks evicted readers reservations)
              (inductionHypothesis smaller)

theorem makeRoom_hasRoom (size : Int) (fuel : Nat) :
    forall cache : HostPrefixCache Namespace Element,
      (makeRoom size fuel cache).1 = true -> (makeRoom size fuel cache).2.hasRoom size := by
  induction fuel with
  | zero => exact fun cache made => by cases made
  | succ fuel inductionHypothesis =>
      intro cache
      unfold makeRoom
      by_cases room : cache.hasRoom size
      · rw [if_pos room]
        exact fun _ => room
      · rw [if_neg room]
        cases evicted : cache.evictOne with
        | none => exact fun made => by cases made
        | some smaller => exact inductionHypothesis smaller

theorem evictOne_size {cache smaller : HostPrefixCache Namespace Element}
    (evicted : cache.evictOne = some smaller) :
    smaller.entries.size + 1 = cache.entries.size := by
  unfold HostPrefixCache.evictOne at evicted
  cases search : cache.entries.items.find? (fun item => item.2.readers = 0) with
  | none =>
      rw [search] at evicted
      cases evicted
  | some item =>
      rw [search] at evicted
      cases evicted
      have found : cache.entries.get? item.1 = some item.2 :=
        Dict.get?_eq_some_iff.mpr (List.mem_of_find?_eq_some search)
      exact (Dict.size_erase_of_present found).symm

/-- The turns `reserve` allows never run out: the loop ends without room only
when every entry left is read. -/
theorem makeRoom_stops (size : Int) (fuel : Nat) :
    forall cache : HostPrefixCache Namespace Element, cache.entries.size < fuel ->
      (makeRoom size fuel cache).1 = false ->
      (makeRoom size fuel cache).2.evictOne = none ∧
        ¬ (makeRoom size fuel cache).2.hasRoom size := by
  induction fuel with
  | zero => exact fun cache enough => absurd enough (Nat.not_lt_zero _)
  | succ fuel inductionHypothesis =>
      intro cache enough
      unfold makeRoom
      by_cases room : cache.hasRoom size
      · rw [if_pos room]
        exact fun made => by cases made
      · rw [if_neg room]
        cases evicted : cache.evictOne with
        | none => exact fun _ => ⟨evicted, room⟩
        | some smaller =>
            have fewer := evictOne_size evicted
            exact inductionHypothesis smaller (by omega)

theorem reserve_accounted (valid : Accounted limits objects) (size : Int) :
    Accounted limits (finalState ((reserve size).run objects)) := by
  apply Leaves.finalState_iff.mp
  unfold reserve
  apply (Leaves.bind_iff _ _ _).mpr
  apply (Leaves.get_iff _).mpr
  by_cases refused : size ≤ 0 ∨ size > objects.cache.limits.budgetBytes
  · rw [if_pos refused]
    exact valid
  · rw [if_neg refused]
    have room := makeRoom_hasRoom size (objects.cache.entries.size + 1) objects.cache
    have evicted : Accounted limits { objects with
        cache := (makeRoom size (objects.cache.entries.size + 1) objects.cache).2 } :=
      (makeRoom_shrinks size objects.readers objects.reservations _ objects.cache).accounted valid
    cases made : (makeRoom size (objects.cache.entries.size + 1) objects.cache).1 with
    | false =>
        simp only [made]
        exact evicted
    | true =>
        simp only [made]
        exact evicted.promise (by omega) (room made)

/-- A close that finds the reservation open first gives up its promise, and
then lets go of the basis. -/
theorem closeReservation_accounted {position : Nat} {reservation : PrefixReservation}
    (found : objects.reservations[position]? = some reservation)
    (isOpen : reservation.active = true)
    (settled : Accounted limits (objects.settle position reservation.size)) :
    Accounted limits (finalState ((closeReservation position).run objects)) := by
  apply Leaves.finalState_iff.mp
  unfold closeReservation
  apply (Leaves.bind_iff _ _ _).mpr
  apply (Leaves.get_iff _).mpr
  simp only [found, isOpen, if_true]
  apply (Leaves.bind_iff _ _ _).mpr
  apply (Leaves.set_iff _ _).mpr
  cases reservation.basisReader with
  | none => exact settled
  | some reader =>
      exact Leaves.finalState_iff.mpr ((closeReader_shrinks reader _).accounted settled)

/-- Closing a closed reservation does nothing. -/
theorem closeReservation_closed {position : Nat}
    (closed : forall reservation, objects.reservations[position]? = some reservation ->
      reservation.active = false) :
    (closeReservation position).run objects = .ok ⟨⟩ objects := by
  unfold closeReservation
  rw [EStateM.run_bind, EStateM.run_get]
  cases found : objects.reservations[position]? with
  | none => simp only [found]; rfl
  | some reservation =>
      simp only [found, closed reservation found]
      rfl

theorem closeReservation_keeps_accounted (valid : Accounted limits objects) (position : Nat) :
    Accounted limits (finalState ((closeReservation position).run objects)) := by
  by_cases closed : forall reservation, objects.reservations[position]? = some reservation ->
      reservation.active = false
  · rw [closeReservation_closed closed]
    exact valid
  · rw [not_forall] at closed
    rcases closed with ⟨reservation, isOpen⟩
    rw [Classical.not_imp, Bool.not_eq_false] at isOpen
    exact closeReservation_accounted isOpen.1 isOpen.2 (valid.settle isOpen.1 isOpen.2)

/-- A publication that enters the cache is paid by its reservation; one that
raises has changed nothing yet. -/
theorem publishBody_accounted (valid : Accounted limits objects) {position : Nat}
    {reservation : PrefixReservation}
    (found : objects.reservations[position]? = some reservation)
    (isOpen : reservation.active = true) (snapshot : PrefixSnapshot Namespace Element)
    (completed : Bool) :
    Leaves
      (fun _ after => after.reservations = objects.reservations ∧
        Accounted limits (after.settle position reservation.size))
      (fun _ after => after = objects)
      ((publishBody reservation snapshot completed).run objects) := by
  have settled := valid.settle found isOpen
  unfold publishBody
  apply (Leaves.bind_iff _ _ _).mpr
  apply (Leaves.raiseIf_iff _ _ _).mpr
  refine ⟨fun _ => rfl, fun _ => ?_⟩
  apply (Leaves.bind_iff _ _ _).mpr
  apply (Leaves.get_iff _).mpr
  apply (Leaves.bind_iff _ _ _).mpr
  apply (Leaves.raiseIf_iff _ _ _).mpr
  refine ⟨fun _ => rfl, fun _ => ?_⟩
  cases checkSnapshot snapshot with
  | error cause => exact rfl
  | ok _ =>
      by_cases resident : snapshot.hostResident = true
      · simp only [resident, dite_true]
        apply (Leaves.bind_iff _ _ _).mpr
        apply (Leaves.raiseIf_iff _ _ _).mpr
        refine ⟨fun _ => rfl, fun fits => ⟨rfl, ?_⟩⟩
        have within := valid.within_budget
        have limited := valid.within_entries
        -- The settled counters have room for what the reservation promised.
        apply settled.insert resident
        · change (PrefixSnapshot.footprintBytes (objects.cache.snapshots ++ [snapshot]) : Int) +
            (objects.cache.pendingBytes - reservation.size) ≤ limits.budgetBytes
          omega
        · change (objects.cache.entryCount : Int) + 1 + (objects.cache.pendingEntries - 1) ≤
            limits.maxEntries
          omega
      · simp only [resident]
        exact rfl

theorem publish_accounted (valid : Accounted limits objects) (position : Nat)
    (snapshot : PrefixSnapshot Namespace Element) (completed : Bool) :
    Accounted limits (finalState ((publish position snapshot completed).run objects)) := by
  apply Leaves.finalState_iff.mp
  unfold publish
  apply (Leaves.bind_iff _ _ _).mpr
  apply (Leaves.get_iff _).mpr
  cases found : objects.reservations[position]? with
  | none => exact valid
  | some reservation =>
      apply (Leaves.bind_iff _ _ _).mpr
      apply (Leaves.raiseIf_iff _ _ _).mpr
      refine ⟨fun _ => valid, fun isOpen => ?_⟩
      rw [Bool.not_eq_false] at isOpen
      apply (Leaves.tryFinally_iff _ _ _).mpr
      apply (publishBody_accounted valid found isOpen snapshot completed).mono
      · rintro _ after ⟨same, settled⟩
        exact Leaves.finalState_iff.mpr
          (closeReservation_accounted (same ▸ found) isOpen settled)
      · rintro _ after rfl
        exact Leaves.finalState_iff.mpr (closeReservation_keeps_accounted valid position)

/-! ## Which snapshots are held -/

/-- No snapshot has come in. -/
def Within (before after : PrefixObjects Namespace Element) : Prop :=
  after.cache.snapshots ⊆ before.cache.snapshots

theorem Shrinks.within {before after : PrefixObjects Namespace Element}
    (shrinks : Shrinks before after) : Within before after :=
  shrinks.snapshots

theorem reserve_within (size : Int) :
    Keeps (@Within Namespace Element) (reserve size) := by
  apply Keeps.of_leaves
  intro objects
  unfold reserve
  apply (Leaves.bind_iff _ _ _).mpr
  apply (Leaves.get_iff _).mpr
  by_cases refused : size ≤ 0 ∨ size > objects.cache.limits.budgetBytes
  · rw [if_pos refused]
    exact fun _ member => member
  · rw [if_neg refused]
    have evicted := makeRoom_shrinks size objects.readers objects.reservations
      (objects.cache.entries.size + 1) objects.cache
    cases made : (makeRoom size (objects.cache.entries.size + 1) objects.cache).1 with
    | false =>
        simp only [made]
        exact evicted.within
    | true =>
        simp only [made]
        exact evicted.within

theorem closeReservation_within (position : Nat) :
    Keeps (@Within Namespace Element) (closeReservation position) := by
  apply Keeps.of_leaves
  intro objects
  unfold closeReservation
  apply (Leaves.bind_iff _ _ _).mpr
  apply (Leaves.get_iff _).mpr
  cases objects.reservations[position]? with
  | none => exact fun _ member => member
  | some reservation =>
      by_cases isOpen : reservation.active = true
      · simp only [isOpen, if_true]
        apply (Leaves.bind_iff _ _ _).mpr
        apply (Leaves.set_iff _ _).mpr
        cases reservation.basisReader with
        | none => exact fun _ member => member
        | some reader =>
            exact (closeReader_shrinks reader).leaves _ |>.mono
              (fun _ _ shrinks => shrinks.within) (fun _ _ shrinks => shrinks.within)
      · simp only [isOpen]
        exact fun _ member => member

theorem insert_snapshots {objects : PrefixObjects Namespace Element}
    {snapshot other : PrefixSnapshot Namespace Element} (resident : snapshot.hostResident = true)
    (member : other ∈ (objects.insert snapshot resident).cache.snapshots) :
    other ∈ objects.cache.snapshots ∨ other = snapshot := by
  rcases HostPrefixCache.mem_snapshots.mp member with ⟨entryId, entry, held, equal⟩
  rcases held with live | retired
  · change (objects.cache.entries.set (objects.cache.nextId + 1) _).get? entryId =
      some entry at live
    rw [Dict.get?_set] at live
    by_cases same : entryId = objects.cache.nextId + 1
    · rw [if_pos same] at live
      cases live
      exact Or.inr equal.symm
    · rw [if_neg same] at live
      exact Or.inl (HostPrefixCache.mem_snapshots.mpr ⟨entryId, entry, Or.inl live, equal⟩)
  · exact Or.inl (HostPrefixCache.mem_snapshots.mpr ⟨entryId, entry, Or.inr retired, equal⟩)

/-! ## Every run -/

theorem performCache_accounted [DecidableEq Namespace] (valid : Accounted limits objects)
    (operation : CacheOperation Namespace Element) :
    Accounted limits (finalState ((performCache operation).run objects)) := by
  cases operation with
  | acquire namespaceKey tokens limit count identity =>
      rw [performCache, finalState_map]
      exact (acquire_shrinks namespaceKey tokens limit count identity objects).accounted valid
  | reserve size =>
      rw [performCache, finalState_map]
      exact reserve_accounted valid size
  | setBasisReader reservation reader =>
      rw [performCache, finalState_map]
      exact (setBasisReader_shrinks reservation reader objects).accounted valid
  | publish reservation snapshot completed =>
      rw [performCache, finalState_map]
      exact publish_accounted valid reservation snapshot completed
  | closeReservation reservation =>
      rw [performCache, finalState_map]
      exact closeReservation_keeps_accounted valid reservation
  | closeReader reader =>
      rw [performCache, finalState_map]
      exact (closeReader_shrinks reader objects).accounted valid
  | reset =>
      rw [performCache, finalState_map]
      exact (reset_shrinks objects).accounted valid

/-- After any operations, the distinct storages and keys that live and retired
entries reach, with the open reservations, fit the budget; and the entries with
the open reservations fit the entry limit. -/
theorem callAll_within_limits [DecidableEq Namespace] (limits : CacheLimits)
    (operations : List (CacheOperation Namespace Element)) :
    ((callAll performCache (.initial (.initial limits)) operations).cache.usedBytes : Int) +
        tally PrefixReservation.openBytes
          (callAll performCache (.initial (.initial limits)) operations).reservations ≤
      limits.budgetBytes ∧
    ((callAll performCache (.initial (.initial limits)) operations).cache.entryCount : Int) +
        tally PrefixReservation.openEntries
          (callAll performCache (.initial (.initial limits)) operations).reservations ≤
      limits.maxEntries := by
  have accounted := callAll_induction (Accounted limits)
    (fun _ operation valid => performCache_accounted valid operation) operations
    (.initial (.initial limits : HostPrefixCache Namespace Element)) .initial
  rw [← accounted.pending_bytes, ← accounted.pending_entries]
  exact ⟨accounted.within_budget, accounted.within_entries⟩

end HostPrefix
end QSAHiSparse

import QSAHiSparse.HostPrefix.Snapshot

namespace QSAHiSparse
namespace HostPrefix

open Foundation

/-!
# The host prefix cache and the objects it hands out

Readers and reservations are objects of their own.  They outlive the call that
made them, are closed in any order and possibly more than once, and write back
into the cache when they are closed.  The state is therefore the cache together
with every reader and reservation it has handed out, each known by its position.

The lock of the source makes every method atomic.
-/

/-- The constructor's limits with its checks. -/
structure CacheLimits where
  budgetBytes : Nat
  maxEntries : Nat
  budget_positive : 0 < budgetBytes
  entries_positive : 0 < maxEntries

variable (Namespace Element : Type)

/-- A checkpoint that passed the residency check, and its number of readers. -/
structure CacheEntry where
  snapshot : PrefixSnapshot Namespace Element
  resident : snapshot.hostResident = true
  readers : Int

structure HostPrefixCache where
  limits : CacheLimits
  entries : Dict Nat (CacheEntry Namespace Element)
  retired : Dict Nat (CacheEntry Namespace Element)
  pendingBytes : Int
  pendingEntries : Int
  epoch : Nat
  nextId : Nat
  hits : Nat
  misses : Nat
  evictions : Nat

/-- `snapshot` is cleared when the reader is closed. -/
structure PrefixReader where
  entryId : Nat
  snapshot : Option (PrefixSnapshot Namespace Element)

/-- `self.snapshot = None`. -/
def PrefixReader.clear {Namespace Element : Type} (reader : PrefixReader Namespace Element) :
    PrefixReader Namespace Element :=
  { reader with snapshot := none }

/-- `basisReader` is the position of a reader the reservation owns. -/
structure PrefixReservation where
  size : Int
  epoch : Nat
  active : Bool
  basisReader : Option Nat

/-- The cache and its objects. -/
structure PrefixObjects where
  cache : HostPrefixCache Namespace Element
  readers : List (PrefixReader Namespace Element)
  reservations : List PrefixReservation

variable {Namespace Element : Type}

/-- The cache after its constructor. -/
def HostPrefixCache.initial (limits : CacheLimits) : HostPrefixCache Namespace Element where
  limits := limits
  entries := .empty
  retired := .empty
  pendingBytes := 0
  pendingEntries := 0
  epoch := 0
  nextId := 0
  hits := 0
  misses := 0
  evictions := 0

/-- `HostPrefixCache(budget_bytes, max_entries, page_size)`. -/
def HostPrefixCache.create (budgetBytes maxEntries pageSize : Int) :
    Except PyError (HostPrefixCache Namespace Element) :=
  if rejected : budgetBytes ≤ 0 ∨ maxEntries ≤ 0 ∨ pageSize ≠ 64 then
    .error (.valueError "QSA prefixes need a positive host budget and page64")
  else
    .ok (.initial
      { budgetBytes := budgetBytes.toNat
        maxEntries := maxEntries.toNat
        budget_positive := by omega
        entries_positive := by omega })

def PrefixObjects.initial (cache : HostPrefixCache Namespace Element) :
    PrefixObjects Namespace Element where
  cache := cache
  readers := []
  reservations := []

namespace HostPrefixCache

variable (cache : HostPrefixCache Namespace Element)

/-- The snapshots of the live, then of the retired entries. -/
def snapshots : List (PrefixSnapshot Namespace Element) :=
  cache.entries.values.map CacheEntry.snapshot ++ cache.retired.values.map CacheEntry.snapshot

/-- `used_bytes`; entries are resident, so the footprint does not raise. -/
def usedBytes : Nat := PrefixSnapshot.footprintBytes cache.snapshots

/-- Delete the first entry, in recency order, that no reader pins. -/
def evictOne : Option (HostPrefixCache Namespace Element) :=
  match cache.entries.items.find? (fun item => item.2.readers = 0) with
  | none => none
  | some item =>
      some { cache with entries := cache.entries.erase item.1, evictions := cache.evictions + 1 }

/-- The negation of the loop condition of `reserve`. -/
def hasRoom (size : Int) : Prop :=
  ¬ ((cache.usedBytes : Int) + cache.pendingBytes + size > cache.limits.budgetBytes ∨
    (cache.entries.size : Int) + cache.retired.size + cache.pendingEntries ≥ cache.limits.maxEntries)

instance (size : Int) : Decidable (cache.hasRoom size) :=
  inferInstanceAs (Decidable (¬ _))

end HostPrefixCache

/-- The eviction loop of `reserve`: whether room was made, and the cache it
leaves.  Each turn deletes an entry, so one turn more than there are entries is
enough. -/
def makeRoom (size : Int) : Nat -> HostPrefixCache Namespace Element ->
    Bool × HostPrefixCache Namespace Element
  | 0, cache => (false, cache)
  | fuel + 1, cache =>
      if cache.hasRoom size then
        (true, cache)
      else
        match cache.evictOne with
        | none => (false, cache)
        | some smaller => makeRoom size fuel smaller

section Lookup

variable [DecidableEq Namespace]

/-- One turn of the loop of `acquire`.  The image key is computed only for an
entry whose namespace, length and tokens fit. -/
def betterMatch (namespaceKey : Namespace) (tokens : Bytes) (cap : Int)
    (identity : Option ImagePrefixIdentity)
    (best : Option (Nat × PrefixSnapshot Namespace Element))
    (item : Nat × CacheEntry Namespace Element) :
    Except PyError (Option (Nat × PrefixSnapshot Namespace Element)) := do
  let snapshot := item.2.snapshot
  if snapshot.namespaceKey = namespaceKey ∧ (snapshot.length : Int) ≤ cap ∧
      snapshot.tokens.contents <+: tokens then
    let key ← imageKey identity snapshot.length
    if snapshot.imageKey = key ∧ (best.all fun held => held.2.length < snapshot.length) = true then
      return some (item.1, snapshot)
    else
      return best
  else
    return best

/-- The length limit of a lookup. -/
def lookupCap (tokens : Bytes) (limit : Option Int) (identity : Option ImagePrefixIdentity) : Int :=
  let cap := limit.getD ((tokens.length / 8 : Nat) : Int)
  match identity with
  | none => cap
  | some image => min cap (64 * image.pageDigests.length)

def longestMatch (cache : HostPrefixCache Namespace Element) (namespaceKey : Namespace)
    (tokens : Bytes) (limit : Option Int) (identity : Option ImagePrefixIdentity) :
    Except PyError (Option (Nat × PrefixSnapshot Namespace Element)) :=
  cache.entries.items.foldlM
    (betterMatch namespaceKey tokens (lookupCap tokens limit identity) identity) none

end Lookup

/-! ## The pure updates -/

namespace PrefixObjects

variable (objects : PrefixObjects Namespace Element)

/-- Count one more reader, make the entry the most recent one and hand out the
reader. -/
def pin (entryId : Nat) (entry : CacheEntry Namespace Element) : PrefixObjects Namespace Element :=
  { objects with
    cache :=
      { objects.cache with
        entries := (objects.cache.entries.set entryId
          { entry with readers := entry.readers + 1 }).moveToEnd entryId }
    readers := objects.readers ++ [⟨entryId, some entry.snapshot⟩] }

/-- `if count: self.misses += 1`. -/
def countMiss (count : Bool) : PrefixObjects Namespace Element :=
  { objects with
    cache := { objects.cache with misses := objects.cache.misses + if count then 1 else 0 } }

/-- `if count: self.hits += 1`. -/
def countHit (count : Bool) : PrefixObjects Namespace Element :=
  { objects with
    cache := { objects.cache with hits := objects.cache.hits + if count then 1 else 0 } }

/-- `_release` of a live entry. -/
def unpinLive (entryId : Nat) (entry : CacheEntry Namespace Element) :
    PrefixObjects Namespace Element :=
  { objects with
    cache :=
      { objects.cache with
        entries := objects.cache.entries.set entryId { entry with readers := entry.readers - 1 } } }

/-- `_release` of a retired entry, which is dropped with its last reader. -/
def unpinRetired (entryId : Nat) (entry : CacheEntry Namespace Element) :
    PrefixObjects Namespace Element :=
  { objects with
    cache :=
      { objects.cache with
        retired :=
          if entry.readers - 1 = 0 then objects.cache.retired.erase entryId
          else objects.cache.retired.set entryId { entry with readers := entry.readers - 1 } } }

/-- Clear the reader at a position. -/
def clearReader (position : Nat) : PrefixObjects Namespace Element :=
  { objects with readers := objects.readers.modify position PrefixReader.clear }

/-- The accounting of `PrefixReservation.close`. -/
def settle (position : Nat) (size : Int) : PrefixObjects Namespace Element :=
  { objects with
    cache :=
      { objects.cache with
        pendingBytes := objects.cache.pendingBytes - size
        pendingEntries := objects.cache.pendingEntries - 1 }
    reservations := objects.reservations.modify position
      (fun reservation => { reservation with active := false }) }

/-- The accounting of `reserve` and the reservation handed out. -/
def promise (size : Int) : PrefixObjects Namespace Element :=
  { objects with
    cache :=
      { objects.cache with
        pendingBytes := objects.cache.pendingBytes + size
        pendingEntries := objects.cache.pendingEntries + 1 }
    reservations := objects.reservations ++ [⟨size, objects.cache.epoch, true, none⟩] }

/-- The new entry of `publish`. -/
def insert (snapshot : PrefixSnapshot Namespace Element)
    (resident : snapshot.hostResident = true) : PrefixObjects Namespace Element :=
  { objects with
    cache :=
      { objects.cache with
        nextId := objects.cache.nextId + 1
        entries := objects.cache.entries.set (objects.cache.nextId + 1) ⟨snapshot, resident, 0⟩ } }

/-- `reset`: entries with readers are retired, the others dropped. -/
def flush : PrefixObjects Namespace Element :=
  { objects with
    cache :=
      { objects.cache with
        epoch := objects.cache.epoch + 1
        retired := objects.cache.retired.update
          (objects.cache.entries.items.filter (fun item => item.2.readers ≠ 0))
        entries := .empty } }

end PrefixObjects

/-! ## The methods -/

/-- `_release`. -/
def releaseEntry (entryId : Nat) : Method (PrefixObjects Namespace Element) PUnit := do
  let objects ← get
  if objects.cache.entries.contains entryId then
    let entry ← getItem objects.cache.entries entryId
    raiseIf (entry.readers ≤ 0) (.runtimeError "QSA prefix reader underflow")
    set (objects.unpinLive entryId entry)
  else
    let entry ← getItem objects.cache.retired entryId
    raiseIf (entry.readers ≤ 0) (.runtimeError "QSA prefix reader underflow")
    set (objects.unpinRetired entryId entry)

/-- `PrefixReader.close`; a closed reader is left alone. -/
def closeReader (position : Nat) : Method (PrefixObjects Namespace Element) PUnit := do
  let objects ← get
  match objects.readers[position]? with
  | none => return ⟨⟩
  | some reader =>
      match reader.snapshot with
      | none => return ⟨⟩
      | some _ =>
          releaseEntry reader.entryId
          modify (fun objects => objects.clearReader position)

/-- `PrefixReservation.close`. -/
def closeReservation (position : Nat) : Method (PrefixObjects Namespace Element) PUnit := do
  let objects ← get
  match objects.reservations[position]? with
  | none => return ⟨⟩
  | some reservation =>
      if reservation.active then
        set (objects.settle position reservation.size)
        match reservation.basisReader with
        | none => return ⟨⟩
        | some reader => closeReader reader
      else
        return ⟨⟩

/-- `reservation.basis_reader = reader`. -/
def setBasisReader (position : Nat) (reader : Option Nat) :
    Method (PrefixObjects Namespace Element) PUnit :=
  modify (fun objects =>
    { objects with
      reservations := objects.reservations.modify position
        (fun reservation => { reservation with basisReader := reader }) })

section Acquire

variable [DecidableEq Namespace]

/-- The position of the reader, or nothing on a miss. -/
def acquire (namespaceKey : Namespace) (tokens : Bytes) (limit : Option Int) (count : Bool)
    (identity : Option ImagePrefixIdentity) :
    Method (PrefixObjects Namespace Element) (Option Nat) := do
  let objects ← get
  match longestMatch objects.cache namespaceKey tokens limit identity with
  | .error cause => throw cause
  | .ok none =>
      modify (fun objects => objects.countMiss count)
      return none
  | .ok (some (entryId, _)) =>
      let entry ← getItem objects.cache.entries entryId
      set (objects.pin entryId entry)
      modify (fun objects => objects.countHit count)
      return some objects.readers.length

end Acquire

/-- The position of the reservation, or nothing when there is no room. -/
def reserve (size : Int) : Method (PrefixObjects Namespace Element) (Option Nat) := do
  let objects ← get
  if size ≤ 0 ∨ size > objects.cache.limits.budgetBytes then
    return none
  else
    let (made, cache) := makeRoom size (objects.cache.entries.size + 1) objects.cache
    let evicted := { objects with cache := cache }
    if made then
      set (evicted.promise size)
      return some objects.reservations.length
    else
      set evicted
      return none

/-- The loop of `publish` over the segments: where the last one stops. -/
def tiling : List (PrefixSegment Element) -> Int -> Except PyError Int
  | [], stop => .ok stop
  | segment :: rest, stop =>
      if segment.start ≠ stop ∨ segment.stop ≤ stop ∨ segment.stop % 64 ≠ 0 then
        .error (.valueError "QSA prefix segments have a gap or partial page")
      else
        match (segment.raw.shape[2]? : Option Nat) with
        | none => .error (.indexError "tuple index out of range")
        | some tokens =>
            if (tokens : Int) ≠ segment.stop - stop then
              .error (.valueError "QSA prefix raw segment length differs")
            else
              match (segment.index.shape[1]? : Option Nat) with
              | none => .error (.indexError "tuple index out of range")
              | some rows =>
                  if (rows : Int) ≠ (segment.stop - stop) / 4 then
                    .error (.valueError "QSA prefix index segment length differs")
                  else
                    tiling rest segment.stop

/-- What `publish` checks of the snapshot alone. -/
def checkSnapshot (snapshot : PrefixSnapshot Namespace Element) : Except PyError Unit :=
  if snapshot.length = 0 ∨ snapshot.length % 64 ≠ 0 then
    .error (.valueError "QSA prefix checkpoint must end on page64")
  else
    match tiling snapshot.segments 0 with
    | .error cause => .error cause
    | .ok stop =>
        if stop ≠ (snapshot.length : Int) then
          .error (.valueError "QSA checkpoint is missing prefix pages")
        else
          .ok ⟨⟩

/-- The body of `publish` inside its `try`. -/
def publishBody (reservation : PrefixReservation) (snapshot : PrefixSnapshot Namespace Element)
    (completed : Bool) : Method (PrefixObjects Namespace Element) Nat := do
  raiseIf (completed = false)
    (.runtimeError "QSA prefix publication has incomplete writes")
  let objects ← get
  raiseIf (reservation.epoch ≠ objects.cache.epoch)
    (.runtimeError "QSA prefix publication belongs to a flushed epoch")
  match checkSnapshot snapshot with
  | .error cause => throw cause
  | .ok _ =>
      if resident : snapshot.hostResident = true then
        let added := (PrefixSnapshot.footprintBytes (objects.cache.snapshots ++ [snapshot]) : Int) -
          objects.cache.usedBytes
        raiseIf (added > reservation.size)
          (.runtimeError "QSA prefix writer exceeded its host reservation")
        set (objects.insert snapshot resident)
        return objects.cache.nextId + 1
      else
        throw (.valueError "QSA prefix snapshots must be host resident")

/-- The new entry's id.  A position that is not one of this cache's reservations
stands for a reservation of another cache. -/
def publish (position : Nat) (snapshot : PrefixSnapshot Namespace Element) (completed : Bool) :
    Method (PrefixObjects Namespace Element) Nat := do
  let objects ← get
  match objects.reservations[position]? with
  | none => throw (.runtimeError "QSA prefix publication has no reservation")
  | some reservation =>
      raiseIf (reservation.active = false)
        (.runtimeError "QSA prefix publication has no reservation")
      tryFinally (publishBody reservation snapshot completed) (closeReservation position)

def reset : Method (PrefixObjects Namespace Element) PUnit :=
  modify PrefixObjects.flush

/-- The operations on the cache and on what it hands out. -/
inductive CacheOperation (Namespace Element : Type) where
  | acquire (namespaceKey : Namespace) (tokens : Bytes) (limit : Option Int) (count : Bool)
      (identity : Option ImagePrefixIdentity)
  | reserve (size : Int)
  | setBasisReader (reservation : Nat) (reader : Option Nat)
  | publish (reservation : Nat) (snapshot : PrefixSnapshot Namespace Element) (completed : Bool)
  | closeReservation (reservation : Nat)
  | closeReader (reader : Nat)
  | reset

/-- Perform one operation; a publication answers with its entry id. -/
def performCache [DecidableEq Namespace] :
    CacheOperation Namespace Element -> Method (PrefixObjects Namespace Element) (Option Nat)
  | .acquire namespaceKey tokens limit count identity =>
      (fun _ => none) <$> acquire namespaceKey tokens limit count identity
  | .reserve size => (fun _ => none) <$> reserve size
  | .setBasisReader reservation reader => (fun _ => none) <$> setBasisReader reservation reader
  | .publish reservation snapshot completed => some <$> publish reservation snapshot completed
  | .closeReservation reservation => (fun _ => none) <$> closeReservation reservation
  | .closeReader reader => (fun _ => none) <$> closeReader reader
  | .reset => (fun _ => none) <$> reset

end HostPrefix
end QSAHiSparse

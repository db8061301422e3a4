import QSAHiSparse.Foundation.Calls
import QSAHiSparse.Foundation.Lockstep
import QSAHiSparse.HostPrefix.Lookup

namespace QSAHiSparse
namespace HostPrefix

open Foundation

/-!
# Two ranks decide alike

Every rank of a tensor-parallel group has a cache of its own.  Their snapshots
hold different bytes at different addresses, but the same tokens under the same
keys, cut alike, in storages of the same sizes that are shared alike.  No
decision of the cache looks at more.
-/

variable {Namespace First Second : Type}

/-! ## Snapshots that differ in contents and addresses -/

/-- What `publish` reads of a segment. -/
structure AlikeSegments (first : PrefixSegment First) (second : PrefixSegment Second) : Prop where
  start : first.start = second.start
  stop : first.stop = second.stop
  raw : first.raw.shape = second.raw.shape
  index : first.index.shape = second.index.shape

structure Alike (first : PrefixSnapshot Namespace First)
    (second : PrefixSnapshot Namespace Second) : Prop where
  namespaceKey : first.namespaceKey = second.namespaceKey
  tokens : first.tokens.contents = second.tokens.contents
  segments : List.Forall₂ AlikeSegments first.segments second.segments
  imageKey : first.imageKey = second.imageKey
  devices : first.tensors.map (fun tensor => tensor.onHost) =
    second.tensors.map (fun tensor => tensor.onHost)
  sizes : first.tensors.map (fun tensor => tensor.storage.nbytes) =
    second.tensors.map (fun tensor => tensor.storage.nbytes)

/-- The storages of the tensors in the same places. -/
def storagePairs (first : PrefixSnapshot Namespace First)
    (second : PrefixSnapshot Namespace Second) : List (Storage × Storage) :=
  (first.tensors.map (fun tensor => tensor.storage)).zip
    (second.tensors.map (fun tensor => tensor.storage))

/-- Two pairs of snapshots share storages and keys alike. -/
structure ShareAlike (first : PrefixSnapshot Namespace First)
    (second : PrefixSnapshot Namespace Second) (other : PrefixSnapshot Namespace First)
    (other' : PrefixSnapshot Namespace Second) : Prop where
  storages : forall left right, left ∈ storagePairs first second ->
    right ∈ storagePairs other other' -> (left.1 = right.1 <-> left.2 = right.2)
  keys : first.tokens = other.tokens <-> second.tokens = other'.tokens

/-- Any two of the pairs share alike. -/
def SharedAlike
    (pair : PrefixSnapshot Namespace First -> PrefixSnapshot Namespace Second -> Prop) : Prop :=
  forall first second other other', pair first second -> pair other other' ->
    ShareAlike first second other other'

namespace Alike

variable {first : PrefixSnapshot Namespace First} {second : PrefixSnapshot Namespace Second}

theorem length (alike : Alike first second) : first.length = second.length := by
  unfold PrefixSnapshot.length BytesObject.length
  rw [alike.tokens]

theorem hostResident (alike : Alike first second) :
    first.hostResident = second.hostResident := by
  have devices := congrArg (fun flags => flags.all id) alike.devices
  simp only [List.all_map] at devices
  exact devices

theorem storagePairs_sizes (alike : Alike first second) {pair : Storage × Storage}
    (member : pair ∈ storagePairs first second) : pair.1.nbytes = pair.2.nbytes := by
  have sizes := alike.sizes
  have firsts : first.tensors.map (fun tensor => tensor.storage.nbytes) =
      (first.tensors.map fun tensor => tensor.storage).map Storage.nbytes :=
    (List.map_map ..).symm
  have seconds : second.tensors.map (fun tensor => tensor.storage.nbytes) =
      (second.tensors.map fun tensor => tensor.storage).map Storage.nbytes :=
    (List.map_map ..).symm
  rw [firsts, seconds] at sizes
  unfold storagePairs at member
  generalize first.tensors.map (fun tensor => tensor.storage) = lefts at sizes member
  generalize second.tensors.map (fun tensor => tensor.storage) = rights at sizes member
  induction lefts generalizing rights with
  | nil => exact absurd member List.not_mem_nil
  | cons left lefts previous =>
      cases rights with
      | nil => exact absurd member List.not_mem_nil
      | cons right rights =>
          rw [List.map_cons, List.map_cons] at sizes
          rcases List.mem_cons.mp member with rfl | rest
          · exact (List.cons.inj sizes).1
          · exact previous rights (List.cons.inj sizes).2 rest

theorem storagePairs_fst (alike : Alike first second) :
    (storagePairs first second).map Prod.fst = first.tensors.map (fun tensor => tensor.storage) := by
  have lengths := congrArg List.length alike.sizes
  simp only [List.length_map] at lengths
  apply List.map_fst_zip
  simp only [List.length_map]
  omega

theorem storagePairs_snd (alike : Alike first second) :
    (storagePairs first second).map Prod.snd =
      second.tensors.map (fun tensor => tensor.storage) := by
  have lengths := congrArg List.length alike.sizes
  simp only [List.length_map] at lengths
  apply List.map_snd_zip
  simp only [List.length_map]
  omega

end Alike

/-! ## Footprints -/

/-- Pairs that agree on equality and size sum up alike. -/
theorem sum_pairs {κ κ' : Type} [DecidableEq κ] [DecidableEq κ'] {size : κ -> Nat}
    {size' : κ' -> Nat} :
    forall pairs : List (κ × κ'),
      (forall left right, left ∈ pairs -> right ∈ pairs ->
        (left.1 = right.1 <-> left.2 = right.2)) ->
      (forall pair, pair ∈ pairs -> size pair.1 = size' pair.2) ->
      (pairs.map Prod.fst).toFinset.sum size = (pairs.map Prod.snd).toFinset.sum size'
  | [], _, _ => rfl
  | pair :: pairs, agree, sizes => by
      have tail := sum_pairs pairs
        (fun left right member member' => agree left right (List.mem_cons_of_mem _ member)
          (List.mem_cons_of_mem _ member'))
        (fun other member => sizes other (List.mem_cons_of_mem _ member))
      have known : pair.1 ∈ pairs.map Prod.fst <-> pair.2 ∈ pairs.map Prod.snd := by
        simp only [List.mem_map]
        constructor
        · rintro ⟨other, member, same⟩
          exact ⟨other, member, (agree other pair (List.mem_cons_of_mem _ member)
            List.mem_cons_self).mp same⟩
        · rintro ⟨other, member, same⟩
          exact ⟨other, member, (agree other pair (List.mem_cons_of_mem _ member)
            List.mem_cons_self).mpr same⟩
      rw [List.map_cons, List.map_cons, List.toFinset_cons, List.toFinset_cons]
      by_cases present : pair.1 ∈ pairs.map Prod.fst
      · rw [Finset.insert_eq_of_mem (List.mem_toFinset.mpr present),
          Finset.insert_eq_of_mem (List.mem_toFinset.mpr (known.mp present))]
        exact tail
      · rw [Finset.sum_insert (fun there => present (List.mem_toFinset.mp there)),
          Finset.sum_insert (fun there => present (known.mpr (List.mem_toFinset.mp there))),
          tail, sizes pair List.mem_cons_self]

/-- The reached storages are those of all holders' lists. -/
theorem reached_flatMap {α κ : Type} [DecidableEq κ] (list : α -> List κ) (holders : List α) :
    reached (fun holder => (list holder).toFinset) holders = (holders.flatMap list).toFinset := by
  ext storage
  rw [mem_reached, List.mem_toFinset, List.mem_flatMap]
  simp only [List.mem_toFinset]

/-- Snapshots that are alike and share alike have the same footprint. -/
theorem footprint_eq {firsts : List (PrefixSnapshot Namespace First)}
    {seconds : List (PrefixSnapshot Namespace Second)}
    (alike : List.Forall₂ Alike firsts seconds)
    (shared : SharedAlike fun first second => (first, second) ∈ firsts.zip seconds) :
    PrefixSnapshot.footprintBytes firsts = PrefixSnapshot.footprintBytes seconds := by
  have pairAlike (pair : PrefixSnapshot Namespace First × PrefixSnapshot Namespace Second)
      (member : pair ∈ firsts.zip seconds) : Alike pair.1 pair.2 :=
    List.forall₂_zip alike member
  have zipFst : (firsts.zip seconds).map Prod.fst = firsts :=
    List.map_fst_zip (Nat.le_of_eq alike.length_eq)
  have zipSnd : (firsts.zip seconds).map Prod.snd = seconds :=
    List.map_snd_zip (Nat.le_of_eq alike.length_eq.symm)
  unfold PrefixSnapshot.footprintBytes
  congr 1
  · -- The distinct storages.
    unfold sharedBytes
    have lists (Element : Type) :
        (PrefixSnapshot.storages : PrefixSnapshot Namespace Element -> Finset Storage) =
          fun snapshot => (snapshot.tensors.map fun tensor => tensor.storage).toFinset := rfl
    rw [lists First, lists Second, reached_flatMap, reached_flatMap]
    have lefts : firsts.flatMap (fun snapshot => snapshot.tensors.map fun tensor => tensor.storage) =
        ((firsts.zip seconds).flatMap fun pair => storagePairs pair.1 pair.2).map Prod.fst := by
      rw [List.map_flatMap]
      conv_lhs => rw [<- zipFst, List.flatMap_map]
      apply List.flatMap_congr
      intro pair member
      exact (pairAlike pair member).storagePairs_fst.symm
    have rights :
        seconds.flatMap (fun snapshot => snapshot.tensors.map fun tensor => tensor.storage) =
        ((firsts.zip seconds).flatMap fun pair => storagePairs pair.1 pair.2).map Prod.snd := by
      rw [List.map_flatMap]
      conv_lhs => rw [<- zipSnd, List.flatMap_map]
      apply List.flatMap_congr
      intro pair member
      exact (pairAlike pair member).storagePairs_snd.symm
    rw [lefts, rights]
    apply sum_pairs
    · intro left right leftMember rightMember
      rcases List.mem_flatMap.mp leftMember with ⟨pair, member, inside⟩
      rcases List.mem_flatMap.mp rightMember with ⟨other, member', inside'⟩
      exact (shared pair.1 pair.2 other.1 other.2 member member').storages left right inside inside'
    · intro storagePair member
      rcases List.mem_flatMap.mp member with ⟨pair, inZip, inside⟩
      exact (pairAlike pair inZip).storagePairs_sizes inside
  · -- The distinct keys.
    unfold sharedBytes
    have keys (Element : Type) :
        (fun snapshot : PrefixSnapshot Namespace Element => ({snapshot.tokens} : Finset _)) =
          fun snapshot => [snapshot.tokens].toFinset := rfl
    rw [keys First, keys Second, reached_flatMap, reached_flatMap]
    have lefts : firsts.flatMap (fun snapshot => [snapshot.tokens]) =
        ((firsts.zip seconds).map fun pair => (pair.1.tokens, pair.2.tokens)).map Prod.fst := by
      rw [List.map_map, <- List.map_eq_flatMap]
      conv_lhs => rw [<- zipFst, List.map_map]
      rfl
    have rights : seconds.flatMap (fun snapshot => [snapshot.tokens]) =
        ((firsts.zip seconds).map fun pair => (pair.1.tokens, pair.2.tokens)).map Prod.snd := by
      rw [List.map_map, <- List.map_eq_flatMap]
      conv_lhs => rw [<- zipSnd, List.map_map]
      rfl
    rw [lefts, rights]
    apply sum_pairs
    · intro left right leftMember rightMember
      rcases List.mem_map.mp leftMember with ⟨pair, member, rfl⟩
      rcases List.mem_map.mp rightMember with ⟨other, member', rfl⟩
      exact (shared pair.1 pair.2 other.1 other.2 member member').keys
    · intro tokenPair member
      rcases List.mem_map.mp member with ⟨pair, inZip, rfl⟩
      exact congrArg List.length (pairAlike pair inZip).tokens

/-! ## Caches in lockstep -/

/-- Entries with as many readers, of snapshots of the relation. -/
structure AlikeEntries (pair : PrefixSnapshot Namespace First -> PrefixSnapshot Namespace Second -> Prop)
    (first : CacheEntry Namespace First) (second : CacheEntry Namespace Second) : Prop where
  readers : first.readers = second.readers
  snapshots : Alike first.snapshot second.snapshot
  paired : pair first.snapshot second.snapshot

structure AlikeReaders (first : PrefixReader Namespace First)
    (second : PrefixReader Namespace Second) : Prop where
  entryId : first.entryId = second.entryId
  snapshots : Option.Rel Alike first.snapshot second.snapshot

structure TwinCaches (pair : PrefixSnapshot Namespace First -> PrefixSnapshot Namespace Second -> Prop)
    (first : HostPrefixCache Namespace First) (second : HostPrefixCache Namespace Second) :
    Prop where
  limits : first.limits = second.limits
  entries : Dict.Paired (AlikeEntries pair) first.entries second.entries
  retired : Dict.Paired (AlikeEntries pair) first.retired second.retired
  pendingBytes : first.pendingBytes = second.pendingBytes
  pendingEntries : first.pendingEntries = second.pendingEntries
  epoch : first.epoch = second.epoch
  nextId : first.nextId = second.nextId
  hits : first.hits = second.hits
  misses : first.misses = second.misses
  evictions : first.evictions = second.evictions

structure Twins (pair : PrefixSnapshot Namespace First -> PrefixSnapshot Namespace Second -> Prop)
    (first : PrefixObjects Namespace First) (second : PrefixObjects Namespace Second) : Prop where
  caches : TwinCaches pair first.cache second.cache
  readers : List.Forall₂ AlikeReaders first.readers second.readers
  reservations : first.reservations = second.reservations

section Lockstep

variable {pair : PrefixSnapshot Namespace First -> PrefixSnapshot Namespace Second -> Prop}

namespace TwinCaches

variable {first : HostPrefixCache Namespace First} {second : HostPrefixCache Namespace Second}

/-- The snapshots in the same places are of the relation. -/
theorem snapshots (twins : TwinCaches pair first second) :
    List.Forall₂ (fun one another => Alike one another ∧ pair one another)
      first.snapshots second.snapshots := by
  unfold HostPrefixCache.snapshots
  apply List.rel_append
  · rw [List.forall₂_map_left_iff, List.forall₂_map_right_iff]
    exact twins.entries.values.imp fun _ _ alike => ⟨alike.snapshots, alike.paired⟩
  · rw [List.forall₂_map_left_iff, List.forall₂_map_right_iff]
    exact twins.retired.values.imp fun _ _ alike => ⟨alike.snapshots, alike.paired⟩

theorem usedBytes_eq (twins : TwinCaches pair first second) (shared : SharedAlike pair) :
    first.usedBytes = second.usedBytes := by
  apply footprint_eq (twins.snapshots.imp fun _ _ both => both.1)
  intro one another other other' member member'
  exact shared one another other other' (List.forall₂_zip twins.snapshots member).2
    (List.forall₂_zip twins.snapshots member').2

theorem hasRoom_iff (twins : TwinCaches pair first second) (shared : SharedAlike pair)
    (size : Int) : first.hasRoom size <-> second.hasRoom size := by
  unfold HostPrefixCache.hasRoom
  rw [twins.usedBytes_eq shared, twins.pendingBytes, twins.pendingEntries, twins.limits,
    twins.entries.size_eq, twins.retired.size_eq]

/-- The same entry is evicted, or none is. -/
theorem evictOne (twins : TwinCaches pair first second) :
    (first.evictOne = none ∧ second.evictOne = none) ∨
      exists smaller smaller', first.evictOne = some smaller ∧
        second.evictOne = some smaller' ∧ TwinCaches pair smaller smaller' := by
  have picks : forall (left : Nat × CacheEntry Namespace First)
      (right : Nat × CacheEntry Namespace Second), left.1 = right.1 ->
      AlikeEntries pair left.2 right.2 ->
      decide (left.2.readers = 0) = decide (right.2.readers = 0) := by
    intro left right _ alike
    rw [alike.readers]
  unfold HostPrefixCache.evictOne
  rcases twins.entries.find? picks with ⟨absent, absent'⟩ | ⟨left, right, found, found', keys, _⟩
  · rw [absent, absent']
    exact Or.inl ⟨rfl, rfl⟩
  · rw [found, found']
    refine Or.inr ⟨_, _, rfl, rfl, ?_⟩
    exact
      { twins with
        entries := keys ▸ twins.entries.erase left.1
        evictions := congrArg (· + 1) twins.evictions }

theorem makeRoom (shared : SharedAlike pair) (size : Int) (fuel : Nat) :
    forall {first : HostPrefixCache Namespace First} {second : HostPrefixCache Namespace Second},
      TwinCaches pair first second ->
      (makeRoom size fuel first).1 = (makeRoom size fuel second).1 ∧
        TwinCaches pair (makeRoom size fuel first).2 (makeRoom size fuel second).2 := by
  induction fuel with
  | zero => exact fun twins => ⟨rfl, twins⟩
  | succ fuel previous =>
      intro first second twins
      unfold HostPrefix.makeRoom
      have same := twins.hasRoom_iff shared size
      by_cases room : first.hasRoom size
      · rw [if_pos room, if_pos (same.mp room)]
        exact ⟨rfl, twins⟩
      · rw [if_neg room, if_neg fun room' => room (same.mpr room')]
        rcases twins.evictOne with ⟨absent, absent'⟩ | ⟨smaller, smaller', found, found', rest⟩
        · rw [absent, absent']
          exact ⟨rfl, twins⟩
        · rw [found, found']
          exact previous rest

end TwinCaches

/-! ## The pure updates -/

namespace Twins

variable {first : PrefixObjects Namespace First} {second : PrefixObjects Namespace Second}

theorem initial (limits : CacheLimits) :
    Twins pair (.initial (.initial limits) : PrefixObjects Namespace First)
      (.initial (.initial limits) : PrefixObjects Namespace Second) where
  caches :=
    { limits := rfl
      entries := Dict.Paired.empty
      retired := Dict.Paired.empty
      pendingBytes := rfl
      pendingEntries := rfl
      epoch := rfl
      nextId := rfl
      hits := rfl
      misses := rfl
      evictions := rfl }
  readers := List.Forall₂.nil
  reservations := rfl

variable (twins : Twins pair first second)

include twins

theorem pin (entryId : Nat) {entry : CacheEntry Namespace First}
    {entry' : CacheEntry Namespace Second} (alike : AlikeEntries pair entry entry') :
    Twins pair (first.pin entryId entry) (second.pin entryId entry') := by
  have counted : AlikeEntries pair { entry with readers := entry.readers + 1 }
      { entry' with readers := entry'.readers + 1 } :=
    ⟨congrArg (· + 1) alike.readers, alike.snapshots, alike.paired⟩
  have entries := (twins.caches.entries.set entryId counted).moveToEnd entryId
  have reader : AlikeReaders (⟨entryId, some entry.snapshot⟩ : PrefixReader Namespace First)
      (⟨entryId, some entry'.snapshot⟩ : PrefixReader Namespace Second) :=
    ⟨rfl, Option.Rel.some alike.snapshots⟩
  exact
    { caches := { twins.caches with entries := entries }
      readers := List.rel_append twins.readers (List.Forall₂.cons reader List.Forall₂.nil)
      reservations := twins.reservations }

theorem countHit (count : Bool) : Twins pair (first.countHit count) (second.countHit count) :=
  { twins with
    caches :=
      { twins.caches with hits := congrArg (· + if count then 1 else 0) twins.caches.hits } }

theorem countMiss (count : Bool) : Twins pair (first.countMiss count) (second.countMiss count) :=
  { twins with
    caches :=
      { twins.caches with misses := congrArg (· + if count then 1 else 0) twins.caches.misses } }

theorem unpinLive (entryId : Nat) {entry : CacheEntry Namespace First}
    {entry' : CacheEntry Namespace Second} (alike : AlikeEntries pair entry entry') :
    Twins pair (first.unpinLive entryId entry) (second.unpinLive entryId entry') := by
  have counted : AlikeEntries pair { entry with readers := entry.readers - 1 }
      { entry' with readers := entry'.readers - 1 } :=
    ⟨congrArg (· - 1) alike.readers, alike.snapshots, alike.paired⟩
  have entries := twins.caches.entries.set entryId counted
  exact { twins with caches := { twins.caches with entries := entries } }

theorem unpinRetired (entryId : Nat) {entry : CacheEntry Namespace First}
    {entry' : CacheEntry Namespace Second} (alike : AlikeEntries pair entry entry') :
    Twins pair (first.unpinRetired entryId entry) (second.unpinRetired entryId entry') := by
  have counted : AlikeEntries pair { entry with readers := entry.readers - 1 }
      { entry' with readers := entry'.readers - 1 } :=
    ⟨congrArg (· - 1) alike.readers, alike.snapshots, alike.paired⟩
  have retired : Dict.Paired (AlikeEntries pair)
      (first.unpinRetired entryId entry).cache.retired
      (second.unpinRetired entryId entry').cache.retired := by
    change Dict.Paired _ (if entry.readers - 1 = 0 then _ else _)
      (if entry'.readers - 1 = 0 then _ else _)
    by_cases last : entry.readers - 1 = 0
    · rw [if_pos last, if_pos (alike.readers ▸ last)]
      exact twins.caches.retired.erase entryId
    · rw [if_neg last, if_neg (alike.readers ▸ last)]
      exact twins.caches.retired.set entryId counted
  exact { twins with caches := { twins.caches with retired := retired } }

theorem clearReader (position : Nat) :
    Twins pair (first.clearReader position) (second.clearReader position) := by
  have readers : List.Forall₂ AlikeReaders (first.readers.modify position PrefixReader.clear)
      (second.readers.modify position PrefixReader.clear) := by
    apply modify_together twins.readers
    intro left right alike
    exact ⟨alike.entryId, Option.Rel.none⟩
  exact { twins with readers := readers }

theorem settle (position : Nat) (size : Int) :
    Twins pair (first.settle position size) (second.settle position size) where
  caches :=
    { twins.caches with
      pendingBytes := congrArg (· - size) twins.caches.pendingBytes
      pendingEntries := congrArg (· - 1) twins.caches.pendingEntries }
  readers := twins.readers
  reservations := congrArg
    (fun reservations => reservations.modify position fun reservation =>
      { reservation with active := false })
    twins.reservations

theorem promise (size : Int) : Twins pair (first.promise size) (second.promise size) where
  caches :=
    { twins.caches with
      pendingBytes := congrArg (· + size) twins.caches.pendingBytes
      pendingEntries := congrArg (· + 1) twins.caches.pendingEntries }
  readers := twins.readers
  reservations := by
    change first.reservations ++ [_] = second.reservations ++ [_]
    rw [twins.reservations, twins.caches.epoch]

theorem insert {snapshot : PrefixSnapshot Namespace First}
    {snapshot' : PrefixSnapshot Namespace Second} (alike : Alike snapshot snapshot')
    (paired : pair snapshot snapshot') (resident : snapshot.hostResident = true)
    (resident' : snapshot'.hostResident = true) :
    Twins pair (first.insert snapshot resident) (second.insert snapshot' resident') := by
  have entry : AlikeEntries pair (⟨snapshot, resident, 0⟩ : CacheEntry Namespace First)
      (⟨snapshot', resident', 0⟩ : CacheEntry Namespace Second) := ⟨rfl, alike, paired⟩
  have entries : Dict.Paired (AlikeEntries pair) (first.insert snapshot resident).cache.entries
      (second.insert snapshot' resident').cache.entries := by
    change Dict.Paired _ (first.cache.entries.set (first.cache.nextId + 1) _)
      (second.cache.entries.set (second.cache.nextId + 1) _)
    rw [twins.caches.nextId]
    exact twins.caches.entries.set _ entry
  exact
    { twins with
      caches :=
        { twins.caches with
          entries := entries
          nextId := congrArg (· + 1) twins.caches.nextId } }

theorem flush : Twins pair first.flush second.flush := by
  have kept : List.Forall₂
      (fun left right => left.1 = right.1 ∧ AlikeEntries pair left.2 right.2)
      (first.cache.entries.items.filter fun item => decide (item.2.readers ≠ 0))
      (second.cache.entries.items.filter fun item => decide (item.2.readers ≠ 0)) :=
    twins.caches.entries.filter fun left right _ alike => by rw [alike.readers]
  exact
    { twins with
      caches :=
        { twins.caches with
          entries := Dict.Paired.empty
          retired := twins.caches.retired.update kept
          epoch := congrArg (· + 1) twins.caches.epoch } }

end Twins

/-! ## The lookup -/

/-- The best entries so far are the same. -/
def SameBest (first : Nat × PrefixSnapshot Namespace First)
    (second : Nat × PrefixSnapshot Namespace Second) : Prop :=
  first.1 = second.1 ∧ Alike first.2 second.2

variable [DecidableEq Namespace]

theorem betterMatch_together (namespaceKey : Namespace) (tokens : Bytes) (cap : Int)
    (identity : Option ImagePrefixIdentity)
    {best : Option (Nat × PrefixSnapshot Namespace First)}
    {best' : Option (Nat × PrefixSnapshot Namespace Second)}
    (bests : Option.Rel SameBest best best') {item : Nat × CacheEntry Namespace First}
    {item' : Nat × CacheEntry Namespace Second} (keys : item.1 = item'.1)
    (alike : AlikeEntries pair item.2 item'.2) :
    SameOutcome (Option.Rel SameBest) (betterMatch namespaceKey tokens cap identity best item)
      (betterMatch namespaceKey tokens cap identity best' item') := by
  have snapshots := alike.snapshots
  have longer : (best.all fun held => held.2.length < item.2.snapshot.length) =
      best'.all fun held => held.2.length < item'.2.snapshot.length := by
    cases bests with
    | none => rfl
    | some both => rw [Option.all_some, Option.all_some, both.2.length, snapshots.length]
  unfold betterMatch
  simp only [snapshots.namespaceKey, snapshots.length, snapshots.tokens, snapshots.imageKey]
  by_cases candidate : item'.2.snapshot.namespaceKey = namespaceKey ∧
      (item'.2.snapshot.length : Int) ≤ cap ∧ item'.2.snapshot.tokens.contents <+: tokens
  · rw [if_pos candidate, if_pos candidate]
    rw [snapshots.length] at longer
    cases imageKey identity item'.2.snapshot.length with
    | error cause => exact rfl
    | ok key =>
        change SameOutcome _ (if _ then _ else _) (if _ then _ else _)
        rw [longer]
        by_cases better : item'.2.snapshot.imageKey = key ∧
            (best'.all fun held => held.2.length < item'.2.snapshot.length) = true
        · rw [if_pos better, if_pos better]
          exact Option.Rel.some ⟨keys, snapshots⟩
        · rw [if_neg better, if_neg better]
          exact bests
  · rw [if_neg candidate, if_neg candidate]
    exact bests

theorem longestMatch_together {first : HostPrefixCache Namespace First}
    {second : HostPrefixCache Namespace Second} (twins : TwinCaches pair first second)
    (namespaceKey : Namespace) (tokens : Bytes) (limit : Option Int)
    (identity : Option ImagePrefixIdentity) :
    SameOutcome (Option.Rel SameBest) (longestMatch first namespaceKey tokens limit identity)
      (longestMatch second namespaceKey tokens limit identity) := by
  apply foldlM_together _ twins.entries Option.Rel.none
  intro best best' item item' bests items
  exact betterMatch_together namespaceKey tokens _ identity bests items.1 items.2

theorem acquire_together {first : PrefixObjects Namespace First}
    {second : PrefixObjects Namespace Second} (twins : Twins pair first second)
    (namespaceKey : Namespace) (tokens : Bytes) (limit : Option Int) (count : Bool)
    (identity : Option ImagePrefixIdentity) :
    Together (Twins pair) Eq ((acquire namespaceKey tokens limit count identity).run first)
      ((acquire namespaceKey tokens limit count identity).run second) := by
  have searched := longestMatch_together twins.caches namespaceKey tokens limit identity
  unfold acquire
  apply together_get
  cases ran : longestMatch first.cache namespaceKey tokens limit identity with
  | error cause =>
      cases ran' : longestMatch second.cache namespaceKey tokens limit identity with
      | ok best => rw [ran, ran'] at searched; exact searched.elim
      | error cause' =>
          rw [ran, ran'] at searched
          exact ⟨searched, twins⟩
  | ok best =>
      cases ran' : longestMatch second.cache namespaceKey tokens limit identity with
      | error cause => rw [ran, ran'] at searched; exact searched.elim
      | ok best' =>
          rw [ran, ran'] at searched
          cases searched with
          | none =>
              exact ⟨rfl, twins.countMiss count⟩
          | @some held held' both =>
              rcases both with ⟨keys, _⟩
              rcases held with ⟨entryId, snapshot⟩
              rcases held' with ⟨entryId', snapshot'⟩
              cases keys
              change Together _ _
                (EStateM.run (getItem first.cache.entries entryId >>= _) first)
                (EStateM.run (getItem second.cache.entries entryId >>= _) second)
              unfold getItem
              rcases twins.caches.entries.get? entryId with
                ⟨absent, absent'⟩ | ⟨entry, entry', found, found', alike⟩
              · rw [absent, absent']
                exact ⟨rfl, twins⟩
              · rw [found, found']
                exact ⟨congrArg some twins.readers.length_eq,
                  (twins.pin entryId alike).countHit count⟩

/-! ## The other methods -/

omit [DecidableEq Namespace]

theorem releaseEntry_together {first : PrefixObjects Namespace First}
    {second : PrefixObjects Namespace Second} (twins : Twins pair first second) (entryId : Nat) :
    Together (Twins pair) Eq ((releaseEntry entryId).run first)
      ((releaseEntry entryId).run second) := by
  unfold releaseEntry
  apply together_get
  rw [twins.caches.entries.contains_eq entryId]
  by_cases live : second.cache.entries.contains entryId = true
  · rw [if_pos live, if_pos live]
    unfold getItem
    rcases twins.caches.entries.get? entryId with
      ⟨absent, absent'⟩ | ⟨entry, entry', found, found', alike⟩
    · rw [absent, absent']
      exact ⟨rfl, twins⟩
    · rw [found, found']
      apply together_raiseIf (by rw [alike.readers]) twins
      exact fun _ => ⟨rfl, twins.unpinLive entryId alike⟩
  · rw [if_neg live, if_neg live]
    unfold getItem
    rcases twins.caches.retired.get? entryId with
      ⟨absent, absent'⟩ | ⟨entry, entry', found, found', alike⟩
    · rw [absent, absent']
      exact ⟨rfl, twins⟩
    · rw [found, found']
      apply together_raiseIf (by rw [alike.readers]) twins
      exact fun _ => ⟨rfl, twins.unpinRetired entryId alike⟩

theorem closeReader_together {first : PrefixObjects Namespace First}
    {second : PrefixObjects Namespace Second} (twins : Twins pair first second) (position : Nat) :
    Together (Twins pair) Eq ((closeReader position).run first)
      ((closeReader position).run second) := by
  unfold closeReader
  apply together_get
  rcases getElem?_together twins.readers position with
    ⟨absent, absent'⟩ | ⟨reader, reader', found, found', alike⟩
  · rw [absent, absent']
    exact ⟨rfl, twins⟩
  · rw [found, found']
    have snapshots := alike.snapshots
    cases held : reader.snapshot with
    | none =>
        rw [held] at snapshots
        cases held' : reader'.snapshot with
        | none =>
            simp only [held, held']
            exact ⟨rfl, twins⟩
        | some snapshot =>
            rw [held'] at snapshots
            cases snapshots
    | some snapshot =>
        rw [held] at snapshots
        cases held' : reader'.snapshot with
        | none =>
            rw [held'] at snapshots
            cases snapshots
        | some snapshot' =>
            simp only [held, held']
            apply Together.bind
            · rw [alike.entryId]
              exact releaseEntry_together twins reader'.entryId
            · exact fun _ _ after after' _ others => ⟨rfl, others.clearReader position⟩

theorem closeReservation_together {first : PrefixObjects Namespace First}
    {second : PrefixObjects Namespace Second} (twins : Twins pair first second) (position : Nat) :
    Together (Twins pair) Eq ((closeReservation position).run first)
      ((closeReservation position).run second) := by
  unfold closeReservation
  apply together_get
  rw [twins.reservations]
  cases second.reservations[position]? with
  | none => exact ⟨rfl, twins⟩
  | some reservation =>
      by_cases isOpen : reservation.active = true
      · simp only [isOpen, if_true]
        have settled := twins.settle position reservation.size
        cases reservation.basisReader with
        | none => exact ⟨rfl, settled⟩
        | some reader => exact closeReader_together settled reader
      · simp only [isOpen]
        exact ⟨rfl, twins⟩

theorem reserve_together {first : PrefixObjects Namespace First}
    {second : PrefixObjects Namespace Second} (twins : Twins pair first second)
    (shared : SharedAlike pair) (size : Int) :
    Together (Twins pair) Eq ((reserve size).run first) ((reserve size).run second) := by
  unfold reserve
  apply together_get
  rw [twins.caches.limits]
  by_cases refused : size ≤ 0 ∨ size > second.cache.limits.budgetBytes
  · rw [if_pos refused, if_pos refused]
    exact ⟨rfl, twins⟩
  · rw [if_neg refused, if_neg refused]
    rw [twins.caches.entries.size_eq]
    have rooms := twins.caches.makeRoom shared size (second.cache.entries.size + 1)
    have evicted : Twins pair
        { first with cache := (makeRoom size (second.cache.entries.size + 1) first.cache).2 }
        { second with cache := (makeRoom size (second.cache.entries.size + 1) second.cache).2 } :=
      { twins with caches := rooms.2 }
    cases made : (makeRoom size (second.cache.entries.size + 1) first.cache).1 with
    | false =>
        have made' := rooms.1.symm.trans made
        simp only [made, made']
        exact ⟨rfl, evicted⟩
    | true =>
        have made' := rooms.1.symm.trans made
        simp only [made, made']
        exact ⟨congrArg (fun reservations => some (List.length reservations)) twins.reservations,
          evicted.promise size⟩

/-! ## Publications -/

theorem tiling_eq {segments : List (PrefixSegment First)} {segments' : List (PrefixSegment Second)}
    (alike : List.Forall₂ AlikeSegments segments segments') :
    forall stop, tiling segments stop = tiling segments' stop := by
  induction alike with
  | nil => exact fun _ => rfl
  | cons heads _ tails =>
      intro stop
      unfold tiling
      simp only [heads.start, heads.stop, heads.raw, heads.index, tails]

theorem checkSnapshot_eq {snapshot : PrefixSnapshot Namespace First}
    {snapshot' : PrefixSnapshot Namespace Second} (alike : Alike snapshot snapshot') :
    checkSnapshot snapshot = checkSnapshot snapshot' := by
  unfold checkSnapshot
  rw [alike.length, tiling_eq alike.segments]

theorem publishBody_together {first : PrefixObjects Namespace First}
    {second : PrefixObjects Namespace Second} (twins : Twins pair first second)
    (shared : SharedAlike pair) (reservation : PrefixReservation)
    {snapshot : PrefixSnapshot Namespace First} {snapshot' : PrefixSnapshot Namespace Second}
    (alike : Alike snapshot snapshot') (paired : pair snapshot snapshot') (completed : Bool) :
    Together (Twins pair) Eq ((publishBody reservation snapshot completed).run first)
      ((publishBody reservation snapshot' completed).run second) := by
  unfold publishBody
  apply together_raiseIf Iff.rfl twins
  intro _
  apply together_get
  apply together_raiseIf (by rw [twins.caches.epoch]) twins
  intro _
  rw [checkSnapshot_eq alike]
  cases checkSnapshot snapshot' with
  | error cause => exact ⟨rfl, twins⟩
  | ok _ =>
      have extended : List.Forall₂ (fun one another => Alike one another ∧ pair one another)
          (first.cache.snapshots ++ [snapshot]) (second.cache.snapshots ++ [snapshot']) :=
        List.rel_append twins.caches.snapshots
          (List.Forall₂.cons ⟨alike, paired⟩ List.Forall₂.nil)
      have footprints := footprint_eq (extended.imp fun _ _ both => both.1)
        fun one another other other' member member' =>
          shared one another other other' (List.forall₂_zip extended member).2
            (List.forall₂_zip extended member').2
      by_cases resident : snapshot.hostResident = true
      · have resident' : snapshot'.hostResident = true := alike.hostResident ▸ resident
        simp only [resident, resident', dite_true]
        apply together_raiseIf _ twins
        · exact fun _ => ⟨congrArg (· + 1) twins.caches.nextId,
            twins.insert alike paired resident resident'⟩
        · rw [footprints, twins.caches.usedBytes_eq shared]
      · have resident' : ¬ snapshot'.hostResident = true := fun there =>
          resident (alike.hostResident.trans there)
        simp only [resident, resident']
        exact ⟨rfl, twins⟩

theorem publish_together {first : PrefixObjects Namespace First}
    {second : PrefixObjects Namespace Second} (twins : Twins pair first second)
    (shared : SharedAlike pair) (position : Nat) {snapshot : PrefixSnapshot Namespace First}
    {snapshot' : PrefixSnapshot Namespace Second} (alike : Alike snapshot snapshot')
    (paired : pair snapshot snapshot') (completed : Bool) :
    Together (Twins pair) Eq ((publish position snapshot completed).run first)
      ((publish position snapshot' completed).run second) := by
  unfold publish
  apply together_get
  rw [twins.reservations]
  cases second.reservations[position]? with
  | none => exact ⟨rfl, twins⟩
  | some reservation =>
      apply together_raiseIf Iff.rfl twins
      intro _
      apply Together.tryFinally
      · exact publishBody_together twins shared reservation alike paired completed
      · exact fun after after' others => closeReservation_together others position

end Lockstep

/-! ## What a rank sees -/

/-- `PrefixSnapshot.signature`. -/
structure Signature (Namespace Digest : Type) where
  namespaceKey : Namespace
  length : Nat
  tokens : Digest
  image : Digest
deriving DecidableEq, Repr

section Signatures

variable {Digest : Type} (sha256 : Bytes -> Digest) (keyDigest : Option ImageKey -> Digest)

def PrefixSnapshot.signature {Element : Type} (snapshot : PrefixSnapshot Namespace Element) :
    Signature Namespace Digest where
  namespaceKey := snapshot.namespaceKey
  length := snapshot.length
  tokens := sha256 snapshot.tokens.contents
  image := keyDigest snapshot.imageKey

/-- The outcome of an operation that returns. -/
inductive CacheAnswer (Namespace Digest : Type) where
  /-- The entry and the signature of a hit. -/
  | reader (hit : Option (Nat × Signature Namespace Digest))
  /-- The reservation, if there is one, and the entries that were evicted. -/
  | reservation (position : Option Nat) (evicted : List Nat)
  | published (entryId : Nat)
  | done
deriving DecidableEq, Repr

/-- What a reader at the position tells. -/
def PrefixObjects.hitAt {Element : Type} (objects : PrefixObjects Namespace Element)
    (position : Nat) : Option (Nat × Signature Namespace Digest) :=
  objects.readers[position]?.bind fun reader =>
    reader.snapshot.map fun snapshot => (reader.entryId, snapshot.signature sha256 keyDigest)

/-- Perform an operation and tell what came of it. -/
def answerCache [DecidableEq Namespace] {Element : Type} :
    CacheOperation Namespace Element ->
    Method (PrefixObjects Namespace Element) (CacheAnswer Namespace Digest)
  | .acquire namespaceKey tokens limit count identity => do
      let position <- acquire namespaceKey tokens limit count identity
      let objects <- get
      return .reader (position.bind (objects.hitAt sha256 keyDigest))
  | .reserve size => do
      let before <- get
      let position <- reserve size
      let after <- get
      return .reservation position
        (before.cache.entries.keys.filter (· ∉ after.cache.entries.keys))
  | .setBasisReader reservation reader => do
      setBasisReader reservation reader
      return .done
  | .publish reservation snapshot completed => do
      let entryId <- publish reservation snapshot completed
      return .published entryId
  | .closeReservation reservation => do
      closeReservation reservation
      return .done
  | .closeReader reader => do
      closeReader reader
      return .done
  | .reset => do
      reset
      return .done

/-- The signature a rank brings to `_converge` for an answer. -/
def vote : Except PyError (CacheAnswer Namespace Digest) -> Option (Signature Namespace Digest)
  | .ok (.reader hit) => hit.map Prod.snd
  | _ => none

end Signatures

/-- `_converge` on the gathered votes. -/
def converge {σ : Type} [DecidableEq σ] (votes : List σ) (signature : σ) : Except PyError Unit :=
  if votes.any (· ≠ signature) = true then
    .error (.runtimeError "QSA TP ranks disagree on prefix checkpoint identity/readiness")
  else
    .ok ⟨⟩

/-! ## Two ranks on the same operations -/

/-- Two snapshots that the two caches hold under one id. -/
def HeldPair (first : PrefixObjects Namespace First) (second : PrefixObjects Namespace Second)
    (one : PrefixSnapshot Namespace First) (another : PrefixSnapshot Namespace Second) : Prop :=
  exists entryId entry entry',
    ((first.cache.entries.get? entryId = some entry ∧
        second.cache.entries.get? entryId = some entry') ∨
      (first.cache.retired.get? entryId = some entry ∧
        second.cache.retired.get? entryId = some entry')) ∧
    entry.snapshot = one ∧ entry'.snapshot = another

/-- The same operation; what is published is alike, and shares alike with what
the caches hold. -/
def Corresponds (first : PrefixObjects Namespace First) (second : PrefixObjects Namespace Second) :
    CacheOperation Namespace First -> CacheOperation Namespace Second -> Prop
  | .acquire namespaceKey tokens limit count identity,
      .acquire namespaceKey' tokens' limit' count' identity' =>
      namespaceKey = namespaceKey' ∧ tokens = tokens' ∧ limit = limit' ∧ count = count' ∧
        identity = identity'
  | .reserve size, .reserve size' => size = size'
  | .setBasisReader reservation reader, .setBasisReader reservation' reader' =>
      reservation = reservation' ∧ reader = reader'
  | .publish reservation snapshot completed, .publish reservation' snapshot' completed' =>
      reservation = reservation' ∧ completed = completed' ∧ Alike snapshot snapshot' ∧
        SharedAlike fun one another =>
          HeldPair first second one another ∨ one = snapshot ∧ another = snapshot'
  | .closeReservation reservation, .closeReservation reservation' => reservation = reservation'
  | .closeReader reader, .closeReader reader' => reader = reader'
  | .reset, .reset => True
  | _, _ => False

/-- The two ranks perform corresponding operations one after the other. -/
def Lockstep [DecidableEq Namespace] : PrefixObjects Namespace First ->
    PrefixObjects Namespace Second -> List (CacheOperation Namespace First) ->
    List (CacheOperation Namespace Second) -> Prop
  | _, _, [], [] => True
  | first, second, operation :: rest, operation' :: rest' =>
      Corresponds first second operation operation' ∧
        Lockstep (finalState ((performCache operation).run first))
          (finalState ((performCache operation').run second)) rest rest'
  | _, _, _, _ => False

section Agreement

variable {Digest : Type} (sha256 : Bytes -> Digest) (keyDigest : Option ImageKey -> Digest)

/-- The two states differ in contents and addresses only. -/
def Indistinct (first : PrefixObjects Namespace First) (second : PrefixObjects Namespace Second) :
    Prop :=
  exists pair, SharedAlike pair ∧ Twins pair first second

theorem Alike.signature_eq {one : PrefixSnapshot Namespace First}
    {another : PrefixSnapshot Namespace Second} (alike : Alike one another) :
    one.signature sha256 keyDigest = another.signature sha256 keyDigest := by
  unfold PrefixSnapshot.signature
  rw [alike.namespaceKey, alike.length, alike.tokens, alike.imageKey]

theorem Twins.hitAt_eq
    {pair : PrefixSnapshot Namespace First -> PrefixSnapshot Namespace Second -> Prop}
    {first : PrefixObjects Namespace First} {second : PrefixObjects Namespace Second}
    (twins : Twins pair first second) (position : Nat) :
    first.hitAt sha256 keyDigest position = second.hitAt sha256 keyDigest position := by
  unfold PrefixObjects.hitAt
  rcases getElem?_together twins.readers position with
    ⟨absent, absent'⟩ | ⟨reader, reader', found, found', alike⟩
  · rw [absent, absent']
    rfl
  · rw [found, found']
    change reader.snapshot.map _ = reader'.snapshot.map _
    have snapshots := alike.snapshots
    cases held : reader.snapshot <;> cases held' : reader'.snapshot <;>
      rw [held, held'] at snapshots <;> cases snapshots
    · rfl
    · rename_i both
      rw [Option.map_some, Option.map_some, alike.entryId,
        both.signature_eq sha256 keyDigest]

/-- What the two caches hold is related, and may be taken for the relation. -/
theorem Twins.held
    {pair : PrefixSnapshot Namespace First -> PrefixSnapshot Namespace Second -> Prop}
    {first : PrefixObjects Namespace First} {second : PrefixObjects Namespace Second}
    (twins : Twins pair first second) : Twins (HeldPair first second) first second := by
  have entries : Dict.Paired (AlikeEntries (HeldPair first second)) first.cache.entries
      second.cache.entries := by
    apply twins.caches.entries.refine
    intro key left right member member' alike
    exact ⟨alike.readers, alike.snapshots, key, left, right,
      Or.inl ⟨Dict.get?_eq_some_iff.mpr member, Dict.get?_eq_some_iff.mpr member'⟩, rfl, rfl⟩
  have retired : Dict.Paired (AlikeEntries (HeldPair first second)) first.cache.retired
      second.cache.retired := by
    apply twins.caches.retired.refine
    intro key left right member member' alike
    exact ⟨alike.readers, alike.snapshots, key, left, right,
      Or.inr ⟨Dict.get?_eq_some_iff.mpr member, Dict.get?_eq_some_iff.mpr member'⟩, rfl, rfl⟩
  exact
    { twins with caches := { twins.caches with entries := entries, retired := retired } }

/-- A larger relation. -/
theorem Twins.widen
    {pair wider : PrefixSnapshot Namespace First -> PrefixSnapshot Namespace Second -> Prop}
    {first : PrefixObjects Namespace First} {second : PrefixObjects Namespace Second}
    (twins : Twins pair first second)
    (widens : forall one another, pair one another -> wider one another) :
    Twins wider first second := by
  have entries (left : CacheEntry Namespace First) (right : CacheEntry Namespace Second)
      (alike : AlikeEntries pair left right) : AlikeEntries wider left right :=
    ⟨alike.readers, alike.snapshots, widens _ _ alike.paired⟩
  exact
    { twins with
      caches :=
        { twins.caches with
          entries := twins.caches.entries.imp fun _ _ both => ⟨both.1, entries _ _ both.2⟩
          retired := twins.caches.retired.imp fun _ _ both => ⟨both.1, entries _ _ both.2⟩ } }

variable [DecidableEq Namespace]

/-- One operation: the same answer, or the same exception. -/
theorem answerCache_together {first : PrefixObjects Namespace First}
    {second : PrefixObjects Namespace Second} (indistinct : Indistinct first second)
    {operation : CacheOperation Namespace First} {operation' : CacheOperation Namespace Second}
    (corresponds : Corresponds first second operation operation') :
    Together Indistinct Eq ((answerCache sha256 keyDigest operation).run first)
      ((answerCache sha256 keyDigest operation').run second) := by
  rcases indistinct with ⟨pair, shared, twins⟩
  have lift {α : Type}
      {wider : PrefixSnapshot Namespace First -> PrefixSnapshot Namespace Second -> Prop}
      {left : EStateM.Result PyError (PrefixObjects Namespace First) α}
      {right : EStateM.Result PyError (PrefixObjects Namespace Second) α}
      (sharedWider : SharedAlike wider) (together : Together (Twins wider) Eq left right) :
      Together Indistinct Eq left right := by
    rcases together.cases_on with
      ⟨_, _, _, _, rfl, rfl, rfl, others⟩ | ⟨_, _, _, rfl, rfl, others⟩
    · exact ⟨rfl, wider, sharedWider, others⟩
    · exact ⟨rfl, wider, sharedWider, others⟩
  cases operation with
  | acquire namespaceKey tokens limit count identity =>
      cases operation' with
      | acquire namespaceKey' tokens' limit' count' identity' =>
          rcases corresponds with ⟨rfl, rfl, rfl, rfl, rfl⟩
          apply lift shared
          apply Together.bind (acquire_together twins _ _ _ _ _)
          rintro position _ after after' rfl others
          refine ⟨congrArg CacheAnswer.reader ?_, others⟩
          cases position with
          | none => rfl
          | some position => exact others.hitAt_eq sha256 keyDigest position
      | _ => exact corresponds.elim
  | reserve size =>
      cases operation' with
      | reserve size' =>
          cases corresponds
          apply lift shared
          apply together_get
          apply Together.bind (reserve_together twins shared size)
          rintro position _ after after' rfl others
          refine ⟨?_, others⟩
          rw [twins.caches.entries.keys_eq, others.caches.entries.keys_eq]
      | _ => exact corresponds.elim
  | setBasisReader reservation reader =>
      cases operation' with
      | setBasisReader reservation' reader' =>
          rcases corresponds with ⟨rfl, rfl⟩
          apply lift shared
          exact ⟨rfl,
            { twins with
              reservations := congrArg
                (fun reservations => reservations.modify reservation fun held =>
                  { held with basisReader := reader })
                twins.reservations }⟩
      | _ => exact corresponds.elim
  | publish reservation snapshot completed =>
      cases operation' with
      | publish reservation' snapshot' completed' =>
          rcases corresponds with ⟨rfl, rfl, alike, sharedNew⟩
          apply lift sharedNew
          apply Together.bind
            (publish_together (twins.held.widen fun _ _ => Or.inl) sharedNew reservation alike
              (Or.inr ⟨rfl, rfl⟩) completed)
          rintro entryId _ after after' rfl others
          exact ⟨rfl, others⟩
      | _ => exact corresponds.elim
  | closeReservation reservation =>
      cases operation' with
      | closeReservation reservation' =>
          cases corresponds
          apply lift shared
          apply Together.bind (closeReservation_together twins reservation)
          exact fun _ _ after after' _ others => ⟨rfl, others⟩
      | _ => exact corresponds.elim
  | closeReader reader =>
      cases operation' with
      | closeReader reader' =>
          cases corresponds
          apply lift shared
          apply Together.bind (closeReader_together twins reader)
          exact fun _ _ after after' _ others => ⟨rfl, others⟩
      | _ => exact corresponds.elim
  | reset =>
      cases operation' with
      | reset =>
          apply lift shared
          exact ⟨rfl, twins.flush⟩
      | _ => exact corresponds.elim

/-- Telling what came of an operation changes nothing. -/
theorem answerCache_finalState {Element : Type} (objects : PrefixObjects Namespace Element)
    (operation : CacheOperation Namespace Element) :
    finalState ((answerCache sha256 keyDigest operation).run objects) =
      finalState ((performCache operation).run objects) := by
  have bindPure {α β : Type} (program : Method (PrefixObjects Namespace Element) α)
      (tell : α -> PrefixObjects Namespace Element -> β) :
      finalState ((do
        let value <- program
        let after <- get
        return tell value after : Method (PrefixObjects Namespace Element) β).run objects) =
        finalState (program.run objects) := by
    rw [EStateM.run_bind]
    cases program.run objects <;> rfl
  cases operation with
  | acquire namespaceKey tokens limit count identity =>
      rw [performCache, finalState_map]
      exact bindPure (acquire namespaceKey tokens limit count identity) _
  | reserve size =>
      rw [performCache, finalState_map]
      exact bindPure (reserve size) fun position after => CacheAnswer.reservation position
        (objects.cache.entries.keys.filter (· ∉ after.cache.entries.keys))
  | setBasisReader reservation reader => rfl
  | publish reservation snapshot completed =>
      rw [performCache, finalState_map]
      exact bindPure (publish reservation snapshot completed) fun entryId _ =>
        CacheAnswer.published entryId
  | closeReservation reservation =>
      rw [performCache, finalState_map]
      exact bindPure (closeReservation reservation) fun _ _ => CacheAnswer.done
  | closeReader reader =>
      rw [performCache, finalState_map]
      exact bindPure (closeReader reader) fun _ _ => CacheAnswer.done
  | reset => rfl

/-- Along a run in lockstep every answer is the same. -/
theorem answers_agree (operations : List (CacheOperation Namespace First))
    (operations' : List (CacheOperation Namespace Second)) :
    forall {first : PrefixObjects Namespace First} {second : PrefixObjects Namespace Second},
      Indistinct first second -> Lockstep first second operations operations' ->
      answers (answerCache sha256 keyDigest) first operations =
        answers (answerCache sha256 keyDigest) second operations' := by
  induction operations generalizing operations' with
  | nil =>
      intro first second _ lockstep
      cases operations' with
      | nil => rfl
      | cons operation' rest' => exact lockstep.elim
  | cons operation rest previous =>
      intro first second indistinct lockstep
      cases operations' with
      | nil => exact lockstep.elim
      | cons operation' rest' =>
          rcases lockstep with ⟨corresponds, later⟩
          have step := (answerCache_together sha256 keyDigest indistinct corresponds).outcome_eq
          have states := step.2
          rw [answerCache_finalState, answerCache_finalState] at states
          rw [answers, answers, step.1]
          congr 1
          rw [answerCache_finalState, answerCache_finalState]
          exact previous rest' states later

theorem converge_alike {σ : Type} [DecidableEq σ] (signature : σ) :
    converge [signature, signature] signature = .ok ⟨⟩ := by
  unfold converge
  rw [if_neg]
  simp

/-- Two ranks that perform the same operations on snapshots that differ only in
contents and addresses get the same answers: the same hits with the same
entries and lengths, the same grants with the same evictions, the same
publications, and the same exceptions.  So their votes always converge. -/
theorem ranks_agree [DecidableEq Digest] (limits : CacheLimits)
    (operations : List (CacheOperation Namespace First))
    (operations' : List (CacheOperation Namespace Second))
    (lockstep : Lockstep (.initial (.initial limits)) (.initial (.initial limits)) operations
      operations') :
    answers (answerCache sha256 keyDigest) (.initial (.initial limits)) operations =
      answers (answerCache sha256 keyDigest) (.initial (.initial limits)) operations' ∧
    forall (place : Nat) (answer answer' : Except PyError (CacheAnswer Namespace Digest)),
      (answers (answerCache sha256 keyDigest) (.initial (.initial limits)) operations)[place]? =
        some answer ->
      (answers (answerCache sha256 keyDigest) (.initial (.initial limits)) operations')[place]? =
        some answer' ->
      converge [vote answer, vote answer'] (vote answer) = .ok ⟨⟩ ∧
        converge [vote answer, vote answer'] (vote answer') = .ok ⟨⟩ := by
  have start : Indistinct (.initial (.initial limits) : PrefixObjects Namespace First)
      (.initial (.initial limits) : PrefixObjects Namespace Second) :=
    ⟨fun _ _ => False, fun _ _ _ _ impossible => impossible.elim, Twins.initial limits⟩
  have same := answers_agree sha256 keyDigest operations operations' start lockstep
  refine ⟨same, ?_⟩
  intro place answer answer' found found'
  rw [same, found'] at found
  cases found
  exact ⟨converge_alike _, converge_alike _⟩

end Agreement

/-- A page of text with all tensors in one storage at the address. -/
def pageAt (address : Nat) (byte : UInt8) : PrefixSnapshot Unit UInt8 :=
  let tensor (shape : List Nat) : Tensor UInt8 := ⟨true, ⟨address, 1024⟩, shape, fun _ => byte⟩
  { namespaceKey := ()
    tokens := ⟨address, List.replicate 512 7⟩
    segments := [⟨0, 64, tensor [12, 2, 64, 1, 256], tensor [12, 16, 1, 128]⟩]
    pending := []
    rope := tensor [12, 4, 64]
    mamba := ⟨[], tensor [1], []⟩
    imageKey := none }

/-- A rank publishes a page and finds it again. -/
def publishPage (address : Nat) (byte : UInt8) : List (CacheOperation Unit UInt8) :=
  [ .reserve 2048, .publish 0 (pageAt address byte) true,
    .acquire () (List.replicate 800 7) none true none ]

theorem ranks_agree_page :
    Lockstep (.initial (.initial ⟨4096, 2, by decide, by decide⟩))
      (.initial (.initial ⟨4096, 2, by decide, by decide⟩)) (publishPage 64 1)
      (publishPage 128 2) ∧
    answers (answerCache (fun bytes => bytes) fun _ => [])
        (.initial (.initial ⟨4096, 2, by decide, by decide⟩)) (publishPage 64 1) =
      answers (answerCache (fun bytes => bytes) fun _ => [])
        (.initial (.initial ⟨4096, 2, by decide, by decide⟩)) (publishPage 128 2) := by
  have alike : Alike (pageAt 64 1) (pageAt 128 2) :=
    ⟨rfl, rfl, List.Forall₂.cons ⟨rfl, rfl, rfl, rfl⟩ List.Forall₂.nil, rfl, rfl, rfl⟩
  have lockstep : Lockstep (.initial (.initial ⟨4096, 2, by decide, by decide⟩))
      (.initial (.initial ⟨4096, 2, by decide, by decide⟩)) (publishPage 64 1)
      (publishPage 128 2) := by
    refine ⟨rfl, ⟨rfl, rfl, alike, ?_⟩, ⟨rfl, rfl, rfl, rfl, rfl⟩, trivial⟩
    -- Nothing is held before the publication.
    have only (one another : PrefixSnapshot Unit UInt8)
        (either : HeldPair
            (finalState ((performCache (.reserve 2048)).run
              (.initial (.initial ⟨4096, 2, by decide, by decide⟩))))
            (finalState ((performCache (.reserve 2048)).run
              (.initial (.initial ⟨4096, 2, by decide, by decide⟩)))) one another ∨
          one = pageAt 64 1 ∧ another = pageAt 128 2) :
        one = pageAt 64 1 ∧ another = pageAt 128 2 := by
      rcases either with ⟨entryId, entry, _, held, rfl, _⟩ | new
      · have member : entry.snapshot ∈ (finalState ((performCache (.reserve 2048)).run
            (.initial (.initial ⟨4096, 2, by decide, by decide⟩)) :
              EStateM.Result PyError (PrefixObjects Unit UInt8) _)).cache.snapshots :=
          HostPrefixCache.mem_snapshots.mpr ⟨entryId, entry, held.imp And.left And.left, rfl⟩
        rw [performCache, finalState_map] at member
        exact absurd (reserve_within 2048 _ member) List.not_mem_nil
      · exact new
    intro one another other other' pair pair'
    rcases only one another pair with ⟨rfl, rfl⟩
    rcases only other other' pair' with ⟨rfl, rfl⟩
    refine ⟨?_, by simp⟩
    have storages : forall pair, pair ∈ storagePairs (pageAt 64 1) (pageAt 128 2) ->
        pair = (⟨64, 1024⟩, ⟨128, 1024⟩) := by
      have four : storagePairs (pageAt 64 1) (pageAt 128 2) =
          List.replicate 4 (⟨64, 1024⟩, ⟨128, 1024⟩) := rfl
      intro pair member
      rw [four] at member
      exact List.eq_of_mem_replicate member
    intro left right member member'
    rw [storages left member, storages right member']
    simp
  exact ⟨lockstep, (ranks_agree (fun bytes => bytes) (fun _ => []) _ _ _ lockstep).1⟩

end HostPrefix
end QSAHiSparse

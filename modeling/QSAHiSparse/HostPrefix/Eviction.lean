import QSAHiSparse.HostPrefix.Readers

namespace QSAHiSparse
namespace HostPrefix

open Foundation

/-!
# Evictions

`reserve` evicts one entry after another, in recency order, until the request
fits.  Shared storages are counted once, so an eviction may free nothing, and the
room is looked at again after each.  The entries that leave are the shortest
prefix of the unpinned ones whose removal makes room.
-/

variable {Namespace Element : Type}

namespace HostPrefixCache

variable (cache : HostPrefixCache Namespace Element)

/-- The ids of the entries without readers, in recency order. -/
def unpinned : List Nat :=
  (cache.entries.items.filter fun item => item.2.readers = 0).map Prod.fst

/-- The cache after the entries of these ids were evicted. -/
def without (removed : List Nat) : HostPrefixCache Namespace Element :=
  { cache with
    entries := cache.entries.without removed
    evictions := cache.evictions + removed.length }

/-- Whether the request fits once the first `count` unpinned entries are gone. -/
def Fits (size : Int) (count : Nat) : Prop :=
  (cache.without (cache.unpinned.take count)).hasRoom size

theorem without_nil : cache.without [] = cache := by
  unfold without
  rw [Dict.without_nil]
  rfl

theorem without_without (first second : List Nat) :
    (cache.without first).without second = cache.without (first ++ second) := by
  unfold without
  rw [Dict.without_without, List.length_append, Nat.add_assoc]

/-- The unpinned entries that are left, in their order. -/
theorem unpinned_without (removed : List Nat) :
    (cache.without removed).unpinned = cache.unpinned.filter fun entryId => entryId ∉ removed := by
  unfold unpinned without Dict.without
  rw [List.filter_map, List.filter_filter, List.filter_filter]
  congr 2
  funext item
  exact Bool.and_comm _ _

theorem unpinned_nodup : cache.unpinned.Nodup :=
  cache.entries.nodup.sublist (List.filter_sublist.map Prod.fst)

theorem unpinned_length_le : cache.unpinned.length ≤ cache.entries.size := by
  unfold unpinned
  rw [List.length_map]
  exact List.length_filter_le _ _

/-- An eviction takes the first unpinned entry. -/
theorem evictOne_eq : cache.evictOne =
    match cache.unpinned with
    | [] => none
    | entryId :: _ => some (cache.without [entryId]) := by
  unfold evictOne unpinned
  rw [← List.head?_filter]
  cases cache.entries.items.filter fun item => item.2.readers = 0 with
  | nil => rfl
  | cons item rest =>
      rw [List.head?_cons, List.map_cons]
      simp only [without, Dict.without_singleton, List.length_singleton]

/-- An eviction makes no room smaller. -/
theorem hasRoom_without {size : Int} (room : cache.hasRoom size) (removed : List Nat) :
    (cache.without removed).hasRoom size := by
  have fewer : (cache.without removed).usedBytes ≤ cache.usedBytes := by
    apply PrefixSnapshot.footprintBytes_mono
    intro snapshot member
    rcases HostPrefixCache.mem_snapshots.mp member with ⟨entryId, entry, live | retired, same⟩
    · have present := (Dict.get?_without _ _ _ _).mp live
      exact HostPrefixCache.mem_snapshots.mpr ⟨entryId, entry, Or.inl present.2, same⟩
    · exact HostPrefixCache.mem_snapshots.mpr ⟨entryId, entry, Or.inr retired, same⟩
  have shorter : (cache.without removed).entries.size ≤ cache.entries.size :=
    List.length_filter_le _ _
  unfold hasRoom at room ⊢
  change ¬ ((((cache.without removed).usedBytes : Nat) : Int) + cache.pendingBytes + size >
      cache.limits.budgetBytes ∨
    (((cache.without removed).entries.size : Nat) : Int) + cache.retired.size +
      cache.pendingEntries ≥ cache.limits.maxEntries)
  omega

/-- A request that fits after some evictions fits after more. -/
theorem Fits.more {cache : HostPrefixCache Namespace Element} {size : Int} {count more : Nat}
    (fits : cache.Fits size count) (atLeast : count ≤ more) : cache.Fits size more := by
  have split : cache.unpinned.take more =
      cache.unpinned.take count ++ (cache.unpinned.take more).drop count := by
    conv_lhs => rw [← List.take_append_drop count (cache.unpinned.take more)]
    rw [List.take_take, Nat.min_eq_left atLeast]
  unfold Fits
  rw [split, ← without_without]
  exact hasRoom_without _ fits _

end HostPrefixCache

open HostPrefixCache

/-- The loop evicts the shortest prefix of the unpinned entries that makes room,
or all of them in vain. -/
theorem makeRoom_evicts (size : Int) (fuel : Nat) :
    forall cache : HostPrefixCache Namespace Element, cache.unpinned.length < fuel ->
      exists count, count ≤ cache.unpinned.length ∧
        (makeRoom size fuel cache).2 = cache.without (cache.unpinned.take count) ∧
        (forall fewer, fewer < count -> ¬ cache.Fits size fewer) ∧
        (((makeRoom size fuel cache).1 = true ∧ cache.Fits size count) ∨
          ((makeRoom size fuel cache).1 = false ∧ count = cache.unpinned.length ∧
            ¬ cache.Fits size count)) := by
  induction fuel with
  | zero => exact fun cache enough => absurd enough (Nat.not_lt_zero _)
  | succ fuel previous =>
      intro cache enough
      have none_gone : cache.without (cache.unpinned.take 0) = cache := by
        rw [List.take_zero, without_nil]
      unfold makeRoom
      by_cases room : cache.hasRoom size
      · rw [if_pos room]
        refine ⟨0, Nat.zero_le _, none_gone.symm, fun fewer impossible => ?_, Or.inl ⟨rfl, ?_⟩⟩
        · exact absurd impossible (Nat.not_lt_zero _)
        · unfold Fits
          rw [none_gone]
          exact room
      · rw [if_neg room, evictOne_eq]
        have unfit : ¬ cache.Fits size 0 := by
          unfold Fits
          rw [none_gone]
          exact room
        cases listed : cache.unpinned with
        | nil =>
            refine ⟨0, Nat.le_refl _, ?_, fun fewer impossible => ?_, Or.inr ⟨rfl, rfl, unfit⟩⟩
            · rw [listed] at none_gone
              exact none_gone.symm
            · exact absurd impossible (Nat.not_lt_zero _)
        | cons entryId rest =>
            have left : (cache.without [entryId]).unpinned = rest := by
              have nodup := cache.unpinned_nodup
              rw [listed, List.nodup_cons] at nodup
              rw [unpinned_without, listed, List.filter_cons_of_neg (by simp)]
              apply List.filter_eq_self.mpr
              intro other member
              apply decide_eq_true
              rw [List.mem_singleton]
              rintro rfl
              exact nodup.1 member
            have after : forall count, (cache.without [entryId]).without
                ((cache.without [entryId]).unpinned.take count) =
                  cache.without ((entryId :: rest).take (count + 1)) := by
              intro count
              rw [left, without_without, List.take_succ_cons]
              rfl
            have fits : forall count, (cache.without [entryId]).Fits size count <->
                cache.Fits size (count + 1) := by
              intro count
              unfold Fits
              rw [after, listed]
            have shorter : (cache.without [entryId]).unpinned.length < fuel := by
              rw [left]
              rw [listed, List.length_cons] at enough
              omega
            rcases previous _ shorter with ⟨count, within, evicted, needed, outcome⟩
            rw [left] at within
            refine ⟨count + 1, Nat.succ_le_succ within, ?_, ?_, ?_⟩
            · rw [evicted, after]
            · intro fewer less
              cases fewer with
              | zero => exact unfit
              | succ fewer =>
                  rw [← fits]
                  exact needed fewer (Nat.lt_of_succ_lt_succ less)
            · rcases outcome with ⟨made, room⟩ | ⟨refused, all, tight⟩
              · exact Or.inl ⟨made, (fits count).mp room⟩
              · refine Or.inr ⟨refused, ?_, fun room => tight ((fits count).mpr room)⟩
                rw [left] at all
                rw [List.length_cons, all]

/-- More turns than there are unpinned entries change nothing: the loop has ended. -/
theorem makeRoom_ends (size : Int) (fuel : Nat) :
    forall (cache : HostPrefixCache Namespace Element) (extra : Nat),
      cache.unpinned.length < fuel -> makeRoom size (fuel + extra) cache = makeRoom size fuel cache := by
  induction fuel with
  | zero => exact fun cache extra enough => absurd enough (Nat.not_lt_zero _)
  | succ fuel previous =>
      intro cache extra enough
      rw [Nat.succ_add]
      unfold makeRoom
      by_cases room : cache.hasRoom size
      · rw [if_pos room, if_pos room]
      · rw [if_neg room, if_neg room, evictOne_eq]
        cases listed : cache.unpinned with
        | nil => rfl
        | cons entryId rest =>
            apply previous
            have fewer : (cache.without [entryId]).unpinned.length < cache.unpinned.length := by
              rw [unpinned_without, listed, List.filter_cons_of_neg (by simp), List.length_cons]
              exact Nat.lt_succ_of_le (List.length_filter_le _ _)
            rw [Nat.lt_succ_iff] at enough
            exact Nat.lt_of_lt_of_le fewer enough

/-! ## Reservations -/

/-- What `reserve` leaves when it looked for room: the first `count` unpinned
entries are gone, and nothing else is. -/
structure Evicted (before after : HostPrefixCache Namespace Element) (count : Nat) : Prop where
  within : count ≤ before.unpinned.length
  entries : after.entries.items =
    before.entries.items.filter fun item => item.1 ∉ before.unpinned.take count
  evictions : after.evictions = before.evictions + count
  retired : after.retired = before.retired

/-- What a pinned entry is worth: it is never evicted. -/
theorem Evicted.keeps {before after : HostPrefixCache Namespace Element} {count : Nat}
    (evicted : Evicted before after count) {entryId : Nat} {entry : CacheEntry Namespace Element}
    (live : before.entries.get? entryId = some entry) (pinned : entry.readers ≠ 0) :
    after.entries.get? entryId = some entry := by
  rw [Dict.get?_eq_some_iff] at live ⊢
  rw [evicted.entries, List.mem_filter]
  refine ⟨live, decide_eq_true fun removed => ?_⟩
  change entryId ∈ _ at removed
  rcases List.mem_map.mp (List.mem_of_mem_take removed) with ⟨item, member, same⟩
  rw [List.mem_filter, decide_eq_true_eq] at member
  have present : (entryId, item.2) ∈ before.entries.items := by
    rw [← same]
    exact member.1
  rw [← before.entries.item_unique present live] at pinned
  exact pinned member.2

/-- A reservation succeeds exactly when its size is positive, within the budget,
and fits once every unpinned entry is gone.  It then evicts the shortest prefix
of the unpinned entries that makes room; no pinned entry ever leaves. -/
theorem reserve_evicts_minimally (objects : PrefixObjects Namespace Element) (size : Int) :
    exists made after, (reserve size).run objects = .ok made after ∧
      (made ≠ none <-> 0 < size ∧ size ≤ objects.cache.limits.budgetBytes ∧
        objects.cache.Fits size objects.cache.unpinned.length) ∧
      (made ≠ none -> exists count, Evicted objects.cache after.cache count ∧
        objects.cache.Fits size count ∧
          forall fewer, fewer < count -> ¬ objects.cache.Fits size fewer) ∧
      (exists count, Evicted objects.cache after.cache count) ∧
      (forall entryId entry, objects.cache.entries.get? entryId = some entry ->
        entry.readers ≠ 0 -> after.cache.entries.get? entryId = some entry) ∧
      forall extra, makeRoom size (objects.cache.entries.size + 1 + extra) objects.cache =
        makeRoom size (objects.cache.entries.size + 1) objects.cache := by
  have enough : objects.cache.unpinned.length < objects.cache.entries.size + 1 :=
    Nat.lt_succ_of_le objects.cache.unpinned_length_le
  have ends := fun extra => makeRoom_ends size (objects.cache.entries.size + 1) objects.cache extra
    enough
  have unchanged : Evicted objects.cache objects.cache 0 :=
    { within := Nat.zero_le _
      entries := by
        rw [List.take_zero]
        simp only [List.not_mem_nil, not_false_eq_true, decide_true, List.filter_true]
      evictions := rfl
      retired := rfl }
  unfold reserve
  rw [EStateM.run_bind, EStateM.run_get]
  by_cases refused : size ≤ 0 ∨ size > objects.cache.limits.budgetBytes
  · simp only [if_pos refused]
    refine ⟨none, objects, rfl, ?_, fun made => absurd rfl made, ⟨0, unchanged⟩,
      fun _ _ live _ => live, ends⟩
    constructor
    · exact fun made => absurd rfl made
    · rintro ⟨positive, within, _⟩
      omega
  · simp only [if_neg refused]
    rcases makeRoom_evicts size _ objects.cache enough with
      ⟨count, within, left, needed, outcome⟩
    have evicted : Evicted objects.cache
        (makeRoom size (objects.cache.entries.size + 1) objects.cache).2 count := by
      rw [left]
      refine ⟨within, rfl, ?_, rfl⟩
      change objects.cache.evictions + (objects.cache.unpinned.take count).length = _
      rw [List.length_take, Nat.min_eq_left within]
    rcases outcome with ⟨made, fits⟩ | ⟨failed, all, tight⟩
    · simp only [made]
      have promised : Evicted objects.cache
          (PrefixObjects.promise { objects with
            cache := (makeRoom size (objects.cache.entries.size + 1) objects.cache).2 } size).cache
            count := ⟨evicted.within, evicted.entries, evicted.evictions, evicted.retired⟩
      refine ⟨some objects.reservations.length, _, rfl, ?_, fun _ => ⟨count, promised, fits, needed⟩,
        ⟨count, promised⟩, fun _ _ live pinned => promised.keeps live pinned, ends⟩
      constructor
      · exact fun _ => ⟨by omega, by omega, fits.more within⟩
      · exact fun _ => Option.some_ne_none _
    · simp only [failed]
      refine ⟨none, _, rfl, ?_, fun made => absurd rfl made, ⟨count, evicted⟩,
        fun _ _ live pinned => evicted.keeps live pinned, ends⟩
      constructor
      · exact fun made => absurd rfl made
      · rintro ⟨_, _, room⟩
        rw [all] at tight
        exact absurd room tight

end HostPrefix
end QSAHiSparse

import QSAHiSparse.Foundation.Allocation
import QSAHiSparse.HostPrefix.Lasting

namespace QSAHiSparse
namespace HostPrefix

open Foundation

/-!
# What a publication accepts

The checks of `publish` follow the segments from the start of the prefix, and the
bytes it charges are those of the storages and of the tokens that no held
snapshot reaches.
-/

variable {Namespace Element : Type}

/-! ## Tilings -/

/-- A segment that begins where the others stop is passed. -/
theorem tiling_cons {segment : PrefixSegment Element} {rest : List (PrefixSegment Element)}
    {stop : Int} {tokens rows : Nat} (starts : segment.start = stop) (longer : stop < segment.stop)
    (paged : segment.stop % 64 = 0) (raw : segment.raw.shape[2]? = some tokens)
    (rawRows : (tokens : Int) = segment.stop - stop) (index : segment.index.shape[1]? = some rows)
    (indexRows : (rows : Int) = (segment.stop - stop) / 4) :
    tiling (segment :: rest) stop = tiling rest segment.stop := by
  have accepted : ¬ (segment.start ≠ stop ∨ segment.stop ≤ stop ∨ segment.stop % 64 ≠ 0) := by
    omega
  rw [tiling, if_neg accepted, raw, index]
  simp only [rawRows, indexRows, ne_eq, not_true_eq_false, if_false]

/-- Segments that pass are followed by the rest. -/
theorem tiling_append {first second : List (PrefixSegment Element)} {start stop : Int}
    (passed : tiling first start = .ok stop) : tiling (first ++ second) start = tiling second stop := by
  induction first generalizing start with
  | nil =>
      cases passed
      rfl
  | cons segment rest previous =>
      rw [tiling] at passed
      rw [List.cons_append, tiling]
      split at passed
      · cases passed
      · rename_i accepted
        rw [if_neg accepted]
        cases raw : segment.raw.shape[2]? with
        | none =>
            rw [raw] at passed
            cases passed
        | some tokens =>
            rw [raw] at passed
            simp only at passed ⊢
            split at passed
            · cases passed
            · rename_i sameTokens
              rw [if_neg sameTokens]
              cases index : segment.index.shape[1]? with
              | none =>
                  rw [index] at passed
                  cases passed
              | some rows =>
                  rw [index] at passed
                  simp only at passed ⊢
                  split at passed
                  · cases passed
                  · rename_i sameRows
                    rw [if_neg sameRows]
                    exact previous passed

/-- The checks of `publish` that look at the snapshot alone. -/
theorem checkSnapshot_ok_iff {snapshot : PrefixSnapshot Namespace Element} :
    checkSnapshot snapshot = .ok ⟨⟩ <-> 0 < snapshot.length ∧ snapshot.length % 64 = 0 ∧
      tiling snapshot.segments 0 = .ok snapshot.length := by
  unfold checkSnapshot
  by_cases rejected : snapshot.length = 0 ∨ snapshot.length % 64 ≠ 0
  · rw [if_pos rejected]
    constructor
    · intro impossible
      cases impossible
    · rintro ⟨positive, paged, _⟩
      omega
  · rw [if_neg rejected]
    have paged : 0 < snapshot.length ∧ snapshot.length % 64 = 0 := by omega
    cases tiled : tiling snapshot.segments 0 with
    | error cause =>
        constructor
        · intro impossible
          cases impossible
        · rintro ⟨_, _, impossible⟩
          cases impossible
    | ok stop =>
        simp only
        by_cases whole : stop = (snapshot.length : Int)
        · simp only [whole, ne_eq, not_true_eq_false, if_false]
          exact ⟨fun _ => ⟨paged.1, paged.2, trivial⟩, fun _ => trivial⟩
        · rw [if_pos whole]
          constructor
          · intro impossible
            cases impossible
          · rintro ⟨_, _, same⟩
            exact absurd (Except.ok.inj same) whole

/-! ## The bytes that are charged -/

/-- The tokens of a new object and the storages that no held snapshot reaches are
what a snapshot adds. -/
theorem footprintBytes_concat {snapshots : List (PrefixSnapshot Namespace Element)}
    {snapshot : PrefixSnapshot Namespace Element} {shared : Finset Storage} {new : List Storage}
    (parts : snapshot.storages = shared ∪ new.toFinset)
    (known : shared ⊆ reached PrefixSnapshot.storages snapshots)
    (fresh : Fresh Storage.nbytes (reached PrefixSnapshot.storages snapshots) new)
    (named : forall other, other ∈ snapshots -> other.tokens ≠ snapshot.tokens) :
    PrefixSnapshot.footprintBytes (snapshots ++ [snapshot]) =
      PrefixSnapshot.footprintBytes snapshots +
        ((new.map Storage.nbytes).sum + snapshot.tokens.length) := by
  have storages := sharedBytes_concat parts known fresh
  have unnamed : snapshot.tokens ∉
      reached (fun other : PrefixSnapshot Namespace Element => {other.tokens}) snapshots := by
    rw [mem_reached]
    rintro ⟨other, member, used⟩
    exact named other member (Finset.mem_singleton.mp used).symm
  have alone : Fresh BytesObject.length
      (reached (fun other : PrefixSnapshot Namespace Element => {other.tokens}) snapshots)
      [snapshot.tokens] :=
    (Fresh.nil _ _).concat (Or.inr ⟨unnamed, List.not_mem_nil⟩)
  have tokens := @sharedBytes_concat BytesObject BytesObject.length [snapshot.tokens] _ _
    (fun other : PrefixSnapshot Namespace Element => {other.tokens}) snapshots snapshot ∅
    (by rw [Finset.empty_union]; rfl) (Finset.empty_subset _) alone
  unfold PrefixSnapshot.footprintBytes
  rw [storages, tokens, List.map_singleton, List.sum_singleton]
  omega

/-- A snapshot that is no larger than its reservation, and passes the checks, is
published in the epoch of the reservation. -/
theorem publish_fits {objects : PrefixObjects Namespace Element} (valid : Conserved objects)
    {position : Nat} {reservation : PrefixReservation}
    {snapshot : PrefixSnapshot Namespace Element}
    (found : objects.reservations[position]? = some reservation)
    (active : reservation.active = true) (current : reservation.epoch = objects.cache.epoch)
    (checked : checkSnapshot snapshot = .ok ⟨⟩) (resident : snapshot.hostResident = true)
    (fits : (PrefixSnapshot.footprintBytes (objects.cache.snapshots ++ [snapshot]) : Int) ≤
      objects.cache.usedBytes + reservation.size) :
    exists after, (publish position snapshot true).run objects =
      .ok (objects.cache.nextId + 1) after := by
  have body : (publishBody reservation snapshot true).run objects =
      .ok (objects.cache.nextId + 1) (objects.insert snapshot resident) := by
    unfold publishBody raiseIf
    have small : ¬ ((PrefixSnapshot.footprintBytes (objects.cache.snapshots ++ [snapshot]) : Int) -
        objects.cache.usedBytes > reservation.size) := by omega
    simp only [Bool.true_eq_false, if_false, current, ne_eq, not_true_eq_false, checked,
      dif_pos resident, EStateM.run_bind, EStateM.run_get, EStateM.run_pure, if_neg small]
    rfl
  rcases closeReservation_closes (valid.insert resident) position with ⟨after, ran, _⟩
  refine ⟨after, ?_⟩
  unfold publish
  rw [EStateM.run_bind, EStateM.run_get]
  simp only [found]
  unfold raiseIf
  simp only [active, Bool.true_eq_false, if_false]
  rw [EStateM.run_bind, EStateM.run_pure]
  change EStateM.run (tryFinally (publishBody reservation snapshot true) (closeReservation position))
    objects = _
  rw [run_tryFinally, body]
  simp only [ran]

end HostPrefix
end QSAHiSparse

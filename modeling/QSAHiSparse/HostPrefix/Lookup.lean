import Mathlib.Data.BitVec
import QSAHiSparse.HostPrefix.Readers

namespace QSAHiSparse
namespace HostPrefix

open Foundation

/-!
# Exact lookups

The cache compares encoded tokens, skips the image key of an entry that cannot
match, and keeps the longest entry seen.  Every entry was published with a
nonempty length that is a multiple of the page, so the image key it is compared
with exists and a lookup never raises.
-/

variable {Namespace Element : Type}

/-! ## The encoding of tokens -/

/-- Words of one width are told apart by their code, so a code is a prefix of
another exactly when the words are. -/
theorem flatMap_prefix_iff {α β : Type} {encode : α -> List β} {width : Nat}
    (positive : 0 < width) (wide : forall word, (encode word).length = width)
    (injective : Function.Injective encode) :
    forall {first second : List α},
      first.flatMap encode <+: second.flatMap encode <-> first <+: second
  | [], second => by simp
  | word :: first, [] => by
      simp only [List.flatMap_cons, List.flatMap_nil, List.prefix_nil, List.append_eq_nil_iff,
        reduceCtorEq, iff_false, not_and]
      intro empty
      have length := wide word
      rw [empty, List.length_nil] at length
      omega
  | word :: first, other :: second => by
      rw [List.flatMap_cons, List.flatMap_cons, List.cons_prefix_cons]
      constructor
      · intro codes
        have sameLength : (encode word).length = (encode other).length := by
          rw [wide, wide]
        rcases codes with ⟨rest, equal⟩
        rw [List.append_assoc] at equal
        have parts := List.append_inj equal sameLength
        refine ⟨injective parts.1, ?_⟩
        exact (flatMap_prefix_iff positive wide injective).mp ⟨rest, parts.2⟩
      · rintro ⟨rfl, rest⟩
        exact (List.prefix_append_right_inj _).mpr
          ((flatMap_prefix_iff positive wide injective).mpr rest)

def tokenByte (token : Int64) (place : Nat) : UInt8 :=
  UInt8.ofBitVec (token.toBitVec.extractLsb' (8 * place) 8)

/-- An element of `array("q", …).tobytes()`, least byte first. -/
def encodeToken (token : Int64) : Bytes := (List.range 8).map (tokenByte token)

/-- `token_bytes`. -/
def tokenBytes (tokens : List Int64) : Bytes := tokens.flatMap encodeToken

theorem encodeToken_length (token : Int64) : (encodeToken token).length = 8 := by
  rw [encodeToken, List.length_map, List.length_range]

theorem encodeToken_injective : Function.Injective encodeToken := by
  intro first second equal
  apply Int64.toBitVec_inj.mp
  apply BitVec.eq_of_getLsbD_eq
  intro place inside
  have bytes : tokenByte first (place / 8) = tokenByte second (place / 8) := by
    have positions := List.map_inj_left.mp equal
    exact positions (place / 8) (List.mem_range.mpr (by omega))
  have bits := congrArg (fun byte : UInt8 => byte.toBitVec.getLsbD (place % 8)) bytes
  have within : place % 8 < 8 := Nat.mod_lt place (by decide)
  simp only [tokenByte, BitVec.getLsbD_extractLsb', within, decide_true, Bool.true_and] at bits
  rw [Nat.div_add_mod] at bits
  exact bits

/-- A prefix of the encoding is a prefix of the tokens. -/
theorem tokenBytes_prefix_iff {first second : List Int64} :
    tokenBytes first <+: tokenBytes second <-> first <+: second :=
  flatMap_prefix_iff (by decide) encodeToken_length encodeToken_injective

/-! ## What the entries of a reachable cache look like -/

/-- The snapshot carries encoded tokens, and complete pages of them. -/
structure Paged (snapshot : PrefixSnapshot Namespace Element) : Prop where
  encoded : exists tokens, snapshot.tokens.contents = tokenBytes tokens
  nonempty : 0 < snapshot.length
  pages : snapshot.length % 64 = 0

/-- What is published carries encoded tokens. -/
def CacheOperation.PublishesTokens : CacheOperation Namespace Element -> Prop
  | .publish _ snapshot _ => exists tokens, snapshot.tokens.contents = tokenBytes tokens
  | _ => True

/-- Every snapshot of the cache after the operation was there before, or is the
published one and has passed the checks. -/
def Admits (operation : CacheOperation Namespace Element)
    (before after : PrefixObjects Namespace Element) : Prop :=
  forall snapshot, snapshot ∈ after.cache.snapshots ->
    snapshot ∈ before.cache.snapshots ∨
      exists reservation completed, operation = .publish reservation snapshot completed ∧
        checkSnapshot snapshot = .ok ⟨⟩

theorem Within.admits {operation : CacheOperation Namespace Element}
    {before after : PrefixObjects Namespace Element} (within : Within before after) :
    Admits operation before after :=
  fun _ member => Or.inl (within member)

theorem publish_admits (objects : PrefixObjects Namespace Element) (position : Nat)
    (snapshot : PrefixSnapshot Namespace Element) (completed : Bool) :
    Admits (.publish position snapshot completed) objects
      (finalState ((publish position snapshot completed).run objects)) := by
  apply Leaves.finalState_iff.mp
  unfold publish
  apply (Leaves.bind_iff _ _ _).mpr
  apply (Leaves.get_iff _).mpr
  cases objects.reservations[position]? with
  | none => exact Within.admits fun _ member => member
  | some reservation =>
      apply (Leaves.bind_iff _ _ _).mpr
      apply (Leaves.raiseIf_iff _ _ _).mpr
      refine ⟨fun _ => Within.admits fun _ member => member, fun _ => ?_⟩
      apply (Leaves.tryFinally_iff _ _ _).mpr
      have closes (middle : PrefixObjects Namespace Element)
          (admits : Admits (.publish position snapshot completed) objects middle) :
          Leaves (fun _ => Admits (.publish position snapshot completed) objects)
            (fun _ => Admits (.publish position snapshot completed) objects)
            ((closeReservation position).run middle) :=
        ((closeReservation_within position).leaves middle).mono
          (fun _ _ within other member => admits other (within member))
          (fun _ _ within other member => admits other (within member))
      have body : Leaves (fun _ => Admits (.publish position snapshot completed) objects)
          (fun _ after => after = objects)
          ((publishBody reservation snapshot completed).run objects) := by
        unfold publishBody
        apply (Leaves.bind_iff _ _ _).mpr
        apply (Leaves.raiseIf_iff _ _ _).mpr
        refine ⟨fun _ => rfl, fun _ => ?_⟩
        apply (Leaves.bind_iff _ _ _).mpr
        apply (Leaves.get_iff _).mpr
        apply (Leaves.bind_iff _ _ _).mpr
        apply (Leaves.raiseIf_iff _ _ _).mpr
        refine ⟨fun _ => rfl, fun _ => ?_⟩
        cases checked : checkSnapshot snapshot with
        | error cause => exact rfl
        | ok _ =>
            by_cases resident : snapshot.hostResident = true
            · simp only [resident, dite_true]
              apply (Leaves.bind_iff _ _ _).mpr
              apply (Leaves.raiseIf_iff _ _ _).mpr
              refine ⟨fun _ => rfl, fun _ => ?_⟩
              intro other member
              rcases insert_snapshots resident member with old | new
              · exact Or.inl old
              · exact Or.inr ⟨position, completed, by rw [new], new ▸ checked⟩
            · simp only [resident]
              exact rfl
      apply body.mono
      · exact fun _ middle admits => closes middle admits
      · rintro _ middle rfl
        exact closes _ (Within.admits fun _ member => member)

theorem performCache_admits [DecidableEq Namespace] (objects : PrefixObjects Namespace Element)
    (operation : CacheOperation Namespace Element) :
    Admits operation objects (finalState ((performCache operation).run objects)) := by
  cases operation with
  | acquire namespaceKey tokens limit count identity =>
      rw [performCache, finalState_map]
      exact (acquire_shrinks namespaceKey tokens limit count identity objects).within.admits
  | reserve size =>
      rw [performCache, finalState_map]
      exact (reserve_within size objects).admits
  | setBasisReader reservation reader =>
      rw [performCache, finalState_map]
      exact (setBasisReader_shrinks reservation reader objects).within.admits
  | publish reservation snapshot completed =>
      rw [performCache, finalState_map]
      exact publish_admits objects reservation snapshot completed
  | closeReservation reservation =>
      rw [performCache, finalState_map]
      exact (closeReservation_within reservation objects).admits
  | closeReader reader =>
      rw [performCache, finalState_map]
      exact (closeReader_shrinks reader objects).within.admits
  | reset =>
      rw [performCache, finalState_map]
      exact (reset_shrinks objects).within.admits

theorem paged_of_checks {snapshot : PrefixSnapshot Namespace Element}
    (encoded : exists tokens, snapshot.tokens.contents = tokenBytes tokens)
    (checked : checkSnapshot snapshot = .ok ⟨⟩) : Paged snapshot := by
  unfold checkSnapshot at checked
  split at checked
  · cases checked
  · rename_i accepted
    rw [not_or] at accepted
    exact ⟨encoded, Nat.pos_of_ne_zero accepted.1, Classical.not_not.mp accepted.2⟩

/-- Every snapshot of a reachable cache is paged. -/
theorem cacheAfter_paged [DecidableEq Namespace] (limits : CacheLimits)
    (operations : List (CacheOperation Namespace Element))
    (encoded : forall operation, operation ∈ operations -> operation.PublishesTokens) :
    forall snapshot, snapshot ∈ (cacheAfter limits operations).cache.snapshots ->
      Paged snapshot := by
  unfold cacheAfter
  have start : forall snapshot, snapshot ∈
      (PrefixObjects.initial (.initial limits) : PrefixObjects Namespace Element).cache.snapshots ->
      Paged snapshot := fun _ member => absurd member List.not_mem_nil
  generalize PrefixObjects.initial (.initial limits) = objects at start
  induction operations generalizing objects with
  | nil => exact start
  | cons operation rest inductionHypothesis =>
      rw [callAll_cons]
      apply inductionHypothesis fun other member =>
        encoded other (List.mem_cons_of_mem _ member)
      intro snapshot member
      rcases performCache_admits objects operation snapshot member with
        old | ⟨reservation, completed, rfl, checked⟩
      · exact start snapshot old
      · exact paged_of_checks (encoded _ List.mem_cons_self) checked

/-! ## The loop over the entries -/

/-- The entry may be handed out: its namespace is the one asked for, its tokens
are a prefix, it is within the limit, and the image keys at its length agree. -/
structure Matches (namespaceKey : Namespace) (tokens : List Int64) (limit : Option Int)
    (identity : Option ImagePrefixIdentity) (snapshot : PrefixSnapshot Namespace Element) :
    Prop where
  same_namespace : snapshot.namespaceKey = namespaceKey
  tokens_prefix : exists own, snapshot.tokens.contents = tokenBytes own ∧ own <+: tokens
  within : forall most, limit = some most -> (snapshot.length : Int) ≤ most
  same_image : imageKey identity snapshot.length = .ok snapshot.imageKey

section Loop

variable {namespaceKey : Namespace} {tokens : List Int64} {limit : Option Int}
  {identity : Option ImagePrefixIdentity}

/-- A prefix of the tokens is no longer than they are. -/
theorem length_le_of_prefix {snapshot : PrefixSnapshot Namespace Element}
    (starts : snapshot.tokens.contents <+: tokenBytes tokens) :
    snapshot.length ≤ (tokenBytes tokens).length / 8 :=
  Nat.div_le_div_right starts.length_le

theorem imageKey_some (image : ImagePrefixIdentity) (length : Int) :
    imageKey (some image) length =
      (image.digestAt length).map fun digest => some (image.recordsAt length, digest) := by
  change some <$> (image.digestAt length >>= fun digest =>
    pure (image.recordsAt length, digest)) = _
  cases image.digestAt length <;> rfl

/-- Within the coverage of the identity a paged length has an image key. -/
theorem imageKey_of_covered {length : Nat} (positive : 0 < length) (pages : length % 64 = 0)
    (covered : forall image, identity = some image -> length ≤ 64 * image.pageDigests.length) :
    exists key, imageKey identity length = .ok key := by
  cases identity with
  | none => exact ⟨none, rfl⟩
  | some image =>
      have within := covered image rfl
      have digestInside : ((length : Int) / 64 - 1).toNat < image.pageDigests.length := by omega
      refine ⟨some (image.recordsAt length, image.pageDigests[((length : Int) / 64 - 1).toNat]), ?_⟩
      have accepted : ¬ ((length : Int) % 64 ≠ 0 ∨ (length : Int) ≤ 0 ∨
          (length : Int) / 64 > image.pageDigests.length) := by omega
      have digest : image.digestAt length =
          .ok image.pageDigests[((length : Int) / 64 - 1).toNat] := by
        unfold ImagePrefixIdentity.digestAt
        rw [if_neg accepted, List.getElem?_eq_getElem digestInside]
      rw [imageKey_some, digest]
      rfl

/-- Beyond the coverage of the identity there is no image key. -/
theorem covered_of_imageKey {image : ImagePrefixIdentity} {length : Nat} {key : Option ImageKey}
    (found : imageKey (some image) length = .ok key) :
    length ≤ 64 * image.pageDigests.length := by
  by_contra beyond
  have refused : (length : Int) % 64 ≠ 0 ∨ (length : Int) ≤ 0 ∨
      (length : Int) / 64 > image.pageDigests.length := by omega
  have digest : image.digestAt length =
      .error (.valueError s!"No M-RoPE digest for prefix length {(length : Int)}") := by
    unfold ImagePrefixIdentity.digestAt
    rw [if_pos refused]
  rw [imageKey_some, digest] at found
  cases found

theorem le_lookupCap_iff {snapshot : PrefixSnapshot Namespace Element}
    (starts : snapshot.tokens.contents <+: tokenBytes tokens) :
    (snapshot.length : Int) ≤ lookupCap (tokenBytes tokens) limit identity <->
      (forall most, limit = some most -> (snapshot.length : Int) ≤ most) ∧
      forall image, identity = some image ->
        snapshot.length ≤ 64 * image.pageDigests.length := by
  have inside := length_le_of_prefix starts
  have capped : (snapshot.length : Int) ≤
      limit.getD (((tokenBytes tokens).length / 8 : Nat) : Int) <->
      forall most, limit = some most -> (snapshot.length : Int) ≤ most := by
    cases limit with
    | none =>
        exact ⟨(fun _ _ absent => nomatch absent), fun _ => Int.ofNat_le.mpr inside⟩
    | some most =>
        constructor
        · rintro within _ ⟨⟩
          exact within
        · exact fun within => within most rfl
  unfold lookupCap
  cases identity with
  | none =>
      exact capped.trans ⟨fun within => ⟨within, fun _ absent => nomatch absent⟩, And.left⟩
  | some image =>
      change (snapshot.length : Int) ≤ min _ _ <-> _
      rw [le_min_iff, capped]
      apply and_congr_right
      intro _
      constructor
      · rintro within _ ⟨⟩
        omega
      · intro within
        have covered := within image rfl
        omega

variable [DecidableEq Namespace]

/-- What the turn keeps apart: an entry that matches and is longer than the best
one so far, and every other. -/
theorem betterMatch_spec (item : Nat × CacheEntry Namespace Element)
    (paged : Paged item.2.snapshot)
    (best : Option (Nat × PrefixSnapshot Namespace Element)) :
    (Matches namespaceKey tokens limit identity item.2.snapshot ∧
        (forall held, best = some held -> held.2.length < item.2.snapshot.length) ∧
      betterMatch namespaceKey (tokenBytes tokens) (lookupCap (tokenBytes tokens) limit identity)
        identity best item = .ok (some (item.1, item.2.snapshot))) ∨
    (¬ (Matches namespaceKey tokens limit identity item.2.snapshot ∧
        forall held, best = some held -> held.2.length < item.2.snapshot.length) ∧
      betterMatch namespaceKey (tokenBytes tokens) (lookupCap (tokenBytes tokens) limit identity)
        identity best item = .ok best) := by
  rcases paged.encoded with ⟨own, encoded⟩
  have longer : (best.all fun held => held.2.length < item.2.snapshot.length) = true <->
      forall held, best = some held -> held.2.length < item.2.snapshot.length := by
    cases best with
    | none => exact ⟨(fun _ _ absent => nomatch absent), fun _ => rfl⟩
    | some held =>
        rw [Option.all_some, decide_eq_true_eq]
        constructor
        · rintro shorter _ ⟨⟩
          exact shorter
        · exact fun all => all held rfl
  unfold betterMatch
  by_cases candidate : item.2.snapshot.namespaceKey = namespaceKey ∧
      (item.2.snapshot.length : Int) ≤ lookupCap (tokenBytes tokens) limit identity ∧
      item.2.snapshot.tokens.contents <+: tokenBytes tokens
  · rw [if_pos candidate]
    rcases candidate with ⟨sameNamespace, capped, starts⟩
    have limits := (le_lookupCap_iff starts).mp capped
    rcases imageKey_of_covered paged.nonempty paged.pages limits.2 with ⟨key, found⟩
    have matching : Matches namespaceKey tokens limit identity item.2.snapshot <->
        item.2.snapshot.imageKey = key := by
      constructor
      · intro whole
        exact (Except.ok.inj (found.symm.trans whole.same_image)).symm
      · intro same
        refine ⟨sameNamespace, ⟨own, encoded, ?_⟩, limits.1, by rw [found, same]⟩
        rw [encoded] at starts
        exact tokenBytes_prefix_iff.mp starts
    rw [found, matching, <- longer]
    change (_ ∧ _ ∧ (if _ then _ else _) = _) ∨ (_ ∧ (if _ then _ else _) = _)
    by_cases both : item.2.snapshot.imageKey = key ∧
        (best.all fun held => held.2.length < item.2.snapshot.length) = true
    · rw [if_pos both]
      exact Or.inl ⟨both.1, both.2, rfl⟩
    · rw [if_neg both]
      exact Or.inr ⟨both, rfl⟩
  · rw [if_neg candidate]
    refine Or.inr ⟨?_, rfl⟩
    rintro ⟨whole, _⟩
    apply candidate
    rcases whole.tokens_prefix with ⟨other, encodedOther, starts⟩
    have startsBytes : item.2.snapshot.tokens.contents <+: tokenBytes tokens := by
      rw [encodedOther]
      exact tokenBytes_prefix_iff.mpr starts
    refine ⟨whole.same_namespace, (le_lookupCap_iff startsBytes).mpr ⟨whole.within, ?_⟩, startsBytes⟩
    rintro image rfl
    exact covered_of_imageKey whole.same_image

/-- What the loop has found among the items, starting from `best`. -/
structure Found (namespaceKey : Namespace) (tokens : List Int64) (limit : Option Int)
    (identity : Option ImagePrefixIdentity) (items : List (Nat × CacheEntry Namespace Element))
    (best result : Option (Nat × PrefixSnapshot Namespace Element)) : Prop where
  longest : forall item, item ∈ items ->
    Matches namespaceKey tokens limit identity item.2.snapshot ->
    exists held, result = some held ∧ item.2.snapshot.length ≤ held.2.length
  keeps : forall before, best = some before ->
    exists held, result = some held ∧ before.2.length ≤ held.2.length
  source : forall held, result = some held ->
    best = some held ∨ exists item, item ∈ items ∧ held = (item.1, item.2.snapshot) ∧
      Matches namespaceKey tokens limit identity item.2.snapshot

theorem foldlM_found (items : List (Nat × CacheEntry Namespace Element))
    (paged : forall item, item ∈ items -> Paged item.2.snapshot)
    (best : Option (Nat × PrefixSnapshot Namespace Element)) :
    exists result, items.foldlM (betterMatch namespaceKey (tokenBytes tokens)
        (lookupCap (tokenBytes tokens) limit identity) identity) best = .ok result ∧
      Found namespaceKey tokens limit identity items best result := by
  induction items generalizing best with
  | nil =>
      refine ⟨best, rfl, ?_, ?_, fun _ same => Or.inl same⟩
      · exact fun item member => absurd member List.not_mem_nil
      · exact fun before same => ⟨before, same, Nat.le_refl _⟩
  | cons item items inductionHypothesis =>
      have others := inductionHypothesis fun other member =>
        paged other (List.mem_cons_of_mem _ member)
      rw [List.foldlM_cons]
      rcases @betterMatch_spec _ _ namespaceKey tokens limit identity _ item (paged item List.mem_cons_self) best with
        ⟨whole, shorter, turn⟩ | ⟨fails, turn⟩
      · rw [turn]
        rcases others (some (item.1, item.2.snapshot)) with ⟨result, ran, found⟩
        rcases found.keeps _ rfl with ⟨held, resulted, atLeast⟩
        refine ⟨result, ran, ?_, ?_, ?_⟩
        · intro other member matching
          rcases List.mem_cons.mp member with rfl | rest
          · exact ⟨held, resulted, atLeast⟩
          · exact found.longest other rest matching
        · intro before same
          exact ⟨held, resulted, Nat.le_trans (Nat.le_of_lt (shorter before same)) atLeast⟩
        · intro other same
          rcases found.source other same with first | ⟨source, member, equal, matching⟩
          · exact Or.inr ⟨item, List.mem_cons_self, (Option.some.inj first).symm, whole⟩
          · exact Or.inr ⟨source, List.mem_cons_of_mem _ member, equal, matching⟩
      · rw [turn]
        rcases others best with ⟨result, ran, found⟩
        refine ⟨result, ran, ?_, found.keeps, ?_⟩
        · intro other member matching
          rcases List.mem_cons.mp member with rfl | rest
          · -- It matches, so the best one so far was no shorter.
            rw [not_and, not_forall] at fails
            rcases fails matching with ⟨before, longer⟩
            rw [Classical.not_imp, Nat.not_lt] at longer
            rcases found.keeps before longer.1 with ⟨held, resulted, atLeast⟩
            exact ⟨held, resulted, Nat.le_trans longer.2 atLeast⟩
          · exact found.longest other rest matching
        · intro other same
          rcases found.source other same with first | ⟨source, member, equal, matching⟩
          · exact Or.inl first
          · exact Or.inr ⟨source, List.mem_cons_of_mem _ member, equal, matching⟩

end Loop

/-! ## The lookup -/

/-- What `acquire` does: a miss when no live entry matches, else a reader on a
longest one, which becomes the most recent entry with one reader more. -/
def ExactLookup [DecidableEq Namespace] (objects : PrefixObjects Namespace Element)
    (namespaceKey : Namespace) (tokens : List Int64) (limit : Option Int) (count : Bool)
    (identity : Option ImagePrefixIdentity) : Prop :=
  ((forall entryId entry, objects.cache.entries.get? entryId = some entry ->
      ¬ Matches namespaceKey tokens limit identity entry.snapshot) ∧
    (acquire namespaceKey (tokenBytes tokens) limit count identity).run objects =
      .ok none
        { objects with
          cache :=
            { objects.cache with misses := objects.cache.misses + if count then 1 else 0 } }) ∨
  exists (entryId : Nat) (entry : CacheEntry Namespace Element)
      (entries : Dict Nat (CacheEntry Namespace Element)),
    objects.cache.entries.get? entryId = some entry ∧
    Matches namespaceKey tokens limit identity entry.snapshot ∧
    (forall otherId other, objects.cache.entries.get? otherId = some other ->
      Matches namespaceKey tokens limit identity other.snapshot ->
      other.snapshot.length ≤ entry.snapshot.length) ∧
    entries.items = objects.cache.entries.items.filter (fun item => item.1 ≠ entryId) ++
      [(entryId, { entry with readers := entry.readers + 1 })] ∧
    (acquire namespaceKey (tokenBytes tokens) limit count identity).run objects =
      .ok (some objects.readers.length)
        { objects with
          cache :=
            { objects.cache with
              entries := entries
              hits := objects.cache.hits + if count then 1 else 0 }
          readers := objects.readers ++ [⟨entryId, some entry.snapshot⟩] }

/-- The entry that is pinned goes to the end of the recency order. -/
theorem pin_items (entries : Dict Nat (CacheEntry Namespace Element)) {entryId : Nat}
    (entry : CacheEntry Namespace Element) :
    ((entries.set entryId entry).moveToEnd entryId).items =
      entries.items.filter (fun item => item.1 ≠ entryId) ++ [(entryId, entry)] := by
  unfold Dict.moveToEnd
  rw [Dict.get?_set_self]
  change (((entries.set entryId entry).erase entryId).set entryId entry).items = _
  rw [Dict.items_set_of_absent _ (Dict.get?_erase_self _ _)]
  congr 1
  change (entries.set entryId entry).items.filter _ = _
  unfold Dict.set
  split
  · change (entries.items.map _).filter _ = _
    rw [List.filter_map]
    have kept : entries.items.filter
        ((fun item => decide (item.1 ≠ entryId)) ∘
          fun item : Nat × CacheEntry Namespace Element =>
            if item.1 = entryId then (entryId, entry) else item) =
        entries.items.filter fun item => item.1 ≠ entryId := by
      apply List.filter_congr
      intro item _
      change decide ((if item.1 = entryId then (entryId, entry) else item).1 ≠ entryId) = _
      by_cases same : item.1 = entryId
      · rw [if_pos same]
        simp [same]
      · rw [if_neg same]
    rw [kept]
    apply List.map_congr_left (g := id) _ |>.trans (List.map_id _)
    intro item member
    have different := (List.mem_filter.mp member).2
    rw [decide_eq_true_eq] at different
    exact if_neg different
  · rw [List.filter_append]
    simp

theorem acquire_exact [DecidableEq Namespace] (limits : CacheLimits)
    (operations : List (CacheOperation Namespace Element))
    (encoded : forall operation, operation ∈ operations -> operation.PublishesTokens)
    (namespaceKey : Namespace) (tokens : List Int64) (limit : Option Int) (count : Bool)
    (identity : Option ImagePrefixIdentity) :
    ExactLookup (cacheAfter limits operations) namespaceKey tokens limit count identity := by
  have paged := cacheAfter_paged limits operations encoded
  generalize cacheAfter limits operations = objects at paged
  have pagedItems : forall item, item ∈ objects.cache.entries.items -> Paged item.2.snapshot := by
    intro item member
    apply paged
    apply HostPrefixCache.mem_snapshots.mpr
    exact ⟨item.1, item.2, Or.inl (Dict.get?_eq_some_iff.mpr member), rfl⟩
  rcases @foldlM_found _ _ namespaceKey tokens limit identity _ objects.cache.entries.items pagedItems none with
    ⟨result, ran, found⟩
  have searched : longestMatch objects.cache namespaceKey (tokenBytes tokens) limit identity =
      .ok result := ran
  unfold ExactLookup
  cases result with
  | none =>
      refine Or.inl ⟨?_, ?_⟩
      · intro entryId entry live matching
        rcases found.longest (entryId, entry) (Dict.get?_eq_some_iff.mp live) matching with
          ⟨held, absent, _⟩
        cases absent
      · unfold acquire
        rw [EStateM.run_bind, EStateM.run_get]
        simp only [searched]
        rfl
  | some held =>
      rcases found.source held rfl with absent | ⟨item, member, equal, matching⟩
      · cases absent
      · rcases item with ⟨entryId, entry⟩
        subst equal
        have live := Dict.get?_eq_some_iff.mpr member
        refine Or.inr ⟨entryId, entry,
          (objects.cache.entries.set entryId { entry with readers := entry.readers + 1 }).moveToEnd
            entryId, live, matching, ?_, pin_items _ _, ?_⟩
        · intro otherId other otherLive otherMatching
          rcases found.longest (otherId, other) (Dict.get?_eq_some_iff.mp otherLive)
            otherMatching with ⟨_, ⟨⟩, atMost⟩
          exact atMost
        · unfold acquire
          rw [EStateM.run_bind, EStateM.run_get]
          simp only [searched]
          change EStateM.run (getItem objects.cache.entries entryId >>= _) objects = _
          unfold getItem
          rw [live]
          rfl

/-- A page of text, all tensors in one storage. -/
def onePage : PrefixSnapshot Unit UInt8 :=
  let tensor (shape : List Nat) : Tensor UInt8 := ⟨true, ⟨4096, 1024⟩, shape, fun _ => 0⟩
  { namespaceKey := ()
    tokens := ⟨0, tokenBytes (List.replicate 64 7)⟩
    segments := [⟨0, 64, tensor [12, 2, 64, 1, 256], tensor [12, 16, 1, 128]⟩]
    pending := []
    rope := tensor [12, 4, 64]
    mamba := ⟨[], tensor [1], []⟩
    imageKey := none }

/-- The page is published and looked up by a longer prompt. -/
theorem acquire_exact_onePage :
    (forall operation,
      operation ∈ [CacheOperation.reserve 2048, .publish 0 onePage true] ->
      operation.PublishesTokens) ∧
    ExactLookup
      (cacheAfter ⟨4096, 2, by decide, by decide⟩
        [CacheOperation.reserve 2048, .publish 0 onePage true])
      () (List.replicate 100 7) none true none := by
  have encoded : forall operation,
      operation ∈ [CacheOperation.reserve 2048, .publish 0 onePage true] ->
      operation.PublishesTokens := by
    intro operation member
    rcases List.mem_cons.mp member with rfl | rest
    · trivial
    · rw [List.mem_singleton.mp rest]
      exact ⟨List.replicate 64 7, rfl⟩
  exact ⟨encoded, acquire_exact _ _ encoded () (List.replicate 100 7) none true none⟩

end HostPrefix
end QSAHiSparse

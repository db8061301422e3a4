import QSAHiSparse.Foundation.Fallible
import QSAHiSparse.HostPrefix.Handles

namespace QSAHiSparse
namespace HostPrefix

open Foundation

/-!
# What lasts through a method

The holder of a reader or of a reservation relies on what other calls do not
touch.  No method gives an open reader another snapshot, and only a close or a
publication under a reservation changes that reservation.  These laws hold from
any state and however the method is left.
-/

variable {Namespace Element : Type}

/-- Readers keep their snapshots until they are closed, reservations other than
`closing` stay as they are, and no snapshot but `entering` comes in. -/
structure Lasts (closing : Option Nat) (entering : Option (PrefixSnapshot Namespace Element))
    (before after : PrefixObjects Namespace Element) : Prop where
  snapshots : forall snapshot, snapshot ∈ after.cache.snapshots ->
    snapshot ∈ before.cache.snapshots ∨ entering = some snapshot
  readers : before.readers.length ≤ after.readers.length
  opens : forall reader snapshot, reader < before.readers.length ->
    after.snapshotAt reader = some snapshot -> before.snapshotAt reader = some snapshot
  reservations : forall position reservation, closing ≠ some position ->
    before.reservations[position]? = some reservation ->
      after.reservations[position]? = some reservation

namespace Lasts

variable {closing : Option Nat} {entering : Option (PrefixSnapshot Namespace Element)}
  {before after : PrefixObjects Namespace Element}

theorem refl (objects : PrefixObjects Namespace Element) : Lasts closing entering objects objects where
  snapshots _ member := Or.inl member
  readers := Nat.le_refl _
  opens _ _ _ isOpen := isOpen
  reservations _ _ _ found := found

theorem trans (first second third : PrefixObjects Namespace Element)
    (left : Lasts closing entering first second) (right : Lasts closing entering second third) :
    Lasts closing entering first third where
  snapshots snapshot member :=
    (right.snapshots snapshot member).elim (left.snapshots snapshot) Or.inr
  readers := Nat.le_trans left.readers right.readers
  opens reader snapshot old isOpen :=
    left.opens reader snapshot old
      (right.opens reader snapshot (Nat.lt_of_lt_of_le old left.readers) isOpen)
  reservations position reservation apart found :=
    right.reservations position reservation apart (left.reservations position reservation apart found)

/-- A snapshot might have come in. -/
theorem enter (lasts : Lasts closing none before after) : Lasts closing entering before after where
  snapshots snapshot member := (lasts.snapshots snapshot member).imp id nofun
  readers := lasts.readers
  opens := lasts.opens
  reservations := lasts.reservations

/-- Nothing is closed and nothing comes in. -/
theorem quiet (lasts : Lasts none none before after) : Lasts closing entering before after where
  snapshots snapshot member := (lasts.snapshots snapshot member).imp id nofun
  readers := lasts.readers
  opens := lasts.opens
  reservations position reservation _ := lasts.reservations position reservation nofun

/-- A change of a reservation made since is none of those that were there. -/
theorem beyond {last : PrefixObjects Namespace Element} {position : Nat}
    (lasts : Lasts none none before after) (further : Lasts (some position) none after last)
    (made : before.reservations.length ≤ position) : Lasts none none before last where
  snapshots snapshot member := (further.snapshots snapshot member).elim (lasts.snapshots snapshot) nofun
  readers := Nat.le_trans lasts.readers further.readers
  opens reader snapshot old isOpen :=
    lasts.opens reader snapshot old
      (further.opens reader snapshot (Nat.lt_of_lt_of_le old lasts.readers) isOpen)
  reservations other reservation _ found := by
    have old := (List.getElem?_eq_some_iff.mp found).1
    apply further.reservations other reservation
    · intro same
      cases same
      omega
    · exact lasts.reservations other reservation nofun found

/-- Only the entries change. -/
theorem entries (within : Within before after) (readers : after.readers = before.readers)
    (reservations : after.reservations = before.reservations) :
    Lasts closing entering before after where
  snapshots _ member := Or.inl (within member)
  readers := Nat.le_of_eq (congrArg List.length readers).symm
  opens reader snapshot _ isOpen := (snapshotAt_congr readers reader).symm.trans isOpen
  reservations position reservation _ found := by
    rw [reservations]
    exact found

/-- A reader is closed. -/
theorem clear (within : Within before after) {reader : Nat}
    (readers : after.readers = before.readers.modify reader PrefixReader.clear)
    (reservations : after.reservations = before.reservations) :
    Lasts closing entering before after where
  snapshots _ member := Or.inl (within member)
  readers := by rw [readers, List.length_modify]
  opens other snapshot _ isOpen := by
    rw [snapshotAt_clear readers] at isOpen
    split at isOpen
    · cases isOpen
    · exact isOpen
  reservations position reservation _ found := by
    rw [reservations]
    exact found

end Lasts

/-! ## Closes -/

variable {objects : PrefixObjects Namespace Element}

theorem releaseEntry_lasts (entryId : Nat) :
    Keeps (@Lasts Namespace Element none none) (releaseEntry entryId) := by
  apply Keeps.of_leaves
  intro objects
  have shrinks := releaseEntry_shrinks entryId objects
  unfold releaseEntry at shrinks ⊢
  rw [EStateM.run_bind, EStateM.run_get] at shrinks
  apply (Leaves.bind_iff _ _ _).mpr
  apply (Leaves.get_iff _).mpr
  by_cases live : objects.cache.entries.contains entryId = true
  · rw [if_pos live]
    apply (Leaves.bind_iff _ _ _).mpr
    apply (Leaves.getItem_iff _ _ _).mpr
    refine ⟨fun _ => .refl objects, fun entry found => ?_⟩
    apply (Leaves.bind_iff _ _ _).mpr
    apply (Leaves.raiseIf_iff _ _ _).mpr
    exact ⟨fun _ => .refl objects, fun _ => .entries (Shrinks.unpinLive objects found).within rfl rfl⟩
  · rw [if_neg live]
    apply (Leaves.bind_iff _ _ _).mpr
    apply (Leaves.getItem_iff _ _ _).mpr
    refine ⟨fun _ => .refl objects, fun entry found => ?_⟩
    apply (Leaves.bind_iff _ _ _).mpr
    apply (Leaves.raiseIf_iff _ _ _).mpr
    exact ⟨fun _ => .refl objects,
      fun _ => .entries (Shrinks.unpinRetired objects found).within rfl rfl⟩

theorem closeReader_lasts (position : Nat) :
    Keeps (@Lasts Namespace Element none none) (closeReader position) := by
  apply Keeps.of_leaves
  intro objects
  unfold closeReader
  apply (Leaves.bind_iff _ _ _).mpr
  apply (Leaves.get_iff _).mpr
  cases objects.readers[position]? with
  | none => exact .refl objects
  | some reader =>
      cases isOpen : reader.snapshot with
      | none =>
          simp only [isOpen]
          exact .refl objects
      | some snapshot =>
          simp only [isOpen]
          apply (Leaves.bind_iff _ _ _).mpr
          apply ((releaseEntry_lasts reader.entryId).leaves objects).mono
          · intro _ after released
            have cleared : Lasts none none after (after.clearReader position) :=
              .clear (fun _ member => member) rfl rfl
            exact .trans _ _ _ released cleared
          · exact fun _ _ released => released

theorem closeReservation_lasts (position : Nat) :
    Keeps (@Lasts Namespace Element (some position) none) (closeReservation position) := by
  apply Keeps.of_leaves
  intro objects
  unfold closeReservation
  apply (Leaves.bind_iff _ _ _).mpr
  apply (Leaves.get_iff _).mpr
  cases objects.reservations[position]? with
  | none => exact .refl objects
  | some reservation =>
      by_cases isOpen : reservation.active = true
      · simp only [isOpen, if_true]
        have settled : Lasts (some position) none objects
            (objects.settle position reservation.size) :=
          { snapshots := fun _ member => Or.inl member
            readers := Nat.le_refl _
            opens := fun _ _ _ isOpen => isOpen
            reservations := by
              intro other held apart found
              change (objects.reservations.modify position _)[other]? = some held
              rw [List.getElem?_modify_ne _ _ fun same => apart (congrArg some same)]
              exact found }
        apply (Leaves.bind_iff _ _ _).mpr
        apply (Leaves.set_iff _ _).mpr
        cases reservation.basisReader with
        | none => exact settled
        | some reader =>
            have closed := (closeReader_lasts reader).leaves (objects.settle position reservation.size)
            exact closed.mono (fun _ _ lasts => .trans _ _ _ settled lasts.quiet)
              fun _ _ lasts => .trans _ _ _ settled lasts.quiet
      · simp only [isOpen]
        exact .refl objects

theorem reset_lasts : Keeps (@Lasts Namespace Element none none) reset :=
  fun objects => .entries (Shrinks.flush objects).within rfl rfl

/-! ## Lookups -/

section Lookup

variable [DecidableEq Namespace] {namespaceKey : Namespace} {tokens : Bytes} {cap : Int}
  {identity : Option ImagePrefixIdentity}

/-- A turn keeps the best entry, or takes one whose tokens are a prefix. -/
theorem betterMatch_takes {best result : Option (Nat × PrefixSnapshot Namespace Element)}
    {item : Nat × CacheEntry Namespace Element}
    (turn : betterMatch namespaceKey tokens cap identity best item = .ok result) :
    result = best ∨ result = some (item.1, item.2.snapshot) ∧
      item.2.snapshot.tokens.contents <+: tokens := by
  unfold betterMatch at turn
  dsimp only at turn
  split at turn
  · rename_i candidate
    rcases Except.bind_ok turn with ⟨key, _, chosen⟩
    split at chosen
    · exact Or.inr ⟨(Except.ok.inj chosen).symm, candidate.2.2⟩
    · exact Or.inl (Except.ok.inj chosen).symm
  · exact Or.inl (Except.ok.inj turn).symm

/-- The loop keeps the best entry, or takes one of the items whose tokens are a
prefix. -/
theorem foldlM_takes (items : List (Nat × CacheEntry Namespace Element))
    {best result : Option (Nat × PrefixSnapshot Namespace Element)}
    (ran : items.foldlM (betterMatch namespaceKey tokens cap identity) best = .ok result) :
    result = best ∨ exists item, item ∈ items ∧ result = some (item.1, item.2.snapshot) ∧
      item.2.snapshot.tokens.contents <+: tokens := by
  induction items generalizing best with
  | nil => exact Or.inl (Except.ok.inj ran).symm
  | cons item items previous =>
      rw [List.foldlM_cons] at ran
      rcases Except.bind_ok ran with ⟨between, turn, rest⟩
      rcases previous rest with same | ⟨other, member, taken⟩
      · rcases betterMatch_takes turn with kept | taken
        · exact Or.inl (same.trans kept)
        · exact Or.inr ⟨item, List.mem_cons_self, same.trans taken.1, taken.2⟩
      · exact Or.inr ⟨other, List.mem_cons_of_mem _ member, taken⟩

/-- A lookup closes nothing, and the reader it hands out reads a prefix of the
tokens. -/
theorem acquire_lasts (namespaceKey : Namespace) (tokens : Bytes) (limit : Option Int)
    (count : Bool) (identity : Option ImagePrefixIdentity)
    (objects : PrefixObjects Namespace Element) :
    Leaves
      (fun found after => Lasts none none objects after ∧ forall position, found = some position ->
        exists snapshot, after.snapshotAt position = some snapshot ∧
          snapshot.tokens.contents <+: tokens)
      (fun _ after => Lasts none none objects after)
      ((acquire namespaceKey tokens limit count identity).run objects) := by
  unfold acquire
  apply (Leaves.bind_iff _ _ _).mpr
  apply (Leaves.get_iff _).mpr
  cases searched : longestMatch objects.cache namespaceKey tokens limit identity with
  | error cause => exact .refl objects
  | ok best =>
      cases best with
      | none => exact ⟨.entries (fun _ member => member) rfl rfl, nofun⟩
      | some best =>
          apply (Leaves.bind_iff _ _ _).mpr
          apply (Leaves.getItem_iff _ _ _).mpr
          refine ⟨fun _ => .refl objects, fun entry present => ⟨?_, ?_⟩⟩
          · have pinned := Shrinks.pin objects present
            exact
              { snapshots := fun _ member => Or.inl (pinned.within member)
                readers := by
                  change _ ≤ (objects.readers ++ [_]).length
                  rw [List.length_append]
                  exact Nat.le_add_right _ _
                opens := by
                  intro reader snapshot old isOpen
                  rw [@snapshotAt_append _ _ objects _ _ rfl, if_neg (Nat.ne_of_lt old)] at isOpen
                  exact isOpen
                reservations := fun _ _ _ found => found }
          · intro position same
            rcases foldlM_takes objects.cache.entries.items searched with
              nothing | ⟨item, member, taken, starts⟩
            · cases nothing
            · cases taken
              have held := Dict.get?_eq_some_iff.mpr member
              rw [held] at present
              cases present
              refine ⟨item.2.snapshot, ?_, starts⟩
              cases same
              rw [@snapshotAt_append _ _ objects _ _ rfl, if_pos rfl]

end Lookup

/-! ## Reservations and publications -/

/-- A reservation that is granted is of the size asked for and stands at the
end. -/
theorem reserve_lasts (size : Int) (objects : PrefixObjects Namespace Element) :
    Leaves
      (fun made after => Lasts none none objects after ∧ after.readers = objects.readers ∧
        forall position, made = some position -> position = objects.reservations.length ∧
          after.reservations[position]? = some ⟨size, objects.cache.epoch, true, none⟩)
      (fun _ after => Lasts none none objects after) ((reserve size).run objects) := by
  have within := reserve_within size objects
  unfold reserve at within ⊢
  rw [EStateM.run_bind, EStateM.run_get] at within ⊢
  by_cases refused : size ≤ 0 ∨ size > objects.cache.limits.budgetBytes
  · simp only [if_pos refused]
    exact ⟨.refl objects, rfl, nofun⟩
  · simp only [if_neg refused] at within ⊢
    cases made : (makeRoom size (objects.cache.entries.size + 1) objects.cache).1 with
    | false =>
        simp only [made] at within
        exact ⟨.entries within rfl rfl, rfl, nofun⟩
    | true =>
        simp only [made] at within
        have epoch := (makeRoom_lessens size (objects.cache.entries.size + 1) objects.cache).1
        refine ⟨?_, rfl, ?_⟩
        · exact
            { snapshots := fun _ member => Or.inl (within member)
              readers := Nat.le_refl _
              opens := fun _ _ _ isOpen => isOpen
              reservations := by
                intro position reservation _ found
                have old := (List.getElem?_eq_some_iff.mp found).1
                change (objects.reservations ++ [_])[position]? = some reservation
                rw [List.getElem?_append_left old]
                exact found }
        · intro position same
          cases same
          refine ⟨rfl, ?_⟩
          change (objects.reservations ++ [_])[objects.reservations.length]? = _
          rw [List.getElem?_concat_length, ← epoch]

/-- The basis of a reservation is set. -/
theorem setBasisReader_lasts (position : Nat) (reader : Option Nat) :
    Keeps (@Lasts Namespace Element (some position) none) (setBasisReader position reader) := by
  intro objects
  exact
    { snapshots := fun _ member => Or.inl member
      readers := Nat.le_refl _
      opens := fun _ _ _ isOpen => isOpen
      reservations := by
        intro other held apart found
        change (objects.reservations.modify position _)[other]? = some held
        rw [List.getElem?_modify_ne _ _ fun same => apart (congrArg some same)]
        exact found }

/-- A publication takes in its snapshot and closes its reservation, nothing
else. -/
theorem publish_lasts (position : Nat) (snapshot : PrefixSnapshot Namespace Element)
    (completed : Bool) :
    Keeps (Lasts (some position) (some snapshot)) (publish position snapshot completed) := by
  apply Keeps.of_leaves
  intro objects
  unfold publish
  apply (Leaves.bind_iff _ _ _).mpr
  apply (Leaves.get_iff _).mpr
  cases objects.reservations[position]? with
  | none => exact .refl objects
  | some reservation =>
      apply (Leaves.bind_iff _ _ _).mpr
      apply (Leaves.raiseIf_iff _ _ _).mpr
      refine ⟨fun _ => .refl objects, fun _ => ?_⟩
      apply (Leaves.tryFinally_iff _ _ _).mpr
      apply (publishBody_inserts reservation snapshot completed).mono
      · rintro entryId _ ⟨_, _, _, resident, rfl⟩
        have inserted : Lasts (some position) (some snapshot) objects
            (objects.insert snapshot resident) :=
          { snapshots := fun other member =>
              (insert_snapshots resident member).imp id fun same => congrArg some same.symm
            readers := Nat.le_refl _
            opens := fun _ _ _ isOpen => isOpen
            reservations := fun _ _ _ found => found }
        have closed := (closeReservation_lasts position).leaves (objects.insert snapshot resident)
        exact closed.mono (fun _ _ lasts => .trans _ _ _ inserted lasts.enter)
          fun _ _ lasts => .trans _ _ _ inserted lasts.enter
      · rintro cause after rfl
        have closed := (closeReservation_lasts position).leaves after
        exact closed.mono (fun _ _ lasts => lasts.enter) fun _ _ lasts => lasts.enter

end HostPrefix
end QSAHiSparse

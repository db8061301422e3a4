import QSAHiSparse.PrefixCache.CaptureCopies
import QSAHiSparse.PrefixCache.RollbackKept

namespace QSAHiSparse
namespace PrefixCache

open Foundation
open HostPrefix

/-!
# What captures have reserved

Several captures may be under way at once, each between any two of its steps.
The invariant says of every one that holds a reservation what it was made for,
and that the storages and the tokens it will publish are its own.
-/

variable {δ υ Element : Type}

/-- The basis of a reservation covers so many tokens with these segments. -/
def BasisCovers (host : PrefixObjects PrefixNamespace Element) (first : Nat)
    (shared : List (PrefixSegment Element)) : Option Nat -> Prop
  | none => first = 0 ∧ shared = []
  | some reader => exists snapshot, host.snapshotAt reader = some snapshot ∧
      first = snapshot.length ∧ shared = snapshot.segments

/-- How many tokens a basis covers. -/
def baseLength (host : PrefixObjects PrefixNamespace Element) (basis : Option Nat) : Nat :=
  ((basis.bind host.snapshotAt).map PrefixSnapshot.length).getD 0

theorem BasisCovers.first_eq {host : PrefixObjects PrefixNamespace Element} {first : Nat}
    {shared : List (PrefixSegment Element)} {basis : Option Nat}
    (covers : BasisCovers host first shared basis) : first = baseLength host basis := by
  cases basis with
  | none => exact covers.1
  | some reader =>
      rcases covers with ⟨snapshot, stands, same, _⟩
      rw [same, baseLength, Option.bind_some, stands]
      rfl

/-- A reservation of a capture is active, and of the size of what its basis does
not cover. -/
structure Funded (config : PrefixConfig) (frame : CaptureFrame Element) (reservation : Nat)
    (held : PrefixReservation) (first : Nat) (shared : List (PrefixSegment Element))
    (host : PrefixObjects PrefixNamespace Element) : Prop where
  found : host.reservations[reservation]? = some held
  active : held.active = true
  size : held.size = config.checkpointBytes (frame.length - first : Nat) frame.length
  basis : BasisCovers host first shared held.basisReader
  tokens : frame.tokens.length = frame.length * 8
  positive : 0 < frame.length
  paged : frame.length % 64 = 0
  within : first ≤ frame.length

/-- What a stage has made of the reservation. -/
def StageFits (config : PrefixConfig) (frame : CaptureFrame Element) (first : Nat)
    (shared : List (PrefixSegment Element)) (own : List (Tensor Element)) :
    CaptureStage Element -> Prop
  | .reserved _ _ start segments => start = first ∧ segments = shared ∧ own = []
  | .captured (some (_, snapshot)) | .converged (some (_, snapshot)) =>
      Copied config frame first shared own snapshot
  | _ => True

def Provided (config : PrefixConfig) (frame : CaptureFrame Element) (own : List (Tensor Element))
    (reservation : Nat) (host : PrefixObjects PrefixNamespace Element) : Prop :=
  exists held first shared, Funded config frame reservation held first shared host ∧
    StageFits config frame first shared own frame.stage

/-- The capture at a place holds a reservation. -/
def QSAHostPrefixCache.Holding (self : QSAHostPrefixCache δ υ Element) (place : Nat)
    (frame : CaptureFrame Element) (reservation : Nat) : Prop :=
  self.captures[place]? = some frame ∧ frame.stage.possession.reservation = some reservation

/-- Two captures have nothing in common that a publication is charged for. -/
structure Separate (own : List (Tensor Element)) (frame : CaptureFrame Element) (reservation : Nat)
    (others : List (Tensor Element)) (other : CaptureFrame Element) (second : Nat) : Prop where
  storages : forall storage, storage ∈ storagesOf own -> storage.nbytes ≠ 0 ->
    storage ∉ storagesOf others
  tokens : frame.tokens ≠ other.tokens
  reservations : reservation ≠ second

theorem Separate.symm {own others : List (Tensor Element)} {frame other : CaptureFrame Element}
    {first second : Nat} (separate : Separate own frame first others other second) :
    Separate others other second own frame first where
  storages storage here positive there := separate.storages storage there positive here
  tokens := separate.tokens.symm
  reservations := separate.reservations.symm

/-- What the captures of a cache have reserved and copied. -/
structure Provision (config : PrefixConfig) (own : Nat -> List (Tensor Element))
    (cache : QSAHostPrefixCache δ υ Element) : Prop where
  checked : forall snapshot, snapshot ∈ cache.host.cache.snapshots ->
    checkSnapshot snapshot = .ok ⟨⟩
  provided : forall place frame reservation, cache.Holding place frame reservation ->
    Provided config frame (own place) reservation cache.host
  fresh : forall place frame reservation, cache.Holding place frame reservation ->
    Fresh Storage.nbytes (reached PrefixSnapshot.storages cache.host.cache.snapshots)
      (storagesOf (own place))
  named : forall place frame reservation, cache.Holding place frame reservation ->
    forall snapshot, snapshot ∈ cache.host.cache.snapshots -> snapshot.tokens ≠ frame.tokens
  separate : forall first frame reservation second other another,
    cache.Holding first frame reservation -> cache.Holding second other another ->
      first ≠ second -> Separate (own first) frame reservation (own second) other another

/-! ## The snapshot of a capture -/

section Snapshots

variable {config : PrefixConfig} {own : Nat -> List (Tensor Element)}
  {cache after : QSAHostPrefixCache δ υ Element} {frame : CaptureFrame Element}
  {reservation first : Nat} {held : PrefixReservation} {shared : List (PrefixSegment Element)}
  {snapshot : PrefixSnapshot PrefixNamespace Element}

/-- The snapshot of an open reader is held. -/
theorem snapshotAt_held (conserved : Conserved cache.host) {reader : Nat}
    (isOpen : cache.host.snapshotAt reader = some snapshot) :
    snapshot ∈ cache.host.cache.snapshots ∧ snapshot.hostResident = true := by
  rcases snapshotAt_eq_some.mp isOpen with ⟨state, found, holds⟩
  rcases conserved.reader_held reader state snapshot found holds with ⟨entry, present, same⟩
  refine ⟨HostPrefixCache.mem_snapshots.mpr ⟨state.entryId, entry, present, same⟩, ?_⟩
  rw [← same]
  exact entry.resident

/-- The shared segments tile what they cover, are on the host, and use no storage
but that of a held snapshot. -/
theorem shared_covers (conserved : Conserved cache.host)
    (checked : forall snapshot, snapshot ∈ cache.host.cache.snapshots ->
      checkSnapshot snapshot = .ok ⟨⟩)
    (basis : BasisCovers cache.host first shared held.basisReader) :
    first % 64 = 0 ∧ tiling shared 0 = .ok first ∧
      (forall tensor, tensor ∈ segmentTensors shared -> tensor.onHost = true ∧
        tensor.storage ∈ reached PrefixSnapshot.storages cache.host.cache.snapshots) := by
  cases reads : held.basisReader with
  | none =>
      rw [reads] at basis
      rcases basis with ⟨start, nothing⟩
      rw [start, nothing]
      exact ⟨rfl, rfl, fun _ member => absurd member List.not_mem_nil⟩
  | some reader =>
      rw [reads] at basis
      rcases basis with ⟨snapshot, isOpen, start, segments⟩
      rcases snapshotAt_held conserved isOpen with ⟨present, resident⟩
      rcases checkSnapshot_ok_iff.mp (checked snapshot present) with ⟨_, paged, tiled⟩
      rw [start, segments]
      refine ⟨paged, tiled, fun tensor member => ?_⟩
      have reaches : tensor ∈ snapshot.tensors := by
        unfold PrefixSnapshot.tensors
        simp only [List.append_assoc, List.mem_append]
        exact Or.inl member
      refine ⟨List.all_eq_true.mp resident tensor reaches, ?_⟩
      apply (mem_reached _).mpr
      refine ⟨snapshot, present, ?_⟩
      exact List.mem_toFinset.mpr (List.mem_map_of_mem reaches)

/-- A finished copy passes the checks of `publish`. -/
theorem Copied.accepted {own : List (Tensor Element)} (conserved : Conserved cache.host)
    (checked : forall snapshot, snapshot ∈ cache.host.cache.snapshots ->
      checkSnapshot snapshot = .ok ⟨⟩)
    (funded : Funded config frame reservation held first shared cache.host)
    (copied : Copied config frame first shared own snapshot) :
    checkSnapshot snapshot = .ok ⟨⟩ ∧ snapshot.hostResident = true := by
  rcases shared_covers conserved checked funded.basis with ⟨_, tiled, resident⟩
  have length : snapshot.length = frame.length := by
    unfold PrefixSnapshot.length
    rw [copied.tokens, funded.tokens, Nat.mul_div_cancel _ (by decide)]
  constructor
  · rw [checkSnapshot_ok_iff, length]
    exact ⟨funded.positive, funded.paged, copied.tiles tiled⟩
  · apply List.all_eq_true.mpr
    intro tensor member
    rw [copied.tensors] at member
    rcases List.mem_append.mp member with old | new
    · exact (resident tensor old).1
    · exact copied.resident tensor new

/-- The storages of the snapshot are the shared ones and those it was copied
into. -/
theorem Copied.storages {own : List (Tensor Element)}
    (copied : Copied config frame first shared own snapshot) :
    snapshot.storages = (storagesOf (segmentTensors shared)).toFinset ∪ (storagesOf own).toFinset := by
  unfold PrefixSnapshot.storages storagesOf
  rw [copied.tensors, List.map_append, List.toFinset_append]

/-- What a publication of the snapshot adds is what is reserved for it. -/
theorem Copied.charged {own : List (Tensor Element)} (uniform : config.Uniform)
    (conserved : Conserved cache.host)
    (checked : forall snapshot, snapshot ∈ cache.host.cache.snapshots ->
      checkSnapshot snapshot = .ok ⟨⟩)
    (funded : Funded config frame reservation held first shared cache.host)
    (copied : Copied config frame first shared own snapshot)
    (fresh : Fresh Storage.nbytes (reached PrefixSnapshot.storages cache.host.cache.snapshots)
      (storagesOf own))
    (named : forall other, other ∈ cache.host.cache.snapshots -> other.tokens ≠ frame.tokens) :
    (PrefixSnapshot.footprintBytes (cache.host.cache.snapshots ++ [snapshot]) : Int) =
      cache.host.cache.usedBytes + held.size := by
  rcases shared_covers conserved checked funded.basis with ⟨_, _, known⟩
  have sharedKnown : (storagesOf (segmentTensors shared)).toFinset ⊆
      reached PrefixSnapshot.storages cache.host.cache.snapshots := by
    intro storage member
    rcases List.mem_map.mp (List.mem_toFinset.mp member) with ⟨tensor, present, same⟩
    rw [← same]
    exact (known tensor present).2
  have added := footprintBytes_concat copied.storages sharedKnown fresh fun other member => by
    rw [copied.tokens]
    exact named other member
  have bytes : ((storagesOf own).map Storage.nbytes).sum =
      copiedBytes config (frame.length - first) := by
    rw [← copied.bytes]
    unfold storagesOf tensorBytes
    rw [List.map_map]
    rfl
  rw [added, bytes, copied.tokens, funded.tokens, funded.size, checkpointBytes_eq uniform]
  unfold HostPrefixCache.usedBytes
  push_cast
  ring

end Snapshots

/-! ## Changes -/

section Changes

variable {config : PrefixConfig} {own : Nat -> List (Tensor Element)}
  {cache after : QSAHostPrefixCache δ υ Element} {closing : Option Nat}
  {entering : Option (PrefixSnapshot PrefixNamespace Element)}

/-- A reservation that is not closed keeps its size and its basis. -/
theorem Funded.lasts {frame : CaptureFrame Element} {reservation first : Nat}
    {held : PrefixReservation} {shared : List (PrefixSegment Element)}
    (funded : Funded config frame reservation held first shared cache.host)
    (lasts : Lasts closing entering cache.host after.host) (apart : closing ≠ some reservation)
    (kept : Kept none after) : Funded config frame reservation held first shared after.host where
  found := lasts.reservations reservation held apart funded.found
  active := funded.active
  size := funded.size
  basis := by
    have basis := funded.basis
    cases reads : held.basisReader with
    | none =>
        rw [reads] at basis
        exact basis
    | some reader =>
        rw [reads] at basis
        rcases basis with ⟨snapshot, isOpen, covers⟩
        have based : after.host.basisAt reservation = some reader :=
          basisAt_eq_some.mpr ⟨held, lasts.reservations reservation held apart funded.found,
            funded.active, reads⟩
        have opened := kept.owned.sole.held_open (.reservation reservation) reader based
        rcases Option.ne_none_iff_exists'.mp opened with ⟨present, isOpenAfter⟩
        have same := lasts.opens reader present (snapshotAt_lt isOpen) isOpenAfter
        rw [isOpen] at same
        cases same
        exact ⟨snapshot, isOpenAfter, covers⟩
  tokens := funded.tokens
  positive := funded.positive
  paged := funded.paged
  within := funded.within

theorem Provided.lasts {frame : CaptureFrame Element} {reservation : Nat}
    {tensors : List (Tensor Element)}
    (provided : Provided config frame tensors reservation cache.host)
    (lasts : Lasts closing entering cache.host after.host) (apart : closing ≠ some reservation)
    (kept : Kept none after) : Provided config frame tensors reservation after.host := by
  rcases provided with ⟨held, first, shared, funded, fits⟩
  exact ⟨held, first, shared, funded.lasts lasts apart kept, fits⟩

/-- No snapshot comes in. -/
theorem reached_lasts (lasts : Lasts closing none cache.host after.host) :
    forall storage, storage ∈ reached PrefixSnapshot.storages after.host.cache.snapshots ->
      storage ∈ reached PrefixSnapshot.storages cache.host.cache.snapshots := by
  intro storage member
  rcases (mem_reached _).mp member with ⟨snapshot, present, used⟩
  exact (mem_reached _).mpr ⟨snapshot, (lasts.snapshots snapshot present).resolve_right nofun, used⟩

namespace Provision

theorem initial (config : PrefixConfig) (limits : CacheLimits) (world : World δ υ Element) :
    Provision config (fun _ => []) (.initial limits world) where
  checked _ member := absurd member List.not_mem_nil
  provided _ _ _ holding := nomatch holding.1
  fresh _ _ _ holding := nomatch holding.1
  named _ _ _ holding := nomatch holding.1
  separate _ _ _ _ _ _ holding := nomatch holding.1

/-- Changes of other parts, and closes of readers. -/
theorem lasts (provision : Provision config own cache) (kept : Kept none after)
    (captures : after.captures = cache.captures)
    (lasts : Lasts none none cache.host after.host) : Provision config own after := by
  have same : forall place frame reservation, after.Holding place frame reservation ->
      cache.Holding place frame reservation := by
    intro place frame reservation holding
    unfold QSAHostPrefixCache.Holding at holding
    rw [captures] at holding
    exact holding
  have old : forall snapshot, snapshot ∈ after.host.cache.snapshots ->
      snapshot ∈ cache.host.cache.snapshots :=
    fun snapshot member => (lasts.snapshots snapshot member).resolve_right nofun
  exact
    { checked := fun snapshot member => provision.checked snapshot (old snapshot member)
      provided := fun place frame reservation holding =>
        (provision.provided place frame reservation (same _ _ _ holding)).lasts lasts nofun kept
      fresh := fun place frame reservation holding =>
        (provision.fresh place frame reservation (same _ _ _ holding)).mono (reached_lasts lasts)
      named := fun place frame reservation holding snapshot member =>
        provision.named place frame reservation (same _ _ _ holding) snapshot (old snapshot member)
      separate := fun first frame reservation second other another one two =>
        provision.separate first frame reservation second other another (same _ _ _ one)
          (same _ _ _ two) }

/-- What a capture holds once another one has ended. -/
theorem holding_other {place other : Nat} {frame : CaptureFrame Element} {reservation : Nat}
    (captures : after.captures = cache.captures.modify place fun state =>
      { state with stage := .finished })
    (holding : after.Holding other frame reservation) :
    other ≠ place ∧ cache.Holding other frame reservation := by
  rcases holding with ⟨stands, possesses⟩
  rw [captures] at stands
  by_cases same : other = place
  · rw [same, List.getElem?_modify_eq] at stands
    rcases Option.map_eq_some_iff.mp stands with ⟨former, _, finished⟩
    rw [← finished] at possesses
    cases possesses
  · rw [List.getElem?_modify_ne _ _ (Ne.symm same)] at stands
    exact ⟨same, stands, possesses⟩

/-- A capture ends without a publication. -/
theorem abandon (provision : Provision config own cache) (kept : Kept none after) {place : Nat}
    {state : CaptureFrame Element} (stands : cache.captures[place]? = some state)
    (closes : state.stage.possession.reservation = closing)
    (captures : after.captures = cache.captures.modify place fun state =>
      { state with stage := .finished })
    (lasts : Lasts closing none cache.host after.host) : Provision config own after := by
  have old : forall snapshot, snapshot ∈ after.host.cache.snapshots ->
      snapshot ∈ cache.host.cache.snapshots :=
    fun snapshot member => (lasts.snapshots snapshot member).resolve_right nofun
  refine
    { checked := fun snapshot member => provision.checked snapshot (old snapshot member)
      provided := ?_
      fresh := ?_
      named := ?_
      separate := ?_ }
  · intro other frame reservation holding
    rcases holding_other captures holding with ⟨apart, before⟩
    apply (provision.provided other frame reservation before).lasts lasts _ kept
    intro same
    exact (provision.separate other frame reservation place state reservation before
      ⟨stands, closes.trans same⟩ apart).reservations rfl
  · intro other frame reservation holding
    have before := (holding_other captures holding).2
    exact (provision.fresh other frame reservation before).mono (reached_lasts lasts)
  · intro other frame reservation holding snapshot member
    have before := (holding_other captures holding).2
    exact provision.named other frame reservation before snapshot (old snapshot member)
  · intro first frame reservation second other another one two
    exact provision.separate first frame reservation second other another
      (holding_other captures one).2 (holding_other captures two).2

/-- A capture ends, perhaps with the publication of its snapshot. -/
theorem publish (provision : Provision config own cache) (keptBefore : Kept none cache)
    (kept : Kept none after) {place : Nat}
    {state : CaptureFrame Element} (stands : cache.captures[place]? = some state)
    {reservation : Nat} {snapshot : PrefixSnapshot PrefixNamespace Element}
    (stage : state.stage = .converged (some (reservation, snapshot)))
    (captures : after.captures = cache.captures.modify place fun state =>
      { state with stage := .finished })
    (lasts : Lasts (some reservation) (some snapshot) cache.host after.host) :
    Provision config own after := by
  have holds : cache.Holding place state reservation := by
    refine ⟨stands, ?_⟩
    rw [stage]
    rfl
  rcases provision.provided place state reservation holds with ⟨held, first, shared, funded, fits⟩
  rw [stage] at fits
  have copied : Copied config state first shared (own place) snapshot := fits
  have conserved := keptBefore.owned.conserved
  have accepted := copied.accepted conserved provision.checked funded
  have known := (shared_covers conserved provision.checked funded.basis).2.2
  have apart : forall other frame another, after.Holding other frame another ->
      other ≠ place ∧ cache.Holding other frame another ∧
        Separate (own other) frame another (own place) state reservation := by
    intro other frame another holding
    rcases holding_other captures holding with ⟨different, before⟩
    exact ⟨different, before,
      provision.separate other frame another place state reservation before holds different⟩
  refine
    { checked := ?_
      provided := ?_
      fresh := ?_
      named := ?_
      separate := ?_ }
  · intro other member
    rcases lasts.snapshots other member with old | new
    · exact provision.checked other old
    · cases new
      exact accepted.1
  · intro other frame another holding
    rcases apart other frame another holding with ⟨_, before, separate⟩
    apply (provision.provided other frame another before).lasts lasts _ kept
    intro same
    exact separate.reservations (Option.some.inj same).symm
  · intro other frame another holding
    rcases apart other frame another holding with ⟨_, before, separate⟩
    have fresh := provision.fresh other frame another before
    refine ⟨fresh.distinct, fun storage mine positive reachedNow => ?_⟩
    rcases (mem_reached _).mp reachedNow with ⟨other, present, used⟩
    rcases lasts.snapshots other present with old | new
    · exact fresh.unheld storage mine positive ((mem_reached _).mpr ⟨other, old, used⟩)
    · cases new
      rw [copied.storages, Finset.mem_union] at used
      rcases used with earlier | theirs
      · rcases List.mem_map.mp (List.mem_toFinset.mp earlier) with ⟨tensor, member, same⟩
        apply fresh.unheld storage mine positive
        rw [← same]
        exact (known tensor member).2
      · exact separate.storages storage mine positive (List.mem_toFinset.mp theirs)
  · intro other frame another holding published member
    rcases apart other frame another holding with ⟨_, before, separate⟩
    rcases lasts.snapshots published member with old | new
    · exact provision.named other frame another before published old
    · cases new
      rw [copied.tokens]
      exact separate.tokens.symm
  · intro one frame another two other further first second
    exact provision.separate one frame another two other further (apart _ _ _ first).2.1
      (apart _ _ _ second).2.1

/-- The ranks agree on a capture. -/
theorem converge (provision : Provision config own cache) {place : Nat}
    {state : CaptureFrame Element} (stands : cache.captures[place]? = some state)
    {result : Option (Nat × PrefixSnapshot PrefixNamespace Element)}
    (stage : state.stage = .captured result) (host : after.host = cache.host)
    (captures : after.captures = cache.captures.modify place fun state =>
      { state with stage := .converged result }) : Provision config own after := by
  have former : forall other frame reservation, after.Holding other frame reservation ->
      exists before : CaptureFrame Element, cache.Holding other before reservation ∧
        frame.tokens = before.tokens ∧ forall tensors,
          Provided config before tensors reservation cache.host ->
            Provided config frame tensors reservation cache.host := by
    rintro other frame reservation ⟨standsAfter, possesses⟩
    rw [captures] at standsAfter
    by_cases same : other = place
    · rw [same, List.getElem?_modify_eq, stands] at standsAfter
      cases standsAfter
      refine ⟨state, ⟨by rw [same]; exact stands, ?_⟩, rfl, ?_⟩
      · rw [stage]
        exact possesses
      · rintro tensors ⟨held, first, shared, funded, fits⟩
        refine ⟨held, first, shared, ⟨funded.found, funded.active, funded.size, funded.basis,
          funded.tokens, funded.positive, funded.paged, funded.within⟩, ?_⟩
        rw [stage] at fits
        cases result with
        | none => exact trivial
        | some both =>
            have copied : Copied config state first shared tensors both.2 := fits
            exact ⟨copied.tokens, copied.tensors, copied.bytes, copied.resident, copied.tiles⟩
    · rw [List.getElem?_modify_ne _ _ (Ne.symm same)] at standsAfter
      exact ⟨frame, ⟨standsAfter, possesses⟩, rfl, fun _ provided => provided⟩
  refine
    { checked := by rw [host]; exact provision.checked
      provided := ?_
      fresh := ?_
      named := ?_
      separate := ?_ }
  · intro other frame reservation holding
    rcases former other frame reservation holding with ⟨before, holds, _, carries⟩
    rw [host]
    exact carries _ (provision.provided other before reservation holds)
  · intro other frame reservation holding
    rcases former other frame reservation holding with ⟨before, holds, _⟩
    rw [host]
    exact provision.fresh other before reservation holds
  · intro other frame reservation holding
    rcases former other frame reservation holding with ⟨before, holds, tokens, _⟩
    rw [host, tokens]
    exact provision.named other before reservation holds
  · intro one frame reservation two other another first second
    rcases former one frame reservation first with ⟨before, holds, tokens, _⟩
    rcases former two other another second with ⟨beforeOther, holdsOther, tokensOther, _⟩
    intro different
    have separate := provision.separate one before reservation two beforeOther another holds
      holdsOther different
    refine ⟨separate.storages, ?_, separate.reservations⟩
    rw [tokens, tokensOther]
    exact separate.tokens

end Provision

end Changes

/-! ## Starts and copies -/

/-- What a stage has copied. -/
def CaptureStage.snapshot : CaptureStage Element -> Option (PrefixSnapshot PrefixNamespace Element)
  | .captured result | .converged result => result.map Prod.snd
  | _ => none

/-- What the cache and its captures refer to is in use, so the allocators do not
hand it out. -/
structure Referenced (live : υ -> Finset Storage) (names : υ -> Finset Nat)
    (cache : QSAHostPrefixCache δ υ Element) : Prop where
  held : forall snapshot, snapshot ∈ cache.host.cache.snapshots ->
    snapshot.storages ⊆ live cache.world.upstream ∧
      snapshot.tokens.identity ∈ names cache.world.upstream
  captured : forall place frame reservation, cache.Holding place frame reservation ->
    frame.tokens.identity ∈ names cache.world.upstream ∧
      forall snapshot, frame.stage.snapshot = some snapshot ->
        snapshot.storages ⊆ live cache.world.upstream

namespace Provision

variable {config : PrefixConfig} {own : Nat -> List (Tensor Element)}
  {cache after : QSAHostPrefixCache δ υ Element} {live : υ -> Finset Storage}
  {names : υ -> Finset Nat}

/-- What a capture holds after another one has begun. -/
theorem holding_begun {frame other : CaptureFrame Element}
    (captures : after.captures = cache.captures ++ [frame]) {place reservation : Nat}
    (holding : after.Holding place other reservation) :
    place ≠ cache.captures.length ∧ cache.Holding place other reservation ∨
      place = cache.captures.length ∧ other = frame := by
  rcases holding with ⟨stands, possesses⟩
  rw [captures] at stands
  by_cases old : place < cache.captures.length
  · rw [List.getElem?_append_left old] at stands
    exact Or.inl ⟨Nat.ne_of_lt old, stands, possesses⟩
  · have bound := (List.getElem?_eq_some_iff.mp stands).1
    rw [List.length_append, List.length_singleton] at bound
    have last : place = cache.captures.length := by omega
    rw [last, List.getElem?_concat_length] at stands
    exact Or.inr ⟨last, (Option.some.inj stands).symm⟩

/-- A capture begins. -/
theorem begun (provision : Provision config own cache) (kept : Kept none after)
    (referenced : Referenced live names cache)
    (lasts : Lasts none none cache.host after.host) {frame : CaptureFrame Element}
    (captures : after.captures = cache.captures ++ [frame])
    (named : frame.tokens.identity ∉ names cache.world.upstream)
    (reserves : forall reservation, frame.stage.possession.reservation = some reservation ->
      cache.host.reservations.length ≤ reservation ∧
        Provided config frame [] reservation after.host) :
    Provision config (Function.update own cache.captures.length []) after := by
  have old : forall snapshot, snapshot ∈ after.host.cache.snapshots ->
      snapshot ∈ cache.host.cache.snapshots :=
    fun snapshot member => (lasts.snapshots snapshot member).resolve_right nofun
  -- The one that has begun is apart from all the others.
  have beside : forall place other reservation further, cache.Holding place other reservation ->
      frame.stage.possession.reservation = some further ->
        Separate (own place) other reservation [] frame further := by
    intro place other reservation further holding possesses
    refine ⟨fun _ _ _ => List.not_mem_nil, fun same => ?_, ?_⟩
    · apply named
      rw [← same]
      exact (referenced.captured place other reservation holding).1
    · rcases provision.provided place other reservation holding with ⟨held, _, _, funded, _⟩
      have bound := (List.getElem?_eq_some_iff.mp funded.found).1
      exact Nat.ne_of_lt (Nat.lt_of_lt_of_le bound (reserves further possesses).1)
  refine
    { checked := fun snapshot member => provision.checked snapshot (old snapshot member)
      provided := ?_
      fresh := ?_
      named := ?_
      separate := ?_ }
  · intro place other reservation holding
    rcases holding_begun captures holding with ⟨apart, before⟩ | ⟨last, same⟩
    · rw [Function.update_of_ne apart]
      exact (provision.provided place other reservation before).lasts lasts nofun kept
    · rw [last, Function.update_self, same]
      exact (reserves reservation (same ▸ holding.2)).2
  · intro place other reservation holding
    rcases holding_begun captures holding with ⟨apart, before⟩ | ⟨last, _⟩
    · rw [Function.update_of_ne apart]
      exact (provision.fresh place other reservation before).mono (reached_lasts lasts)
    · rw [last, Function.update_self]
      exact .nil _ _
  · intro place other reservation holding snapshot member
    rcases holding_begun captures holding with ⟨_, before⟩ | ⟨_, same⟩
    · exact provision.named place other reservation before snapshot (old snapshot member)
    · intro tokens
      apply named
      rw [← same, ← tokens]
      exact (referenced.held snapshot (old snapshot member)).2
  · intro one left reservation two right further first second different
    rcases holding_begun captures first with ⟨apart, before⟩ | ⟨last, same⟩
    · rw [Function.update_of_ne apart]
      rcases holding_begun captures second with ⟨apartToo, beforeToo⟩ | ⟨lastToo, sameToo⟩
      · rw [Function.update_of_ne apartToo]
        exact provision.separate one left reservation two right further before beforeToo different
      · rw [lastToo, Function.update_self, sameToo]
        exact beside one left reservation further before (sameToo ▸ second.2)
    · rcases holding_begun captures second with ⟨apartToo, beforeToo⟩ | ⟨lastToo, _⟩
      · rw [Function.update_of_ne apartToo, last, Function.update_self, same]
        exact (beside two right further reservation beforeToo (same ▸ first.2)).symm
      · exact absurd (last.trans lastToo.symm) different

/-- What a capture that holds a reservation has copied is in use. -/
theorem own_live (provision : Provision config own cache) (referenced : Referenced live names cache)
    {place reservation : Nat} {frame : CaptureFrame Element}
    (holding : cache.Holding place frame reservation) :
    forall storage, storage ∈ storagesOf (own place) -> storage ∈ live cache.world.upstream := by
  rcases provision.provided place frame reservation holding with ⟨held, first, shared, _, fits⟩
  have captured := (referenced.captured place frame reservation holding).2
  have copied : forall snapshot, frame.stage.snapshot = some snapshot ->
      Copied config frame first shared (own place) snapshot ->
        forall storage, storage ∈ storagesOf (own place) ->
          storage ∈ live cache.world.upstream := by
    intro snapshot stage copied storage member
    apply captured snapshot stage
    rw [copied.storages]
    exact Finset.mem_union_right _ (List.mem_toFinset.mpr member)
  have possesses := holding.2
  cases stage : frame.stage with
  | reserved position identity start segments =>
      rw [stage] at fits
      rw [fits.2.2]
      exact fun _ member => absurd member List.not_mem_nil
  | captured result =>
      rw [stage] at possesses fits copied
      cases result with
      | none => cases possesses
      | some both => exact copied both.2 rfl fits
  | converged result =>
      rw [stage] at possesses fits copied
      cases result with
      | none => cases possesses
      | some both => exact copied both.2 rfl fits
  | finished =>
      rw [stage] at possesses
      cases possesses

/-- A capture has copied. -/
theorem copied (provision : Provision config own cache) (referenced : Referenced live names cache)
    {place reservation first : Nat} {state : CaptureFrame Element}
    {identity : Option ImagePrefixIdentity} {shared : List (PrefixSegment Element)}
    (stands : cache.captures[place]? = some state)
    (stage : state.stage = .reserved reservation identity first shared)
    (host : after.host = cache.host) {tensors : List (Tensor Element)}
    {snapshot : PrefixSnapshot PrefixNamespace Element}
    (copies : Copied config state first shared tensors snapshot)
    (new : Fresh Storage.nbytes (live cache.world.upstream) (storagesOf tensors))
    (captures : after.captures = cache.captures.modify place fun state =>
      { state with stage := .captured (some (reservation, snapshot)) }) :
    Provision config (Function.update own place tensors) after := by
  have holds : cache.Holding place state reservation := by
    refine ⟨stands, ?_⟩
    rw [stage]
    rfl
  have former : forall other frame further, after.Holding other frame further ->
      other ≠ place ∧ cache.Holding other frame further ∨
        other = place ∧ further = reservation ∧
          frame = { state with stage := .captured (some (reservation, snapshot)) } := by
    rintro other frame further ⟨standsAfter, possesses⟩
    rw [captures] at standsAfter
    by_cases same : other = place
    · rw [same, List.getElem?_modify_eq, stands] at standsAfter
      cases standsAfter
      cases possesses
      exact Or.inr ⟨same, rfl, rfl⟩
    · rw [List.getElem?_modify_ne _ _ (Ne.symm same)] at standsAfter
      exact Or.inl ⟨same, standsAfter, possesses⟩
  have beside : forall other frame further, other ≠ place -> cache.Holding other frame further ->
      Separate tensors state reservation (own other) frame further := by
    intro other frame further apart holding
    have separate := provision.separate place state reservation other frame further holds holding
      (Ne.symm apart)
    refine ⟨fun storage mine positive theirs => ?_, separate.tokens, separate.reservations⟩
    exact new.unheld storage mine positive (provision.own_live referenced holding storage theirs)
  refine
    { checked := by rw [host]; exact provision.checked
      provided := ?_
      fresh := ?_
      named := ?_
      separate := ?_ }
  · intro other frame further holding
    rw [host]
    rcases former other frame further holding with ⟨apart, before⟩ | ⟨same, rfl, rfl⟩
    · rw [Function.update_of_ne apart]
      exact provision.provided other frame further before
    · rw [same, Function.update_self]
      rcases provision.provided place state further holds with ⟨held, _, _, funded, fits⟩
      rw [stage] at fits
      rcases fits with ⟨rfl, rfl, _⟩
      exact ⟨held, first, shared,
        ⟨funded.found, funded.active, funded.size, funded.basis, funded.tokens, funded.positive,
          funded.paged, funded.within⟩,
        ⟨copies.tokens, copies.tensors, copies.bytes, copies.resident, copies.tiles⟩⟩
  · intro other frame further holding
    rw [host]
    rcases former other frame further holding with ⟨apart, before⟩ | ⟨same, _, _⟩
    · rw [Function.update_of_ne apart]
      exact provision.fresh other frame further before
    · rw [same, Function.update_self]
      apply new.mono
      intro storage member
      rcases (mem_reached _).mp member with ⟨published, present, used⟩
      exact (referenced.held published present).1 used
  · intro other frame further holding
    rw [host]
    rcases former other frame further holding with ⟨_, before⟩ | ⟨_, _, rfl⟩
    · exact provision.named other frame further before
    · exact provision.named place state reservation holds
  · intro one left further two right another firstHolds secondHolds different
    rcases former one left further firstHolds with ⟨apart, before⟩ | ⟨same, rfl, rfl⟩
    · rw [Function.update_of_ne apart]
      rcases former two right another secondHolds with ⟨apartToo, beforeToo⟩ | ⟨sameToo, rfl, rfl⟩
      · rw [Function.update_of_ne apartToo]
        exact provision.separate one left further two right another before beforeToo different
      · rw [sameToo, Function.update_self]
        have separate := (beside one left further apart before).symm
        exact ⟨separate.storages, separate.tokens, separate.reservations⟩
    · rcases former two right another secondHolds with ⟨apartToo, beforeToo⟩ | ⟨sameToo, _, _⟩
      · rw [Function.update_of_ne apartToo, same, Function.update_self]
        have separate := beside two right another apartToo beforeToo
        exact ⟨separate.storages, separate.tokens, separate.reservations⟩
      · exact absurd (same.trans sameToo.symm) different

end Provision

end PrefixCache
end QSAHiSparse

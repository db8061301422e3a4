import QSAHiSparse.PrefixCache.CaptureReserves
import QSAHiSparse.PrefixCache.PrefillPasses
import QSAHiSparse.PrefixCache.Runs
import QSAHiSparse.Runtime.CopyQueue

namespace QSAHiSparse
namespace PrefixCache

open Foundation
open HostPrefix
open QSAHiSparse.Runtime (Machine)

/-!
# A capture reserves what it publishes

Every call on the cache keeps what the captures under way have reserved.  So
whatever comes between the steps of a capture, its snapshot passes the checks of
`publish` and is charged exactly the size of its reservation.
-/

section Fits

variable {δ υ Element : Type} (machine : Machine δ) {config : PrefixConfig}
  {upstream : Upstream δ υ Element} {live : υ -> Finset Storage} {names : υ -> Finset Nat}
  {cache after : QSAHostPrefixCache δ υ Element}

/-- The invariant of a run. -/
def Funding (config : PrefixConfig) (cache : QSAHostPrefixCache δ υ Element) : Prop :=
  Kept none cache ∧ exists own, Provision config own cache

theorem Funding.quiet (funding : Funding config cache) (kept : Kept none after)
    (quiet : Quiet cache after) : Funding config after := by
  rcases funding with ⟨_, own, provision⟩
  exact ⟨kept, own, provision.lasts kept quiet.captures quiet.host⟩

/-- What is kept of the rest is known already. -/
theorem Funding.leaves {α : Type}
    {result : EStateM.Result PyError (QSAHostPrefixCache δ υ Element) α}
    (keeps : Leaves (fun _ => Kept none) (fun _ => Kept none) result)
    (steps : Leaves (fun _ after => Kept none after -> Funding config after)
      (fun _ after => Kept none after -> Funding config after) result) :
    Leaves (fun _ => Funding config) (fun _ => Funding config) result := by
  apply (keeps.and steps).mono
  · exact fun _ _ both => both.2 both.1
  · exact fun _ _ both => both.2 both.1

/-! ## The end of a capture -/

/-- The host cache and the captures are the ones of the start. -/
def Same (start after : QSAHostPrefixCache δ υ Element) : Prop :=
  after.host = start.host ∧ after.captures = start.captures

theorem Same.apart (start : QSAHostPrefixCache δ υ Element) : Apart (Same start) where
  reach _ _ same := same
  fields _ _ _ _ same := same

/-- The capture at the place is finished, its reservation closed, and no snapshot
has come in. -/
structure Ended (start : QSAHostPrefixCache δ υ Element) (place : Nat) (closing : Option Nat)
    (after : QSAHostPrefixCache δ υ Element) : Prop where
  captures : after.captures = start.captures.modify place fun state =>
    { state with stage := .finished }
  host : Lasts closing none start.host after.host

theorem abandonCapture_ended (place : Nat) (closing : Option Nat)
    (cache : QSAHostPrefixCache δ υ Element) :
    Leaves (fun _ => Ended cache place closing) (fun _ => Ended cache place closing)
      ((abandonCapture place closing).run cache) := by
  apply (Leaves.bind_iff _ _ _).mpr
  apply (Leaves.modify_iff _ _).mpr
  cases closing with
  | none => exact ⟨rfl, .refl _⟩
  | some reservation =>
      apply (Leaves.bind_iff _ _ _).mpr
      apply (Leaves.modify_iff _ _).mpr
      apply (hostObjects.leaves_zoom _ _).mpr
      have logged : ((cache.setStage place .finished).logBasis reservation).host = cache.host :=
        (cache.setStage place .finished).host_logBasis reservation
      have listed : ((cache.setStage place .finished).logBasis reservation).captures =
          (cache.setStage place .finished).captures := by
        unfold QSAHostPrefixCache.logBasis
        split <;> rfl
      change Leaves _ _ ((HostPrefix.closeReservation reservation).run
        ((cache.setStage place .finished).logBasis reservation).host)
      rw [logged]
      apply ((closeReservation_lasts reservation).leaves cache.host).mono
      · exact fun _ _ lasts => ⟨listed, lasts⟩
      · exact fun _ _ lasts => ⟨listed, lasts⟩

theorem Funding.ended (funding : Funding config cache) (kept : Kept none after) {place : Nat}
    {state : CaptureFrame Element} (stands : cache.captures[place]? = some state)
    (ended : Ended cache place state.stage.possession.reservation after) :
    Funding config after := by
  rcases funding with ⟨_, own, provision⟩
  exact ⟨kept, own, provision.abandon kept stands rfl ended.captures ended.host⟩

/-! ## The steps of a capture -/

theorem beginCapture_funding (allocator : Allocator upstream live names) (req : Nat) :
    Ensures (fun cache => Funding config cache ∧ Referenced live names cache)
      (beginCapture config upstream req)
      (fun _ after => Funding config after ∧ Referenced live names after)
      (fun _ => Funding config) := by
  rintro cache ⟨funding, referenced⟩
  apply ((beginCapture_kept config upstream req cache funding.1).and
    (beginCapture_begins allocator req cache)).mono
  · rintro begun after ⟨kept, steps⟩
    cases begun with
    | none =>
        have same : after = cache := steps
        rw [same]
        exact ⟨funding, referenced⟩
    | some place =>
        rcases steps with ⟨frame, begun⟩
        rcases funding with ⟨_, own, provision⟩
        refine ⟨⟨kept, _, provision.begun kept referenced begun.host begun.captures begun.unnamed
          begun.reserves⟩, ?_, ?_⟩
        · intro snapshot member
          have old := (begun.host.snapshots snapshot member).resolve_right nofun
          rcases referenced.held snapshot old with ⟨storages, identity⟩
          exact ⟨storages.trans begun.storages, begun.identities identity⟩
        · intro place other reservation holding
          rcases Provision.holding_begun begun.captures holding with ⟨_, before⟩ | ⟨_, same⟩
          · rcases referenced.captured place other reservation before with ⟨identity, storages⟩
            exact ⟨begun.identities identity, fun snapshot copied =>
              (storages snapshot copied).trans begun.storages⟩
          · rw [same, begun.copies]
            exact ⟨begun.named, nofun⟩
  · rintro cause after ⟨kept, quiet⟩
    exact funding.quiet kept quiet

theorem copyCapture_funding (allocator : Allocator upstream live names) (place : Nat) :
    Ensures (fun cache => Funding config cache ∧ Referenced live names cache)
      (copyCapture machine config upstream place) (fun _ => Funding config)
      (fun _ => Funding config) := by
  rintro cache ⟨funding, referenced⟩
  apply Funding.leaves (copyCapture_kept machine config upstream place cache funding.1)
  apply (Leaves.bind_iff _ _ _).mpr
  apply (Leaves.get_iff _).mpr
  cases stands : cache.captures[place]? with
  | none => exact fun _ => funding
  | some state =>
      dsimp only
      cases stage : state.stage with
      | captured result => exact fun _ => funding
      | converged result => exact fun _ => funding
      | finished => exact fun _ => funding
      | reserved reservation identity first shared =>
          have possesses : state.stage.possession.reservation = some reservation := by
            rw [stage]
            rfl
          rcases funding.2 with ⟨own, provision⟩
          rcases provision.provided place state reservation ⟨stands, possesses⟩ with
            ⟨held, _, _, funded, fits⟩
          rw [stage] at fits
          rcases fits with ⟨rfl, rfl, _⟩
          have aligned :=
            (shared_covers funding.1.owned.conserved provision.checked funded.basis).1
          have copies := copyCheckpoint_copies machine config allocator funded.paged identity
            funded.within aligned shared [] cache.world
            (Allocated.begin Storage.nbytes (fun world : World δ υ Element => live world.upstream)
              cache.world)
          apply (Leaves.tryCatch_iff _ _ _).mpr
          apply (Leaves.bind_iff _ _ _).mpr
          apply (within_leaves _ cache copies).mono
          · rintro snapshot _ ⟨world, rfl, tensors, copied, handed⟩
            apply (Leaves.modify_iff _ _).mpr
            intro kept
            refine ⟨kept, Function.update own place tensors, ?_⟩
            apply provision.copied referenced stands stage
            · rfl
            · exact copied
            · exact handed.fresh
            · rfl
          · rintro cause _ ⟨world, rfl, _⟩
            apply (Leaves.bind_iff _ _ _).mpr
            apply (abandonCapture_ended place (some reservation) (cache.reach world)).mono
            · intro _ after ended kept
              exact funding.ended kept stands (possesses ▸ ⟨ended.captures, ended.host⟩)
            · intro _ after ended kept
              exact funding.ended kept stands (possesses ▸ ⟨ended.captures, ended.host⟩)

theorem convergeCapture_funding (place : Nat) :
    Preserves (Funding config) (convergeCapture upstream place) := by
  intro cache funding
  apply Funding.leaves (convergeCapture_kept upstream place cache funding.1)
  apply (Leaves.bind_iff _ _ _).mpr
  apply (Leaves.get_iff _).mpr
  cases stands : cache.captures[place]? with
  | none => exact fun _ => funding
  | some state =>
      dsimp only
      cases stage : state.stage with
      | reserved reservation identity first shared => exact fun _ => funding
      | converged result => exact fun _ => funding
      | finished => exact fun _ => funding
      | captured result =>
          have possesses : state.stage.possession.reservation = result.map Prod.fst := by
            rw [stage]
            rfl
          apply (Leaves.tryCatch_iff _ _ _).mpr
          have whole : Ensures (Same cache) (do
              let signature <- checkpointSignature upstream state result.isSome
              converge upstream signature
              modify fun self => self.setStage place (.converged result))
              (fun _ after => Kept none after -> Funding config after) (fun _ => Same cache) := by
            refine Ensures.bind (checkpointSignature_reads upstream state _).preserves
              fun signature => ?_
            refine Ensures.bind (converge_preserves upstream (Same.apart cache) _) fun _ => ?_
            intro agreed same
            apply (Leaves.modify_iff _ _).mpr
            intro kept
            rcases funding.2 with ⟨own, provision⟩
            refine ⟨kept, own, provision.converge stands stage same.1 ?_⟩
            rw [← same.2]
            rfl
          apply (whole cache ⟨rfl, rfl⟩).mono (fun _ _ => id)
          intro cause agreed same
          apply (Leaves.bind_iff _ _ _).mpr
          have finished : forall after, Ended agreed place (result.map Prod.fst) after ->
              Kept none after -> Funding config after := by
            intro after ended kept
            apply funding.ended kept stands
            rw [possesses]
            exact ⟨same.2 ▸ ended.captures, same.1 ▸ ended.host⟩
          apply (abandonCapture_ended place (result.map Prod.fst) agreed).mono
          · exact fun _ after => finished after
          · exact fun _ after => finished after

theorem publishSnapshot_lasts (state : CaptureFrame Element) (reservation : Nat)
    (snapshot : PrefixSnapshot PrefixNamespace Element) (cache : QSAHostPrefixCache δ υ Element) :
    Leaves
      (fun _ after => after.captures = cache.captures ∧
        Lasts (some reservation) (some snapshot) cache.host after.host)
      (fun _ after => after.captures = cache.captures ∧
        Lasts (some reservation) (some snapshot) cache.host after.host)
      ((publishSnapshot machine state reservation snapshot).run cache) := by
  have apart : Apart fun after : QSAHostPrefixCache δ υ Element =>
      after.captures = cache.captures ∧
        Lasts (some reservation) (some snapshot) cache.host after.host :=
    ⟨fun _ _ holds => holds, fun _ _ _ _ holds => holds⟩
  have listed : (cache.logBasis reservation).captures = cache.captures := by
    unfold QSAHostPrefixCache.logBasis
    split <;> rfl
  apply (Leaves.bind_iff _ _ _).mpr
  apply (Leaves.modify_iff _ _).mpr
  apply (Leaves.bind_iff _ _ _).mpr
  apply (hostObjects.leaves_zoom _ _).mpr
  change Leaves _ _ ((HostPrefix.publish reservation snapshot true).run
    (cache.logBasis reservation).host)
  rw [cache.host_logBasis]
  apply ((publish_lasts reservation snapshot true).leaves cache.host).mono
  · intro entryId host lasts
    apply (Leaves.bind_iff _ _ _).mpr
    apply (Leaves.modify_iff _ _).mpr
    have rest := Preserves.bind (notePrefixBasis_preserves apart state.req snapshot (some entryId))
      fun _ => within_preserves apart (outside machine .eventLog)
    exact rest _ ⟨listed, lasts⟩
  · exact fun _ _ lasts => ⟨listed, lasts⟩

theorem publishCapture_funding (place : Nat) :
    Preserves (Funding config : QSAHostPrefixCache δ υ Element -> Prop)
      (publishCapture machine place) := by
  intro cache funding
  apply Funding.leaves (publishCapture_kept machine place cache funding.1)
  apply (Leaves.bind_iff _ _ _).mpr
  apply (Leaves.get_iff _).mpr
  cases stands : cache.captures[place]? with
  | none => exact fun _ => funding
  | some state =>
      dsimp only
      cases stage : state.stage with
      | reserved reservation identity first shared => exact fun _ => funding
      | captured result => exact fun _ => funding
      | finished => exact fun _ => funding
      | converged result =>
          cases result with
          | none =>
              apply (Leaves.modify_iff _ _).mpr
              intro kept
              apply funding.ended kept stands
              rw [stage]
              exact ⟨rfl, .refl _⟩
          | some both =>
              apply (Leaves.tryFinally_iff _ _ _).mpr
              have closes : forall last : QSAHostPrefixCache δ υ Element,
                  last.captures = cache.captures ∧
                    Lasts (some both.1) (some both.2) cache.host last.host ->
                  forall after, Ended last place (some both.1) after ->
                    Kept none after -> Funding config after := by
                rintro last ⟨captures, entered⟩ after ended kept
                rcases funding with ⟨keptBefore, own, provision⟩
                exact ⟨kept, own, provision.publish keptBefore kept stands stage
                  (captures ▸ ended.captures) (.trans _ _ _ entered ended.host.enter)⟩
              apply (publishSnapshot_lasts machine state both.1 both.2 cache).mono
              · intro _ last entered
                exact (abandonCapture_ended place (some both.1) last).mono
                  (fun _ after => closes last entered after) fun _ after => closes last entered after
              · intro cause last entered
                exact (abandonCapture_ended place (some both.1) last).mono
                  (fun _ after => closes last entered after) fun _ after => closes last entered after

/-! ## Runs -/

/-- A call that moves no capture. -/
theorem quiet_funding {α : Type} {program : Method (QSAHostPrefixCache δ υ Element) α}
    (keeps : Preserves (Kept none) program)
    (quiet : forall start, Preserves (Quiet start) program) :
    Preserves (Funding config) program := by
  intro cache funding
  apply Funding.leaves (keeps cache funding.1)
  apply (quiet cache cache (.refl cache)).mono
  · exact fun _ _ quiet kept => funding.quiet kept quiet
  · exact fun _ _ quiet kept => funding.quiet kept quiet

theorem checkpoint_funding (allocator : Allocator upstream live names) (req : Nat) (limit : Int) :
    Ensures (fun cache => Funding config cache ∧ Referenced live names cache)
      (checkpoint machine config upstream req limit) (fun _ => Funding config)
      (fun _ => Funding config) := by
  refine Ensures.bind ?_ fun _ => quiet_funding (within_preserves (Kept.apart_only none) _)
    fun start => within_quiet start _
  refine Ensures.bind (beginCapture_funding allocator req) fun begun => ?_
  cases begun with
  | none => exact fun _ both => both.1
  | some place =>
      refine Ensures.bind (copyCapture_funding machine allocator place) fun _ => ?_
      exact Preserves.bind (convergeCapture_funding place) fun _ =>
        publishCapture_funding machine place

theorem perform_funding (allocator : Allocator upstream live names)
    (operation : Operation δ υ Element) :
    Ensures (fun cache => Funding config cache ∧ Referenced live names cache)
      (perform machine config upstream operation) (fun _ => Funding config)
      (fun _ => Funding config) := by
  have still : Preserves (Funding config) (perform machine config upstream operation) ->
      Ensures (fun cache => Funding config cache ∧ Referenced live names cache)
        (perform machine config upstream operation) (fun _ => Funding config)
        (fun _ => Funding config) :=
    fun preserves cache both => preserves cache both.1
  by_cases plain : operation.plain = true
  · exact still (quiet_funding (perform_kept machine config upstream operation) fun start =>
      (Quiet.carried machine config upstream start).perform plain)
  · cases operation with
    | maybeHandToSession req =>
        exact still (quiet_funding (perform_kept machine config upstream _) fun start =>
          maybeHandToSession_quiet machine config upstream start req)
    | beginCapture req =>
        refine Ensures.bind (beginCapture_funding allocator req) fun _ => ?_
        exact fun _ both => both.1
    | copyCapture place => exact copyCapture_funding machine allocator place
    | convergeCapture place => exact still (convergeCapture_funding place)
    | publishCapture place => exact still (publishCapture_funding machine place)
    | checkpoint req limit => exact checkpoint_funding machine allocator req limit
    | outside change =>
        exact still (quiet_funding (perform_kept machine config upstream _) fun start =>
          within_quiet start (modify change))
    | _ => exact absurd rfl plain

/-- Whatever is referred to is in use after each of the calls. -/
def Retained (machine : Machine δ) (config : PrefixConfig) (upstream : Upstream δ υ Element)
    (live : υ -> Finset Storage) (names : υ -> Finset Nat) (limits : CacheLimits)
    (world : World δ υ Element) (operations : List (Operation δ υ Element)) : Prop :=
  forall count, Referenced live names
    (afterCalls machine config upstream limits world (operations.take count))

theorem afterCalls_funding (allocator : Allocator upstream live names) (limits : CacheLimits)
    {world : World δ υ Element} (unused : world.runtime.requests.values = [])
    (operations : List (Operation δ υ Element))
    (retained : Retained machine config upstream live names limits world operations) :
    Funding config (afterCalls machine config upstream limits world operations) := by
  have firsts : forall count,
      Funding config (afterCalls machine config upstream limits world (operations.take count)) := by
    intro count
    induction count with
    | zero => exact ⟨.initial limits unused, _, .initial config limits world⟩
    | succ count ih =>
        by_cases more : count < operations.length
        · rw [List.take_succ_eq_append_getElem more]
          unfold afterCalls at ih ⊢
          rw [callAll_append]
          exact Leaves.finalState_iff.mp
            (perform_funding machine allocator operations[count] _ ⟨ih, retained count⟩)
        · rw [List.take_of_length_le (Nat.le_of_not_lt more)] at ih
          rw [List.take_of_length_le (Nat.le_succ_of_le (Nat.le_of_not_lt more))]
          exact ih
  have whole := firsts operations.length
  rw [List.take_length] at whole
  exact whole

/-- In every reachable state, the snapshot of a capture that has copied passes the
checks of `publish` and adds exactly the bytes of its reservation, which are those
of the interval that the basis does not cover and of the length; so it is
published in the epoch of the reservation. -/
theorem capture_reserves_exactly (uniform : config.Uniform)
    (allocator : Allocator upstream live names) (limits : CacheLimits)
    (geometry : Ledger.Geometry) (device : δ) (requests : Nat -> Req) (pools : Pools Element)
    (state : υ) (operations : List (Operation δ υ Element))
    (retained : Retained machine config upstream live names limits
      (.initial config geometry device requests pools state) operations)
    (place : Nat) (frame : CaptureFrame Element) (reservation : Nat)
    (snapshot : PrefixSnapshot PrefixNamespace Element) :
    let cache := afterCalls machine config upstream limits
      (.initial config geometry device requests pools state) operations
    cache.captures[place]? = some frame ->
      frame.stage = .captured (some (reservation, snapshot)) ∨
        frame.stage = .converged (some (reservation, snapshot)) ->
      exists held first shared,
        Funded config frame reservation held first shared cache.host ∧
        checkSnapshot snapshot = .ok ⟨⟩ ∧ snapshot.hostResident = true ∧
        (PrefixSnapshot.footprintBytes (cache.host.cache.snapshots ++ [snapshot]) : Int) =
          cache.host.cache.usedBytes +
            config.checkpointBytes (frame.length - first : Nat) frame.length ∧
        (held.epoch = cache.host.cache.epoch -> exists after,
          (publish reservation snapshot true).run cache.host =
            .ok (cache.host.cache.nextId + 1) after) := by
  intro cache stands stage
  have funding : Funding config cache :=
    afterCalls_funding machine allocator limits rfl operations retained
  rcases funding with ⟨kept, own, provision⟩
  have holds : cache.Holding place frame reservation := by
    refine ⟨stands, ?_⟩
    rcases stage with captured | converged
    · rw [captured]
      rfl
    · rw [converged]
      rfl
  rcases provision.provided place frame reservation holds with ⟨held, first, shared, funded, fits⟩
  have copied : Copied config frame first shared (own place) snapshot := by
    rcases stage with captured | converged
    · rw [captured] at fits
      exact fits
    · rw [converged] at fits
      exact fits
  have conserved := kept.owned.conserved
  have accepted := copied.accepted conserved provision.checked funded
  have charged := copied.charged uniform conserved provision.checked funded
    (provision.fresh place frame reservation holds) (provision.named place frame reservation holds)
  refine ⟨held, first, shared, funded, accepted.1, accepted.2, ?_, fun current => ?_⟩
  · rw [charged, funded.size]
  · exact publish_fits conserved funded.found funded.active current accepted.1 accepted.2
      (le_of_eq charged)

end Fits

/-! ## Captures of two pages -/

section Example

open QSAHiSparse.Runtime (CopyQueue queueMachine)

/-- What has been handed out so far, none of which is ever freed. -/
structure Heap where
  storages : List Storage
  identities : List Nat

def Heap.live (heap : Heap) : Finset Storage := heap.storages.toFinset

def Heap.names (heap : Heap) : Finset Nat := heap.identities.toFinset

/-- New addresses and identities lie behind the old ones. -/
def Heap.upstream : Upstream CopyQueue Heap Unit where
  sha256 _ := ""
  keyDigest _ := ""
  votes _ := pure none
  forceMiss := pure false
  matchPrefix _ := pure 0
  prefixDeviceIndices _ := pure []
  maybeHandToSession _ := pure ⟨⟩
  releaseAbortedRequest _ := pure ⟨⟩
  claimKvRow _ := pure true
  checkpoint _ _ := pure ⟨⟩
  onRelease _ _ := pure ⟨⟩
  reset := pure ⟨⟩
  releaseHostResources := pure ⟨⟩
  alloc _ := pure none
  free _ := pure ⟨⟩
  releaseStateSlot _ := pure ⟨⟩
  freeRow _ := pure ⟨⟩
  markKvReleased _ := pure ⟨⟩
  currentStream := pure 0
  synchronizeStream _ := pure ⟨⟩
  newStorage count := do
    let world <- get
    let storage : Storage := ⟨(world.upstream.storages.map Storage.dataPtr).sum + 1, count⟩
    set { world with
      upstream := { world.upstream with storages := storage :: world.upstream.storages } }
    return storage
  newBytes := do
    let world <- get
    let identity := world.upstream.identities.sum + 1
    set { world with
      upstream := { world.upstream with identities := identity :: world.upstream.identities } }
    return identity

theorem Heap.allocator : Allocator Heap.upstream Heap.live Heap.names where
  newStorage count world := by
    have behind : (⟨(world.upstream.storages.map Storage.dataPtr).sum + 1, count⟩ : Storage) ∉
        world.upstream.live := by
      intro member
      have present := List.mem_map_of_mem (f := Storage.dataPtr) (List.mem_toFinset.mp member)
      exact absurd (List.le_sum_of_mem present) (Nat.not_succ_le_self _)
    refine ⟨rfl, Or.inr behind, ?_, fun storage member => ?_⟩
    · exact List.mem_toFinset.mpr List.mem_cons_self
    · exact List.mem_toFinset.mpr (List.mem_cons_of_mem _ (List.mem_toFinset.mp member))
  newBytes world := by
    have behind : world.upstream.identities.sum + 1 ∉ world.upstream.names := by
      intro member
      exact absurd (List.le_sum_of_mem (List.mem_toFinset.mp member)) (Nat.not_succ_le_self _)
    refine ⟨behind, ?_, fun identity member => ?_, fun _ member => member, rfl, rfl⟩
    · exact List.mem_toFinset.mpr List.mem_cons_self
    · exact List.mem_toFinset.mpr (List.mem_cons_of_mem _ (List.mem_toFinset.mp member))
  currentStream world := fun _ member => member
  synchronizeStream stream world := fun _ member => member

def pageConfig : PrefixConfig :=
  { plainConfig with
    runtime := ⟨12, 128, true, false, false, [], true⟩
    geometry :=
      { compressed := List.replicate 12 ⟨[1, 128], 2⟩
        indexRow := ⟨[1, 128], 2⟩
        keyState := [⟨[4, 1, 128], 2⟩]
        rope := ⟨[4], 8⟩
        conv := [⟨[2, 1, 3], 2⟩]
        temporal := ⟨[2, 1, 4], 4⟩
        siblings := [(⟨[1, 3], 2⟩, true)]
        transferBytes := [6] } }

theorem pageConfig_uniform : pageConfig.Uniform := ⟨rfl, rfl⟩

def pageMachine : Machine CopyQueue := queueMachine fun _ _ => ⟨0, none, true⟩

/-- One lease with two pages of staging. -/
def twoPages : Ledger.Geometry where
  stagingTokens := 128
  pageSize := 64
  maxRequests := 1
  page_least := Nat.le_add_left 4 60
  page_complete := rfl
  staging_positive := Nat.succ_pos 127
  staging_paged := rfl
  lease_least := le_refl 1
  lease_most := Nat.succ_le_succ (Nat.zero_le 7)

/-- Calls on the runtime between those on the cache. -/
def drive (calls : List Runtime.Call) (world : World CopyQueue Heap Unit) :
    World CopyQueue Heap Unit :=
  { world with
    runtime := callAll (Runtime.perform pageMachine pageConfig.runtime) world.runtime calls }

/-- The request of row one prefills a page, and so reaches the length. -/
def prefillTo (length : Int) : Runtime.Call :=
  .beginBatch ⟨.extend, 1, some [1], some [length], ["a"], [64]⟩

/-- The first page is captured and published, then the second is captured. -/
def pageRun : List (Operation CopyQueue Heap Unit) :=
  [ .outside (drive [.regenerate 1 1, prefillTo 64]),
    .beginCapture 0,
    .copyCapture 0,
    .convergeCapture 0,
    .publishCapture 0,
    .outside (drive [prefillTo 128]),
    .beginCapture 0,
    .copyCapture 1 ]

def pageRequest : Req :=
  { promptReq 128 with
    fullUntruncatedFillIds := List.replicate 130 0
    kv := ⟨some 1, some 1, false, 128, 128⟩ }

def pageLimits : CacheLimits := ⟨2097152, 2, Nat.succ_pos _, Nat.two_pos⟩

def pageCache (operations : List (Operation CopyQueue Heap Unit)) :
    QSAHostPrefixCache CopyQueue Heap Unit :=
  afterCalls pageMachine pageConfig Heap.upstream pageLimits
    (.initial pageConfig twoPages CopyQueue.empty (fun _ => pageRequest) plainPools ⟨[], []⟩)
    operations

/-- What is published and what captures hold has been handed out. -/
def QSAHostPrefixCache.inUse (self : QSAHostPrefixCache CopyQueue Heap Unit) : Bool :=
  let handed := fun snapshot : PrefixSnapshot PrefixNamespace Unit =>
    decide (snapshot.storages ⊆ self.world.upstream.live)
  (self.host.cache.snapshots.all fun snapshot =>
    handed snapshot && decide (snapshot.tokens.identity ∈ self.world.upstream.names)) &&
  self.captures.all fun frame =>
    decide (frame.tokens.identity ∈ self.world.upstream.names) && frame.stage.snapshot.all handed

theorem inUse_referenced {cache : QSAHostPrefixCache CopyQueue Heap Unit}
    (used : cache.inUse = true) : Referenced Heap.live Heap.names cache := by
  rcases Bool.and_eq_true_iff.mp used with ⟨published, captures⟩
  refine ⟨fun snapshot member => ?_, fun place frame reservation holding => ?_⟩
  · rcases Bool.and_eq_true_iff.mp (List.all_eq_true.mp published snapshot member) with
      ⟨storages, identity⟩
    exact ⟨of_decide_eq_true storages, of_decide_eq_true identity⟩
  · have inside := List.all_eq_true.mp captures frame (List.mem_of_getElem? holding.1)
    rcases Bool.and_eq_true_iff.mp inside with ⟨identity, copied⟩
    refine ⟨of_decide_eq_true identity, fun snapshot same => ?_⟩
    rw [same] at copied
    exact of_decide_eq_true copied

theorem pageCache_inUse (count : Nat) : (pageCache (pageRun.take count)).inUse = true := by
  by_cases early : count < 8
  · have all : forall count, count < 8 -> (pageCache (pageRun.take count)).inUse = true := by
      decide +kernel
    exact all count early
  · rw [List.take_of_length_le (not_lt.mp early)]
    decide +kernel

theorem captured_of_rank {frame : CaptureFrame Unit}
    (stage : (frame.stage.snapshot.isSome && frame.stage.rank == 1) = true) :
    exists reservation snapshot, frame.stage = .captured (some (reservation, snapshot)) := by
  cases same : frame.stage with
  | captured result =>
      cases result with
      | none => simp [same, CaptureStage.snapshot] at stage
      | some both => exact ⟨both.1, both.2, rfl⟩
  | reserved => simp [same, CaptureStage.snapshot] at stage
  | converged result => simp [same, CaptureStage.rank] at stage
  | finished => simp [same, CaptureStage.snapshot] at stage

/-- A capture of the page that ends at a length has been copied: it holds what its
reservation is for. -/
def CapturesPage (operations : List (Operation CopyQueue Heap Unit)) (place length : Nat) : Prop :=
  exists (frame : CaptureFrame Unit) (reservation : Nat)
      (snapshot : PrefixSnapshot PrefixNamespace Unit),
    (pageCache operations).captures[place]? = some frame ∧
    frame.stage = .captured (some (reservation, snapshot)) ∧ frame.length = length ∧
    checkSnapshot snapshot = .ok ⟨⟩ ∧
    (PrefixSnapshot.footprintBytes ((pageCache operations).host.cache.snapshots ++ [snapshot]) :
        Int) =
      (pageCache operations).host.cache.usedBytes + pageConfig.checkpointBytes 64 length

/-- The first page of a prompt is captured without a basis, the second on the first. -/
theorem capture_reserves_exactly_example :
    CapturesPage (pageRun.take 3) 0 64 ∧ CapturesPage pageRun 1 128 := by
  have page (count place length : Nat)
      (copied : (pageCache (pageRun.take count)).captures[place]?.any (fun frame =>
        (frame.stage.snapshot.isSome && frame.stage.rank == 1) && frame.length == length) = true)
      (based : (pageCache (pageRun.take count)).host.reservations.all (fun state =>
        !state.active || baseLength (pageCache (pageRun.take count)).host state.basisReader + 64 == length) =
          true) : CapturesPage (pageRun.take count) place length := by
    rcases (Option.any_eq_true _ _).mp copied with ⟨frame, stands, staged⟩
    rcases Bool.and_eq_true_iff.mp staged with ⟨stage, reached⟩
    rcases captured_of_rank stage with ⟨reservation, snapshot, same⟩
    have retained : Retained pageMachine pageConfig Heap.upstream Heap.live Heap.names pageLimits
        (.initial pageConfig twoPages CopyQueue.empty (fun _ => pageRequest) plainPools ⟨[], []⟩)
        (pageRun.take count) := by
      intro fewer
      rw [List.take_take]
      exact inUse_referenced (pageCache_inUse _)
    rcases capture_reserves_exactly pageMachine pageConfig_uniform Heap.allocator pageLimits
      twoPages CopyQueue.empty (fun _ => pageRequest) plainPools ⟨[], []⟩ (pageRun.take count)
      retained place frame reservation snapshot stands (Or.inl same) with
      ⟨held, first, _, funded, checked, _, charged, _⟩
    have base := List.all_eq_true.mp based held (List.mem_of_getElem? funded.found)
    have covered : first = baseLength (pageCache (pageRun.take count)).host held.basisReader :=
      funded.basis.first_eq
    rw [funded.active, ← covered] at base
    have lengthIs : frame.length = length := eq_of_beq reached
    have firstIs : first + 64 = length := eq_of_beq base
    have beyond : frame.length - first = 64 := by omega
    rw [beyond, lengthIs] at charged
    exact ⟨frame, reservation, snapshot, stands, same, lengthIs, checked, charged⟩
  exact ⟨page 3 0 64 (by decide +kernel) (by decide +kernel),
    page 8 1 128 (by decide +kernel) (by decide +kernel)⟩

end Example

end PrefixCache
end QSAHiSparse

import QSAHiSparse.HostPrefix.Handles
import QSAHiSparse.HostPrefix.Lookup
import QSAHiSparse.Runtime.Release

namespace QSAHiSparse
namespace PrefixCache

open Foundation
open Ledger (QSAHiSparseLease RowSlice)
open HostPrefix
open QSAHiSparse.Runtime (QSAHiSparseRuntime)

/-!
# The host prefixes of the tree cache

`QSAHostPrefixCache` is a subclass of the serving framework's tree cache.  It
keeps two dictionaries by request handle: the readers of matched prefixes, and
the records of the restores that have begun.  Everything else it touches lies
outside: the requests, the pools, the runtime with its leases, and the state of
the classes it extends.

The methods of those classes and the allocators are parameters.  They may do
anything to what lies outside, and raise anywhere; they have no access to the
host cache and to the two dictionaries.
-/

/-- The identity of one attempt of a request. -/
structure CacheRequestHandle where
  rid : String
  attempt : Int
deriving DecidableEq, Repr

/-- What `identity_for` answers: nothing for text, an identity, or `BYPASS`. -/
inductive RequestIdentity where
  | text
  | image (identity : ImagePrefixIdentity)
  | bypass

/-- `req.kv`. -/
structure KvRecord where
  reqPoolIdx : Option Int
  mambaPoolIdx : Option Int
  holdsKv : Bool
  kvAllocatedLen : Int
  kvCommittedLen : Int

/-- What is read of a request.  The flags say that the attribute is not `None`;
a text request has no multimodal inputs. -/
structure Req where
  cacheRequestHandle : CacheRequestHandle
  rid : String
  identity : RequestIdentity
  positionalEmbedOverrides : Bool
  inputEmbeds : Bool
  positionIds : Bool
  mropePositions : Bool
  session : Bool
  beamGroup : Bool
  returnHiddenStates : Bool
  extraKey : Option String
  cacheSalt : Option String
  loraId : Option String
  skipRadixCacheInsert : Bool
  fullUntruncatedFillIds : List Int64
  prefixLen : Int
  kv : KvRecord

/-- The tuple that keys the prefixes of a request. -/
structure PrefixNamespace where
  prefixNamespace : String
  epoch : Nat
  extraKey : Option String
  cacheSalt : Option String
  loraId : Option String
deriving DecidableEq, Repr

/-! ## Geometry -/

/-- A tensor of one slot: its shape and the bytes of an element. -/
structure TensorKind where
  shape : List Nat
  itemBytes : Nat

def TensorKind.nbytes (kind : TensorKind) : Nat := kind.shape.prod * kind.itemBytes

/-- The pools a checkpoint is copied from. -/
structure PoolGeometry where
  /-- `qsa_compressed_k_buffer_pool`, one row of each layer. -/
  compressed : List TensorKind
  /-- `shape[1:]` of the first of them, and the bytes of `index_state_dtype`. -/
  indexRow : TensorKind
  /-- `qsa_key_state_buffer_pool`, the four rows of a request. -/
  keyState : List TensorKind
  rope : TensorKind
  conv : List TensorKind
  temporal : TensorKind
  /-- The state tensors of the slot siblings, and whether each is layered. -/
  siblings : List (TensorKind × Bool)
  /-- `tensor[:1].nbytes` of the transfer entries of the siblings. -/
  transferBytes : List Nat

/-- What the constructors of the cache and of the runtime fix. -/
structure PrefixConfig where
  runtime : Runtime.Config
  prefixNamespace : String
  pageSize : Nat
  geometry : PoolGeometry

/-- `prefix_checkpoint_bytes`. -/
def PrefixConfig.checkpointBytes (config : PrefixConfig) (delta tokenCount : Int) : Int :=
  (config.geometry.conv.map TensorKind.nbytes).sum + config.geometry.temporal.nbytes +
    config.geometry.transferBytes.sum + (config.geometry.keyState.map TensorKind.nbytes).sum +
    config.geometry.rope.nbytes + delta * config.runtime.layers * 2 * 256 +
    delta / 4 * (config.geometry.compressed.map TensorKind.nbytes).sum + tokenCount * 8

/-! ## What lies outside -/

/-- The pools, each a function of its indices, and the table of positions. -/
structure Pools (Element : Type) where
  /-- `full.k_buffer` and `full.v_buffer`: layer, plane, row. -/
  full : Nat -> Nat -> Int -> List Nat -> Element
  compressed : Nat -> Int -> List Nat -> Element
  keyState : Nat -> Int -> List Nat -> Element
  rope : Int -> List Nat -> Element
  conv : Nat -> Nat -> Int -> List Nat -> Element
  temporal : Nat -> Int -> List Nat -> Element
  /-- A tensor that is not layered has layer 0 only. -/
  siblings : Nat -> Nat -> Int -> List Nat -> Element
  reqToToken : Int -> Int -> Int

/-- Everything but the host cache and the two dictionaries; requests are known
by their address. -/
structure World (δ υ Element : Type) where
  runtime : QSAHiSparseRuntime δ
  requests : Nat -> Req
  pools : Pools Element
  upstream : υ

/-- `params` of `match_prefix`. -/
structure MatchPrefixParams where
  req : Option Nat
  key : List Int64
  isBigram : Bool

/-- `snapshot.signature`. -/
structure SnapshotSignature where
  namespaceKey : PrefixNamespace
  length : Nat
  tokens : String
  imageKey : Option String
deriving DecidableEq, Repr

/-- What the ranks compare. -/
inductive Signature where
  | undrained (handle : CacheRequestHandle) (namespaceKey : Option PrefixNamespace)
  | matched (handle : CacheRequestHandle) (namespaceKey : Option PrefixNamespace)
      (snapshot : Option SnapshotSignature)
  | prepared (handle : CacheRequestHandle) (snapshot : Option SnapshotSignature)
  | checkpoint (namespaceKey : PrefixNamespace) (length : Nat) (tokens : String)
      (imageKey : Option String) (captured : Bool)
deriving DecidableEq, Repr

/-- The code the cache calls that is not modelled. -/
structure Upstream (δ υ Element : Type) where
  sha256 : Bytes -> String
  keyDigest : ImageKey -> String
  /-- The gathered signatures, or nothing without a group. -/
  votes : Signature -> Method (World δ υ Element) (Option (List Signature))
  forceMiss : Method (World δ υ Element) Bool
  /-- `super().match_prefix`, of whose result only the host hit is followed. -/
  matchPrefix : MatchPrefixParams -> Method (World δ υ Element) Int
  prefixDeviceIndices : Nat -> Method (World δ υ Element) (List Int)
  maybeHandToSession : Nat -> Method (World δ υ Element) PUnit
  releaseAbortedRequest : CacheRequestHandle -> Method (World δ υ Element) PUnit
  claimKvRow : Nat -> Method (World δ υ Element) Bool
  checkpoint : Nat -> Int -> Method (World δ υ Element) PUnit
  onRelease : Nat -> Bool -> Method (World δ υ Element) PUnit
  reset : Method (World δ υ Element) PUnit
  releaseHostResources : Method (World δ υ Element) PUnit
  alloc : Int -> Method (World δ υ Element) (Option (List Int))
  free : List Int -> Method (World δ υ Element) PUnit
  releaseStateSlot : Nat -> Method (World δ υ Element) PUnit
  freeRow : Nat -> Method (World δ υ Element) PUnit
  markKvReleased : Nat -> Method (World δ υ Element) PUnit
  currentStream : Method (World δ υ Element) Nat
  synchronizeStream : Nat -> Method (World δ υ Element) PUnit
  /-- The storage of a new tensor of so many bytes. -/
  newStorage : Nat -> Method (World δ υ Element) Storage
  /-- The identity of a new `bytes` object. -/
  newBytes : Method (World δ υ Element) Nat

/-! ## The state -/

/-- The entry of `restoring` for a handle; the inner options of the last fields
are the stored values. -/
structure RestoreRecord where
  reader : Option Nat
  prefixIndices : Option (List Int)
  fresh : Bool
  previousAllocated : Int
  previousCommitted : Int
  restoreStream : Option Nat
  suffix : Option (Option (List Int))
  reqIdx : Option (Option Int)
  lease : Option (Option QSAHiSparseLease)
  drained : Bool

/-- The prefix fields of a request cache. -/
structure PrefixFields where
  prefixEpoch : Nat
  basisEntryId : Option Nat
  basisLength : Nat

/-- Where a capture stands.  It is cut where other calls may come between. -/
inductive CaptureStage (Element : Type) where
  /-- The reservation is made, the copies are not. -/
  | reserved (reservation : Nat) (identity : Option ImagePrefixIdentity) (start : Nat)
      (segments : List (PrefixSegment Element))
  /-- `capture_prefix` has returned. -/
  | captured (result : Option (Nat × PrefixSnapshot PrefixNamespace Element))
  /-- The ranks agree. -/
  | converged (result : Option (Nat × PrefixSnapshot PrefixNamespace Element))
  | finished

/-- The local variables of a capture. -/
structure CaptureFrame (Element : Type) where
  req : Nat
  lease : QSAHiSparseLease
  namespaceKey : PrefixNamespace
  tokens : BytesObject
  length : Nat
  stage : CaptureStage Element

/-- What happened, for the statements only.  Readers and reservations are named
by their positions, streams by their numbers. -/
inductive PrefixEvent (Element : Type) where
  | granted (lease : QSAHiSparseLease)
  | reserved (reservation : Nat)
  | captured (lease : QSAHiSparseLease) (reservation : Nat)
      (snapshot : PrefixSnapshot PrefixNamespace Element)
  | published (reservation entryId : Nat) (snapshot : PrefixSnapshot PrefixNamespace Element)
  | matched (handle : CacheRequestHandle) (reader : Nat)
      (snapshot : PrefixSnapshot PrefixNamespace Element)
  | restoring (reader stream : Nat) (snapshot : PrefixSnapshot PrefixNamespace Element)
  | restored (reader : Nat)
  | drained (stream : Nat)
  | closed (reader : Nat)

structure QSAHostPrefixCache (δ υ Element : Type) where
  host : PrefixObjects PrefixNamespace Element
  /-- `matches`. -/
  matched : Dict CacheRequestHandle Nat
  restoring : Dict CacheRequestHandle RestoreRecord
  prefixes : QSAHiSparseLease -> PrefixFields
  captures : List (CaptureFrame Element)
  world : World δ υ Element
  /-- The events, each with the epoch of the host cache. -/
  history : List (Nat × PrefixEvent Element)

section Parts

variable {δ υ Element : Type}

def hostObjects : Field (QSAHostPrefixCache δ υ Element) (PrefixObjects PrefixNamespace Element) where
  get self := self.host
  set host self := { self with host }
  get_set _ _ := rfl
  set_get _ := rfl
  set_set _ _ _ := rfl

/-- The runtime of the world. -/
def runtimePart : Field (World δ υ Element) (QSAHiSparseRuntime δ) where
  get world := world.runtime
  set runtime world := { world with runtime }
  get_set _ _ := rfl
  set_get _ := rfl
  set_set _ _ _ := rfl

namespace QSAHostPrefixCache

variable (self : QSAHostPrefixCache δ υ Element)

/-- The cache after its constructor. -/
def initial (limits : CacheLimits) (world : World δ υ Element) :
    QSAHostPrefixCache δ υ Element where
  host := .initial (.initial limits)
  matched := .empty
  restoring := .empty
  prefixes := fun _ => ⟨0, none, 0⟩
  captures := []
  world := world
  history := []

def request (req : Nat) : Req := self.world.requests req

def handle (req : Nat) : CacheRequestHandle := (self.request req).cacheRequestHandle

def log (event : PrefixEvent Element) : QSAHostPrefixCache δ υ Element :=
  { self with history := self.history ++ [(self.host.cache.epoch, event)] }

/-- A reservation closes its basis with itself. -/
def logBasis (reservation : Nat) : QSAHostPrefixCache δ υ Element :=
  match self.host.basisAt reservation with
  | none => self
  | some reader => self.log (.closed reader)

theorem host_logBasis (reservation : Nat) : (self.logBasis reservation).host = self.host := by
  unfold logBasis
  cases self.host.basisAt reservation <;> rfl

/-- The leases that `world` has request caches for and this one has not. -/
def newLeases (world : World δ υ Element) : List QSAHiSparseLease :=
  world.runtime.requests.values.filter (· ∉ self.world.runtime.requests.values)

/-- The world becomes `world`.  A request cache is entered only by
`_acquire_request`, which also sets its prefix fields. -/
def reach (world : World δ υ Element) : QSAHostPrefixCache δ υ Element :=
  { self with
    world := world
    prefixes := fun lease =>
      if lease ∈ self.newLeases world then ⟨self.host.cache.epoch, none, 0⟩
      else self.prefixes lease
    history := self.history ++
      (self.newLeases world).map fun lease => (self.host.cache.epoch, .granted lease) }

def setMatch (handle : CacheRequestHandle) (reader : Nat) : QSAHostPrefixCache δ υ Element :=
  { self with matched := self.matched.set handle reader }

def popMatch (handle : CacheRequestHandle) : QSAHostPrefixCache δ υ Element :=
  { self with matched := self.matched.erase handle }

def setRecord (handle : CacheRequestHandle) (record : RestoreRecord) :
    QSAHostPrefixCache δ υ Element :=
  { self with restoring := self.restoring.set handle record }

def popRecord (handle : CacheRequestHandle) : QSAHostPrefixCache δ υ Element :=
  { self with restoring := self.restoring.erase handle }

/-- The record is an object; one that was popped is no longer looked at. -/
def updateRecord (handle : CacheRequestHandle) (update : RestoreRecord -> RestoreRecord) :
    QSAHostPrefixCache δ υ Element :=
  match self.restoring.get? handle with
  | none => self
  | some record => self.setRecord handle (update record)

def setStage (frame : Nat) (stage : CaptureStage Element) : QSAHostPrefixCache δ υ Element :=
  { self with captures := self.captures.modify frame fun state => { state with stage } }

def setFields (lease : QSAHiSparseLease) (update : PrefixFields -> PrefixFields) :
    QSAHostPrefixCache δ υ Element :=
  { self with prefixes := Function.update self.prefixes lease (update (self.prefixes lease)) }

end QSAHostPrefixCache

/-! ## Calls that leave the cache -/

/-- Run a program of the world. -/
def within {α : Type} (program : Method (World δ υ Element) α) :
    Method (QSAHostPrefixCache δ υ Element) α :=
  fun self =>
    match program.run self.world with
    | .ok value world => .ok value (self.reach world)
    | .error cause world => .error cause (self.reach world)

/-- `reader.close()`. -/
def closeReader (reader : Nat) : Method (QSAHostPrefixCache δ υ Element) PUnit := do
  modify fun self => self.log (.closed reader)
  hostObjects.zoom (HostPrefix.closeReader reader)

/-- `reservation.close()`. -/
def closeReservation (reservation : Nat) : Method (QSAHostPrefixCache δ υ Element) PUnit := do
  modify fun self => self.logBasis reservation
  hostObjects.zoom (HostPrefix.closeReservation reservation)

/-- `reader.snapshot`, which is `None` once the reader is closed. -/
def readSnapshot (reader : Nat) :
    Method (QSAHostPrefixCache δ υ Element) (PrefixSnapshot PrefixNamespace Element) := do
  let self <- get
  match self.host.snapshotAt reader with
  | none => throw (.attributeError "'NoneType' object has no attribute 'length'")
  | some snapshot => return snapshot

variable (config : PrefixConfig) (upstream : Upstream δ υ Element)

/-- `_namespace`: nothing for the inputs that are not supported. -/
def QSAHostPrefixCache.namespaceOf (self : QSAHostPrefixCache δ υ Element) (request : Req) :
    Option PrefixNamespace :=
  match request.identity with
  | .bypass => none
  | _ =>
      if request.positionalEmbedOverrides = true ∨ request.inputEmbeds = true ∨
          request.positionIds = true ∨ request.mropePositions = true ∨ request.session = true ∨
          request.beamGroup = true ∨ request.returnHiddenStates = true then
        none
      else
        some
          { prefixNamespace := config.prefixNamespace
            epoch := self.host.cache.epoch
            extraKey := request.extraKey
            cacheSalt := request.cacheSalt
            loraId := request.loraId }

/-- The identity that a lookup or an image key is given. -/
def imageIdentity (request : Req) :
    Method (QSAHostPrefixCache δ υ Element) (Option ImagePrefixIdentity) :=
  match request.identity with
  | .text => return none
  | .image identity => return some identity
  | .bypass => throw (.attributeError "'object' object has no attribute 'page_digests'")

/-- `_converge`. -/
def converge (signature : Signature) : Method (QSAHostPrefixCache δ υ Element) PUnit := do
  match <- within (upstream.votes signature) with
  | none => pure ⟨⟩
  | some votes =>
      raiseIf (exists vote, vote ∈ votes ∧ vote ≠ signature)
        (.runtimeError "QSA TP ranks disagree on prefix checkpoint identity/readiness")

def Upstream.signature (snapshot : PrefixSnapshot PrefixNamespace Element) : SnapshotSignature where
  namespaceKey := snapshot.namespaceKey
  length := snapshot.length
  tokens := upstream.sha256 snapshot.tokens.contents
  imageKey := snapshot.imageKey.map upstream.keyDigest

/-- `None if reader is None else reader.snapshot.signature`. -/
def readerSignature (reader : Option Nat) :
    Method (QSAHostPrefixCache δ υ Element) (Option SnapshotSignature) :=
  match reader with
  | none => return none
  | some reader => do
      let snapshot <- readSnapshot reader
      return some (upstream.signature snapshot)

/-- `note_prefix_basis`. -/
def notePrefixBasis (req : Nat) (snapshot : PrefixSnapshot PrefixNamespace Element)
    (entryId : Option Nat) : Method (QSAHostPrefixCache δ υ Element) PUnit := do
  let self <- get
  match (self.request req).kv.reqPoolIdx with
  | none => throw .keyError
  | some reqIdx =>
      let lease <- within (runtimePart.zoom (Runtime.request reqIdx (self.request req).rid))
      modify fun self => self.setFields lease fun fields =>
        { fields with basisEntryId := entryId, basisLength := snapshot.length }

end Parts

end PrefixCache
end QSAHiSparse

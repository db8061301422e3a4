import QSAHiSparse.Foundation.Python
import QSAHiSparse.Foundation.SharedStorage

namespace QSAHiSparse
namespace HostPrefix

open Foundation

/-!
# Host checkpoints

A snapshot owns no storage by itself.  Its segments may be those of an earlier
snapshot, so the bytes of a collection of snapshots are those of the distinct
storages and of the distinct token keys they reach.

The contents of a tensor are a function of its indices.  The cache never looks
at them; the capture and the restore do.
-/

abbrev Bytes := List UInt8

/-- The untyped storage of a tensor, compared by address and size. -/
structure Storage where
  dataPtr : Nat
  nbytes : Nat
deriving DecidableEq, Repr

structure Tensor (Element : Type) where
  onHost : Bool
  storage : Storage
  shape : List Nat
  element : List Nat -> Element

/-- A `bytes` object.  Objects are compared by identity, and the identity of an
object settles its contents. -/
structure BytesObject where
  identity : Nat
  contents : Bytes
deriving DecidableEq, Repr

def BytesObject.length (object : BytesObject) : Nat := object.contents.length

/-! ## Image identity -/

structure ImageRecord where
  artifactKey : String
  order : Int
  start : Int
  stop : Int
  grid : Int × Int × Int
deriving DecidableEq, Repr

structure ImagePrefixIdentity where
  records : List ImageRecord
  pageDigests : List Bytes
deriving DecidableEq, Repr

/-- The records before a length and the digest of its pages. -/
abbrev ImageKey := List ImageRecord × Bytes

def ImagePrefixIdentity.recordsAt (identity : ImagePrefixIdentity) (length : Int) :
    List ImageRecord :=
  identity.records.filter (fun record => record.start < length)

def ImagePrefixIdentity.digestAt (identity : ImagePrefixIdentity) (length : Int) :
    Except PyError Bytes :=
  if length % 64 ≠ 0 ∨ length ≤ 0 ∨ length / 64 > identity.pageDigests.length then
    .error (.valueError s!"No M-RoPE digest for prefix length {length}")
  else
    match identity.pageDigests[(length / 64 - 1).toNat]? with
    | none => .error (.indexError "tuple index out of range")
    | some digest => .ok digest

def ImagePrefixIdentity.keyAt (identity : ImagePrefixIdentity) (length : Int) :
    Except PyError ImageKey := do
  let digest ← identity.digestAt length
  return (identity.recordsAt length, digest)

/-- `image_key`: no key for plain text. -/
def imageKey (identity : Option ImagePrefixIdentity) (length : Int) :
    Except PyError (Option ImageKey) :=
  match identity with
  | none => .ok none
  | some image => some <$> image.keyAt length

/-! ## Snapshots -/

/-- Raw rows of the interval for every layer and plane, and its index rows. -/
structure PrefixSegment (Element : Type) where
  start : Int
  stop : Int
  raw : Tensor Element
  index : Tensor Element

/-- The recurrent state: convolutions, the temporal state and the siblings. -/
structure MambaCapture (Element : Type) where
  conv : List (Tensor Element)
  temporal : Tensor Element
  siblings : List (Tensor Element)

structure PrefixSnapshot (Namespace Element : Type) where
  namespaceKey : Namespace
  tokens : BytesObject
  segments : List (PrefixSegment Element)
  pending : List (Tensor Element)
  rope : Tensor Element
  mamba : MambaCapture Element
  imageKey : Option ImageKey

namespace PrefixSnapshot

variable {Namespace Element : Type}

def length (snapshot : PrefixSnapshot Namespace Element) : Nat := snapshot.tokens.length / 8

/-- `tensors(snapshot)`: every tensor of the dataclass fields. -/
def tensors (snapshot : PrefixSnapshot Namespace Element) : List (Tensor Element) :=
  snapshot.segments.flatMap (fun segment => [segment.raw, segment.index]) ++ snapshot.pending ++
    [snapshot.rope] ++ snapshot.mamba.conv ++ [snapshot.mamba.temporal] ++ snapshot.mamba.siblings

def hostResident (snapshot : PrefixSnapshot Namespace Element) : Bool :=
  snapshot.tensors.all (fun tensor => tensor.onHost)

def storages (snapshot : PrefixSnapshot Namespace Element) : Finset Storage :=
  (snapshot.tensors.map (fun tensor => tensor.storage)).toFinset

/-- The bytes of `_footprint` for snapshots in host memory. -/
def footprintBytes (snapshots : List (PrefixSnapshot Namespace Element)) : Nat :=
  sharedBytes Storage.nbytes storages snapshots +
    sharedBytes BytesObject.length (fun snapshot => {snapshot.tokens}) snapshots

theorem footprintBytes_mono {fewer more : List (PrefixSnapshot Namespace Element)}
    (subset : fewer ⊆ more) : footprintBytes fewer ≤ footprintBytes more :=
  Nat.add_le_add (sharedBytes_mono _ _ subset) (sharedBytes_mono _ _ subset)

end PrefixSnapshot

end HostPrefix
end QSAHiSparse

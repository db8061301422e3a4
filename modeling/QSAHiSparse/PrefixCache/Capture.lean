import QSAHiSparse.PrefixCache.Restore

namespace QSAHiSparse
namespace PrefixCache

open Foundation
open Ledger (QSAHiSparseLease)
open HostPrefix
open QSAHiSparse.Runtime (Machine)

/-!
# Captures

`_capture` publishes the prefix a prefilling request has reached.  It reserves
host memory, copies, lets the ranks agree and publishes.  Other calls, a flush
among them, may come between these four steps, so each is a program of its own
and the local variables of the capture are part of the state.
-/

section Capture

variable {δ υ Element : Type} (machine : Machine δ) (config : PrefixConfig)
  (upstream : Upstream δ υ Element)

/-- `items[:stop]`. -/
def upTo {α : Type} (items : List α) (stop : Int) : List α :=
  items.take (if stop < 0 then items.length + stop else stop).toNat

/-! ## The reservation -/

/-- The snapshot of a reader that may be missing. -/
def ancestorOf (reader : Option Nat) :
    Method (QSAHostPrefixCache δ υ Element)
      (Option (PrefixSnapshot PrefixNamespace Element)) :=
  match reader with
  | none => return none
  | some reader => some <$> readSnapshot reader

/-- Whether a reader reads the entry that the request restored or published. -/
def QSAHostPrefixCache.readsBasis (self : QSAHostPrefixCache δ υ Element) (fields : PrefixFields)
    (reader : Nat) : Bool :=
  self.host.readers[reader]?.any fun state => some state.entryId = fields.basisEntryId

/-- A lookup of a capture, which counts neither as a hit nor as a miss. -/
def acquireBasis (namespaceKey : PrefixNamespace) (tokens : Bytes) (limit : Option Int)
    (identity : Option ImagePrefixIdentity) :
    Method (QSAHostPrefixCache δ υ Element) (Option Nat) :=
  hostObjects.zoom (acquire namespaceKey tokens limit false identity)

/-- A reader of the basis is kept, another one closed. -/
def keepBasis (fields : PrefixFields) (reader : Option Nat) :
    Method (QSAHostPrefixCache δ υ Element) (Option Nat) := do
  match reader with
  | none => return none
  | some reader => do
      let self <- get
      if self.readsBasis fields reader = true then
        return some reader
      else do
        closeReader reader
        return none

/-- The reader of the basis of the request, when the longest match is not it. -/
def ownBasis (fields : PrefixFields) (namespaceKey : PrefixNamespace) (tokens : Bytes)
    (identity : Option ImagePrefixIdentity) (longest : Option Nat) :
    Method (QSAHostPrefixCache δ υ Element) (Option Nat) := do
  let kept <- keepBasis fields longest
  if kept = none ∧ longest ≠ none ∧ fields.basisLength ≠ 0 then do
    let shorter <- acquireBasis namespaceKey tokens (some fields.basisLength) identity
    keepBasis fields shorter
  else
    return kept

/-- The reservation for what the basis does not cover, and its basis. -/
def reserveBeyond (identity : Option ImagePrefixIdentity) (length : Nat) (basis : Option Nat) :
    Method (QSAHostPrefixCache δ υ Element) (CaptureStage Element) := do
  let ancestor <- ancestorOf basis
  let start := (ancestor.map PrefixSnapshot.length).getD 0
  match <- hostObjects.zoom (reserve (config.checkpointBytes (length - start : Nat) length)) with
  | none => do
      closeAny basis
      return .captured none
  | some reservation => do
      modify fun self => self.log (.reserved reservation)
      hostObjects.zoom (setBasisReader reservation basis)
      return .reserved reservation identity start
        ((ancestor.map PrefixSnapshot.segments).getD [])

/-- The length of a lease that prefills and stands at a page boundary. -/
def boundaryOf (lease : QSAHiSparseLease) :
    Method (QSAHostPrefixCache δ υ Element) (Option Int) := do
  let self <- get
  let phase <- getItem self.world.runtime.slots.phases lease.reqPoolIdx
  let length := (self.world.runtime.caches lease).seqLen
  if phase ≠ .prefill ∨ length = 0 ∨ length % 64 ≠ 0 then
    return none
  else
    return some length

/-- `_request` of the row. -/
def requestLease (req : Nat) : Method (QSAHostPrefixCache δ υ Element) QSAHiSparseLease := do
  let self <- get
  match (self.request req).kv.reqPoolIdx with
  | none => throw .keyError
  | some reqIdx => within (runtimePart.zoom (Runtime.request reqIdx (self.request req).rid))

/-- `capture_prefix` up to the reservation.  Nothing raises while a reader is
held, so its `finally` is the closes of the two branches that return nothing. -/
def reserveCheckpoint (lease : QSAHiSparseLease) (req : Nat) (namespaceKey : PrefixNamespace)
    (tokens : BytesObject) :
    Method (QSAHostPrefixCache δ υ Element) (CaptureStage Element) := do
  match <- boundaryOf lease with
  | none => return .captured none
  | some length => do
      let self <- get
      if (self.prefixes lease).prefixEpoch ≠ self.host.cache.epoch then
        return .captured none
      else do
        raiseIf ((tokens.length : Int) ≠ length * 8)
          (.runtimeError "QSA prefix token/checkpoint boundary differs")
        let identity <- imageIdentity (self.request req)
        let longest <- acquireBasis namespaceKey tokens.contents none identity
        let ancestor <- ancestorOf longest
        if ancestor.map (fun snapshot => (snapshot.length : Int)) = some length then do
          closeAny longest
          return .captured none
        else do
          let basis <- ownBasis (self.prefixes lease) namespaceKey tokens.contents identity longest
          reserveBeyond config identity length.toNat basis

/-- The row and the length that `_capture` finds. -/
def captureRow (req : Nat) : Method (QSAHostPrefixCache δ υ Element) (Option Int) := do
  let self <- get
  match (self.request req).kv.reqPoolIdx.bind self.world.runtime.requests.get? with
  | none => return none
  | some lease => boundaryOf lease

/-- The first step of `_capture`; the position of its local variables, unless it
returned at once. -/
def beginCapture (req : Nat) : Method (QSAHostPrefixCache δ υ Element) (Option Nat) := do
  let self <- get
  match self.namespaceOf config (self.request req) with
  | none => return none
  | some namespaceKey =>
      if (self.request req).skipRadixCacheInsert = true then
        return none
      else do
        match <- captureRow req with
        | none => return none
        | some length => do
            let identity <- within upstream.newBytes
            let tokens : BytesObject :=
              ⟨identity, tokenBytes (upTo (self.request req).fullUntruncatedFillIds length)⟩
            let lease <- requestLease req
            let stage <- reserveCheckpoint config lease req namespaceKey tokens
            let frame : CaptureFrame Element :=
              { req, lease, namespaceKey, tokens, length := length.toNat, stage }
            let self <- get
            set { self with captures := self.captures ++ [frame] }
            return some self.captures.length

/-! ## The steps after it -/

/-- A capture that raised after its reservation gives it back. -/
def abandonCapture (frame : Nat) (reservation : Option Nat) :
    Method (QSAHostPrefixCache δ υ Element) PUnit := do
  modify fun self => self.setStage frame .finished
  match reservation with
  | none => pure ⟨⟩
  | some reservation => closeReservation reservation

/-- The copies. -/
def copyCapture (frame : Nat) : Method (QSAHostPrefixCache δ υ Element) PUnit := do
  let self <- get
  match self.captures[frame]? with
  | some state =>
      match state.stage with
      | .reserved reservation identity start segments =>
          tryCatch
            (do
              let snapshot <- within
                (copyCheckpoint machine config upstream state identity start segments)
              modify fun self =>
                (self.log (.captured state.lease reservation snapshot)).setStage frame
                  (.captured (some (reservation, snapshot))))
            fun cause => do
              abandonCapture frame (some reservation)
              throw cause
      | _ => pure ⟨⟩
  | none => pure ⟨⟩

/-- The signature of a checkpoint. -/
def checkpointSignature (state : CaptureFrame Element) (captured : Bool) :
    Method (QSAHostPrefixCache δ υ Element) Signature := do
  let self <- get
  let identity <- imageIdentity (self.request state.req)
  match imageKey identity state.length with
  | .error cause => throw cause
  | .ok key =>
      return .checkpoint state.namespaceKey state.length (upstream.sha256 state.tokens.contents)
        (key.map upstream.keyDigest) captured

/-- The ranks agree, or the capture is abandoned. -/
def convergeCapture (frame : Nat) : Method (QSAHostPrefixCache δ υ Element) PUnit := do
  let self <- get
  match self.captures[frame]? with
  | some state =>
      match state.stage with
      | .captured result =>
          tryCatch
            (do
              let signature <- checkpointSignature upstream state result.isSome
              converge upstream signature
              modify fun self => self.setStage frame (.converged result))
            fun cause => do
              abandonCapture frame (result.map Prod.fst)
              throw cause
      | _ => pure ⟨⟩
  | none => pure ⟨⟩

/-- The publication and what follows it; `publish` gives the reservation back
itself. -/
def publishSnapshot (state : CaptureFrame Element) (reservation : Nat)
    (snapshot : PrefixSnapshot PrefixNamespace Element) :
    Method (QSAHostPrefixCache δ υ Element) PUnit := do
  modify fun self => self.logBasis reservation
  let entryId <- hostObjects.zoom (publish reservation snapshot true)
  modify fun self => self.log (.published reservation entryId snapshot)
  notePrefixBasis state.req snapshot (some entryId)
  within (outside machine .eventLog)

def publishCapture (frame : Nat) : Method (QSAHostPrefixCache δ υ Element) PUnit := do
  let self <- get
  match self.captures[frame]? with
  | some state =>
      match state.stage with
      | .converged none => modify fun self => self.setStage frame .finished
      | .converged (some (reservation, snapshot)) =>
          tryFinally (publishSnapshot machine state reservation snapshot)
            (abandonCapture frame (some reservation))
      | _ => pure ⟨⟩
  | none => pure ⟨⟩

/-- `_capture`. -/
def capture (req : Nat) : Method (QSAHostPrefixCache δ υ Element) PUnit := do
  match <- beginCapture config upstream req with
  | none => pure ⟨⟩
  | some frame => do
      copyCapture machine config upstream frame
      convergeCapture upstream frame
      publishCapture machine frame

/-- `checkpoint`. -/
def checkpoint (req : Nat) (limit : Int) : Method (QSAHostPrefixCache δ υ Element) PUnit := do
  capture machine config upstream req
  within (upstream.checkpoint req limit)

end Capture

end PrefixCache
end QSAHiSparse

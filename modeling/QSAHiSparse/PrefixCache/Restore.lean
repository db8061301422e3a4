import QSAHiSparse.PrefixCache.Copies

namespace QSAHiSparse
namespace PrefixCache

open Foundation
open HostPrefix
open QSAHiSparse.Runtime (Machine)

/-!
# From a match to a restore

`match_prefix` finds a host prefix for a waiting request and keeps its reader.
Allocation then records the request in `restoring`, takes fresh pages for the
prefix, and restores the snapshot once the row is written.
-/

section Restore

variable {δ υ Element : Type} (machine : Machine δ) (config : PrefixConfig)
  (upstream : Upstream δ υ Element)

/-- `release_aborted_request`.  A handle that is restoring keeps its reader. -/
def releaseAbortedRequest (handle : CacheRequestHandle) :
    Method (QSAHostPrefixCache δ υ Element) PUnit := do
  let self <- get
  if self.restoring.contains handle = true then
    pure ⟨⟩
  else do
    modify fun self => self.popMatch handle
    match self.matched.get? handle with
    | none => pure ⟨⟩
    | some reader => closeReader reader
  within (upstream.releaseAbortedRequest handle)

/-! ## Match -/

/-- A lookup that finds no reader, or makes none. -/
def matchNothing (params : MatchPrefixParams) (handle : CacheRequestHandle)
    (namespaceKey : Option PrefixNamespace) : Method (QSAHostPrefixCache δ υ Element) Int := do
  converge upstream (.matched handle namespaceKey none)
  within (upstream.matchPrefix params)

/-- A reader that was acquired but is not kept. -/
def closeAny (reader : Option Nat) : Method (QSAHostPrefixCache δ υ Element) PUnit :=
  match reader with
  | none => pure ⟨⟩
  | some reader => closeReader reader

/-- The reader becomes the one of the handle; the prefix is reported as a host
hit. -/
def keepMatch (params : MatchPrefixParams) (handle : CacheRequestHandle) (reader : Nat) :
    Method (QSAHostPrefixCache δ υ Element) Int := do
  let snapshot <- readSnapshot reader
  modify fun self => (self.setMatch handle reader).log (.matched handle reader snapshot)
  let _ <- within (upstream.matchPrefix params)
  let snapshot <- readSnapshot reader
  return snapshot.length

/-- The lookup of `match_prefix`; the ranks compare what they found before the
scheduler sees it. -/
def lookupMatch (params : MatchPrefixParams) (req : Nat) (handle : CacheRequestHandle)
    (namespaceKey : PrefixNamespace) : Method (QSAHostPrefixCache δ υ Element) Int := do
  let self <- get
  let identity <- imageIdentity (self.request req)
  let reader <- hostObjects.zoom
    (acquire namespaceKey (tokenBytes params.key) (some params.key.length) true identity)
  tryCatch
    (do
      let signature <- readerSignature upstream reader
      converge upstream (.matched handle (some namespaceKey) signature))
    fun cause => do
      closeAny reader
      throw cause
  match reader with
  | none => within (upstream.matchPrefix params)
  | some reader => keepMatch upstream params handle reader

/-- `match_prefix` of a request. -/
def matchRequest (params : MatchPrefixParams) (req : Nat) :
    Method (QSAHostPrefixCache δ υ Element) Int := do
  let self <- get
  let handle := self.handle req
  let namespaceKey := self.namespaceOf config (self.request req)
  if self.restoring.contains handle = true then do
    converge upstream (.undrained handle namespaceKey)
    throw (.runtimeError "QSA cannot rematch an undrained prefix restore")
  else do
    releaseAbortedRequest upstream handle
    match namespaceKey with
    | none => matchNothing upstream params handle none
    | some key => do
        let self <- get
        if (self.request req).skipRadixCacheInsert = true ∨ params.isBigram = true then
          matchNothing upstream params handle (some key)
        else do
          let forced <- within upstream.forceMiss
          if forced = true then
            matchNothing upstream params handle (some key)
          else
            lookupMatch upstream params req handle key

def matchPrefix (params : MatchPrefixParams) : Method (QSAHostPrefixCache δ υ Element) Int :=
  match params.req with
  | none => within (upstream.matchPrefix params)
  | some req => matchRequest config upstream params req

/-! ## Allocation -/

/-- The record of a request whose allocation begins. -/
def RestoreRecord.start (kv : KvRecord) (reader : Option Nat) : RestoreRecord where
  reader := reader
  prefixIndices := none
  fresh := kv.kvAllocatedLen = 0
  previousAllocated := kv.kvAllocatedLen
  previousCommitted := kv.kvCommittedLen
  restoreStream := none
  suffix := none
  reqIdx := none
  lease := none
  drained := false

/-- What an allocation checks of a request, once it is recorded. -/
def checkPrepared (req : Nat) (handle : CacheRequestHandle) (reader : Option Nat) :
    Method (QSAHostPrefixCache δ υ Element) PUnit := do
  let self <- get
  let request := self.request req
  match reader with
  | none =>
      raiseIf (request.kv.holdsKv = false ∧ request.prefixLen ≠ 0)
        (.runtimeError "QSA prefix lost its snapshot owner")
  | some reader => do
      let snapshot <- readSnapshot reader
      raiseIf (request.prefixLen ≠ snapshot.length)
        (.runtimeError "QSA prefix was not admitted before allocation")
      let record <- getItem self.restoring handle
      raiseIf (record.fresh = false)
        (.runtimeError "QSA prefix restore must begin with a fresh request row")

/-- The turn of one request. -/
def prepareRequest (req : Nat) : Method (QSAHostPrefixCache δ υ Element) PUnit := do
  let self <- get
  let handle := self.handle req
  raiseIf (self.restoring.contains handle = true)
    (.runtimeError "QSA cannot overwrite an undrained prefix restore")
  let reader := self.matched.get? handle
  modify fun self => self.setRecord handle (.start (self.request req).kv reader)
  let signature <- readerSignature upstream reader
  converge upstream (.prepared handle signature)
  checkPrepared req handle reader

def preparePrefixForExtend (reqs : List Nat) : Method (QSAHostPrefixCache δ υ Element) PUnit :=
  forM reqs (prepareRequest upstream)

/-- The pages of a restored prefix are taken once. -/
def prefixDeviceIndices (req : Nat) : Method (QSAHostPrefixCache δ υ Element) (List Int) := do
  let self <- get
  let handle := self.handle req
  match self.restoring.get? handle with
  | none => within (upstream.prefixDeviceIndices req)
  | some record =>
      match record.reader, record.prefixIndices with
      | none, _ => within (upstream.prefixDeviceIndices req)
      | some _, some indices => return indices
      | some _, none => do
          match <- within (upstream.alloc (self.request req).prefixLen) with
          | none =>
              throw (.runtimeError "QSA admitted prefix has insufficient logical pages")
          | some indices => do
              modify fun self => self.updateRecord handle fun record =>
                { record with prefixIndices := some indices }
              return indices

/-! ## Restore -/

/-- The copies are about to be submitted to the stream of the caller. -/
def beginRestore (handle : CacheRequestHandle) (reader : Nat)
    (snapshot : PrefixSnapshot PrefixNamespace Element) :
    Method (QSAHostPrefixCache δ υ Element) PUnit := do
  let stream <- within upstream.currentStream
  modify fun self =>
    (self.updateRecord handle fun record => { record with restoreStream := some stream }).log
      (.restoring reader stream snapshot)

/-- The restore of a recorded request. -/
def restoreReader (req : Nat) (handle : CacheRequestHandle) (reader : Nat) :
    Method (QSAHostPrefixCache δ υ Element) PUnit := do
  let snapshot <- readSnapshot reader
  let self <- get
  raiseIf (some snapshot.namespaceKey ≠ self.namespaceOf config (self.request req))
    (.runtimeError "QSA prefix identity changed before restoration")
  beginRestore upstream handle reader snapshot
  within (restorePrefix machine config upstream req snapshot)
  modify fun self => self.log (.restored reader)
  let self <- get
  notePrefixBasis req snapshot (self.host.readers[reader]?.map PrefixReader.entryId)
  closeReader reader
  modify fun self => self.popMatch handle

def maybeHandToSession (req : Nat) : Method (QSAHostPrefixCache δ υ Element) PUnit := do
  within (upstream.maybeHandToSession req)
  let self <- get
  let handle := self.handle req
  match self.restoring.get? handle with
  | none => pure ⟨⟩
  | some record => do
      match record.reader with
      | none => pure ⟨⟩
      | some reader => restoreReader machine config upstream req handle reader
      modify fun self => self.popRecord handle

end Restore

end PrefixCache
end QSAHiSparse

import QSAHiSparse.Foundation.Chunking
import QSAHiSparse.PrefixCache.State

namespace QSAHiSparse
namespace PrefixCache

open Foundation

/-!
# Prefill admission

`QSAPrefillAdder` is a subclass of the serving framework's prefill adder.  It
narrows the budgets of the adder before it calls the two methods that add a
request, so that a prefill stops at the last page of its prompt, and repairs
them afterwards.  The methods of the class it extends are parameters.
-/

section Limits

variable {δ υ Element : Type}

/-- The length of the matched prefix of a request. -/
def matchedLength (req : Nat) (unmatched : Method (QSAHostPrefixCache δ υ Element) Int) :
    Method (QSAHostPrefixCache δ υ Element) Int := do
  let self <- get
  match self.matched.get? (self.handle req) with
  | none => unmatched
  | some reader => do
      let snapshot <- readSnapshot reader
      return snapshot.length

/-- `init_load_back`, of whose result only the length is followed; `loadBack` is
the method of the class it extends. -/
def initLoadBack (loadBack : Method (QSAHostPrefixCache δ υ Element) Int) (req : Nat) :
    Method (QSAHostPrefixCache δ υ Element) Int :=
  matchedLength req loadBack

/-- `pending_prefix_tokens`. -/
def pendingPrefixTokens (req : Nat) : Method (QSAHostPrefixCache δ υ Element) Int :=
  matchedLength req (return 0)

/-- `prefill_checkpoint_limit`. -/
def prefillCheckpointLimit (config : PrefixConfig) (req : Nat) :
    Method (QSAHostPrefixCache δ υ Element) (Option Int) := do
  let self <- get
  let request := self.request req
  if self.namespaceOf config request = none ∨ request.skipRadixCacheInsert = true then
    return none
  else do
    let length : Int := request.fullUntruncatedFillIds.length
    if length % config.pageSize = 0 then return none
    else do
      let boundary := length / config.pageSize * config.pageSize
      let pending <- pendingPrefixTokens req
      let remaining := boundary - max request.prefixLen pending
      return if remaining > 0 then some remaining else none

end Limits

/-! ## The adder -/

/-- `AddReqResult`. -/
inductive AddReqResult where
  | continued
  | noToken
  | other
deriving DecidableEq, Repr

/-- What admission reads and writes of a request besides the fields of `Req`. -/
structure AdmissionFields where
  ignoreEos : Bool
  retractedStain : Bool
  hostHitLength : Int
  extendEnd : Int

/-- The attributes of the adder; the cache is looked at when it is a
`QSAHostPrefixCache`, which `hosted` says. -/
structure PrefillAdder (δ υ Element : Type) where
  hosted : Bool
  treeCache : QSAHostPrefixCache δ υ Element
  admission : Nat -> AdmissionFields
  remChunkTokens : Option Int
  chunkedReqLimit : Option Int
  canRunList : List Nat
  totalOffset : Int
  currentOffset : Int
  logHostHitTokens : Int
  logDeviceHitTokens : Int

section Adder

variable {δ υ Element : Type}

def treeCachePart : Field (PrefillAdder δ υ Element) (QSAHostPrefixCache δ υ Element) where
  get self := self.treeCache
  set treeCache self := { self with treeCache }
  get_set _ _ := rfl
  set_get _ := rfl
  set_set _ _ _ := rfl

namespace PrefillAdder

variable (self : PrefillAdder δ υ Element)

def setIgnoreEos (req : Nat) (ignoreEos : Bool) : PrefillAdder δ υ Element :=
  { self with
    admission := Function.update self.admission req { self.admission req with ignoreEos } }

/-- The restored pages stay in both offsets, and are booked as device hits. -/
def charge (req : Nat) (pending : Int) : PrefillAdder δ υ Element :=
  { self with
    totalOffset := self.totalOffset + pending
    currentOffset := self.currentOffset + pending
    logHostHitTokens :=
      if (self.admission req).retractedStain = true then self.logHostHitTokens
      else self.logHostHitTokens - pending
    logDeviceHitTokens :=
      if (self.admission req).retractedStain = true then self.logDeviceHitTokens
      else self.logDeviceHitTokens + pending }

end PrefillAdder

/-- The class that is extended. -/
structure UpstreamAdder (δ υ Element : Type) where
  addOneReq : Nat -> Bool -> Option Int -> Method (PrefillAdder δ υ Element) AddReqResult
  addChunkedReq : Nat -> Method (PrefillAdder δ υ Element) (Option Nat)
  initLoadBack : Nat -> Method (QSAHostPrefixCache δ υ Element) Int
  /-- `budget_state` reads the adder only. -/
  budgetState : PrefillAdder δ υ Element -> Except PyError AddReqResult

variable (config : PrefixConfig) (upstream : UpstreamAdder δ υ Element)

/-- `_checkpoint_limit`. -/
def checkpointLimit (req : Nat) : Method (PrefillAdder δ υ Element) (Option Int) := do
  let self <- get
  if self.hosted = false then return none
  else treeCachePart.zoom (prefillCheckpointLimit config req)

/-- `add_chunked_req`. -/
def addChunkedReq (req : Nat) : Method (PrefillAdder δ υ Element) (Option Nat) := do
  match <- checkpointLimit config req with
  | none => pure ⟨⟩
  | some limit =>
      modify fun self => { self with chunkedReqLimit := tighter (some limit) self.chunkedReqLimit }
  upstream.addChunkedReq req

/-- The limit, when it narrows the chunk budget. -/
def cappedLimit (limit originalChunkTokens : Option Int) : Option Int :=
  match limit, originalChunkTokens with
  | none, _ => none
  | some limit, none => some limit
  | some limit, some tokens => if limit < tokens then some limit else none

/-- The chunk budget is narrowed, and the fast path of `ignore_eos` is closed to
a request with a pending prefix. -/
def PrefillAdder.narrow (self : PrefillAdder δ υ Element) (req : Nat) (pending : Int)
    (capped : Option Int) : PrefillAdder δ υ Element :=
  let narrowed : PrefillAdder δ υ Element :=
    match capped with
    | none => self
    | some limit => { self with remChunkTokens := some limit }
  if pending ≠ 0 then narrowed.setIgnoreEos req false else narrowed

/-- The `try` block of `add_one_req`. -/
def addNarrowed (req : Nat) (hasChunkedReq : Bool) (truncationAlignSize : Option Int)
    (pending : Int) : Method (PrefillAdder δ υ Element) AddReqResult := do
  let result <- upstream.addOneReq req hasChunkedReq truncationAlignSize
  let self <- get
  if pending ≠ 0 ∧ req ∈ self.canRunList then do
    set (self.charge req pending)
    match upstream.budgetState (self.charge req pending) with
    | .ok state => return state
    | .error cause => throw cause
  else return result

/-- The `finally` block of `add_one_req`. -/
def repair (req : Nat) (ignoreEos : Bool) (capped originalChunkTokens : Option Int) :
    Method (PrefillAdder δ υ Element) PUnit := do
  modify fun self => self.setIgnoreEos req ignoreEos
  match capped with
  | none => pure ⟨⟩
  | some limit => do
      let self <- get
      match self.remChunkTokens with
      | none => throw (.typeError "unsupported operand type(s) for -: 'int' and 'NoneType'")
      | some tokens =>
          set { self with
            remChunkTokens := originalChunkTokens.map fun original => original - (limit - tokens) }

/-- `add_one_req`. -/
def addOneReq (req : Nat) (hasChunkedReq : Bool) (truncationAlignSize : Option Int) :
    Method (PrefillAdder δ υ Element) AddReqResult := do
  let self <- get
  if self.hosted = false then
    upstream.addOneReq req hasChunkedReq truncationAlignSize
  else do
    let pending <- treeCachePart.zoom (pendingPrefixTokens req)
    let limit <- treeCachePart.zoom (prefillCheckpointLimit config req)
    let capped := cappedLimit limit self.remChunkTokens
    modify fun self => self.narrow req pending capped
    tryFinally (addNarrowed upstream req hasChunkedReq truncationAlignSize pending)
      (repair req (self.admission req).ignoreEos capped self.remChunkTokens)

end Adder

end PrefixCache
end QSAHiSparse

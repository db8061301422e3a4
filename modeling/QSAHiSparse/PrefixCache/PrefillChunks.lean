import QSAHiSparse.PrefixCache.Prefill

namespace QSAHiSparse
namespace PrefixCache

open Foundation

/-!
# Additions to a prefill pass

An addition schedules nothing or one chunk.  What the framework's adder does
with its budgets is assumed as it is documented; from this follows what one
addition of the subclass schedules.
-/

section Chunks

variable {δ υ Element : Type}

namespace PrefillAdder

variable (self : PrefillAdder δ υ Element) (req : Nat)

def prefixLen : Int := (self.treeCache.request req).prefixLen

/-- `len(req.full_untruncated_fill_ids)`. -/
def promptLength : Int := (self.treeCache.request req).fullUntruncatedFillIds.length

/-- The tokens that are scheduled for a request. -/
def chunk : Chunk := ⟨self.prefixLen req, (self.admission req).extendEnd⟩

end PrefillAdder

/-- What an addition does, whichever way it is left: it schedules nothing, or
one chunk of the request, which the chunk budget pays for. -/
inductive Adds (page : Int) (cap : Option Int) (startsAt : Int -> Prop)
    (before after : PrefillAdder δ υ Element) (req : Nat) : Prop where
  | refused : after.canRunList = before.canRunList ->
      after.remChunkTokens = before.remChunkTokens -> Adds page cap startsAt before after req
  | scheduled (start tokens : Int) : startsAt start ->
      tokens = chunkOf page cap (before.promptLength req - start) ->
      after.canRunList = before.canRunList ++ [req] ->
      after.chunk req = ⟨start, start + tokens⟩ ->
      after.remChunkTokens = before.remChunkTokens.map (fun budget => budget - tokens) ->
      Adds page cap startsAt before after req

variable (upstream : UpstreamAdder δ υ Element)

/-- A request starts at its prefix; the fast path of `ignore_eos` accepts no
host hit, the normal path loads it back first. -/
def UpstreamAdder.StartsAt (adder : PrefillAdder δ υ Element) (req : Nat) (start : Int) : Prop :=
  adder.hosted = true ->
    if (adder.admission req).ignoreEos = false ∧ 0 < (adder.admission req).hostHitLength then
      exists loaded, start = adder.prefixLen req + loaded ∧
        outcome ((PrefixCache.initLoadBack (upstream.initLoadBack req) req).run adder.treeCache) = .ok loaded
    else start = adder.prefixLen req

/-- What the class that is extended does with its budgets. -/
structure UpstreamAdder.Documented (page : Int) : Prop where
  addOneReq : forall adder req hasChunkedReq truncationAlignSize,
    Adds page adder.remChunkTokens (upstream.StartsAt adder req) adder
      (finalState ((upstream.addOneReq req hasChunkedReq truncationAlignSize).run adder)) req
  addChunkedReq : forall adder req,
    Adds page (tighter adder.chunkedReqLimit adder.remChunkTokens)
      (fun start => start = adder.prefixLen req) adder
      (finalState ((upstream.addChunkedReq req).run adder)) req
  one_ignoreEos : forall adder req hasChunkedReq truncationAlignSize,
    ((finalState ((upstream.addOneReq req hasChunkedReq truncationAlignSize).run adder)).admission
      req).ignoreEos = (adder.admission req).ignoreEos
  chunked_ignoreEos : forall adder req,
    ((finalState ((upstream.addChunkedReq req).run adder)).admission req).ignoreEos =
      (adder.admission req).ignoreEos

/-! ## One addition -/

theorem reads_pendingPrefixTokens (req : Nat) :
    Reads (pendingPrefixTokens req : Method (QSAHostPrefixCache δ υ Element) Int) := by
  intro cache
  unfold pendingPrefixTokens matchedLength readSnapshot
  simp only [EStateM.run_bind, EStateM.run_get]
  cases cache.matched.get? (cache.handle req) with
  | none => rfl
  | some reader =>
      simp only [EStateM.run_bind, EStateM.run_get]
      cases cache.host.snapshotAt reader <;> rfl

theorem reads_prefillCheckpointLimit (config : PrefixConfig) (req : Nat) :
    Reads (prefillCheckpointLimit config req :
      Method (QSAHostPrefixCache δ υ Element) (Option Int)) := by
  apply Reads.of_preserves
  intro start
  unfold prefillCheckpointLimit
  apply Preserves.get_bind
  intro cache
  dsimp only
  apply Preserves.ite (fun _ => Preserves.pure _) fun _ => ?_
  apply Preserves.ite (fun _ => Preserves.pure _) fun _ => ?_
  exact Preserves.bind (reads_pendingPrefixTokens req).preserves fun _ => Preserves.pure _

section Narrowed

variable (adder : PrefillAdder δ υ Element) (req : Nat) (pending : Int)

theorem narrow_treeCache (capped : Option Int) :
    (adder.narrow req pending capped).treeCache = adder.treeCache := by
  unfold PrefillAdder.narrow PrefillAdder.setIgnoreEos
  cases capped <;> dsimp only <;> split <;> rfl

theorem narrow_canRunList (capped : Option Int) :
    (adder.narrow req pending capped).canRunList = adder.canRunList := by
  unfold PrefillAdder.narrow PrefillAdder.setIgnoreEos
  cases capped <;> dsimp only <;> split <;> rfl

theorem narrow_hosted (capped : Option Int) :
    (adder.narrow req pending capped).hosted = adder.hosted := by
  unfold PrefillAdder.narrow PrefillAdder.setIgnoreEos
  cases capped <;> dsimp only <;> split <;> rfl

/-- A pending prefix closes the fast path. -/
theorem narrow_admission (capped : Option Int) :
    (adder.narrow req pending capped).admission req =
      if pending ≠ 0 then { adder.admission req with ignoreEos := false }
      else adder.admission req := by
  unfold PrefillAdder.narrow
  by_cases waiting : pending ≠ 0
  · rw [if_pos waiting]
    dsimp only
    rw [if_pos waiting]
    cases capped with
    | none => exact Function.update_self ..
    | some limit => exact Function.update_self ..
  · rw [if_neg waiting]
    dsimp only
    rw [if_neg waiting]
    cases capped <;> rfl

theorem narrow_remChunkTokens (capped : Option Int) :
    (adder.narrow req pending capped).remChunkTokens =
      match capped with
      | none => adder.remChunkTokens
      | some limit => some limit := by
  unfold PrefillAdder.narrow PrefillAdder.setIgnoreEos
  cases capped <;> dsimp only <;> split <;> rfl

/-- The chunk budget becomes the tighter of the limit and itself. -/
theorem narrow_cappedLimit (limit : Option Int) :
    (adder.narrow req pending (cappedLimit limit adder.remChunkTokens)).remChunkTokens =
      tighter limit adder.remChunkTokens := by
  rw [narrow_remChunkTokens]
  cases limit with
  | none => rfl
  | some limit =>
      cases adder.remChunkTokens with
      | none => rfl
      | some tokens =>
          unfold cappedLimit tighter
          by_cases narrows : limit < tokens
          · dsimp only
            rw [if_pos narrows, min_eq_left narrows.le]
          · dsimp only
            rw [if_neg narrows, min_eq_right (not_lt.mp narrows)]

end Narrowed

/-- What upstream leaves stays but for the two offsets and the bookings. -/
theorem addNarrowed_final (req : Nat) (hasChunkedReq : Bool) (truncationAlignSize : Option Int)
    (pending : Int) (narrowed : PrefillAdder δ υ Element) :
    finalState ((addNarrowed upstream req hasChunkedReq truncationAlignSize pending).run narrowed) =
        finalState ((upstream.addOneReq req hasChunkedReq truncationAlignSize).run narrowed) ∨
      finalState ((addNarrowed upstream req hasChunkedReq truncationAlignSize pending).run
          narrowed) =
        (finalState ((upstream.addOneReq req hasChunkedReq truncationAlignSize).run
          narrowed)).charge req pending := by
  unfold addNarrowed
  rw [EStateM.run_bind]
  cases (upstream.addOneReq req hasChunkedReq truncationAlignSize).run narrowed with
  | error cause after => exact Or.inl rfl
  | ok result after =>
      change finalState (EStateM.run (if pending ≠ 0 ∧ req ∈ after.canRunList then _ else _)
        after) = _ ∨ finalState (EStateM.run (if pending ≠ 0 ∧ req ∈ after.canRunList then _
        else _) after) = _
      by_cases charged : pending ≠ 0 ∧ req ∈ after.canRunList
      · right
        rw [if_pos charged]
        simp only [EStateM.run_bind]
        cases upstream.budgetState (after.charge req pending) <;> rfl
      · left
        rw [if_neg charged]
        rfl

/-- The state after `add_one_req`, when `middle` is the one that upstream left. -/
structure Repaired (req : Nat) (ignoreEos : Bool) (capped original : Option Int)
    (middle last : PrefillAdder δ υ Element) : Prop where
  canRunList : last.canRunList = middle.canRunList
  chunk : last.chunk req = middle.chunk req
  ignoreEos : (last.admission req).ignoreEos = ignoreEos
  uncapped : capped = none -> last.remChunkTokens = middle.remChunkTokens
  capped : forall limit tokens, capped = some limit -> middle.remChunkTokens = some tokens ->
    last.remChunkTokens = original.map fun budget => budget - (limit - tokens)

theorem setIgnoreEos_admission (adder : PrefillAdder δ υ Element) (req : Nat)
    (ignoreEos : Bool) :
    (adder.setIgnoreEos req ignoreEos).admission req =
      { adder.admission req with ignoreEos := ignoreEos } :=
  Function.update_self ..

theorem setIgnoreEos_chunk (adder : PrefillAdder δ υ Element) (req : Nat) (ignoreEos : Bool) :
    (adder.setIgnoreEos req ignoreEos).chunk req = adder.chunk req := by
  unfold PrefillAdder.chunk
  rw [setIgnoreEos_admission]
  rfl

theorem repair_final (req : Nat) (ignoreEos : Bool) (capped original : Option Int)
    (middle : PrefillAdder δ υ Element) :
    Repaired req ignoreEos capped original middle
      (finalState ((repair req ignoreEos capped original).run middle)) := by
  unfold repair
  cases capped with
  | none =>
      exact ⟨rfl, setIgnoreEos_chunk middle req ignoreEos,
        congrArg _ (setIgnoreEos_admission middle req ignoreEos), fun _ => rfl,
        fun _ _ absent => (nomatch absent)⟩
  | some limit =>
      change Repaired req ignoreEos (some limit) original middle
        (finalState (EStateM.run (match middle.remChunkTokens with
          | none => throw _
          | some tokens => set _) (middle.setIgnoreEos req ignoreEos)))
      cases budget : middle.remChunkTokens with
      | none =>
          refine ⟨rfl, setIgnoreEos_chunk middle req ignoreEos,
            congrArg _ (setIgnoreEos_admission middle req ignoreEos),
            fun absent => (nomatch absent), ?_⟩
          intro _ _ _ spent
          rw [budget] at spent
          cases spent
      | some tokens =>
          refine ⟨rfl, setIgnoreEos_chunk middle req ignoreEos,
            congrArg _ (setIgnoreEos_admission middle req ignoreEos),
            fun absent => (nomatch absent), ?_⟩
          intro _ _ same spent
          rw [budget] at spent
          cases same
          cases spent
          rfl

section One

variable {config : PrefixConfig} {upstream : UpstreamAdder δ υ Element}
  {adder : PrefillAdder δ υ Element} {req : Nat} (hasChunkedReq : Bool)
  (truncationAlignSize : Option Int) {pending : Int} {limit : Option Int}

/-- What upstream is called on. -/
def PrefillAdder.narrowed (adder : PrefillAdder δ υ Element) (req : Nat) (pending : Int)
    (limit : Option Int) : PrefillAdder δ υ Element :=
  adder.narrow req pending (cappedLimit limit adder.remChunkTokens)

/-- The limits are read before anything is changed. -/
structure Limits (config : PrefixConfig) (adder : PrefillAdder δ υ Element) (req : Nat)
    (pending : Int) (limit : Option Int) : Prop where
  pending : (pendingPrefixTokens req).run adder.treeCache = .ok pending adder.treeCache
  limit : (prefillCheckpointLimit config req).run adder.treeCache = .ok limit adder.treeCache

theorem addOneReq_repaired (hosted : adder.hosted = true)
    (limits : Limits config adder req pending limit) :
    Repaired req (adder.admission req).ignoreEos (cappedLimit limit adder.remChunkTokens)
      adder.remChunkTokens
      (finalState ((upstream.addOneReq req hasChunkedReq truncationAlignSize).run
        (adder.narrowed req pending limit)))
      (finalState ((addOneReq config upstream req hasChunkedReq truncationAlignSize).run
        adder)) := by
  have pending_read : (treeCachePart.zoom (pendingPrefixTokens req)).run adder = .ok pending adder :=
    treeCachePart.zoom_ok limits.pending
  have limit_read : (treeCachePart.zoom (prefillCheckpointLimit config req)).run adder =
      .ok limit adder := treeCachePart.zoom_ok limits.limit
  have ran : (addOneReq config upstream req hasChunkedReq truncationAlignSize).run adder =
      (tryFinally (addNarrowed upstream req hasChunkedReq truncationAlignSize pending)
        (repair req (adder.admission req).ignoreEos (cappedLimit limit adder.remChunkTokens)
          adder.remChunkTokens)).run (adder.narrowed req pending limit) := by
    unfold addOneReq
    rw [EStateM.run_bind]
    change (if adder.hosted = false then _ else _ : Method _ _).run adder = _
    rw [if_neg (by rw [hosted]; decide), EStateM.run_bind, pending_read]
    change EStateM.run (treeCachePart.zoom (prefillCheckpointLimit config req) >>= _) adder = _
    rw [EStateM.run_bind, limit_read]
    rfl
  rw [ran, finalState_tryFinally]
  rcases addNarrowed_final upstream req hasChunkedReq truncationAlignSize pending
    (adder.narrowed req pending limit) with same | charged
  · rw [same]
    exact repair_final ..
  · rw [charged]
    have repaired := repair_final req (adder.admission req).ignoreEos
      (cappedLimit limit adder.remChunkTokens) adder.remChunkTokens
      ((finalState ((upstream.addOneReq req hasChunkedReq truncationAlignSize).run
        (adder.narrowed req pending limit))).charge req pending)
    exact ⟨repaired.canRunList, repaired.chunk, repaired.ignoreEos, repaired.uncapped,
      repaired.capped⟩

/-- The chunk budget pays for what is spent, also when it was narrowed. -/
theorem repaired_budget {middle last : PrefillAdder δ υ Element} {ignoreEos : Bool}
    (repaired : Repaired req ignoreEos (cappedLimit limit adder.remChunkTokens)
      adder.remChunkTokens middle last) {spent : Int}
    (pays : middle.remChunkTokens =
      (adder.narrowed req pending limit).remChunkTokens.map fun budget => budget - spent) :
    last.remChunkTokens = adder.remChunkTokens.map fun budget => budget - spent := by
  unfold PrefillAdder.narrowed at pays
  rw [narrow_remChunkTokens] at pays
  cases capped : cappedLimit limit adder.remChunkTokens with
  | none =>
      rw [capped] at pays
      exact (repaired.uncapped capped).trans pays
  | some least =>
      rw [capped] at pays
      rw [repaired.capped least (least - spent) capped pays, sub_sub_cancel]

theorem unspent (budget : Option Int) : budget = budget.map fun tokens => tokens - 0 := by
  cases budget with
  | none => rfl
  | some tokens => rw [Option.map_some, sub_zero]

theorem addOneReq_adds {page : Int} (documented : upstream.Documented page)
    (hosted : adder.hosted = true) (limits : Limits config adder req pending limit) :
    Adds page (tighter limit adder.remChunkTokens)
      (upstream.StartsAt (adder.narrowed req pending limit) req) adder
      (finalState ((addOneReq config upstream req hasChunkedReq truncationAlignSize).run adder))
      req := by
  have repaired := @addOneReq_repaired _ _ _ _ upstream _ _ hasChunkedReq truncationAlignSize _ _
    hosted limits
  have listed : (adder.narrowed req pending limit).canRunList = adder.canRunList :=
    narrow_canRunList ..
  have prompt : (adder.narrowed req pending limit).promptLength req = adder.promptLength req :=
    congrArg (fun cache => ((QSAHostPrefixCache.request cache req).fullUntruncatedFillIds.length :
      Int)) (narrow_treeCache ..)
  have budget : (adder.narrowed req pending limit).remChunkTokens =
      tighter limit adder.remChunkTokens := narrow_cappedLimit ..
  cases documented.addOneReq (adder.narrowed req pending limit) req hasChunkedReq
    truncationAlignSize with
  | refused same unpaid =>
      apply Adds.refused
      · rw [repaired.canRunList, same, listed]
      · rw [repaired_budget repaired (unpaid.trans (unspent _)), ← unspent]
  | scheduled start tokens starts amount runs chunk pays =>
      refine Adds.scheduled start tokens starts ?_ ?_ ?_ (repaired_budget repaired pays)
      · rw [amount, budget, prompt]
      · rw [repaired.canRunList, runs, listed]
      · rw [repaired.chunk, chunk]

end One

/-! ## Any addition -/

/-- The two methods that add a request. -/
inductive Addition where
  | one (hasChunkedReq : Bool) (truncationAlignSize : Option Int)
  | chunked

section Additions

variable (config : PrefixConfig) (upstream : UpstreamAdder δ υ Element)

/-- The adder after an addition, whichever way it is left. -/
def Addition.perform (req : Nat) (adder : PrefillAdder δ υ Element) :
    Addition -> PrefillAdder δ υ Element
  | .one hasChunkedReq truncationAlignSize =>
      finalState ((addOneReq config upstream req hasChunkedReq truncationAlignSize).run adder)
  | .chunked => finalState ((addChunkedReq config upstream req).run adder)

variable {config} {upstream} {adder : PrefillAdder δ υ Element} {req : Nat}

/-- What an addition schedules is paid for, and the flag is what it was. -/
structure Accounted (before after : PrefillAdder δ υ Element) (req : Nat) : Prop where
  pays : (after.canRunList = before.canRunList ∧ after.remChunkTokens = before.remChunkTokens) ∨
    (after.canRunList = before.canRunList ++ [req] ∧
      after.remChunkTokens = before.remChunkTokens.map fun budget =>
        budget - ((after.chunk req).stop - (after.chunk req).start))
  ignoreEos : (after.admission req).ignoreEos = (before.admission req).ignoreEos

theorem Adds.pays {page : Int} {cap : Option Int} {startsAt : Int -> Prop}
    {before after : PrefillAdder δ υ Element} (adds : Adds page cap startsAt before after req) :
    (after.canRunList = before.canRunList ∧ after.remChunkTokens = before.remChunkTokens) ∨
      (after.canRunList = before.canRunList ++ [req] ∧
        after.remChunkTokens = before.remChunkTokens.map fun budget =>
          budget - ((after.chunk req).stop - (after.chunk req).start)) := by
  cases adds with
  | refused same unpaid => exact Or.inl ⟨same, unpaid⟩
  | scheduled start tokens _ _ runs chunk pays =>
      right
      rw [chunk, pays]
      dsimp only
      rw [add_sub_cancel_left]
      exact ⟨runs, rfl⟩

/-- A limit that cannot be read leaves the adder as it is. -/
theorem addOneReq_unread (hosted : adder.hosted = true)
    (unread : forall pending limit, ¬ Limits config adder req pending limit)
    (hasChunkedReq : Bool) (truncationAlignSize : Option Int) :
    finalState ((addOneReq config upstream req hasChunkedReq truncationAlignSize).run adder) =
      adder := by
  have ran : (addOneReq config upstream req hasChunkedReq truncationAlignSize).run adder =
      (treeCachePart.zoom (pendingPrefixTokens req) >>= fun pending =>
        treeCachePart.zoom (prefillCheckpointLimit config req) >>= fun limit => do
          let capped := cappedLimit limit adder.remChunkTokens
          modify fun self => self.narrow req pending capped
          tryFinally (addNarrowed upstream req hasChunkedReq truncationAlignSize pending)
            (repair req (adder.admission req).ignoreEos capped adder.remChunkTokens)).run
        adder := by
    unfold addOneReq
    rw [EStateM.run_bind]
    change (if adder.hosted = false then _ else _ : Method _ _).run adder = _
    rw [if_neg (by rw [hosted]; decide)]
  rw [ran, EStateM.run_bind, Field.run_zoom]
  rcases (reads_pendingPrefixTokens req).returns_or_raises (treeCachePart.get adder) with
    ⟨pending, pending_read⟩ | ⟨cause, raised⟩
  · rw [pending_read]
    change finalState (EStateM.run (treeCachePart.zoom (prefillCheckpointLimit config req) >>= _)
      adder) = adder
    rw [EStateM.run_bind, Field.run_zoom]
    rcases (reads_prefillCheckpointLimit config req).returns_or_raises (treeCachePart.get adder)
      with ⟨limit, limit_read⟩ | ⟨cause, raised⟩
    · exact absurd ⟨pending_read, limit_read⟩ (unread pending limit)
    · rw [raised]
      rfl
  · rw [raised]
    rfl

theorem addOneReq_accounted {page : Int} (documented : upstream.Documented page)
    (adder : PrefillAdder δ υ Element) (req : Nat) (hasChunkedReq : Bool)
    (truncationAlignSize : Option Int) :
    Accounted adder
      (finalState ((addOneReq config upstream req hasChunkedReq truncationAlignSize).run adder))
      req := by
  by_cases hosted : adder.hosted = true
  · by_cases readable : exists pending limit, Limits config adder req pending limit
    · rcases readable with ⟨pending, limit, limits⟩
      exact ⟨(addOneReq_adds hasChunkedReq truncationAlignSize documented hosted limits).pays,
        (addOneReq_repaired hasChunkedReq truncationAlignSize hosted limits).ignoreEos⟩
    · rw [addOneReq_unread hosted (fun pending limit limits => readable ⟨pending, limit, limits⟩)]
      exact ⟨Or.inl ⟨rfl, rfl⟩, rfl⟩
  · have ran : (addOneReq config upstream req hasChunkedReq truncationAlignSize).run adder =
        (upstream.addOneReq req hasChunkedReq truncationAlignSize).run adder := by
      unfold addOneReq
      rw [EStateM.run_bind]
      change (if adder.hosted = false then _ else _ : Method _ _).run adder = _
      rw [if_pos (Bool.not_eq_true _ ▸ hosted)]
    rw [ran]
    exact ⟨(documented.addOneReq adder req hasChunkedReq truncationAlignSize).pays,
      documented.one_ignoreEos adder req hasChunkedReq truncationAlignSize⟩

/-! ## A continued chunk -/

/-- The adder with its chunk limit narrowed. -/
def PrefillAdder.limited (adder : PrefillAdder δ υ Element) (limit : Option Int) :
    PrefillAdder δ υ Element :=
  { adder with chunkedReqLimit := tighter limit adder.chunkedReqLimit }

theorem reads_checkpointLimit (req : Nat) :
    Reads (checkpointLimit config req : Method (PrefillAdder δ υ Element) (Option Int)) := by
  apply Reads.of_preserves
  intro start
  unfold checkpointLimit
  apply Preserves.get_bind
  intro adder
  apply Preserves.ite (fun _ => Preserves.pure _) fun _ => ?_
  exact (reads_prefillCheckpointLimit config req).zoom.preserves

theorem addChunkedReq_run {limit : Option Int}
    (limit_read : (checkpointLimit config req).run adder = .ok limit adder) :
    (addChunkedReq config upstream req).run adder =
      (upstream.addChunkedReq req).run (adder.limited limit) := by
  unfold addChunkedReq
  rw [EStateM.run_bind, limit_read]
  cases limit with
  | none => rfl
  | some limit => rfl

theorem addChunkedReq_accounted {page : Int} (documented : upstream.Documented page)
    (adder : PrefillAdder δ υ Element) (req : Nat) :
    Accounted adder (finalState ((addChunkedReq config upstream req).run adder)) req := by
  rcases (@reads_checkpointLimit _ _ _ config req).returns_or_raises adder with
    ⟨limit, limit_read⟩ | ⟨cause, raised⟩
  · rw [addChunkedReq_run limit_read]
    exact ⟨(documented.addChunkedReq (adder.limited limit) req).pays,
      documented.chunked_ignoreEos (adder.limited limit) req⟩
  · unfold addChunkedReq
    rw [EStateM.run_bind, raised]
    exact ⟨Or.inl ⟨rfl, rfl⟩, rfl⟩

theorem perform_accounted {page : Int} (documented : upstream.Documented page)
    (adder : PrefillAdder δ υ Element) (req : Nat) (addition : Addition) :
    Accounted adder (addition.perform config upstream req adder) req := by
  cases addition with
  | one hasChunkedReq truncationAlignSize =>
      exact addOneReq_accounted documented adder req hasChunkedReq truncationAlignSize
  | chunked => exact addChunkedReq_accounted documented adder req

end Additions

end Chunks

end PrefixCache
end QSAHiSparse

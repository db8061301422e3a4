import QSAHiSparse.PrefixCache.PrefillChunks

namespace QSAHiSparse
namespace PrefixCache

open Foundation

/-!
# Passes over a prompt

A prompt is prefilled in passes, each with an adder of its own.  The chunks that
they schedule follow each other, and one of them ends at the last page of the
prompt.
-/

section Chunks

variable {δ υ Element : Type}

section Passes

variable (config : PrefixConfig) (upstream : UpstreamAdder δ υ Element)

/-- How the prefix of a request is known when it is added: a new request has
what its match found, a continued one what was prefilled. -/
inductive Begins (adder : PrefillAdder δ υ Element) (req : Nat) (start : Int) : Addition -> Prop where
  | cold {hasChunkedReq : Bool} {truncationAlignSize : Option Int} :
      adder.treeCache.matched.get? (adder.treeCache.handle req) = none ->
      adder.prefixLen req = start -> (adder.admission req).hostHitLength = 0 ->
      Begins adder req start (.one hasChunkedReq truncationAlignSize)
  | hit {hasChunkedReq : Bool} {truncationAlignSize : Option Int} (reader : Nat)
      (snapshot : HostPrefix.PrefixSnapshot PrefixNamespace Element) :
      adder.treeCache.matched.get? (adder.treeCache.handle req) = some reader ->
      adder.treeCache.host.snapshotAt reader = some snapshot -> (snapshot.length : Int) = start ->
      adder.prefixLen req = 0 -> (adder.admission req).hostHitLength = start ->
      Begins adder req start (.one hasChunkedReq truncationAlignSize)
  | continued (pending : Int) :
      (pendingPrefixTokens req).run adder.treeCache = .ok pending adder.treeCache ->
      pending ≤ start -> adder.prefixLen req = start -> Begins adder req start .chunked

/-- An adder of a pass: the prompt can be cached, and each budget has room for a
page. -/
structure Ready (adder : PrefillAdder δ υ Element) (req : Nat) (length start : Int)
    (addition : Addition) : Prop where
  hosted : adder.hosted = true
  supported : adder.treeCache.namespaceOf config (adder.treeCache.request req) ≠ none
  cached : (adder.treeCache.request req).skipRadixCacheInsert = false
  prompt : adder.promptLength req = length
  budget : HoldsPage 64 adder.remChunkTokens
  limit : HoldsPage 64 adder.chunkedReqLimit
  begins : Begins adder req start addition

/-- The passes over an unfinished prompt, each with an adder of its own, and the
chunks that they schedule. -/
inductive Prefilled (req : Nat) (length start : Int) : List Chunk -> Int -> Prop where
  | start : Prefilled req length start [] start
  | refused {chunks : List Chunk} {reached : Int} (adder : PrefillAdder δ υ Element)
      (addition : Addition) : Prefilled req length start chunks reached -> reached < length ->
      Ready config adder req length reached addition ->
      (addition.perform config upstream req adder).canRunList = adder.canRunList ->
      Prefilled req length start chunks reached
  | scheduled {chunks : List Chunk} {reached : Int} (adder : PrefillAdder δ υ Element)
      (addition : Addition) : Prefilled req length start chunks reached -> reached < length ->
      Ready config adder req length reached addition ->
      (addition.perform config upstream req adder).canRunList ≠ adder.canRunList ->
      Prefilled req length start
        (chunks ++ [(addition.perform config upstream req adder).chunk req])
        ((addition.perform config upstream req adder).chunk req).stop

variable {config} {upstream} {adder : PrefillAdder δ υ Element} {req : Nat} {length start : Int}

/-- The limit that a prefix of `start` tokens gives. -/
def limitFrom (length start : Int) : Option Int :=
  if length % 64 = 0 then none
  else if length / 64 * 64 - start > 0 then some (length / 64 * 64 - start) else none

theorem pendingPrefixTokens_cold {cache : QSAHostPrefixCache δ υ Element}
    (unmatched : cache.matched.get? (cache.handle req) = none) :
    (pendingPrefixTokens req).run cache = .ok 0 cache := by
  unfold pendingPrefixTokens matchedLength
  simp only [EStateM.run_bind, EStateM.run_get, unmatched]
  rfl

theorem matchedLength_hit {cache : QSAHostPrefixCache δ υ Element} {reader : Nat}
    {snapshot : HostPrefix.PrefixSnapshot PrefixNamespace Element}
    (found : cache.matched.get? (cache.handle req) = some reader)
    (held : cache.host.snapshotAt reader = some snapshot)
    (unmatched : Method (QSAHostPrefixCache δ υ Element) Int) :
    (matchedLength req unmatched).run cache = .ok snapshot.length cache := by
  unfold matchedLength readSnapshot
  simp only [EStateM.run_bind, EStateM.run_get, found, held]
  rfl

theorem prefillCheckpointLimit_run {cache : QSAHostPrefixCache δ υ Element} {pending : Int}
    (paged : config.pageSize = 64) (supported : cache.namespaceOf config (cache.request req) ≠ none)
    (cached : (cache.request req).skipRadixCacheInsert = false)
    (pending_read : (pendingPrefixTokens req).run cache = .ok pending cache) :
    (prefillCheckpointLimit config req).run cache =
      .ok (limitFrom (cache.request req).fullUntruncatedFillIds.length
        (max (cache.request req).prefixLen pending)) cache := by
  unfold prefillCheckpointLimit limitFrom
  rw [EStateM.run_bind]
  change EStateM.run (if cache.namespaceOf config (cache.request req) = none ∨
    (cache.request req).skipRadixCacheInsert = true then _ else _) cache = _
  have cacheable : ¬ (cache.namespaceOf config (cache.request req) = none ∨
      (cache.request req).skipRadixCacheInsert = true) := by
    rw [cached]
    exact fun either => either.elim supported Bool.false_ne_true
  rw [if_neg cacheable, paged]
  dsimp only
  change EStateM.run (if ((cache.request req).fullUntruncatedFillIds.length : Int) % 64 = 0 then _
    else _) cache = _
  by_cases whole : ((cache.request req).fullUntruncatedFillIds.length : Int) % 64 = 0
  · rw [if_pos whole, if_pos whole]
    rfl
  · rw [if_neg whole, if_neg whole, EStateM.run_bind, pending_read]
    rfl

theorem limitFrom_room (aligned : (64 : Int) ∣ start) : HoldsPage 64 (limitFrom length start) := by
  intro tokens same
  unfold limitFrom at same
  split at same
  · cases same
  · split at same
    · rename_i ahead
      cases same
      exact Int.le_of_dvd ahead (Int.dvd_sub (Int.dvd_mul_left _ _) aligned)
    · cases same

/-- The cap of an addition has room for a page, and does not reach past the last
page of a prompt that has a tail. -/
structure Caps (length start : Int) (cap : Option Int) : Prop where
  room : HoldsPage 64 cap
  narrow : start < length / 64 * 64 -> length ≤ length / 64 * 64 ∨
    exists tokens, cap = some tokens ∧ tokens ≤ length / 64 * 64 - start

theorem caps_tighter {other : Option Int} (aligned : (64 : Int) ∣ start)
    (room : HoldsPage 64 other) : Caps length start (tighter (limitFrom length start) other) := by
  constructor
  · exact (limitFrom_room aligned).tighter room
  · intro ahead
    by_cases whole : length % 64 = 0
    · left
      omega
    · right
      have limit : limitFrom length start = some (length / 64 * 64 - start) := by
        unfold limitFrom
        rw [if_neg whole, if_pos (by omega)]
      rw [limit]
      cases other with
      | none => exact ⟨_, rfl, le_refl _⟩
      | some tokens => exact ⟨_, rfl, min_le_left _ _⟩

theorem limits_of_ready {addition : Addition} {pending : Int} (paged : config.pageSize = 64)
    (ready : Ready config adder req length start addition)
    (pending_read : (pendingPrefixTokens req).run adder.treeCache = .ok pending adder.treeCache)
    (begun : max (adder.prefixLen req) pending = start) :
    Limits config adder req pending (limitFrom length start) := by
  refine ⟨pending_read, ?_⟩
  rw [← ready.prompt, ← begun]
  exact prefillCheckpointLimit_run paged ready.supported ready.cached pending_read

/-- A new request begins behind its match, which is loaded back. -/
theorem begins_one {hasChunkedReq : Bool} {truncationAlignSize : Option Int}
    (paged : config.pageSize = 64) (nonneg : 0 ≤ start)
    (ready : Ready config adder req length start (.one hasChunkedReq truncationAlignSize)) :
    exists pending, Limits config adder req pending (limitFrom length start) ∧
      forall begun, upstream.StartsAt (adder.narrowed req pending (limitFrom length start)) req
        begun -> begun = start := by
  have hosted (pending : Int) :
      (adder.narrowed req pending (limitFrom length start)).hosted = true :=
    (narrow_hosted ..).trans ready.hosted
  have prefix_kept (pending : Int) :
      (adder.narrowed req pending (limitFrom length start)).prefixLen req = adder.prefixLen req :=
    congrArg (fun cache => (QSAHostPrefixCache.request cache req).prefixLen) (narrow_treeCache ..)
  cases ready.begins with
  | cold unmatched at_start no_hit =>
      refine ⟨0, limits_of_ready paged ready (pendingPrefixTokens_cold unmatched)
        (by rw [at_start]; exact max_eq_left nonneg), ?_⟩
      intro begun starts
      have admission : (adder.narrowed req 0 (limitFrom length start)).admission req =
          adder.admission req := by
        unfold PrefillAdder.narrowed
        rw [narrow_admission, if_neg (fun waiting => waiting rfl)]
      have slow := starts (hosted 0)
      rw [admission, no_hit, if_neg (fun both => lt_irrefl _ both.2), prefix_kept] at slow
      exact slow.trans at_start
  | hit reader snapshot found held long at_root hit =>
      subst long
      have pending_read := matchedLength_hit found held (return 0)
      refine ⟨snapshot.length, limits_of_ready paged ready pending_read
        (by rw [at_root]; exact max_eq_right nonneg), ?_⟩
      intro begun starts
      have slow := starts (hosted snapshot.length)
      have same_cache : (adder.narrowed req snapshot.length
          (limitFrom length snapshot.length)).treeCache = adder.treeCache := narrow_treeCache ..
      rw [prefix_kept, at_root, same_cache] at slow
      by_cases empty : (snapshot.length : Int) = 0
      · have admission : (adder.narrowed req snapshot.length
            (limitFrom length snapshot.length)).admission req = adder.admission req := by
          unfold PrefillAdder.narrowed
          rw [narrow_admission, if_neg (fun waiting => waiting empty)]
        rw [admission, hit, if_neg (fun both => by have := both.2; omega)] at slow
        exact slow.trans empty.symm
      · have admission : (adder.narrowed req snapshot.length
            (limitFrom length snapshot.length)).admission req =
              { adder.admission req with ignoreEos := false } := by
          unfold PrefillAdder.narrowed
          rw [narrow_admission, if_pos empty]
        have waiting : 0 < (adder.admission req).hostHitLength := by
          rw [hit]
          omega
        rw [admission, if_pos ⟨rfl, waiting⟩] at slow
        rcases slow with ⟨loaded, begun_at, loads⟩
        unfold initLoadBack at loads
        rw [matchedLength_hit found held] at loads
        have whole : (snapshot.length : Int) = loaded := Except.ok.inj loads
        omega

theorem Adds.of_starts {page : Int} {cap : Option Int} {startsAt startsAt' : Int -> Prop}
    {before after : PrefillAdder δ υ Element} (adds : Adds page cap startsAt before after req)
    (implies : forall begun, startsAt begun -> startsAt' begun) :
    Adds page cap startsAt' before after req := by
  cases adds with
  | refused same unpaid => exact .refused same unpaid
  | scheduled begun tokens starts amount runs chunk pays =>
      exact .scheduled begun tokens (implies begun starts) amount runs chunk pays

/-- An addition of a pass starts where the prompt stands, under a cap that stops
at its last page. -/
theorem ready_adds (documented : upstream.Documented 64) (paged : config.pageSize = 64)
    (nonneg : 0 ≤ start) (aligned : (64 : Int) ∣ start) {addition : Addition}
    (ready : Ready config adder req length start addition) :
    exists cap, Caps length start cap ∧
      Adds 64 cap (fun begun => begun = start) adder (addition.perform config upstream req adder)
        req := by
  cases addition with
  | one hasChunkedReq truncationAlignSize =>
      rcases @begins_one _ _ _ _ upstream _ _ _ _ _ _ paged nonneg ready with ⟨pending, limits, starts⟩
      exact ⟨_, caps_tighter aligned ready.budget,
        (addOneReq_adds hasChunkedReq truncationAlignSize documented ready.hosted
          limits).of_starts starts⟩
  | chunked =>
      rcases ready.begins with _ | _ | ⟨pending, pending_read, within, at_start⟩
      have limits := limits_of_ready paged ready pending_read
        (by rw [at_start]; exact max_eq_left within)
      have limit_read : (checkpointLimit config req).run adder =
          .ok (limitFrom length start) adder := by
        unfold checkpointLimit
        rw [EStateM.run_bind]
        change (if adder.hosted = false then _ else _ : Method _ _).run adder = _
        rw [if_neg (by rw [ready.hosted]; decide)]
        exact treeCachePart.zoom_ok limits.limit
      have adds := documented.addChunkedReq (adder.limited (limitFrom length start)) req
      have cap : tighter (adder.limited (limitFrom length start)).chunkedReqLimit
          (adder.limited (limitFrom length start)).remChunkTokens =
            tighter (limitFrom length start)
              (tighter adder.chunkedReqLimit adder.remChunkTokens) := tighter_assoc ..
      rw [cap, ← addChunkedReq_run limit_read] at adds
      refine ⟨_, caps_tighter aligned (ready.limit.tighter ready.budget), ?_⟩
      have begun : Adds 64 _ (fun begun => begun = start) (adder.limited (limitFrom length start))
          (Addition.chunked.perform config upstream req adder) req :=
        adds.of_starts fun begun same => same.trans at_start
      cases begun with
      | refused same unpaid => exact .refused same unpaid
      | scheduled begun tokens starts amount runs chunk pays =>
          exact .scheduled begun tokens starts amount runs chunk pays

/-! ## A whole prompt -/

/-- The passes schedule chunks that follow each other and fit the prompt. -/
theorem Prefilled.chunked (documented : upstream.Documented 64) (paged : config.pageSize = 64)
    (nonneg : 0 ≤ start) (aligned : (64 : Int) ∣ start) {chunks : List Chunk} {reached : Int}
    (run : Prefilled config upstream req length start chunks reached) :
    Chunked 64 (length / 64 * 64) length start chunks reached := by
  induction run with
  | start => exact .nil
  | refused _ _ _ _ _ _ earlier => exact earlier
  | scheduled adder addition rest unfinished ready ran earlier =>
      rename_i chunks reached
      have pages : (64 : Int) ∣ reached := (earlier.paged aligned).resolve_left unfinished.ne
      rcases ready_adds documented paged (nonneg.trans earlier.start_le) pages ready with
        ⟨cap, caps, adds⟩
      cases adds with
      | refused same _ => exact absurd same ran
      | scheduled begun tokens starts amount _ chunk _ =>
          rw [chunk, amount, ready.prompt, starts]
          rw [starts] at chunk
          exact .snoc earlier (chunkOf_fits (by decide) pages unfinished caps.room caps.narrow)

/-- No chunk skips the last page of its prompt, each addition is paid for by the
chunk budget, and a prompt is finished after finitely many chunks. -/
theorem checkpoint_never_skipped (documented : upstream.Documented 64)
    (paged : config.pageSize = 64) :
    (forall (adder : PrefillAdder δ υ Element) (req : Nat) (addition : Addition),
      Accounted adder (addition.perform config upstream req adder) req) ∧
    forall (req : Nat) (length start : Int) (chunks : List Chunk) (reached : Int),
      start = 0 ∨ 0 < start ∧ start % 64 = 0 -> start ≤ length ->
      Prefilled config upstream req length start chunks reached ->
        Chunked 64 (length / 64 * 64) length start chunks reached ∧
        (forall chunk, chunk ∈ chunks -> chunk.start < chunk.stop ∧ chunk.stop ≤ length) ∧
        (length ≤ start + 64 * chunks.length -> reached = length) ∧
        (length % 64 ≠ 0 -> start < length / 64 * 64 ->
          (forall chunk, chunk ∈ chunks -> chunk.start < length / 64 * 64 ->
            chunk.stop ≤ length / 64 * 64) ∧
          chunks.countP (fun chunk => chunk.stop = length / 64 * 64) =
            if length / 64 * 64 ≤ reached then 1 else 0) := by
  constructor
  · exact fun adder req addition => perform_accounted documented adder req addition
  · intro req length start chunks reached restored inside run
    have aligned : (64 : Int) ∣ start := by
      rcases restored with fresh | ⟨_, pages⟩
      · rw [fresh]
        exact Int.dvd_zero 64
      · exact Int.dvd_of_emod_eq_zero pages
    have chunked := run.chunked documented paged (by omega) aligned
    refine ⟨chunked, ?_, chunked.finished aligned inside, ?_⟩
    · exact fun chunk member =>
        ⟨(chunked.fits chunk member).nonempty, (chunked.fits chunk member).within⟩
    · intro _ ahead
      exact ⟨fun chunk member => (chunked.fits chunk member).stops, chunked.boundary_once ahead⟩

end Passes

end Chunks

/-! ## A prompt with a tail -/

section Example

def PrefillAdder.schedule (self : PrefillAdder Unit Unit Unit) (req : Nat) (start : Int)
    (cap : Option Int) : PrefillAdder Unit Unit Unit :=
  let tokens := chunkOf 64 cap (self.promptLength req - start)
  { self with
    treeCache :=
      { self.treeCache with
        world :=
          { self.treeCache.world with
            requests := Function.update self.treeCache.world.requests req
              { self.treeCache.request req with prefixLen := start } } }
    admission := Function.update self.admission req
      { self.admission req with extendEnd := start + tokens }
    canRunList := self.canRunList ++ [req]
    remChunkTokens := self.remChunkTokens.map fun budget => budget - tokens }

/-- Where the normal and the fast path start. -/
def PrefillAdder.loadedStart (self : PrefillAdder Unit Unit Unit) (req : Nat) :
    Except PyError Int :=
  if (self.admission req).ignoreEos = false ∧ 0 < (self.admission req).hostHitLength then
    match outcome ((initLoadBack (pure 0) req).run self.treeCache) with
    | .ok loaded => .ok (self.prefixLen req + loaded)
    | .error cause => .error cause
  else .ok (self.prefixLen req)

/-- An adder that always finds room. -/
def roomyAdder : UpstreamAdder Unit Unit Unit where
  addOneReq req _ _ self :=
    match self.loadedStart req with
    | .ok start => .ok .continued (self.schedule req start self.remChunkTokens)
    | .error cause => .error cause self
  addChunkedReq req self :=
    .ok none (self.schedule req (self.prefixLen req)
      (tighter self.chunkedReqLimit self.remChunkTokens))
  initLoadBack _ := pure 0
  budgetState _ := .ok .continued

theorem schedule_adds (adder : PrefillAdder Unit Unit Unit) (req : Nat) (start : Int)
    (cap : Option Int) {startsAt : Int -> Prop} (starts : startsAt start) :
    Adds 64 cap startsAt adder (adder.schedule req start cap) req := by
  refine .scheduled start _ starts rfl rfl ?_ rfl
  unfold PrefillAdder.chunk PrefillAdder.prefixLen QSAHostPrefixCache.request
    PrefillAdder.schedule
  dsimp only
  rw [Function.update_self, Function.update_self]

theorem schedule_ignoreEos (adder : PrefillAdder Unit Unit Unit) (req : Nat) (start : Int)
    (cap : Option Int) :
    ((adder.schedule req start cap).admission req).ignoreEos = (adder.admission req).ignoreEos := by
  unfold PrefillAdder.schedule
  dsimp only
  rw [Function.update_self]

theorem loadedStart_startsAt {adder : PrefillAdder Unit Unit Unit} {req : Nat} {start : Int}
    (begun : adder.loadedStart req = .ok start) : roomyAdder.StartsAt adder req start := by
  intro _
  unfold PrefillAdder.loadedStart at begun
  split at begun
  · rename_i slow
    rw [if_pos slow]
    split at begun
    · rename_i loaded loads
      exact ⟨loaded, (Except.ok.inj begun).symm, loads⟩
    · cases begun
  · rename_i fast
    rw [if_neg fast]
    exact (Except.ok.inj begun).symm

theorem roomyAdder_one (adder : PrefillAdder Unit Unit Unit) (req : Nat) (hasChunkedReq : Bool)
    (truncationAlignSize : Option Int) (property : PrefillAdder Unit Unit Unit -> Prop)
    (refused : property adder)
    (scheduled : forall start, roomyAdder.StartsAt adder req start ->
      property (adder.schedule req start adder.remChunkTokens)) :
    property (finalState
      ((roomyAdder.addOneReq req hasChunkedReq truncationAlignSize).run adder)) := by
  unfold roomyAdder EStateM.run
  dsimp only
  cases begun : adder.loadedStart req with
  | ok start => exact scheduled start (loadedStart_startsAt begun)
  | error cause => exact refused

theorem roomyAdder_documented : roomyAdder.Documented 64 := by
  constructor
  · intro adder req hasChunkedReq truncationAlignSize
    apply roomyAdder_one adder req hasChunkedReq truncationAlignSize fun after =>
      Adds 64 adder.remChunkTokens (roomyAdder.StartsAt adder req) adder after req
    · exact .refused rfl rfl
    · exact fun start starts => schedule_adds adder req start _ starts
  · exact fun adder req => schedule_adds adder req _ _ rfl
  · intro adder req hasChunkedReq truncationAlignSize
    apply roomyAdder_one adder req hasChunkedReq truncationAlignSize fun after =>
      (after.admission req).ignoreEos = (adder.admission req).ignoreEos
    · rfl
    · exact fun start _ => schedule_ignoreEos adder req start _
  · exact fun adder req => schedule_ignoreEos adder req _ _

/-- A prompt of 70 tokens of which so many are prefilled. -/
def promptReq (prefixLen : Int) : Req where
  cacheRequestHandle := ⟨"a", 1⟩
  rid := "a"
  identity := .text
  positionalEmbedOverrides := false
  inputEmbeds := false
  positionIds := false
  mropePositions := false
  session := false
  beamGroup := false
  returnHiddenStates := false
  extraKey := none
  cacheSalt := none
  loraId := none
  skipRadixCacheInsert := false
  fullUntruncatedFillIds := List.replicate 70 0
  prefixLen := prefixLen
  kv := ⟨none, none, false, 0, 0⟩

def plainConfig : PrefixConfig where
  runtime := ⟨12, 64, true, false, false, [], true⟩
  prefixNamespace := "model"
  pageSize := 64
  geometry := ⟨[], ⟨[], 0⟩, [], ⟨[], 0⟩, [], ⟨[], 0⟩, [], []⟩

def plainPools : Pools Unit where
  full _ _ _ _ := ()
  compressed _ _ _ := ()
  keyState _ _ _ := ()
  rope _ _ := ()
  conv _ _ _ _ := ()
  temporal _ _ _ := ()
  siblings _ _ _ _ := ()
  reqToToken _ _ := 0

/-- A new adder with a chunk budget of 4096 tokens. -/
def promptAdder (prefixLen : Int) : PrefillAdder Unit Unit Unit where
  hosted := true
  treeCache := .initial ⟨1024, 1, by decide, by decide⟩
    { runtime := .initial plainConfig.runtime .onePage ()
      requests := fun _ => promptReq prefixLen
      pools := plainPools
      upstream := () }
  admission _ := ⟨true, false, 0, 0⟩
  remChunkTokens := some 4096
  chunkedReqLimit := none
  canRunList := []
  totalOffset := 0
  currentOffset := 0
  logHostHitTokens := 0
  logDeviceHitTokens := 0

theorem promptAdder_ready (prefixLen : Int) {addition : Addition}
    (begins : Begins (promptAdder prefixLen) 0 prefixLen addition) :
    Ready plainConfig (promptAdder prefixLen) 0 70 prefixLen addition where
  hosted := rfl
  supported := by
    intro absent
    cases absent
  cached := rfl
  prompt := rfl
  budget := by
    intro tokens same
    cases same
    decide
  limit := fun _ absent => nomatch absent
  begins := begins

/-- The first pass over the prompt stops at its last page, the second is its
tail. -/
theorem prompt_prefilled :
    Prefilled plainConfig roomyAdder 0 70 0 [⟨0, 64⟩, ⟨64, 70⟩] 70 := by
  have first : Prefilled plainConfig roomyAdder 0 70 0 [⟨0, 64⟩] 64 :=
    .scheduled (promptAdder 0) (.one false none) .start (by decide)
      (promptAdder_ready 0 (.cold rfl rfl rfl)) (by decide)
  exact .scheduled (promptAdder 64) .chunked first (by decide)
    (promptAdder_ready 64 (.continued 0 rfl (by decide) rfl)) (by decide)

/-- Exactly one chunk of the prompt ends at its last page. -/
theorem checkpoint_never_skipped_example :
    [Chunk.mk 0 64, ⟨64, 70⟩].countP (fun chunk => chunk.stop = (70 : Int) / 64 * 64) = 1 :=
  (((checkpoint_never_skipped roomyAdder_documented rfl : _ ∧ _).2 0 70 0
    [⟨0, 64⟩, ⟨64, 70⟩] 70 (Or.inl rfl) (by decide) prompt_prefilled).2.2.2
      (by decide) (by decide)).2

end Example

end PrefixCache
end QSAHiSparse

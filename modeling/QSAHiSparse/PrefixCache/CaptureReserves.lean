import QSAHiSparse.PrefixCache.Carried
import QSAHiSparse.PrefixCache.Provision

namespace QSAHiSparse
namespace PrefixCache

open Foundation
open Ledger (QSAHiSparseLease)
open HostPrefix
open QSAHiSparse.Runtime (Machine)

/-!
# What the first step of a capture reserves

`capture_prefix` reserves the bytes of what its basis does not cover.  The basis
is the snapshot of an open reader, and stays that until the reservation is
closed.
-/

section Steps

variable {δ υ Element : Type} {machine : Machine δ} {config : PrefixConfig}
  {upstream : Upstream δ υ Element} {live : υ -> Finset Storage} {names : υ -> Finset Nat}
  {cache : QSAHostPrefixCache δ υ Element}

/-! ## Quiet calls -/

/-- Nothing but readers has been closed, and no capture has moved. -/
structure Quiet (start after : QSAHostPrefixCache δ υ Element) : Prop where
  host : Lasts none none start.host after.host
  captures : after.captures = start.captures

theorem Quiet.refl (start : QSAHostPrefixCache δ υ Element) : Quiet start start := ⟨.refl _, rfl⟩

theorem within_quiet {α : Type} (start : QSAHostPrefixCache δ υ Element)
    (program : Method (World δ υ Element) α) : Preserves (Quiet start) (within program) := by
  intro cache quiet
  have anywhere : Leaves (fun _ _ => True) (fun _ _ => True) (program.run cache.world) := by
    cases program.run cache.world <;> exact trivial
  apply (within_leaves program cache anywhere).mono
  · rintro _ _ ⟨world, rfl, _⟩
    exact ⟨quiet.host, quiet.captures⟩
  · rintro _ _ ⟨world, rfl, _⟩
    exact ⟨quiet.host, quiet.captures⟩

theorem Quiet.carried (machine : Machine δ) (config : PrefixConfig)
    (upstream : Upstream δ υ Element) (start : QSAHostPrefixCache δ υ Element) :
    Carried machine config upstream (Quiet start) where
  outward _ := within_quiet start _
  host _ _ lasts quiet := ⟨.trans _ _ _ quiet.host lasts, quiet.captures⟩
  books _ _ _ quiet := ⟨quiet.host, quiet.captures⟩
  logged _ _ _ quiet := ⟨quiet.host, quiet.captures⟩

theorem notePrefixBasis_quiet (start : QSAHostPrefixCache δ υ Element) (req : Nat)
    (snapshot : PrefixSnapshot PrefixNamespace Element) (entryId : Option Nat) :
    Preserves (Quiet start) (notePrefixBasis req snapshot entryId) := by
  refine Preserves.get_bind fun cache => ?_
  split
  · exact Preserves.throw _
  · refine Preserves.bind (within_quiet start _) fun lease => ?_
    exact Preserves.modify fun _ quiet => ⟨quiet.host, quiet.captures⟩

theorem maybeHandToSession_quiet (machine : Machine δ) (config : PrefixConfig)
    (upstream : Upstream δ υ Element) (start : QSAHostPrefixCache δ υ Element) (req : Nat) :
    Preserves (Quiet start) (maybeHandToSession machine config upstream req) := by
  have carried := Quiet.carried machine config upstream start
  have restores : forall handle reader,
      Preserves (Quiet start) (restoreReader machine config upstream req handle reader) := by
    intro handle reader
    refine Preserves.bind (Carried.readSnapshot reader) fun snapshot => ?_
    refine Preserves.get_bind fun cache => ?_
    refine Preserves.bind (Preserves.raiseIf _ _) fun _ => ?_
    refine Preserves.bind ?_ fun _ => ?_
    · refine Preserves.bind (within_quiet start _) fun stream => ?_
      refine Preserves.modify fun _ quiet => ?_
      have noted := carried.updateRecord quiet handle fun record =>
        { record with restoreStream := some stream }
      exact ⟨noted.host, noted.captures⟩
    · refine Preserves.bind (within_quiet start _) fun _ => ?_
      refine Preserves.bind (Preserves.modify fun _ quiet =>
        ⟨quiet.host, quiet.captures⟩) fun _ => ?_
      refine Preserves.get_bind fun state => ?_
      refine Preserves.bind (notePrefixBasis_quiet start req snapshot _) fun _ => ?_
      refine Preserves.bind (carried.closeReader reader) fun _ => ?_
      exact Preserves.modify fun _ quiet => carried.popMatch quiet _
  refine Preserves.bind (within_quiet start _) fun _ => ?_
  refine Preserves.get_bind fun cache => ?_
  dsimp only
  cases cache.restoring.get? (cache.handle req) with
  | none => exact Preserves.pure _
  | some record =>
      have last : Preserves (Quiet start) (modify fun self => self.popRecord (cache.handle req) :
          Method (QSAHostPrefixCache δ υ Element) PUnit) :=
        Preserves.modify fun _ quiet => carried.popRecord quiet _
      dsimp only
      cases record.reader with
      | none => exact last
      | some reader => exact Preserves.bind (restores _ reader) fun _ => last

/-! ## The first step -/

/-- The world is the same as well. -/
structure Still (start after : QSAHostPrefixCache δ υ Element) : Prop extends Quiet start after where
  world : after.world = start.world

theorem Still.refl (start : QSAHostPrefixCache δ υ Element) : Still start start :=
  ⟨.refl start, rfl⟩

theorem Still.setHost (still : Still start cache) {host : PrefixObjects PrefixNamespace Element}
    (lasts : Lasts none none cache.host host) : Still start { cache with host } :=
  ⟨⟨.trans _ _ _ still.host lasts, still.captures⟩, still.world⟩

theorem closeReader_still (start : QSAHostPrefixCache δ υ Element) (reader : Nat) :
    Preserves (Still start) (PrefixCache.closeReader reader) := by
  refine Preserves.bind (Preserves.modify fun _ still => ⟨⟨still.host, still.captures⟩, still.world⟩)
    fun _ => ?_
  intro cache still
  apply (hostObjects.leaves_zoom _ _).mpr
  apply ((closeReader_lasts reader).leaves cache.host).mono
  · exact fun _ _ lasts => still.setHost lasts
  · exact fun _ _ lasts => still.setHost lasts

theorem closeAny_still (start : QSAHostPrefixCache δ υ Element) (reader : Option Nat) :
    Preserves (Still start) (PrefixCache.closeAny reader) := by
  cases reader with
  | none => exact Preserves.pure _
  | some reader => exact closeReader_still start reader

/-- The reader, if there is one, reads a prefix of the tokens. -/
def Reading (start : QSAHostPrefixCache δ υ Element) (tokens : Bytes) (reader : Option Nat)
    (cache : QSAHostPrefixCache δ υ Element) : Prop :=
  Still start cache ∧ forall position, reader = some position ->
    exists snapshot, cache.host.snapshotAt position = some snapshot ∧
      snapshot.tokens.contents <+: tokens

theorem acquireBasis_reading (start : QSAHostPrefixCache δ υ Element)
    (namespaceKey : PrefixNamespace) (tokens : Bytes) (limit : Option Int)
    (identity : Option ImagePrefixIdentity) :
    Ensures (Still start) (acquireBasis namespaceKey tokens limit identity)
      (Reading start tokens) (fun _ => Still start) := by
  intro cache still
  apply (hostObjects.leaves_zoom _ _).mpr
  apply (acquire_lasts namespaceKey tokens limit false identity cache.host).mono
  · rintro found host ⟨lasts, reads⟩
    exact ⟨still.setHost lasts, reads⟩
  · exact fun _ _ lasts => still.setHost lasts

theorem keepBasis_reading (start : QSAHostPrefixCache δ υ Element) (fields : PrefixFields)
    (tokens : Bytes) (reader : Option Nat) :
    Ensures (Reading start tokens reader) (keepBasis fields reader) (Reading start tokens)
      (fun _ => Still start) := by
  intro cache reading
  cases reader with
  | none => exact reading
  | some reader =>
      apply (Leaves.bind_iff _ _ _).mpr
      apply (Leaves.get_iff _).mpr
      by_cases basis : cache.readsBasis fields reader = true
      · rw [if_pos basis]
        exact reading
      · rw [if_neg basis]
        apply (Leaves.bind_iff _ _ _).mpr
        apply (closeReader_still start reader cache reading.1).mono
        · exact fun _ _ still => ⟨still, nofun⟩
        · exact fun _ _ still => still

theorem ownBasis_reading (start : QSAHostPrefixCache δ υ Element) (fields : PrefixFields)
    (namespaceKey : PrefixNamespace) (tokens : Bytes) (identity : Option ImagePrefixIdentity)
    (longest : Option Nat) :
    Ensures (Reading start tokens longest)
      (ownBasis fields namespaceKey tokens identity longest) (Reading start tokens)
      (fun _ => Still start) := by
  apply Ensures.bind (keepBasis_reading start fields tokens longest)
  intro kept
  by_cases again : kept = none ∧ longest ≠ none ∧ fields.basisLength ≠ 0
  · rw [if_pos again]
    intro cache reading
    apply (Leaves.bind_iff _ _ _).mpr
    apply (acquireBasis_reading start namespaceKey tokens _ identity cache reading.1).mono
    · exact fun shorter between found => keepBasis_reading start fields tokens shorter between found
    · exact fun _ _ => id
  · rw [if_neg again]
    exact fun cache reading => reading

/-- Nothing is copied, and the reservation that the stage holds was made for what
it is to copy. -/
def Reserves (config : PrefixConfig) (start : QSAHostPrefixCache δ υ Element)
    (tokens : BytesObject) (length : Nat) (stage : CaptureStage Element)
    (after : QSAHostPrefixCache δ υ Element) : Prop :=
  stage.snapshot = none ∧ forall reservation, stage.possession.reservation = some reservation ->
    start.host.reservations.length ≤ reservation ∧
      forall frame : CaptureFrame Element, frame.tokens = tokens -> frame.length = length ->
        frame.stage = stage -> Provided config frame [] reservation after.host

theorem Reserves.nothing (config : PrefixConfig) (start : QSAHostPrefixCache δ υ Element)
    (tokens : BytesObject) (length : Nat) (after : QSAHostPrefixCache δ υ Element) :
    Reserves config start tokens length (.captured none) after :=
  ⟨rfl, nofun⟩

theorem reserveBeyond_reserves (config : PrefixConfig) (start : QSAHostPrefixCache δ υ Element)
    (identity : Option ImagePrefixIdentity) {tokens : BytesObject} {length : Nat}
    (encoded : tokens.length = length * 8) (positive : 0 < length) (paged : length % 64 = 0)
    (basis : Option Nat) :
    Ensures (Reading start tokens.contents basis) (reserveBeyond config identity length basis)
      (fun stage after => Still start after ∧ Reserves config start tokens length stage after)
      (fun _ => Still start) := by
  rintro cache ⟨still, reads⟩
  -- What the basis covers, as the reservation will find it.
  have covered : exists ancestor : Option (PrefixSnapshot PrefixNamespace Element),
      (ancestorOf basis).run cache = .ok ancestor cache ∧
        BasisCovers cache.host ((ancestor.map PrefixSnapshot.length).getD 0)
          ((ancestor.map PrefixSnapshot.segments).getD []) basis ∧
        (ancestor.map PrefixSnapshot.length).getD 0 ≤ length := by
    cases basis with
    | none => exact ⟨none, rfl, ⟨rfl, rfl⟩, Nat.zero_le _⟩
    | some reader =>
        rcases reads reader rfl with ⟨snapshot, isOpen, starts⟩
        refine ⟨some snapshot, ?_, ⟨snapshot, isOpen, rfl, rfl⟩, ?_⟩
        · unfold ancestorOf
          rw [run_map, readSnapshot_run isOpen]
        · have shorter := starts.length_le
          unfold BytesObject.length at encoded
          change snapshot.tokens.contents.length / 8 ≤ length
          omega
  rcases covered with ⟨ancestor, read, covers, within⟩
  apply (Leaves.bind_iff _ _ _).mpr
  rw [read]
  apply (Leaves.bind_iff _ _ _).mpr
  apply (hostObjects.leaves_zoom _ _).mpr
  apply (reserve_lasts _ cache.host).mono
  · rintro made host ⟨lasts, readers, granted⟩
    have reserved : Still start (hostObjects.set host cache) := still.setHost lasts
    cases made with
    | none =>
        apply (Leaves.bind_iff _ _ _).mpr
        apply (closeAny_still start basis _ reserved).mono
        · exact fun _ after stillAfter => ⟨stillAfter, .nothing _ _ _ _ _⟩
        · exact fun _ _ => id
    | some reservation =>
        rcases granted reservation rfl with ⟨isLast, found⟩
        have old : start.host.reservations.length ≤ reservation := by
          rw [isLast]
          apply Nat.le_of_not_lt
          intro fewer
          rcases List.getElem?_eq_some_iff.mpr ⟨fewer, rfl⟩ with present
          have lost := still.host.reservations _ _ nofun present
          have bound := (List.getElem?_eq_some_iff.mp lost).1
          exact absurd bound (Nat.lt_irrefl _)
        have last : Lasts none none start.host
            (finalState ((setBasisReader reservation basis).run host)) :=
          reserved.host.beyond (setBasisReader_lasts reservation basis host) old
        apply (Leaves.bind_iff _ _ _).mpr
        apply (Leaves.modify_iff _ _).mpr
        apply (Leaves.bind_iff _ _ _).mpr
        apply (hostObjects.leaves_zoom _ _).mpr
        refine ⟨⟨⟨last, still.captures⟩, still.world⟩, rfl, ?_⟩
        rintro _ ⟨⟩
        refine ⟨old, fun frame sameTokens sameLength stage => ?_⟩
        refine ⟨⟨config.checkpointBytes
            ((length - (ancestor.map PrefixSnapshot.length).getD 0 : Nat) : Int) length,
            cache.host.cache.epoch, true, basis⟩,
          (ancestor.map PrefixSnapshot.length).getD 0,
          (ancestor.map PrefixSnapshot.segments).getD [],
          ⟨?_, rfl, ?_, ?_, ?_, ?_, ?_, ?_⟩, ?_⟩
        · change (host.reservations.modify reservation _)[reservation]? = _
          rw [List.getElem?_modify_eq, found]
          rfl
        · rw [sameLength]
        · cases basis with
          | none => exact covers
          | some reader =>
              rcases covers with ⟨snapshot, isOpen, covers⟩
              refine ⟨snapshot, ?_, covers⟩
              exact (snapshotAt_congr readers reader).trans isOpen
        · rw [sameTokens, sameLength]
          exact encoded
        · rw [sameLength]
          exact positive
        · rw [sameLength]
          exact paged
        · rw [sameLength]
          exact within
        · rw [stage]
          exact ⟨rfl, rfl, rfl⟩
  · exact fun _ _ lasts => still.setHost lasts

/-- A boundary is the length of the lease, and whole pages. -/
theorem boundaryOf_leaves (lease : QSAHiSparseLease) (cache : QSAHostPrefixCache δ υ Element) :
    Leaves
      (fun boundary after => after = cache ∧ forall length, boundary = some length ->
        length = (cache.world.runtime.caches lease).seqLen ∧ length ≠ 0 ∧ length % 64 = 0)
      (fun _ after => after = cache) ((boundaryOf lease).run cache) := by
  apply (Leaves.bind_iff _ _ _).mpr
  apply (Leaves.get_iff _).mpr
  apply (Leaves.bind_iff _ _ _).mpr
  apply (Leaves.getItem_iff _ _ _).mpr
  refine ⟨fun _ => rfl, fun phase _ => ?_⟩
  dsimp only
  split
  · exact ⟨rfl, nofun⟩
  · rename_i accepted
    refine ⟨rfl, ?_⟩
    rintro _ ⟨⟩
    rw [not_or, not_or] at accepted
    exact ⟨rfl, accepted.2.1, not_not.mp accepted.2.2⟩

theorem reserveCheckpoint_reserves (config : PrefixConfig)
    (start : QSAHostPrefixCache δ υ Element) (lease : QSAHiSparseLease) (req : Nat)
    (namespaceKey : PrefixNamespace) (tokens : BytesObject) :
    Leaves
      (fun stage after => Still start after ∧
        Reserves config start tokens (start.world.runtime.caches lease).seqLen.toNat stage after)
      (fun _ => Still start) ((reserveCheckpoint config lease req namespaceKey tokens).run start) := by
  have refl := Still.refl start
  apply (Leaves.bind_iff _ _ _).mpr
  apply (boundaryOf_leaves lease start).mono
  · rintro boundary state ⟨stays, reached⟩
    rw [stays]
    cases boundary with
    | none => exact ⟨refl, .nothing _ _ _ _ _⟩
    | some length =>
        rcases reached length rfl with ⟨same, nonzero, paged⟩
        apply (Leaves.bind_iff _ _ _).mpr
        apply (Leaves.get_iff _).mpr
        split
        · exact ⟨refl, .nothing _ _ _ _ _⟩
        · apply (Leaves.bind_iff _ _ _).mpr
          apply (Leaves.raiseIf_iff _ _ _).mpr
          refine ⟨fun _ => refl, fun equal => ?_⟩
          have encoded := not_not.mp equal
          rw [← same]
          have natural : (length.toNat : Int) = length := by omega
          have tokenCount : tokens.length = length.toNat * 8 := by omega
          apply (Leaves.bind_iff _ _ _).mpr
          apply ((imageIdentity_reads _).leaves _).mono
          · intro identity state stays
            rw [stays]
            apply (Leaves.bind_iff _ _ _).mpr
            apply (acquireBasis_reading _ namespaceKey tokens.contents none identity _ refl).mono
            · intro longest found reading
              apply (Leaves.bind_iff _ _ _).mpr
              have reads : Preserves (Reading start tokens.contents longest) (ancestorOf longest) := by
                cases longest with
                | none => exact Preserves.pure _
                | some reader =>
                    intro state holds
                    unfold ancestorOf
                    rw [run_map]
                    have kept := (readSnapshot_reads reader).leaves state
                    cases ran : (readSnapshot reader).run state with
                    | ok snapshot last =>
                        rw [ran] at kept
                        cases kept
                        exact holds
                    | error cause last =>
                        rw [ran] at kept
                        cases kept
                        exact holds
              apply (reads found reading).mono
              · intro ancestor between held
                by_cases whole :
                    ancestor.map (fun snapshot => (snapshot.length : Int)) = some length
                · rw [if_pos whole]
                  apply (Leaves.bind_iff _ _ _).mpr
                  apply (closeAny_still start longest _ held.1).mono
                  · exact fun _ _ still => ⟨still, .nothing _ _ _ _ _⟩
                  · exact fun _ _ => id
                · rw [if_neg whole]
                  apply (Leaves.bind_iff _ _ _).mpr
                  apply (ownBasis_reading start _ namespaceKey tokens.contents _ longest _
                    held).mono
                  · exact fun basis last basisHeld => reserveBeyond_reserves config start _
                      tokenCount (by omega) (by omega) basis last basisHeld
                  · exact fun _ _ => id
              · exact fun _ _ held => held.1
            · exact fun _ _ still => still
          · intro cause state stays
            rw [stays]
            exact refl
  · intro cause state stays
    rw [stays]
    exact refl

/-- A capture has begun. -/
structure Begun (config : PrefixConfig) (live : υ -> Finset Storage) (names : υ -> Finset Nat)
    (start : QSAHostPrefixCache δ υ Element) (frame : CaptureFrame Element)
    (after : QSAHostPrefixCache δ υ Element) : Prop where
  host : Lasts none none start.host after.host
  captures : after.captures = start.captures ++ [frame]
  storages : live start.world.upstream ⊆ live after.world.upstream
  identities : names start.world.upstream ⊆ names after.world.upstream
  unnamed : frame.tokens.identity ∉ names start.world.upstream
  named : frame.tokens.identity ∈ names after.world.upstream
  copies : frame.stage.snapshot = none
  reserves : forall reservation, frame.stage.possession.reservation = some reservation ->
    start.host.reservations.length ≤ reservation ∧ Provided config frame [] reservation after.host

theorem captureRow_leaves (req : Nat) (cache : QSAHostPrefixCache δ υ Element) :
    Leaves
      (fun row after => after = cache ∧ forall length, row = some length ->
        exists lease,
          (cache.request req).kv.reqPoolIdx.bind cache.world.runtime.requests.get? = some lease ∧
            length = (cache.world.runtime.caches lease).seqLen)
      (fun _ after => after = cache) ((captureRow req).run cache) := by
  apply (Leaves.bind_iff _ _ _).mpr
  apply (Leaves.get_iff _).mpr
  cases found : (cache.request req).kv.reqPoolIdx.bind cache.world.runtime.requests.get? with
  | none => exact ⟨rfl, nofun⟩
  | some lease =>
      apply (boundaryOf_leaves lease cache).mono
      · rintro row after ⟨stays, reached⟩
        exact ⟨stays, fun length same => ⟨lease, rfl, (reached length same).1⟩⟩
      · exact fun _ _ => id

/-- The first step returns at once, or a capture begins. -/
theorem beginCapture_begins (allocator : Allocator upstream live names) (req : Nat)
    (cache : QSAHostPrefixCache δ υ Element) :
    Leaves
      (fun begun after => match begun with
        | none => after = cache
        | some _ => exists frame, Begun config live names cache frame after)
      (fun _ => Quiet cache) ((beginCapture config upstream req).run cache) := by
  apply (Leaves.bind_iff _ _ _).mpr
  apply (Leaves.get_iff _).mpr
  cases cache.namespaceOf config (cache.request req) with
  | none => exact rfl
  | some namespaceKey =>
      by_cases skipped : (cache.request req).skipRadixCacheInsert = true
      · simp only [if_pos skipped]
        exact rfl
      · simp only [if_neg skipped]
        apply (Leaves.bind_iff _ _ _).mpr
        apply (captureRow_leaves req cache).mono
        · rintro row state ⟨stays, reached⟩
          rw [stays]
          cases row with
          | none => exact rfl
          | some length =>
              rcases reached length rfl with ⟨lease, row, same⟩
              apply (Leaves.bind_iff _ _ _).mpr
              apply (within_leaves _ cache (allocator.newBytes cache.world)).mono
              · rintro identity _ ⟨world, rfl, unnamed, named, identities, storages, runtime, requests⟩
                apply (Leaves.bind_iff _ _ _).mpr
                apply (requestLease_leaves req (cache.reach world)).mono
                · rintro again state ⟨stays, found⟩
                  rw [stays]
                  have sameLease : again = lease := by
                    change ((world.requests req).kv.reqPoolIdx.bind world.runtime.requests.get?) =
                      some again at found
                    rw [requests, runtime] at found
                    exact Option.some.inj (found.symm.trans row)
                  apply (Leaves.bind_iff _ _ _).mpr
                  apply (reserveCheckpoint_reserves config (cache.reach world) again req
                    namespaceKey _).mono
                  · rintro stage last ⟨still, copies, reserves⟩
                    let tokens : BytesObject :=
                      ⟨identity, tokenBytes (upTo (cache.request req).fullUntruncatedFillIds length)⟩
                    refine ⟨⟨req, again, namespaceKey, tokens, length.toNat, stage⟩,
                      ⟨still.host, ?_, ?_, ?_, unnamed, ?_, copies, ?_⟩⟩
                    · exact congrArg (· ++ _) still.captures
                    · exact storages.trans (congrArg (fun world => live world.upstream) still.world).ge
                    · exact identities.trans
                        (congrArg (fun world => names world.upstream) still.world).ge
                    · exact (congrArg (fun world => names world.upstream) still.world).ge named
                    · intro reservation possesses
                      rcases reserves reservation possesses with ⟨old, provided⟩
                      refine ⟨old, provided _ rfl ?_ rfl⟩
                      change length.toNat = (world.runtime.caches again).seqLen.toNat
                      rw [runtime, sameLease, same]
                  · exact fun _ _ still => ⟨still.host, still.captures⟩
                · intro cause state stays
                  rw [stays]
                  exact ⟨.refl _, rfl⟩
              · rintro cause _ ⟨world, rfl, _⟩
                exact ⟨.refl _, rfl⟩
        · intro cause state stays
          rw [stays]
          exact .refl cache

end Steps

end PrefixCache
end QSAHiSparse

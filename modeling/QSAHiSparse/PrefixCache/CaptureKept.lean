import QSAHiSparse.PrefixCache.Kept
import QSAHiSparse.Runtime.Steady

namespace QSAHiSparse
namespace PrefixCache

open Foundation
open Ledger (QSAHiSparseLease)
open HostPrefix
open QSAHiSparse.Runtime (Machine request_matches request_reads)

/-!
# Captures keep the invariant

A capture holds a reader, then a reservation that has taken the reader over, and
it gives both back however it ends.  The laws of the steps are stated for any
account of what is held: an account is a fact about the host cache that follows
the acquisitions, the closes, the reservation and the publication.
-/

/-- What a capture holds, and what it has published. -/
structure Possession where
  reader : Option Nat
  reservation : Option Nat
  entry : Option Nat

def Possession.nothing : Possession := ⟨none, none, none⟩

section Accounts

variable {Element : Type}

/-- A fact that follows what a capture holds. -/
structure Account (account : Possession -> PrefixObjects PrefixNamespace Element -> Prop) :
    Prop where
  acquired : forall before after found, account .nothing before -> Acquired before after found ->
    account ⟨found, none, none⟩ after
  closed : forall before after reader, account ⟨some reader, none, none⟩ before ->
    ReaderClosed before after reader -> account .nothing after
  reserved : forall before after reader made, account ⟨reader, none, none⟩ before ->
    Reserved before after made -> account ⟨reader, made, none⟩ after
  based : forall before after reader position reservation,
    account ⟨reader, some position, none⟩ before ->
      before.reservations[position]? = some reservation -> reservation.active = true ->
        reservation.basisReader = none -> BasisSet before after position reader ->
          account ⟨none, some position, none⟩ after
  published : forall before after position entryId snapshot,
    account ⟨none, some position, none⟩ before ->
      Published before after position entryId snapshot ->
        account ⟨none, some position, some entryId⟩ after
  released : forall before after position entry, account ⟨none, some position, entry⟩ before ->
    Lessens before after -> ReservationClosed before after position ->
      account ⟨none, some position, entry⟩ after ∧ account ⟨none, none, entry⟩ after

/-- No account is kept. -/
theorem Account.free :
    Account fun (_ : Possession) (_ : PrefixObjects PrefixNamespace Element) => True where
  acquired _ _ _ _ _ := trivial
  closed _ _ _ _ _ := trivial
  reserved _ _ _ _ _ _ := trivial
  based _ _ _ _ _ _ _ _ _ _ := trivial
  published _ _ _ _ _ _ _ := trivial
  released _ _ _ _ _ _ _ := ⟨trivial, trivial⟩

end Accounts

section Capture

variable {δ υ Element : Type} {cache after : QSAHostPrefixCache δ υ Element}
  {account : Possession -> PrefixObjects PrefixNamespace Element -> Prop}
  (machine : Machine δ) (config : PrefixConfig) (upstream : Upstream δ υ Element)

/-! ## Reads -/

theorem reach_self (cache : QSAHostPrefixCache δ υ Element) : cache.reach cache.world = cache := by
  have nothing : cache.newLeases cache.world = [] := by
    apply List.filter_eq_nil_iff.mpr
    intro lease member
    simpa using member
  unfold QSAHostPrefixCache.reach
  simp only [nothing, List.not_mem_nil, if_false, List.map_nil, List.append_nil]

theorem requestLease_leaves (req : Nat) (cache : QSAHostPrefixCache δ υ Element) :
    Leaves
      (fun lease after => after = cache ∧
        (cache.request req).kv.reqPoolIdx.bind cache.world.runtime.requests.get? = some lease)
      (fun _ after => after = cache) ((requestLease req).run cache) := by
  unfold requestLease
  apply (Leaves.bind_iff _ _ _).mpr
  apply (Leaves.get_iff _).mpr
  cases (cache.request req).kv.reqPoolIdx with
  | none => exact rfl
  | some reqIdx =>
      have zoomed : Leaves
          (fun lease world => world = cache.world ∧
            cache.world.runtime.requests.get? reqIdx = some lease)
          (fun _ world => world = cache.world)
          ((runtimePart.zoom (Runtime.request reqIdx (cache.request req).rid)).run cache.world) := by
        apply (runtimePart.leaves_zoom _ cache.world).mpr
        have reads := (request_reads reqIdx (cache.request req).rid).leaves cache.world.runtime
        apply (reads.and (request_matches reqIdx (cache.request req).rid cache.world.runtime)).mono
        · rintro lease _ ⟨rfl, found, _⟩
          exact ⟨rfl, found⟩
        · rintro cause _ ⟨rfl, _⟩
          rfl
      apply (within_leaves _ cache zoomed).mono
      · rintro lease _ ⟨world, rfl, same, found⟩
        rw [same, reach_self]
        exact ⟨rfl, found⟩
      · rintro cause _ ⟨world, rfl, same⟩
        rw [same, reach_self]

theorem boundaryOf_reads (lease : QSAHiSparseLease) :
    Reads (boundaryOf lease : Method (QSAHostPrefixCache δ υ Element) _) := by
  apply Reads.of_preserves
  intro start
  refine Preserves.get_bind fun state => ?_
  refine Preserves.bind (Preserves.getItem _ _) fun phase => ?_
  dsimp only
  split <;> exact Preserves.pure _

theorem captureRow_reads (req : Nat) :
    Reads (captureRow req : Method (QSAHostPrefixCache δ υ Element) _) := by
  apply Reads.of_preserves
  intro start
  refine Preserves.get_bind fun state => ?_
  split
  · exact Preserves.pure _
  · exact (boundaryOf_reads _).preserves

theorem ancestorOf_run {loose : Option Nat} (kept : Kept loose cache) :
    exists ancestor, (ancestorOf loose).run cache = .ok ancestor cache ∧
      ancestor = loose.bind cache.host.snapshotAt := by
  cases loose with
  | none => exact ⟨none, rfl, rfl⟩
  | some reader =>
      rcases kept.called_open with ⟨snapshot, isOpen⟩
      refine ⟨some snapshot, ?_, isOpen.symm⟩
      unfold ancestorOf
      rw [run_map, readSnapshot_run isOpen]

/-! ## The basis -/

/-- A capture of a request whose lease was granted in the present epoch. -/
structure Capturing (account : Possession -> PrefixObjects PrefixNamespace Element -> Prop)
    (lease : QSAHiSparseLease) (held : Possession) (cache : QSAHostPrefixCache δ υ Element) :
    Prop where
  kept : Kept held.reader cache
  accounted : account held cache.host
  granted : (cache.host.cache.epoch, PrefixEvent.granted lease) ∈ cache.history

variable (rules : Account account) (lease : QSAHiSparseLease)

include rules in
theorem acquireBasis_ensures (namespaceKey : PrefixNamespace) (tokens : Bytes) (limit : Option Int)
    (identity : Option ImagePrefixIdentity) :
    Ensures (Capturing account lease .nothing : QSAHostPrefixCache δ υ Element -> Prop)
      (acquireBasis namespaceKey tokens limit identity)
      (fun found => Capturing account lease ⟨found, none, none⟩)
      (fun _ => Capturing account lease .nothing) := by
  rintro cache ⟨kept, accounted, granted⟩
  apply (acquire_leaves kept.owned.conserved namespaceKey tokens limit false identity).mono
  · rintro found _ ⟨host, rfl, acquired⟩
    refine ⟨kept.acquired acquired, rules.acquired _ _ _ accounted acquired, ?_⟩
    change (host.cache.epoch, _) ∈ cache.history
    rw [acquired.epoch]
    exact granted
  · rintro cause _ rfl
    exact ⟨kept, accounted, granted⟩

include rules in
theorem closeAny_captures {reader : Option Nat}
    (capturing : Capturing account lease ⟨reader, none, none⟩ cache) :
    exists after, (closeAny reader).run cache = .ok ⟨⟩ after ∧
      Capturing account lease .nothing after := by
  cases reader with
  | none => exact ⟨cache, rfl, capturing⟩
  | some reader =>
      rcases closeReader_run capturing.kept.owned.conserved reader with ⟨host, ran, closed⟩
      refine ⟨_, ran, capturing.kept.close closed,
        rules.closed _ _ _ capturing.accounted closed, ?_⟩
      change (host.cache.epoch, _) ∈ cache.history ++ _
      rw [closed.epoch]
      exact List.mem_append_left _ capturing.granted

include rules in
theorem keepBasis_ensures (fields : PrefixFields) (reader : Option Nat) :
    Ensures (Capturing account lease ⟨reader, none, none⟩ : QSAHostPrefixCache δ υ Element -> Prop)
      (keepBasis fields reader) (fun kept => Capturing account lease ⟨kept, none, none⟩)
      (fun _ => Capturing account lease .nothing) := by
  intro cache capturing
  cases reader with
  | none => exact capturing
  | some reader =>
      apply (Leaves.bind_iff _ _ _).mpr
      apply (Leaves.get_iff _).mpr
      by_cases basis : cache.readsBasis fields reader = true
      · rw [if_pos basis]
        exact capturing
      · rw [if_neg basis]
        rcases closeAny_captures rules lease capturing with ⟨after, ran, closed⟩
        apply (Leaves.bind_iff _ _ _).mpr
        change Leaves _ _ ((closeAny (some reader)).run cache)
        rw [ran]
        exact closed

include rules in
theorem ownBasis_ensures (fields : PrefixFields) (namespaceKey : PrefixNamespace) (tokens : Bytes)
    (identity : Option ImagePrefixIdentity) (longest : Option Nat) :
    Ensures (Capturing account lease ⟨longest, none, none⟩ : QSAHostPrefixCache δ υ Element -> Prop)
      (ownBasis fields namespaceKey tokens identity longest)
      (fun basis => Capturing account lease ⟨basis, none, none⟩)
      (fun _ => Capturing account lease .nothing) := by
  apply Ensures.bind (keepBasis_ensures rules lease fields longest)
  intro kept
  by_cases again : kept = none ∧ longest ≠ none ∧ fields.basisLength ≠ 0
  · rw [if_pos again, again.1]
    apply Ensures.bind (acquireBasis_ensures rules lease namespaceKey tokens _ identity)
    exact fun shorter => keepBasis_ensures rules lease fields shorter
  · rw [if_neg again]
    exact fun cache capturing => capturing

/-! ## The reservation -/

/-- What a capture holds at a stage. -/
def CaptureStage.possession : CaptureStage Element -> Possession
  | .reserved reservation _ _ _ => ⟨none, some reservation, none⟩
  | .captured result | .converged result => ⟨none, result.map Prod.fst, none⟩
  | .finished => .nothing

/-- A capture has reached a stage. -/
structure Staged (account : Possession -> PrefixObjects PrefixNamespace Element -> Prop)
    (lease : QSAHiSparseLease) (stage : CaptureStage Element)
    (cache : QSAHostPrefixCache δ υ Element) : Prop where
  kept : Kept none cache
  accounted : account stage.possession cache.host
  dated : forall frame : CaptureFrame Element, frame.lease = lease -> frame.stage = stage ->
    frame.Dated cache.history

/-- A capture that made no reservation. -/
theorem Staged.unreserved (kept : Kept none cache) (accounted : account .nothing cache.host) :
    Staged account lease (.captured none) cache where
  kept := kept
  accounted := accounted
  dated := by
    intro frame _ stage
    unfold CaptureFrame.Dated
    rw [stage]
    exact trivial

include rules in
theorem reserveBeyond_ensures (identity : Option ImagePrefixIdentity) (length : Nat)
    (basis : Option Nat) :
    Ensures (Capturing account lease ⟨basis, none, none⟩ : QSAHostPrefixCache δ υ Element -> Prop)
      (reserveBeyond config identity length basis) (Staged account lease) (fun _ _ => False) := by
  intro cache capturing
  rcases ancestorOf_run capturing.kept with ⟨ancestor, read, _⟩
  apply (Leaves.bind_iff _ _ _).mpr
  rw [read]
  apply (Leaves.bind_iff _ _ _).mpr
  rcases reserve_hands capturing.kept.owned.conserved (config.checkpointBytes
    ((length - (ancestor.map PrefixSnapshot.length).getD 0 : Nat) : Int) length) with
      ⟨made, host, ran, reserved⟩
  rw [hostObjects.zoom_ok ran, Leaves.ok_iff]
  have counted := rules.reserved _ _ _ _ capturing.accounted reserved
  cases made with
  | none =>
      have refused : Capturing account lease ⟨basis, none, none⟩ (hostObjects.set host cache) := by
        refine ⟨capturing.kept.refuse reserved, counted, ?_⟩
        change (host.cache.epoch, _) ∈ cache.history
        rw [reserved.epoch]
        exact capturing.granted
      rcases closeAny_captures rules lease refused with ⟨after, closed, idle⟩
      apply (Leaves.bind_iff _ _ _).mpr
      rw [closed]
      exact .unreserved lease idle.kept idle.accounted
  | some reservation =>
      rcases reserved.granted reservation rfl with ⟨isLast, size, appended⟩
      have found : host.reservations[reservation]? =
          some ⟨size, cache.host.cache.epoch, true, none⟩ := by
        rw [appended, isLast, List.getElem?_append_right (Nat.le_refl _), Nat.sub_self]
        rfl
      have noted := capturing.kept.reserve reserved
      dsimp only
      apply (Leaves.bind_iff _ _ _).mpr
      apply (Leaves.modify_iff _ _).mpr
      rcases setBasisReader_sets noted.owned.conserved reservation basis with ⟨last, sets, set⟩
      have placed : (hostObjects.zoom (setBasisReader reservation basis)).run
          ((hostObjects.set host cache).log (.reserved reservation)) =
            .ok ⟨⟩ (hostObjects.set last ((hostObjects.set host cache).log (.reserved reservation))) :=
        hostObjects.zoom_ok sets
      apply (Leaves.bind_iff _ _ _).mpr
      rw [placed]
      refine ⟨noted.setBasis found rfl rfl set, rules.based _ _ _ _ _ counted found rfl rfl set, ?_⟩
      intro frame sameLease stage
      unfold CaptureFrame.Dated
      rw [stage, sameLease]
      refine ⟨cache.host.cache.epoch, ?_⟩
      change List.Sublist _ (cache.history ++ [(host.cache.epoch, _)])
      rw [reserved.epoch]
      exact sublist_concat (List.singleton_sublist.mpr capturing.granted) _

/-- Between the steps of a capture, or after it. -/
def Idle (account : Possession -> PrefixObjects PrefixNamespace Element -> Prop)
    (held : Possession) (cache : QSAHostPrefixCache δ υ Element) : Prop :=
  Kept none cache ∧ account held cache.host

theorem Idle.apart (account : Possession -> PrefixObjects PrefixNamespace Element -> Prop)
    (held : Possession) : Apart (Idle account held : QSAHostPrefixCache δ υ Element -> Prop) :=
  Kept.apart none fun host _ _ => account held host

include rules in
theorem reserveCheckpoint_leaves (idle : Idle account .nothing cache)
    (member : lease ∈ cache.world.runtime.requests.values) (req : Nat)
    (namespaceKey : PrefixNamespace) (tokens : BytesObject) :
    Leaves (Staged account lease) (fun _ => Idle account .nothing)
      ((reserveCheckpoint config lease req namespaceKey tokens).run cache) := by
  apply (Leaves.bind_iff _ _ _).mpr
  apply ((boundaryOf_reads lease).leaves cache).mono
  · intro boundary _ same
    rw [same]
    cases boundary with
    | none => exact .unreserved lease idle.1 idle.2
    | some length =>
        apply (Leaves.bind_iff _ _ _).mpr
        apply (Leaves.get_iff _).mpr
        by_cases stale : (cache.prefixes lease).prefixEpoch ≠ cache.host.cache.epoch
        · rw [if_pos stale]
          exact .unreserved lease idle.1 idle.2
        · rw [if_neg stale]
          apply (Leaves.bind_iff _ _ _).mpr
          apply (Leaves.raiseIf_iff _ _ _).mpr
          refine ⟨fun _ => idle, fun _ => ?_⟩
          apply (Leaves.bind_iff _ _ _).mpr
          apply ((imageIdentity_reads (cache.request req)).leaves cache).mono
          · intro identity _ same
            rw [same]
            have granted := idle.1.dated.granted lease member
            rw [not_not.mp stale] at granted
            apply (Leaves.bind_iff _ _ _).mpr
            apply (acquireBasis_ensures rules lease namespaceKey tokens.contents none identity cache
              ⟨idle.1, idle.2, granted⟩).mono
            · intro longest found capturing
              rcases ancestorOf_run capturing.kept with ⟨ancestor, read, _⟩
              apply (Leaves.bind_iff _ _ _).mpr
              rw [read, Leaves.ok_iff]
              by_cases whole : ancestor.map (fun snapshot => (snapshot.length : Int)) = some length
              · rw [if_pos whole]
                rcases closeAny_captures rules lease capturing with ⟨after, ran, closed⟩
                apply (Leaves.bind_iff _ _ _).mpr
                rw [ran]
                exact .unreserved lease closed.kept closed.accounted
              · rw [if_neg whole]
                apply (Leaves.bind_iff _ _ _).mpr
                apply (ownBasis_ensures rules lease _ namespaceKey tokens.contents identity longest
                  found capturing).mono
                · intro basis after based
                  exact (reserveBeyond_ensures config rules lease identity length.toNat basis after
                    based).mono (fun _ _ => id) fun _ _ => False.elim
                · exact fun _ _ left => ⟨left.kept, left.accounted⟩
            · exact fun _ _ left => ⟨left.kept, left.accounted⟩
          · intro cause _ same
            rw [same]
            exact idle
  · intro cause _ same
    rw [same]
    exact idle

/-! ## Steps -/

/-- A capture stands in the list at a stage. -/
structure Underway (account : Possession -> PrefixObjects PrefixNamespace Element -> Prop)
    (frame : Nat) (state : CaptureFrame Element) (cache : QSAHostPrefixCache δ υ Element) :
    Prop where
  kept : Kept none cache
  stands : cache.captures[frame]? = some state
  accounted : account state.stage.possession cache.host

theorem Underway.apart (account : Possession -> PrefixObjects PrefixNamespace Element -> Prop)
    (frame : Nat) (state : CaptureFrame Element) :
    Apart (Underway account frame state : QSAHostPrefixCache δ υ Element -> Prop) where
  reach _ world underway := ⟨underway.kept.reach world, underway.stands, underway.accounted⟩
  fields _ lease _ same underway :=
    ⟨underway.kept.setFields lease same, underway.stands, underway.accounted⟩

/-- What a capture has happened before it stands where it stands. -/
theorem Underway.dated {frame : Nat} {state : CaptureFrame Element}
    (underway : Underway account frame state cache) : state.Dated cache.history :=
  underway.kept.dated.frames state (List.mem_of_getElem? underway.stands)

/-- A capture goes to another stage. -/
theorem Kept.setStage (kept : Kept none cache) (frame : Nat) {stage : CaptureStage Element}
    (dated : forall state, cache.captures[frame]? = some state ->
      CaptureFrame.Dated cache.history { state with stage }) : Kept none (cache.setStage frame stage) := by
  apply kept.setCaptures
  intro state member
  rcases List.mem_iff_getElem?.mp member with ⟨position, found⟩
  rw [List.getElem?_modify] at found
  rcases Option.map_eq_some_iff.mp found with ⟨former, present, equal⟩
  by_cases same : frame = position
  · rw [same] at dated
    simp only [same, if_true] at equal
    rw [← equal]
    exact dated former present
  · simp only [same, if_false] at equal
    rw [← equal]
    exact kept.dated.frames former (List.mem_of_getElem? present)

theorem Underway.setStage {frame : Nat} {state : CaptureFrame Element}
    (underway : Underway account frame state cache) {stage : CaptureStage Element}
    (possession : stage.possession = state.stage.possession)
    (dated : CaptureFrame.Dated cache.history { state with stage }) :
    Underway account frame { state with stage } (cache.setStage frame stage) where
  kept := by
    apply underway.kept.setStage
    intro other found
    rw [underway.stands] at found
    cases found
    exact dated
  stands := by
    change (cache.captures.modify frame _)[frame]? = _
    rw [List.getElem?_modify_eq, underway.stands]
    rfl
  accounted := by
    change account stage.possession cache.host
    rw [possession]
    exact underway.accounted

include rules in
/-- Whatever a capture still holds is given back. -/
theorem abandonCapture_run (frame : Nat) {reservation entry : Option Nat}
    (idle : Idle account ⟨none, reservation, entry⟩ cache) :
    exists after, (abandonCapture frame reservation).run cache = .ok ⟨⟩ after ∧
      Idle account ⟨none, none, entry⟩ after := by
  have finished : Kept none (cache.setStage frame .finished) :=
    idle.1.setStage frame fun _ _ => trivial
  cases reservation with
  | none => exact ⟨_, rfl, finished, idle.2⟩
  | some reservation =>
      rcases closeReservation_run finished.owned.conserved reservation with
        ⟨host, ran, lessens, closed⟩
      refine ⟨_, ?_, finished.closeReservation lessens closed,
        (rules.released _ _ _ _ idle.2 lessens closed).2⟩
      unfold abandonCapture
      rw [EStateM.run_bind, run_modify]
      exact ran

/-! ## The four steps -/

include rules in
/-- The first step leaves the capture in the list, or holds nothing. -/
theorem beginCapture_ensures (req : Nat) :
    Ensures (Idle account .nothing : QSAHostPrefixCache δ υ Element -> Prop)
      (beginCapture config upstream req)
      (fun begun after => match begun with
        | none => Idle account .nothing after
        | some frame => exists state, Underway account frame state after)
      (fun _ => Idle account .nothing) := by
  intro cache idle
  apply (Leaves.bind_iff _ _ _).mpr
  apply (Leaves.get_iff _).mpr
  cases cache.namespaceOf config (cache.request req) with
  | none => exact idle
  | some namespaceKey =>
      by_cases skipped : (cache.request req).skipRadixCacheInsert = true
      · simp only [if_pos skipped]
        exact idle
      · simp only [if_neg skipped]
        apply (Leaves.bind_iff _ _ _).mpr
        apply ((captureRow_reads req).leaves cache).mono
        · intro row _ same
          rw [same]
          cases row with
          | none => exact idle
          | some length =>
              apply (Leaves.bind_iff _ _ _).mpr
              apply (within_preserves (Idle.apart account .nothing) upstream.newBytes cache idle).mono
              · intro identity named namedIdle
                apply (Leaves.bind_iff _ _ _).mpr
                apply (requestLease_leaves req named).mono
                · rintro lease _ ⟨same, found⟩
                  rw [same]
                  rcases Option.bind_eq_some_iff.mp found with ⟨reqIdx, _, present⟩
                  have member := Dict.mem_values_iff.mpr ⟨reqIdx, present⟩
                  apply (Leaves.bind_iff _ _ _).mpr
                  apply (reserveCheckpoint_leaves config rules lease namedIdle member req
                    namespaceKey _).mono
                  · intro stage reserved staged
                    refine ⟨_, ?_, List.getElem?_concat_length, staged.accounted⟩
                    apply staged.kept.setCaptures
                    intro frame frameMember
                    rcases List.mem_append.mp frameMember with old | new
                    · exact staged.kept.dated.frames frame old
                    · rw [List.mem_singleton.mp new]
                      exact staged.dated _ rfl rfl
                  · exact fun _ _ left => left
                · intro cause _ same
                  rw [same]
                  exact namedIdle
              · exact fun _ _ left => left
        · intro cause _ same
          rw [same]
          exact idle

/-- The stages in their order. -/
def CaptureStage.rank : CaptureStage Element -> Nat
  | .reserved _ _ _ _ => 0
  | .captured _ => 1
  | .converged _ => 2
  | .finished => 3

/-- What a step of a capture leaves: the capture at a stage or beyond it. -/
def Stepped (account : Possession -> PrefixObjects PrefixNamespace Element -> Prop) (frame : Nat)
    (rank : Nat) (after : QSAHostPrefixCache δ υ Element) : Prop :=
  exists state, Underway account frame state after ∧ rank ≤ state.stage.rank

include rules in
theorem copyCapture_ensures (frame : Nat) (state : CaptureFrame Element) :
    Ensures (Underway account frame state : QSAHostPrefixCache δ υ Element -> Prop)
      (copyCapture machine config upstream frame) (fun _ => Stepped account frame 1)
      (fun _ => Idle account .nothing) := by
  intro cache underway
  apply (Leaves.bind_iff _ _ _).mpr
  apply (Leaves.get_iff _).mpr
  simp only [underway.stands]
  cases stage : state.stage with
  | reserved reservation identity start segments =>
      apply (Leaves.tryCatch_iff _ _ _).mpr
      apply (Leaves.bind_iff _ _ _).mpr
      apply (within_preserves (Underway.apart account frame state) _ cache underway).mono
      · intro snapshot copied copiedUnderway
        have dated := copiedUnderway.dated
        unfold CaptureFrame.Dated at dated
        rw [stage] at dated
        rcases dated with ⟨epoch, chain⟩
        have logged : Underway account frame state
            (copied.log (.captured state.lease reservation snapshot)) := by
          refine ⟨⟨copiedUnderway.kept.owned.log fun _ => rfl,
            copiedUnderway.kept.drained.log ⟨fun _ _ => rfl, nofun⟩,
            copiedUnderway.kept.dated.event nofun ⟨epoch, chain⟩, copiedUnderway.kept.accounted⟩,
            copiedUnderway.stands, copiedUnderway.accounted⟩
        apply (Leaves.modify_iff _ _).mpr
        refine ⟨_, logged.setStage ?_ ?_, Nat.le_refl _⟩
        · rw [stage]
          rfl
        · exact ⟨epoch, copied.host.cache.epoch, sublist_concat chain _⟩
      · intro cause copied copiedUnderway
        have held : Idle account ⟨none, some reservation, none⟩ copied := by
          refine ⟨copiedUnderway.kept, ?_⟩
          have accounted := copiedUnderway.accounted
          rw [stage] at accounted
          exact accounted
        rcases abandonCapture_run rules frame held with ⟨after, ran, idle⟩
        apply (Leaves.bind_iff _ _ _).mpr
        rw [ran]
        exact idle
  | captured result =>
      refine ⟨state, underway, ?_⟩
      rw [stage]
      exact Nat.le_refl _
  | converged result =>
      refine ⟨state, underway, ?_⟩
      rw [stage]
      exact Nat.le_succ _
  | finished =>
      refine ⟨state, underway, ?_⟩
      rw [stage]
      exact Nat.le_add_left _ _

theorem checkpointSignature_reads (state : CaptureFrame Element) (captured : Bool) :
    Reads (checkpointSignature upstream state captured) := by
  apply Reads.of_preserves
  intro start
  refine Preserves.get_bind fun cache => ?_
  refine Preserves.bind (imageIdentity_reads _).preserves fun identity => ?_
  split
  · exact Preserves.throw _
  · exact Preserves.pure _

include rules in
theorem convergeCapture_ensures (frame : Nat) (state : CaptureFrame Element) :
    Ensures (Underway account frame state : QSAHostPrefixCache δ υ Element -> Prop)
      (convergeCapture upstream frame)
      (fun _ => Stepped account frame (if 1 ≤ state.stage.rank then 2 else 0))
      (fun _ => Idle account .nothing) := by
  intro cache underway
  apply (Leaves.bind_iff _ _ _).mpr
  apply (Leaves.get_iff _).mpr
  simp only [underway.stands]
  cases stage : state.stage with
  | captured result =>
      apply (Leaves.tryCatch_iff _ _ _).mpr
      have whole : Ensures (Underway account frame state) (do
          let signature <- checkpointSignature upstream state result.isSome
          converge upstream signature
          modify fun self => self.setStage frame (.converged result))
          (fun _ => Stepped account frame 2) (fun _ => Underway account frame state) := by
        refine Ensures.bind (checkpointSignature_reads upstream state _).preserves fun signature => ?_
        refine Ensures.bind (converge_preserves upstream (Underway.apart account frame state) _)
          fun _ => ?_
        intro agreed agreedUnderway
        apply (Leaves.modify_iff _ _).mpr
        refine ⟨_, agreedUnderway.setStage ?_ ?_, Nat.le_refl _⟩
        · rw [stage]
          rfl
        · have dated := agreedUnderway.dated
          unfold CaptureFrame.Dated at dated ⊢
          rw [stage] at dated
          cases result with
          | none => exact trivial
          | some both => exact dated
      apply (whole cache underway).mono (fun _ _ => id)
      intro cause agreed agreedUnderway
      have held : Idle account ⟨none, result.map Prod.fst, none⟩ agreed := by
        refine ⟨agreedUnderway.kept, ?_⟩
        have accounted := agreedUnderway.accounted
        rw [stage] at accounted
        exact accounted
      rcases abandonCapture_run rules frame held with ⟨after, ran, idle⟩
      apply (Leaves.bind_iff _ _ _).mpr
      rw [ran]
      exact idle
  | reserved reservation identity start segments => exact ⟨state, underway, Nat.zero_le _⟩
  | converged result =>
      refine ⟨state, underway, ?_⟩
      rw [stage]
      exact Nat.le_refl _
  | finished =>
      refine ⟨state, underway, ?_⟩
      rw [stage]
      exact Nat.le_succ _

/-! ## Publications -/

/-- What a publication that may have raised leaves to be given back. -/
def Unsettled (account : Possession -> PrefixObjects PrefixNamespace Element -> Prop)
    (reservation : Nat) (cache : QSAHostPrefixCache δ υ Element) : Prop :=
  exists entry, Idle account ⟨none, some reservation, entry⟩ cache

include rules in
theorem publishSnapshot_leaves {frame : Nat} {state : CaptureFrame Element} {reservation : Nat}
    {snapshot : PrefixSnapshot PrefixNamespace Element}
    (underway : Underway account frame state cache)
    (stage : state.stage = .converged (some (reservation, snapshot))) :
    Leaves (fun _ => Unsettled account reservation) (fun _ => Unsettled account reservation)
      ((publishSnapshot machine state reservation snapshot).run cache) := by
  have accounted : account ⟨none, some reservation, none⟩ cache.host := by
    have known := underway.accounted
    rw [stage] at known
    exact known
  have dated := underway.dated
  unfold CaptureFrame.Dated at dated
  rw [stage] at dated
  rcases dated with ⟨epoch, stamp, chain⟩
  have conserved := underway.kept.owned.conserved
  apply (Leaves.bind_iff _ _ _).mpr
  apply (Leaves.modify_iff _ _).mpr
  apply (Leaves.bind_iff _ _ _).mpr
  apply (hostObjects.leaves_zoom _ _).mpr
  change Leaves _ _ ((publish reservation snapshot true).run (cache.logBasis reservation).host)
  rw [cache.host_logBasis]
  apply ((publish_hands conserved reservation snapshot true).and
    (publish_counts reservation snapshot true)).mono
  · rintro entryId host ⟨published, counts⟩
    rcases published.current with ⟨held, found, current⟩
    have captured := underway.kept.dated.captured_now chain found current
    have kept := underway.kept.publish captured published counts
    have settled := rules.published _ _ _ _ _ accounted published
    have rest : Preserves (Idle account ⟨none, some reservation, some entryId⟩ :
        QSAHostPrefixCache δ υ Element -> Prop) (do
          notePrefixBasis state.req snapshot (some entryId)
          within (outside machine .eventLog)) :=
      Preserves.bind (notePrefixBasis_preserves (Idle.apart _ _) _ _ _) fun _ =>
        within_preserves (Idle.apart _ _) _
    apply (Leaves.bind_iff _ _ _).mpr
    apply (Leaves.modify_iff _ _).mpr
    exact (rest _ ⟨kept, settled⟩).mono (fun _ _ idle => ⟨some entryId, idle⟩)
      fun _ _ idle => ⟨some entryId, idle⟩
  · rintro cause host ⟨⟨lessens, closed⟩, _⟩
    exact ⟨none, underway.kept.closeReservation lessens closed,
      (rules.released _ _ _ _ accounted lessens closed).1⟩

/-- A capture is over: it holds nothing, and has published one entry or none. -/
def Finished (account : Possession -> PrefixObjects PrefixNamespace Element -> Prop)
    (cache : QSAHostPrefixCache δ υ Element) : Prop :=
  exists entry, Idle account ⟨none, none, entry⟩ cache

include rules in
theorem publishCapture_ensures (frame : Nat) (state : CaptureFrame Element) :
    Ensures (Underway account frame state : QSAHostPrefixCache δ υ Element -> Prop)
      (publishCapture machine frame)
      (fun _ after => Finished account after ∨
        Underway account frame state after ∧ state.stage.rank < 2)
      (fun _ => Finished account) := by
  intro cache underway
  apply (Leaves.bind_iff _ _ _).mpr
  apply (Leaves.get_iff _).mpr
  simp only [underway.stands]
  cases stage : state.stage with
  | converged result =>
      cases result with
      | none =>
          have held : Idle account ⟨none, none, none⟩ cache := by
            refine ⟨underway.kept, ?_⟩
            have accounted := underway.accounted
            rw [stage] at accounted
            exact accounted
          rcases abandonCapture_run rules frame held with ⟨after, ran, idle⟩
          change Leaves _ _ ((abandonCapture frame none).run cache)
          rw [ran]
          exact Or.inl ⟨none, idle⟩
      | some both =>
          apply (Leaves.tryFinally_iff _ _ _).mpr
          have closes : forall last : QSAHostPrefixCache δ υ Element,
              Unsettled account both.1 last -> exists after, (abandonCapture frame (some both.1)).run last = .ok ⟨⟩ after ∧
                Finished account after := by
            rintro last ⟨entry, held⟩
            rcases abandonCapture_run rules frame held with ⟨after, ran, idle⟩
            exact ⟨after, ran, entry, idle⟩
          apply (publishSnapshot_leaves machine rules underway stage).mono
          · intro _ last unsettled
            rcases closes last unsettled with ⟨after, ran, finished⟩
            rw [ran]
            exact Or.inl finished
          · intro cause last unsettled
            rcases closes last unsettled with ⟨after, ran, finished⟩
            rw [ran]
            exact finished
  | finished =>
      refine Or.inl ⟨none, underway.kept, ?_⟩
      have accounted := underway.accounted
      rw [stage] at accounted
      exact accounted
  | reserved reservation identity start segments => exact Or.inr ⟨underway, Nat.zero_lt_two⟩
  | captured result => exact Or.inr ⟨underway, Nat.one_lt_two⟩

/-! ## A whole capture -/

include rules in
/-- A capture that holds nothing at first holds nothing at last. -/
theorem capture_ensures (req : Nat) :
    Ensures (Idle account .nothing : QSAHostPrefixCache δ υ Element -> Prop)
      (capture machine config upstream req) (fun _ => Finished account)
      (fun _ => Finished account) := by
  have unpublished : forall {after : QSAHostPrefixCache δ υ Element},
      Idle account .nothing after -> Finished account after := fun idle => ⟨none, idle⟩
  intro cache idle
  apply (Leaves.bind_iff _ _ _).mpr
  apply (beginCapture_ensures config upstream rules req cache idle).mono
  · intro begun first standing
    cases begun with
    | none => exact unpublished standing
    | some frame =>
        rcases standing with ⟨state, underway⟩
        apply (Leaves.bind_iff _ _ _).mpr
        apply (copyCapture_ensures machine config upstream rules frame state first underway).mono
        · rintro _ second ⟨copied, copiedUnderway, atLeast⟩
          apply (Leaves.bind_iff _ _ _).mpr
          apply (convergeCapture_ensures upstream rules frame copied second copiedUnderway).mono
          · rintro _ third ⟨agreed, agreedUnderway, converged⟩
            rw [if_pos atLeast] at converged
            apply (publishCapture_ensures machine rules frame agreed third agreedUnderway).mono
            · rintro _ last (finished | ⟨_, early⟩)
              · exact finished
              · exact absurd converged (Nat.not_le_of_lt early)
            · exact fun _ _ => id
          · exact fun _ _ => unpublished
        · exact fun _ _ => unpublished
  · exact fun _ _ => unpublished

/-! ## The steps from any state -/

/-- A step keeps the invariant from any state, if it does from one where the
capture stands somewhere. -/
theorem step_kept {program : Nat -> Method (QSAHostPrefixCache δ υ Element) PUnit} {frame : Nat}
    (missing : forall cache, cache.captures[frame]? = none ->
      (program frame).run cache = .ok ⟨⟩ cache)
    (steps : forall state, Ensures (Underway (fun _ _ => True) frame state) (program frame)
      (fun _ => Kept none) (fun _ => Kept none)) : Preserves (Kept none) (program frame) := by
  intro cache kept
  cases stands : cache.captures[frame]? with
  | none =>
      rw [missing cache stands]
      exact kept
  | some state => exact steps state cache ⟨kept, stands, trivial⟩

theorem beginCapture_kept (req : Nat) : Preserves (Kept none) (beginCapture config upstream req) := by
  intro cache kept
  apply (beginCapture_ensures config upstream Account.free req cache ⟨kept, trivial⟩).mono
  · intro begun after standing
    cases begun with
    | none => exact standing.1
    | some frame =>
        rcases standing with ⟨state, underway⟩
        exact underway.kept
  · exact fun _ _ idle => idle.1

theorem copyCapture_kept (frame : Nat) :
    Preserves (Kept none) (copyCapture machine config upstream frame) := by
  apply step_kept
  · intro cache missing
    unfold copyCapture
    rw [EStateM.run_bind, EStateM.run_get]
    simp only [missing]
    rfl
  · intro state cache underway
    apply (copyCapture_ensures machine config upstream Account.free frame state cache underway).mono
    · rintro _ after ⟨_, stepped, _⟩
      exact stepped.kept
    · exact fun _ _ idle => idle.1

theorem convergeCapture_kept (frame : Nat) :
    Preserves (Kept none) (convergeCapture upstream frame) := by
  apply step_kept
  · intro cache missing
    unfold convergeCapture
    rw [EStateM.run_bind, EStateM.run_get]
    simp only [missing]
    rfl
  · intro state cache underway
    apply (convergeCapture_ensures upstream Account.free frame state cache underway).mono
    · rintro _ after ⟨_, stepped, _⟩
      exact stepped.kept
    · exact fun _ _ idle => idle.1

theorem publishCapture_kept (frame : Nat) :
    Preserves (Kept none : QSAHostPrefixCache δ υ Element -> Prop)
      (publishCapture machine frame) := by
  apply step_kept
  · intro cache missing
    unfold publishCapture
    rw [EStateM.run_bind, EStateM.run_get]
    simp only [missing]
    rfl
  · intro state cache underway
    apply (publishCapture_ensures machine Account.free frame state cache underway).mono
    · rintro _ after (⟨_, idle⟩ | ⟨stepped, _⟩)
      · exact idle.1
      · exact stepped.kept
    · rintro _ after ⟨_, idle⟩
      exact idle.1

theorem checkpoint_kept (req : Nat) (limit : Int) :
    Preserves (Kept none) (checkpoint machine config upstream req limit) := by
  refine Preserves.bind ?_ fun _ => within_preserves (Kept.apart_only none) _
  intro cache kept
  apply (capture_ensures machine config upstream Account.free req cache ⟨kept, trivial⟩).mono
  · rintro _ after ⟨_, idle⟩
    exact idle.1
  · rintro _ after ⟨_, idle⟩
    exact idle.1

end Capture

end PrefixCache
end QSAHiSparse

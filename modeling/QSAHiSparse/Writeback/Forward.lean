import QSAHiSparse.Foundation.Returns
import QSAHiSparse.Writeback.Core

namespace QSAHiSparse
namespace Writeback

open Foundation
open Ledger
open QSAHiSparse.Runtime

/-!
# The steps of a forward

Eager forwards and replays give the device the same work for a row: the store of
its token, the close of the block that it completes, the selection.  Each step
moves one layer of one lease on, and the last two stand behind a wait for the
copies of the layer.
-/

/-! ## Waits -/

section Waits

variable {resolver : Resolver} {runtime : QSAHiSparseRuntime Lagging} {event : Option Event}
  {slot li : Nat}

/-- The event covers every copy of the slot and the layer that is not done. -/
def Covers (runtime : QSAHiSparseRuntime Lagging) (event : Option Event) (slot li : Nat) : Prop :=
  forall (index : Nat) (work : Work),
    runtime.device.device.log[index]? = some ⟨.copy, .perform work⟩ -> Touches slot li work ->
      index < runtime.device.device.reached .copy ∨
        exists mark, event.bind runtime.markOf = some mark ∧ mark.stream = .copy ∧
          index < mark.position

/-- Nothing covers what is done. -/
theorem Covers.cleared (covers : Covers runtime event slot li)
    (absent : event.bind runtime.markOf = none) : Cleared runtime slot li := by
  intro index work found touches submission placed
  rw [found] at placed
  cases placed
  rcases covers index work found touches with done | ⟨mark, recorded, _⟩
  · exact Or.inl done
  · rw [absent] at recorded
    cases recorded

theorem Covers.wait (covers : Covers runtime event slot li) {mark : Mark}
    (recorded : event.bind runtime.markOf = some mark) :
    Cleared (submitted runtime .compute (.wait mark.stream mark.position)) slot li := by
  intro index work found touches submission placed
  rw [found] at placed
  cases placed
  rcases Device.log_submit_cases found with old | ⟨_, new⟩
  · rcases covers index work old touches with done | ⟨other, same, copies, inside⟩
    · exact Or.inl done
    · rw [recorded] at same
      cases same
      refine Or.inr (Or.inr ⟨runtime.device.device.log.length, mark.position, ?_, ?_, inside⟩)
      · change _ < (runtime.device.device.log ++ [_]).length
        rw [List.length_append]
        exact Nat.lt_succ_self _
      · rw [<- copies]
        exact Device.log_submit_new
  · cases new

/-- The copy stream waits for what the forwards were given. -/
theorem follow_ensures {pace : Pace} {invariant : QSAHiSparseRuntime Lagging -> Prop}
    (lasting : Lasting resolver invariant)
    (waits : forall runtime, invariant runtime ->
      invariant (submitted runtime .copy (.wait .compute runtime.device.device.log.length)))
    (site : Site) (producer : Mark) :
    Returns (fun runtime => invariant runtime ∧ producer = runtime.device.mark .compute)
      (device.zoom ((streamMachine resolver pace).waitEvent site .copy producer))
      fun _ runtime => invariant runtime ∧ Followed runtime := by
  have marked : Lasting resolver fun runtime =>
      invariant runtime ∧ producer = runtime.device.mark .compute :=
    lasting.and (mark_lasting .compute producer)
  apply marked.waitEvent site
  rintro runtime ⟨holds, rfl⟩
  exact ⟨waits runtime holds, followed_wait⟩

end Waits

/-! ## A forward under way -/

/-- The rows of the forward and their lengths. -/
structure Forwarding (states : List QSAHiSparseLease) (lengths : QSAHiSparseLease -> Int)
    (runtime : QSAHiSparseRuntime Lagging) : Prop where
  batch : runtime.batchRequests = states
  offloaded : runtime.offloaded = true
  decodes : forall lease, lease ∈ states -> runtime.slots.Permits lease [.decode]
  advanced : forall lease, lease ∈ states -> (runtime.caches lease).seqLen = lengths lease

theorem forwarding_hostOnly (states : List QSAHiSparseLease) (lengths : QSAHiSparseLease -> Int) :
    HostOnly (Forwarding states lengths) :=
  fun _ _ holds => ⟨holds.batch, holds.offloaded, holds.decodes, holds.advanced⟩

section Forward

variable (config : Config) (resolver : Resolver) (graph : Bool) (states : List QSAHiSparseLease)
  (lengths : QSAHiSparseLease -> Int)

/-- The layers of the rows are at these stages, and the copies of the cleared
ones are waited for. -/
structure Running (stages : Stages) (clear : QSAHiSparseLease -> Nat -> Prop)
    (runtime : QSAHiSparseRuntime Lagging) : Prop where
  core : Core config resolver graph stages noneLoose runtime
  forwarding : Forwarding states lengths runtime
  cleared : forall lease li, clear lease li -> Cleared runtime lease.slot li

variable {config resolver graph states lengths} {pace : Pace} {stages : Stages}
  {clear : QSAHiSparseLease -> Nat -> Prop} {runtime : QSAHiSparseRuntime Lagging}
  {lease : QSAHiSparseLease} {li : Nat}

/-- Nothing is cleared. -/
abbrev noneClear : QSAHiSparseLease -> Nat -> Prop := fun _ _ => False

theorem running_lasting (stages : Stages) (clear : QSAHiSparseLease -> Nat -> Prop) :
    Lasting resolver (Running config resolver graph states lengths stages clear) := by
  intro runtime now running later
  refine ⟨core_lasting config graph stages noneLoose runtime now running.core later,
    forwarding_hostOnly states lengths runtime now running.forwarding, fun lease li clears => ?_⟩
  exact cleared_lasting lease.slot li runtime now (running.cleared lease li clears) later

namespace Running

variable (running : Running config resolver graph states lengths stages clear runtime)

include running

theorem permits (member : lease ∈ states) : runtime.slots.Permits lease [.decode] :=
  running.forwarding.decodes lease member

/-- The forwards' stream is given one more item. -/
theorem compute {item : Item Stream Work} {next : Stages}
    (core : Core config resolver graph next noneLoose (submitted runtime .compute item)) :
    Running config resolver graph states lengths next clear (submitted runtime .compute item) where
  core := core
  forwarding := forwarding_hostOnly states lengths runtime _ running.forwarding
  cleared lease li clears := (running.cleared lease li clears).extend nofun

/-- The completion event of a layer covers its copies. -/
theorem covers (member : lease ∈ states) {state : LayerState}
    (listed : (runtime.caches lease).states[li]? = some state) :
    Covers runtime state.done lease.slot li := by
  intro index work found touches
  rcases running.core.guarded.awaited index work found with done | awaited | never
  · exact Or.inl done
  · rcases awaited with
      ⟨other, layer, block, place, event, mark, rfl, decodes, there, recorded, marked, rest⟩
    rcases touches with ⟨slot, rfl⟩
    rcases slot_unique running.core.ledger (running.permits member).1 decodes.1 slot.symm with rfl
    rw [listed] at there
    cases there
    refine Or.inr ⟨mark, ?_, rest⟩
    rw [recorded]
    exact marked
  · exact absurd never id

/-- The shared event covers all copies of replays. -/
theorem covers_shared (replays : graph = true) (slot layer : Nat) :
    Covers runtime (if runtime.graphCopyPending then some .graphCopyDone else none) slot layer := by
  intro index work found _
  rcases running.core.guarded.awaited index work found with done | awaited | never
  · exact Or.inl done
  · rcases awaited with
      ⟨other, layer, block, place, event, mark, rfl, _, there, recorded, marked, rest⟩
    have shared := running.core.recorded other layer place event there recorded
    cases event with
    | own own => exact absurd (shared.1.symm.trans replays) (by decide)
    | graphCopyDone =>
        refine Or.inr ⟨mark, ?_, rest⟩
        rw [shared.2.1]
        exact marked
  · exact absurd never id

end Running

/-- A wait for an event clears what the event covers. -/
theorem waitFor_running (more : QSAHiSparseLease -> Nat -> Prop)
    (known : QSAHiSparseRuntime Lagging -> Prop) (hostOnly : HostOnly known) (site : Site)
    (event : Option Event)
    (covers : forall runtime, Running config resolver graph states lengths stages clear runtime ->
      known runtime -> forall lease li, more lease li -> Covers runtime event lease.slot li)
    (told : forall runtime, Running config resolver graph states lengths stages clear runtime ->
      known runtime -> forall mark, event.bind runtime.markOf = some mark ->
        mark.position ≤ runtime.device.device.log.length) :
    Returns
      (fun runtime => Running config resolver graph states lengths stages clear runtime ∧
        known runtime)
      (waitFor (streamMachine resolver pace) site .compute event)
      fun _ runtime => Running config resolver graph states lengths stages
        (fun lease li => clear lease li ∨ more lease li) runtime ∧ known runtime := by
  unfold waitFor
  refine Returns.get_bind fun self => ?_
  cases absent : event.bind self.markOf with
  | none =>
      rintro runtime ⟨⟨running, holds⟩, rfl⟩
      refine ⟨⟨running.core, running.forwarding, fun lease li either => ?_⟩, holds⟩
      exact either.elim (running.cleared lease li)
        fun clears => (covers runtime running holds lease li clears).cleared absent
  | some mark =>
      have lasting : Lasting resolver fun runtime =>
          (Running config resolver graph states lengths stages clear runtime ∧ known runtime) ∧
            event.bind runtime.markOf = some mark :=
        ((running_lasting stages clear).and (Lasting.of_host hostOnly)).and
          (Lasting.of_host fun _ _ holds => holds)
      refine Returns.weaken (lasting.waitEvent site fun runtime both => ?_)
        (fun runtime both => ⟨both.1, by rw [both.2]; exact absent⟩) fun _ _ => id
      rcases both with ⟨⟨running, holds⟩, recorded⟩
      have next := running.compute
        (@Core.wait _ _ _ _ _ _ .compute running.core mark.stream _
          (told runtime running holds mark recorded))
      refine ⟨⟨next.core, next.forwarding, fun lease li either => ?_⟩, hostOnly runtime _ holds⟩
      exact either.elim (next.cleared lease li)
        fun clears => (covers runtime running holds lease li clears).wait recorded

/-- A wait for the completion event of a layer. -/
theorem waitLayer_running (member : lease ∈ states) (state : LayerState) (site : Site) :
    Returns
      (fun runtime => Running config resolver graph states lengths stages clear runtime ∧
        (runtime.caches lease).states[li]? = some state)
      (waitFor (streamMachine resolver pace) site .compute state.done)
      fun _ => Running config resolver graph states lengths stages fun other layer =>
        clear other layer ∨ other = lease ∧ layer = li := by
  refine Returns.weaken (waitFor_running (fun other layer => other = lease ∧ layer = li)
    (fun runtime => (runtime.caches lease).states[li]? = some state) (fun _ _ => id) site
    state.done ?_ ?_) (fun _ => id) fun _ _ both => both.1
  · rintro runtime running listed other layer ⟨rfl, rfl⟩
    exact running.covers member listed
  · intro runtime running listed mark recorded
    cases done : state.done with
    | none =>
        rw [done] at recorded
        cases recorded
    | some event =>
        rw [done] at recorded
        exact running.core.guarded.told lease li state event mark listed done recorded

/-! ## The work of a row -/

theorem storeRow_running (member : lease ∈ states) (owed : stages lease li = .owed)
    (site : Site) :
    Returns (Running config resolver graph states lengths stages clear)
      (device.zoom ((streamMachine resolver pace).submit site .compute
        (.storeRow lease li (lengths lease - 1))))
      fun _ => Running config resolver graph states lengths (move stages lease li .stored)
        clear := by
  apply (running_lasting stages clear).submit site
  intro runtime running
  apply running.compute
  have guarded : Guarded resolver noneLoose (submitted runtime .compute
      (.perform (.storeRow lease li (lengths lease - 1)))) :=
    running.core.guarded.plain id (fun _ _ => id) id trivial
  apply running.core.step guarded (running.permits member).1 (fun _ _ => id)
  rw [owed, running.forwarding.advanced lease member]
  exact Represents.store

/-- A completed block is closed, behind the copies of its layer. -/
theorem closeBlock_running (member : lease ∈ states) (stored : stages lease li = .stored)
    (clears : clear lease li) (complete : lengths lease % 4 = 0) (site : Site) :
    Returns (Running config resolver graph states lengths stages clear)
      (device.zoom ((streamMachine resolver pace).submit site .compute
        (.closeBlock lease li (lengths lease / 4 - 1))))
      fun _ => Running config resolver graph states lengths (move stages lease li .closed)
        clear := by
  apply (running_lasting stages clear).submit site
  intro runtime running
  apply running.compute
  have guarded : Guarded resolver noneLoose (submitted runtime .compute
      (.perform (.closeBlock lease li (lengths lease / 4 - 1)))) :=
    running.core.guarded.crossing (running.cleared lease li clears) id (fun _ _ => id) id trivial
  apply running.core.step guarded (running.permits member).1 (fun _ _ => id)
  rw [stored, running.forwarding.advanced lease member]
  exact fun holds => Stored.close holds complete

/-- The stage has everything that a selection finds. -/
def Stage.Selectable (stage : Stage) : Prop :=
  forall memory lease li n, stage.holds memory lease li n -> Current memory lease li n

theorem Stage.closed_selectable : Stage.closed.Selectable := fun _ _ _ _ => id

theorem Stage.written_selectable : Stage.written.Selectable := fun _ _ _ _ => And.right

/-- A selection, behind the copies of its layer. -/
theorem resolve_running (member : lease ∈ states) (inside : li < config.layers)
    (selectable : (stages lease li).Selectable) (clears : clear lease li) (site : Site) :
    Returns (Running config resolver graph states lengths stages clear)
      (device.zoom ((streamMachine resolver pace).submit site .compute
        (.resolve lease li (lengths lease))))
      fun _ => Running config resolver graph states lengths stages clear := by
  apply (running_lasting stages clear).submit site
  intro runtime running
  apply running.compute
  have kept : runtime.slots.Permits lease keptPhases := by
    rcases running.permits member with ⟨held, phase, present, decodes⟩
    exact ⟨held, phase, present, List.mem_cons_of_mem _ decodes⟩
  have current := selectable _ _ _ _ (running.core.contents lease kept li inside)
  rw [running.forwarding.advanced lease member] at current
  have guarded : Guarded resolver noneLoose (submitted runtime .compute
      (.perform (.resolve lease li (lengths lease)))) :=
    running.core.guarded.crossing (running.cleared lease li clears) id (fun _ _ => id) id
      (current.congr resolve_agreeAt)
  exact running.core.elsewhere guarded fun _ _ _ => resolve_agreeAt

/-! ## The copy of a block -/

/-- A closed block is written back behind everything the forwards were given. -/
theorem writeBack_ensures {loose : Nat -> Work -> Prop} (wider : Nat -> Work -> Prop)
    (member : lease ∈ states) (closed : stages lease li = .closed)
    (complete : lengths lease % 4 = 0) (inside : li < config.layers)
    (widens : forall index work, loose index work -> wider index work)
    (own : forall index, wider index (.writeBack lease li (lengths lease / 4 - 1))) (site : Site) :
    Returns
      (fun runtime => (Core config resolver graph stages loose runtime ∧
        Forwarding states lengths runtime) ∧ Followed runtime)
      (device.zoom ((streamMachine resolver pace).submit site .copy
        (.writeBack lease li (lengths lease / 4 - 1))))
      fun _ runtime => (Core config resolver graph (move stages lease li .written) wider runtime ∧
        Forwarding states lengths runtime) ∧ Followed runtime := by
  have lasting := ((@core_lasting resolver config graph stages loose).and
    (Lasting.of_host (forwarding_hostOnly states lengths))).and followed_lasting
  apply lasting.submit site
  rintro runtime ⟨⟨core, forwarding⟩, followed⟩
  have permits := forwarding.decodes lease member
  have kept : runtime.slots.Permits lease keptPhases := by
    rcases permits with ⟨held, phase, present, decodes⟩
    exact ⟨held, phase, present, List.mem_cons_of_mem _ decodes⟩
  have current := core.contents lease kept li inside
  rw [closed, forwarding.advanced lease member] at current
  have written := @Current.writeBack resolver _ _ _ _ current complete
  have copied : Guarded resolver _ (submitted runtime .copy
      (.perform (.writeBack lease li (lengths lease / 4 - 1)))) :=
    core.guarded.copy followed trivial written.1
  have guarded : Guarded resolver wider (submitted runtime .copy
      (.perform (.writeBack lease li (lengths lease / 4 - 1)))) :=
    copied.loosen fun index _ free => free.elim (widens index _) fun same => by
      rw [same.2]
      exact own index
  refine ⟨⟨core.step guarded permits.1 (fun _ _ => id) fun _ => ?_,
    forwarding_hostOnly states lengths runtime _ forwarding⟩, followed.extend fun _ _ => nofun⟩
  rw [forwarding.advanced lease member]
  exact written.2

/-! ## The layers of a forward -/

/-- A loop over the rows that moves a layer of each on. -/
theorem rows_running {stage next : Stage}
    {body : QSAHiSparseLease -> Method (QSAHiSparseRuntime Lagging) PUnit}
    (distinct : states.Nodup) (before : forall lease, lease ∈ states -> stages lease li = stage)
    (turns : forall stages lease, lease ∈ states -> stages lease li = stage ->
      Returns (Running config resolver graph states lengths stages clear) (body lease)
        fun _ => Running config resolver graph states lengths (move stages lease li next) clear) :
    Returns (Running config resolver graph states lengths stages clear) (forM states body)
      fun _ => Running config resolver graph states lengths (moveAll stages states li next)
        clear := by
  refine Returns.weaken (Returns.forEach (fun done =>
    Running config resolver graph states lengths (moveAll stages done li next) clear) ?_)
    (fun runtime running => by rw [moveAll_nil]; exact running) fun _ _ => id
  intro done lease rest split
  have member : lease ∈ states := split ▸ List.mem_append_right _ List.mem_cons_self
  have fresh : lease ∉ done := by
    rw [split] at distinct
    exact fun again => (List.nodup_append.mp distinct).2.2 lease again lease List.mem_cons_self rfl
  rw [<- move_moveAll]
  refine turns _ lease member ?_
  rw [moveAll_other fun both => fresh both.1]
  exact before lease member

/-- The stages once the first layers of the rows have got to a stage. -/
def below (stage : Stage) (states : List QSAHiSparseLease) (count : Nat) : Stages := fun lease li =>
  if lease ∈ states then if li < count then stage else .owed else .settled

theorem below_owed {stage : Stage} (member : lease ∈ states) {count : Nat} (ahead : count ≤ li) :
    below stage states count lease li = .owed := by
  unfold below
  rw [if_pos member, if_neg (Nat.not_lt.mpr ahead)]

theorem below_succ (stage : Stage) (states : List QSAHiSparseLease) (count : Nat) :
    moveAll (below stage states count) states count stage = below stage states (count + 1) := by
  funext lease li
  unfold moveAll below
  by_cases member : lease ∈ states
  · by_cases last : li = count
    · rw [if_pos ⟨member, last⟩, if_pos member, if_pos (by omega)]
    · rw [if_neg fun both => last both.2, if_pos member, if_pos member]
      by_cases done : li < count
      · rw [if_pos done, if_pos (by omega)]
      · rw [if_neg done, if_neg (by omega)]
  · rw [if_neg fun both => member both.1, if_neg member, if_neg member]

end Forward

end Writeback
end QSAHiSparse

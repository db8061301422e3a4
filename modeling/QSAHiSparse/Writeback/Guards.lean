import QSAHiSparse.Runtime.Steady
import QSAHiSparse.Writeback.Contents

namespace QSAHiSparse
namespace Writeback

open Foundation
open Ledger
open QSAHiSparse.Runtime

/-!
# Every copy is waited for

A copy that is not done is one of a decoding lease, and the completion event of
its layer covers it.  Work of the forwards that a copy must not run into is
submitted behind a wait for that event; a copy is submitted behind a wait for
everything the forwards were given.  This is what the device needs to be sound.
-/

/-- Nothing is anywhere at the start. -/
def nothing : Place -> List Token := fun _ => []

/-! ## Time -/

section Time

variable (resolver : Resolver)

/-- The streams have gone on. -/
def Later (before after : Lagging) : Prop :=
  Device.Progressed before.device after.device ∧
    (before.device.Sound (operations resolver) nothing ->
      after.device.Sound (operations resolver) nothing)

/-- What the going on of the streams does not change. -/
def Lasting (invariant : QSAHiSparseRuntime Lagging -> Prop) : Prop :=
  forall runtime now, invariant runtime -> Later resolver runtime.device now ->
    invariant { runtime with device := now }

variable {resolver} {pace : Pace}

theorem pass_later (lagging : Lagging) : Later resolver lagging (lagging.pass resolver pace) :=
  ⟨Device.turn_progressed _, fun sound => sound.turn _⟩

theorem settle_later (mark : Mark) (lagging : Lagging) :
    Later resolver lagging (lagging.settle resolver mark) :=
  ⟨Device.settle_progressed _ _ _, fun sound => sound.settle _ _ _ _⟩

variable {invariant other : QSAHiSparseRuntime Lagging -> Prop}

theorem Lasting.of_host (hostOnly : HostOnly invariant) : Lasting resolver invariant :=
  fun runtime now holds _ => hostOnly runtime now holds

theorem Lasting.and (left : Lasting resolver invariant) (right : Lasting resolver other) :
    Lasting resolver fun runtime => invariant runtime ∧ other runtime :=
  fun runtime now holds later => ⟨left runtime now holds.1 later, right runtime now holds.2 later⟩

end Time

/-! ## The calls of the machine -/

section Calls

variable {resolver : Resolver} {pace : Pace} {invariant : QSAHiSparseRuntime Lagging -> Prop}
  {α : Type} {raised : PyError -> QSAHiSparseRuntime Lagging -> Prop}

theorem lagCall_ensures (pace : Pace) (effect : Lagging -> Lagging) (answer : Lagging -> α)
    {post : α -> QSAHiSparseRuntime Lagging -> Prop} (lasting : Lasting resolver invariant)
    (step : forall runtime, invariant runtime ->
      post (answer runtime.device) { runtime with device := effect runtime.device }) :
    Ensures invariant (device.zoom (lagCall resolver pace effect answer)) post raised := by
  intro runtime holds
  apply (device.leaves_zoom _ runtime).mpr
  exact step { runtime with device := runtime.device.pass resolver pace }
    (lasting runtime _ holds (pass_later runtime.device))

variable (lasting : Lasting resolver invariant)

include lasting

theorem Lasting.submit {post : QSAHiSparseRuntime Lagging -> Prop} {stream : Stream} {work : Work}
    (site : Site) (step : forall runtime, invariant runtime ->
      post { runtime with device := runtime.device.submit stream (.perform work) }) :
    Ensures invariant (device.zoom ((streamMachine resolver pace).submit site stream work))
      (fun _ => post) raised :=
  lagCall_ensures pace (.submit stream (.perform work)) (fun _ => PUnit.unit) lasting step

theorem Lasting.waitEvent {post : QSAHiSparseRuntime Lagging -> Prop} {stream : Stream}
    {mark : Mark} (site : Site) (step : forall runtime, invariant runtime ->
      post { runtime with
        device := runtime.device.submit stream (.wait mark.stream mark.position) }) :
    Ensures invariant (device.zoom ((streamMachine resolver pace).waitEvent site stream mark))
      (fun _ => post) raised :=
  lagCall_ensures pace (.submit stream (.wait mark.stream mark.position)) (fun _ => PUnit.unit)
    lasting step

/-- A recorded event stands for everything submitted to its stream so far. -/
theorem Lasting.record (site : Site) (stream : Stream) :
    Ensures invariant (device.zoom ((streamMachine resolver pace).record site stream))
      (fun mark runtime => invariant runtime ∧ mark = runtime.device.mark stream) raised :=
  lagCall_ensures pace id (fun now => now.mark stream) lasting fun _ holds => ⟨holds, rfl⟩

/-- The stream has got to an event that was recorded on it. -/
theorem Lasting.synchronize (timely : forall runtime, invariant runtime ->
      runtime.device.device.Timely) (site : Site) (mark : Mark) :
    Ensures invariant (device.zoom ((streamMachine resolver pace).synchronize site mark))
      (fun _ runtime => invariant runtime ∧
        (mark.position ≤ runtime.device.device.log.length ->
          mark.position ≤ runtime.device.device.reached mark.stream)) raised := by
  apply lagCall_ensures pace (.settle resolver mark) (fun _ => PUnit.unit) lasting
  intro runtime holds
  refine ⟨lasting runtime _ holds (settle_later mark runtime.device), fun inside => ?_⟩
  have logged := (@settle_later resolver mark runtime.device).1.1
  change mark.position ≤ List.length (runtime.device.settle resolver mark).device.log at inside
  rw [logged] at inside
  exact Device.settle_reaches (timely runtime holds) (fun stream => by cases stream <;> decide)
    inside (fun _ => Nat.zero_le _) (Nat.le_of_eq (Nat.zero_add _).symm)

/-- A machine that submits nothing, to a program that submits nothing. -/
def quiet {δ : Type} (machine : Machine δ) : Machine δ :=
  { machine with
    submit := fun _ _ _ => pure ⟨⟩
    waitEvent := fun _ _ _ => pure ⟨⟩ }

theorem Lasting.steady (pace : Pace) : Steady (quiet (streamMachine resolver pace)) invariant where
  submit _ _ _ holds := holds
  record _ stream := lagCall_ensures pace id (fun now => now.mark stream) lasting
    fun _ holds => holds
  waitEvent _ _ _ _ holds := holds
  synchronize _ mark := lagCall_ensures pace (.settle resolver mark) (fun _ => PUnit.unit) lasting
    fun runtime holds => lasting runtime _ holds (settle_later mark runtime.device)
  drain _ stream := lagCall_ensures pace (fun now => now.settle resolver (now.mark stream))
    (fun _ => PUnit.unit) lasting fun runtime holds =>
      lasting runtime _ holds (settle_later (runtime.device.mark stream) runtime.device)
  outside _ := lagCall_ensures pace id (fun _ => PUnit.unit) lasting fun _ holds => holds
  ask _ := lagCall_ensures pace id (fun now => pace.answer now.calls) lasting fun _ holds => holds

end Calls

/-! ## What is kept -/

/-- An event of its layer covers the copy, and its lease decodes. -/
def Awaited (runtime : QSAHiSparseRuntime Lagging) (index : Nat) (work : Work) : Prop :=
  exists lease li block state event mark, work = .writeBack lease li block ∧
    runtime.slots.Permits lease [.decode, .releasing] ∧
    (runtime.caches lease).states[li]? = some state ∧ state.done = some event ∧
    runtime.markOf event = some mark ∧ mark.stream = .copy ∧ index < mark.position

/-- The log when everything is performed as it is submitted. -/
def replayed (resolver : Resolver) (runtime : QSAHiSparseRuntime Lagging) : Place -> List Token :=
  (operations resolver).run runtime.device.device.log nothing

/-- Every copy that is not done is awaited, except for those that the current
method is about to cover. -/
structure Guarded (resolver : Resolver) (loose : Nat -> Work -> Prop)
    (runtime : QSAHiSparseRuntime Lagging) : Prop where
  sound : runtime.device.device.Sound (operations resolver) nothing
  sided : forall (index : Nat) (stream : Stream) (work : Work),
    runtime.device.device.log[index]? = some ⟨stream, .perform work⟩ ->
    (stream = .copy <-> Copies work)
  awaited : forall (index : Nat) (work : Work),
    runtime.device.device.log[index]? = some ⟨.copy, .perform work⟩ ->
    index < runtime.device.device.reached .copy ∨ Awaited runtime index work ∨ loose index work
  told : forall (lease : QSAHiSparseLease) (li : Nat) (state : LayerState) (event : Event)
    (mark : Mark), (runtime.caches lease).states[li]? = some state ->
    state.done = some event -> runtime.markOf event = some mark ->
    mark.position ≤ runtime.device.device.log.length
  shared : forall mark : Mark, runtime.graphCopyDone = some mark ->
    mark.position ≤ runtime.device.device.log.length
  exactly : forall (index : Nat) (stream : Stream) (work : Work),
    runtime.device.device.log[index]? = some ⟨stream, .perform work⟩ ->
    Exact ((operations resolver).run (runtime.device.device.log.take (index + 1)) nothing) work

/-- No copy is loose. -/
abbrev noneLoose : Nat -> Work -> Prop := fun _ _ => False

/-- The forwards wait for every copy of the slot and the layer. -/
def Cleared (runtime : QSAHiSparseRuntime Lagging) (slot li : Nat) : Prop :=
  forall (index : Nat) (work : Work),
    runtime.device.device.log[index]? = some ⟨.copy, .perform work⟩ -> Touches slot li work ->
      runtime.device.device.Guards index .compute runtime.device.device.log.length

/-- The copies wait for everything that the forwards were given. -/
def Followed (runtime : QSAHiSparseRuntime Lagging) : Prop :=
  exists index position : Nat,
    runtime.device.device.log[index]? = some ⟨.copy, .wait .compute position⟩ ∧
    forall (first : Nat) (work : Work),
      runtime.device.device.log[first]? = some ⟨.compute, .perform work⟩ -> first < position

section Kept

variable {resolver : Resolver} {loose : Nat -> Work -> Prop}
  {runtime : QSAHiSparseRuntime Lagging}

/-- A guard holds on from a later place of the log. -/
theorem guards_mono {device : Device Stream Work Place (List Token)} {first : Nat}
    {stream : Stream} {position further : Nat} (guards : device.Guards first stream position)
    (past : position ≤ further) : device.Guards first stream further := by
  intro submission found
  rcases guards submission found with done | same | ⟨index, target, earlier, waits, covers⟩
  · exact Or.inl done
  · exact Or.inr (Or.inl same)
  · exact Or.inr (Or.inr ⟨index, target, Nat.lt_of_lt_of_le earlier past, waits, covers⟩)

theorem guarded_lasting (loose : Nat -> Work -> Prop) :
    Lasting resolver (Guarded resolver loose) := by
  rintro runtime now guarded ⟨progressed, sounds⟩
  refine
    { sound := sounds guarded.sound
      sided := ?_
      awaited := ?_
      told := ?_
      shared := ?_
      exactly := ?_ }
  · intro index stream work found
    change now.device.log[index]? = _ at found
    rw [progressed.1] at found
    exact guarded.sided index stream work found
  · intro index work found
    change now.device.log[index]? = _ at found
    rw [progressed.1] at found
    exact (guarded.awaited index work found).imp_left fun done =>
      Nat.lt_of_lt_of_le done (progressed.2 .copy)
  · intro lease li state event mark found recorded marked
    change mark.position ≤ now.device.log.length
    rw [progressed.1]
    exact guarded.told lease li state event mark found recorded marked
  · intro mark recorded
    change mark.position ≤ now.device.log.length
    rw [progressed.1]
    exact guarded.shared mark recorded
  · intro index stream work found
    change now.device.log[index]? = _ at found
    change Exact ((operations resolver).run (now.device.log.take (index + 1)) nothing) work
    rw [progressed.1] at found ⊢
    exact guarded.exactly index stream work found

theorem cleared_lasting (slot li : Nat) :
    Lasting resolver fun runtime => Cleared runtime slot li := by
  rintro runtime now cleared ⟨progressed, _⟩ index work found touches
  change now.device.log[index]? = _ at found
  change now.device.Guards index .compute now.device.log.length
  rw [progressed.1] at found ⊢
  exact (cleared index work found touches).progressed progressed

theorem followed_lasting : Lasting resolver Followed := by
  rintro runtime now ⟨index, position, waits, covers⟩ ⟨progressed, _⟩
  refine ⟨index, position, ?_, fun first work found => ?_⟩
  · change now.device.log[index]? = _
    rw [progressed.1]
    exact waits
  · change now.device.log[first]? = _ at found
    rw [progressed.1] at found
    exact covers first work found

theorem Guarded.loosen {wider : Nat -> Work -> Prop} (guarded : Guarded resolver loose runtime)
    (widens : forall index work, loose index work -> wider index work) :
    Guarded resolver wider runtime :=
  { guarded with
    awaited := fun index work found => (guarded.awaited index work found).imp_right fun either =>
      either.imp_right (widens index work) }

/-- An event that was recorded last is still the last one. -/
theorem mark_lasting (stream : Stream) (mark : Mark) :
    Lasting resolver fun runtime => mark = runtime.device.mark stream := by
  rintro runtime now same ⟨progressed, _⟩
  change mark = ⟨stream, now.device.log.length⟩
  rw [progressed.1]
  exact same

/-- What is replayed only depends on the log. -/
theorem replayed_lasting (holds : (Place -> List Token) -> Prop) :
    Lasting resolver fun runtime => holds (replayed resolver runtime) := by
  rintro runtime now start ⟨progressed, _⟩
  change holds ((operations resolver).run now.device.log nothing)
  rw [progressed.1]
  exact start

/-! ## Submissions -/

section Submissions

variable {stream : Stream} {work : Work}

/-- The runtime after a submission. -/
def submitted (runtime : QSAHiSparseRuntime Lagging) (stream : Stream)
    (item : Item Stream Work) : QSAHiSparseRuntime Lagging :=
  { runtime with device := runtime.device.submit stream item }

theorem replayed_perform :
    replayed resolver (submitted runtime stream (.perform work)) =
      (operations resolver).apply work (replayed resolver runtime) :=
  Operations.run_perform stream work

theorem replayed_wait {other : Stream} {position : Nat} :
    replayed resolver (submitted runtime stream (.wait other position)) =
      replayed resolver runtime :=
  Operations.run_wait stream other position

/-- A longer log keeps what was said about the shorter. -/
theorem Guarded.extend (guarded : Guarded resolver loose runtime) {item : Item Stream Work}
    {wider : Nat -> Work -> Prop}
    (sound : (runtime.device.device.submit stream item).Sound (operations resolver) nothing)
    (widens : forall index work, loose index work -> wider index work)
    (performs : forall work, item = .perform work -> (stream = .copy <-> Copies work) ∧
      (stream = .copy -> wider runtime.device.device.log.length work) ∧
      Exact ((operations resolver).apply work (replayed resolver runtime)) work) :
    Guarded resolver wider (submitted runtime stream item) := by
  have longer : runtime.device.device.log.length ≤
      (runtime.device.device.submit stream item).log.length := by
    change _ ≤ (runtime.device.device.log ++ [_]).length
    rw [List.length_append]
    exact Nat.le_add_right _ _
  refine
    { sound := sound
      sided := ?_
      awaited := ?_
      told := ?_
      shared := ?_
      exactly := ?_ }
  · intro index side work found
    rcases Device.log_submit_cases found with old | ⟨_, new⟩
    · exact guarded.sided index side work old
    · cases new
      exact (performs work rfl).1
  · intro index work found
    rcases Device.log_submit_cases found with old | ⟨last, new⟩
    · exact (guarded.awaited index work old).imp_right fun either =>
        either.imp_right (widens index work)
    · cases new
      rw [last]
      exact Or.inr (Or.inr ((performs work rfl).2.1 rfl))
  · intro lease li state event mark found recorded marked
    exact Nat.le_trans (guarded.told lease li state event mark found recorded marked) longer
  · exact fun mark recorded => Nat.le_trans (guarded.shared mark recorded) longer
  · intro index side work found
    rcases Device.log_submit_cases found with old | ⟨last, new⟩
    · have inside := Device.index_lt old
      change Exact ((operations resolver).run
        ((runtime.device.device.submit stream item).log.take (index + 1)) nothing) work
      rw [Device.take_submit inside]
      exact guarded.exactly index side work old
    · cases new
      have whole : (runtime.device.device.log ++
          [(⟨stream, .perform work⟩ : Submission Stream Work)]).take (index + 1) =
          runtime.device.device.log ++ [⟨stream, .perform work⟩] := by
        apply List.take_of_length_le
        rw [List.length_append, List.length_singleton, last]
      change Exact ((operations resolver).run ((runtime.device.device.log ++
        [(⟨stream, .perform work⟩ : Submission Stream Work)]).take (index + 1)) nothing) work
      rw [whole, Operations.run_perform]
      exact (performs work rfl).2.2

/-- A wait for a place that the log has reached. -/
theorem Guarded.wait (guarded : Guarded resolver loose runtime) {other : Stream} {position : Nat}
    (earlier : position ≤ runtime.device.device.log.length) :
    Guarded resolver loose (submitted runtime stream (.wait other position)) :=
  guarded.extend (guarded.sound.submitWait stream earlier) (fun _ _ => id) nofun

/-- Work of the forwards, behind the copies that it meets. -/
theorem Guarded.compute (guarded : Guarded resolver loose runtime) (computes : ¬ Copies work)
    (clear : forall (index : Nat) (earlier : Work),
      runtime.device.device.log[index]? = some ⟨.copy, .perform earlier⟩ ->
      (operations resolver).Conflicts earlier work ->
      runtime.device.device.Guards index .compute runtime.device.device.log.length)
    (exact_ : Exact ((operations resolver).apply work (replayed resolver runtime)) work) :
    Guarded resolver loose (submitted runtime .compute (.perform work)) := by
  refine guarded.extend (guarded.sound.submitPerform .compute ?_) (fun _ _ => id) ?_
  · intro first other earlier found conflict
    cases other with
    | compute =>
        intro submission placed
        rw [found] at placed
        exact Or.inr (Or.inl (by rw [<- Option.some.inj placed]))
    | copy => exact clear first earlier found conflict
  · rintro other same
    cases same
    exact ⟨⟨nofun, fun copies => absurd copies computes⟩, nofun, exact_⟩

/-- Work that no copy meets. -/
theorem Guarded.plain (guarded : Guarded resolver loose runtime) (computes : ¬ Copies work)
    (apart : forall slot li, ¬ Crosses slot li work) (unpacked : ¬ Packs work)
    (exact_ : Exact ((operations resolver).apply work (replayed resolver runtime)) work) :
    Guarded resolver loose (submitted runtime .compute (.perform work)) := by
  refine guarded.compute computes ?_ exact_
  intro index earlier found conflict
  have copies := (guarded.sided index .copy earlier found).mp rfl
  rcases conflicts_crosses resolver copies computes conflict with ⟨slot, li, _, crosses⟩ | packs
  · exact absurd crosses (apart slot li)
  · exact absurd packs.1 unpacked

/-- Work that is behind every copy of its slot and layer. -/
theorem Guarded.crossing (guarded : Guarded resolver loose runtime) {slot li : Nat}
    (cleared : Cleared runtime slot li) (computes : ¬ Copies work)
    (only : forall owner layer, Crosses owner layer work -> owner = slot ∧ layer = li)
    (unpacked : ¬ Packs work)
    (exact_ : Exact ((operations resolver).apply work (replayed resolver runtime)) work) :
    Guarded resolver loose (submitted runtime .compute (.perform work)) := by
  refine guarded.compute computes ?_ exact_
  intro index earlier found conflict
  have copies := (guarded.sided index .copy earlier found).mp rfl
  rcases conflicts_crosses resolver copies computes conflict with
    ⟨owner, layer, touches, crosses⟩ | packs
  · rcases only owner layer crosses with ⟨rfl, rfl⟩
    exact cleared index earlier found touches
  · exact absurd packs.1 unpacked

/-- A copy behind everything that the forwards were given. -/
theorem Guarded.copy (guarded : Guarded resolver loose runtime) (followed : Followed runtime)
    (copies : Copies work)
    (exact_ : Exact ((operations resolver).apply work (replayed resolver runtime)) work) :
    Guarded resolver
      (fun index other => loose index other ∨
        index = runtime.device.device.log.length ∧ other = work)
      (submitted runtime .copy (.perform work)) := by
  rcases followed with ⟨place, position, waits, covers⟩
  refine guarded.extend (guarded.sound.submitPerform .copy ?_) (fun _ _ => Or.inl) ?_
  · intro first other earlier found _ submission placed
    rw [found] at placed
    cases placed
    cases other with
    | copy => exact Or.inr (Or.inl rfl)
    | compute =>
        exact Or.inr (Or.inr ⟨place, position, Device.index_lt waits, waits,
          covers first earlier found⟩)
  · rintro other same
    cases same
    exact ⟨⟨fun _ => copies, fun _ => rfl⟩, fun _ => Or.inr ⟨rfl, rfl⟩, exact_⟩

/-- A cleared slot and layer stays so until another copy is submitted for it. -/
theorem Cleared.extend {slot li : Nat} (cleared : Cleared runtime slot li)
    {item : Item Stream Work}
    (copies : stream = .copy -> forall work, item = .perform work -> ¬ Touches slot li work) :
    Cleared (submitted runtime stream item) slot li := by
  intro index earlier found touches
  rcases Device.log_submit_cases found with old | ⟨_, new⟩
  · apply guards_mono ((cleared index earlier old touches).submit (Device.index_lt old))
    change runtime.device.device.log.length ≤ (runtime.device.device.log ++ [_]).length
    rw [List.length_append]
    exact Nat.le_add_right _ _
  · cases new
    exact absurd touches (copies rfl earlier rfl)

/-- The copies still follow after a submission that is not of the forwards. -/
theorem Followed.extend (followed : Followed runtime) {item : Item Stream Work}
    (performs : forall work, item = .perform work -> stream ≠ .compute) :
    Followed (submitted runtime stream item) := by
  rcases followed with ⟨index, position, waits, covers⟩
  refine ⟨index, position, Device.log_submit_of_old waits, fun first work found => ?_⟩
  rcases Device.log_submit_cases found with old | ⟨_, new⟩
  · exact covers first work old
  · cases new
    exact absurd rfl (performs work rfl)

/-- A wait for everything that the forwards were given. -/
theorem followed_wait : Followed (submitted runtime .copy
    (.wait .compute (runtime.device.mark .compute).position)) := by
  refine ⟨runtime.device.device.log.length, _, Device.log_submit_new, fun first work found => ?_⟩
  rcases Device.log_submit_cases found with old | ⟨_, new⟩
  · exact Device.index_lt old
  · cases new

end Submissions

end Kept

end Writeback
end QSAHiSparse

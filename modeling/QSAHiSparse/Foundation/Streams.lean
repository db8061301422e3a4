import Mathlib.Data.List.Basic
import Mathlib.Logic.Function.Basic

namespace QSAHiSparse
namespace Foundation

/-!
# Streams that run at their own pace

A device takes the items of every stream in the order in which they were
submitted, and otherwise runs the streams as it likes.  An item performs an
operation on a memory that all streams share, or holds its stream back until
another stream has got far enough.

The streams are ordered when of any two operations of which one writes what the
other touches the later one waits for the earlier.  Then every operation meets
the memory it would meet if each had been performed as it was submitted.
-/

/-! ## Operations -/

/-- What a place receives: a value made of the values of some places. -/
structure Source (Loc Val : Type) where
  places : List Loc
  combine : List Val -> Val

/-- An operation writes the places that have a source, and may look at places
without writing any. -/
structure Operations (ω Loc Val : Type) where
  source : ω -> Loc -> Option (Source Loc Val)
  looks : ω -> Loc -> Prop

variable {τ ω Loc Val : Type}

namespace Operations

variable (operations : Operations ω Loc Val) (op : ω)

/-- All places are written at once. -/
def apply (memory : Loc -> Val) : Loc -> Val := fun place =>
  match operations.source op place with
  | none => memory place
  | some source => source.combine (source.places.map memory)

def Writes (place : Loc) : Prop := exists source, operations.source op place = some source

def Reads (place : Loc) : Prop :=
  operations.looks op place ∨
    exists target source, operations.source op target = some source ∧ place ∈ source.places

/-- One writes what the other touches. -/
def Conflicts (first second : ω) : Prop :=
  exists place,
    (operations.Writes first place ∧ (operations.Reads second place ∨
      operations.Writes second place)) ∨
    (operations.Reads first place ∧ operations.Writes second place)

variable {operations op}

theorem apply_of_source {place : Loc} {source : Source Loc Val}
    (written : operations.source op place = some source) (memory : Loc -> Val) :
    operations.apply op memory place = source.combine (source.places.map memory) := by
  unfold apply
  rw [written]

theorem apply_of_none {place : Loc} (kept : operations.source op place = none)
    (memory : Loc -> Val) : operations.apply op memory place = memory place := by
  unfold apply
  rw [kept]

theorem apply_of_not_writes {place : Loc} (kept : ¬ operations.Writes op place)
    (memory : Loc -> Val) : operations.apply op memory place = memory place := by
  apply apply_of_none
  cases found : operations.source op place with
  | none => rfl
  | some source => exact absurd ⟨source, found⟩ kept

/-- What is written depends on what is read. -/
theorem apply_congr {place : Loc} (writes : operations.Writes op place)
    {memory other : Loc -> Val}
    (agree : forall read, operations.Reads op read -> memory read = other read) :
    operations.apply op memory place = operations.apply op other place := by
  rcases writes with ⟨source, found⟩
  rw [apply_of_source found, apply_of_source found]
  apply congrArg source.combine
  apply List.map_congr_left
  intro read member
  exact agree read (Or.inr ⟨place, source, found, member⟩)

end Operations

/-! ## The log and the device -/

inductive Item (τ ω : Type) where
  | perform (op : ω)
  /-- Wait until the stream has got to the position of the log. -/
  | wait (stream : τ) (position : Nat)

/-- An item and the stream it was submitted to. -/
structure Submission (τ ω : Type) where
  stream : τ
  item : Item τ ω

/-- The memory right after an operation was performed, and how far the streams
were before. -/
structure Moment (τ Loc Val : Type) where
  index : Nat
  reached : τ -> Nat
  memory : Loc -> Val

structure Device (τ ω Loc Val : Type) where
  /-- All submissions in the order they were made. -/
  log : List (Submission τ ω)
  /-- The items of the stream before this position of the log are done. -/
  reached : τ -> Nat
  memory : Loc -> Val
  /-- The operations performed so far, for the statements only. -/
  history : List (Moment τ Loc Val)

/-- The effect of a log on a memory when every operation is performed as it is
submitted. -/
def Operations.run (operations : Operations ω Loc Val) (log : List (Submission τ ω))
    (memory : Loc -> Val) : Loc -> Val :=
  log.foldl
    (fun memory submission =>
      match submission.item with
      | .perform op => operations.apply op memory
      | .wait _ _ => memory)
    memory

namespace Device

variable (operations : Operations ω Loc Val)

def empty (memory : Loc -> Val) : Device τ ω Loc Val := ⟨[], fun _ => 0, memory, []⟩

def submit (stream : τ) (item : Item τ ω) (device : Device τ ω Loc Val) : Device τ ω Loc Val :=
  { device with log := device.log ++ [⟨stream, item⟩] }

variable [DecidableEq τ]

/-- The stream goes past one position of the log. -/
def pass (stream : τ) (device : Device τ ω Loc Val) : Device τ ω Loc Val :=
  { device with
    reached := Function.update device.reached stream (device.reached stream + 1) }

/-- The stream does its next item, unless it has to wait. -/
def doItem (stream : τ) (item : Item τ ω) (device : Device τ ω Loc Val) :
    Device τ ω Loc Val :=
  match item with
  | .perform op =>
      { device.pass stream with
        memory := operations.apply op device.memory
        history := device.history ++
          [⟨device.reached stream, device.reached, operations.apply op device.memory⟩] }
  | .wait other position =>
      if position ≤ device.reached other then device.pass stream else device

/-- One step of a stream: an item of another stream is passed over. -/
def advance (stream : τ) (device : Device τ ω Loc Val) : Device τ ω Loc Val :=
  match device.log[device.reached stream]? with
  | none => device
  | some submission =>
      if submission.stream = stream then
        device.doItem operations stream submission.item
      else
        device.pass stream

end Device

/-! ## Running a log in order -/

namespace Operations

variable {operations : Operations ω Loc Val} {log : List (Submission τ ω)}
  {initial : Loc -> Val}

@[simp] theorem run_perform (stream : τ) (op : ω) :
    operations.run (log ++ [⟨stream, .perform op⟩]) initial =
      operations.apply op (operations.run log initial) := by
  unfold run
  rw [List.foldl_append]
  rfl

@[simp] theorem run_wait (stream other : τ) (position : Nat) :
    operations.run (log ++ [⟨stream, .wait other position⟩]) initial =
      operations.run log initial := by
  unfold run
  rw [List.foldl_append]
  rfl

/-- A submission that does not write the place leaves it as it was. -/
theorem run_keeps {submission : Submission τ ω} {place : Loc}
    (kept : forall op, submission.item = .perform op -> ¬ operations.Writes op place) :
    operations.run (log ++ [submission]) initial place = operations.run log initial place := by
  rcases submission with ⟨stream, item⟩
  cases item with
  | perform op =>
      rw [run_perform]
      exact apply_of_not_writes (kept op rfl) _
  | wait other position => rw [run_wait]

/-- Between two positions without a writer the place keeps its value. -/
theorem run_take_keeps {place : Loc} {first last : Nat} (order : first ≤ last)
    (kept : forall index, first ≤ index -> index < last -> forall stream op,
      log[index]? = some ⟨stream, .perform op⟩ -> ¬ operations.Writes op place) :
    operations.run (log.take last) initial place =
      operations.run (log.take first) initial place := by
  induction order with
  | refl => rfl
  | @step last order previous =>
      have before := previous fun index lower upper =>
        kept index lower (Nat.lt_succ_of_lt upper)
      rw [List.take_add_one]
      cases found : log[last]? with
      | none => rw [Option.toList_none, List.append_nil, before]
      | some submission =>
          rw [Option.toList_some, run_keeps, before]
          intro op performs
          apply kept last order (Nat.lt_succ_self last) submission.stream op
          rw [found, <- performs]

end Operations

/-! ## Ordered submissions -/

namespace Device

variable (device : Device τ ω Loc Val)

/-- The item at `first` is done before the stream can get to the position. -/
def Guards (first : Nat) (stream : τ) (position : Nat) : Prop :=
  forall submission, device.log[first]? = some submission ->
    first < device.reached submission.stream ∨ submission.stream = stream ∨
      exists index target, index < position ∧
        device.log[index]? = some ⟨stream, .wait submission.stream target⟩ ∧ first < target

/-- Of two operations that conflict the earlier guards the later. -/
def Ordered (operations : Operations ω Loc Val) : Prop :=
  forall first second, first < second -> forall stream op other later,
    device.log[first]? = some ⟨stream, .perform op⟩ ->
    device.log[second]? = some ⟨other, .perform later⟩ ->
    operations.Conflicts op later -> device.Guards first other second

/-- The device has done what it did as if in order. -/
structure Consistent (operations : Operations ω Loc Val) (initial : Loc -> Val) : Prop where
  bounded : forall stream, device.reached stream ≤ device.log.length
  waited : forall index stream other position,
    device.log[index]? = some ⟨stream, .wait other position⟩ ->
    index < device.reached stream -> position ≤ device.reached other
  /-- A place of which the first writers are done and no other holds what they
  leave there. -/
  memory : forall place count, count ≤ device.log.length ->
    (forall index, index < count -> forall stream op,
      device.log[index]? = some ⟨stream, .perform op⟩ -> operations.Writes op place ->
      index < device.reached stream) ->
    (forall index, count ≤ index -> forall stream op,
      device.log[index]? = some ⟨stream, .perform op⟩ -> operations.Writes op place ->
      ¬ index < device.reached stream) ->
    device.memory place = operations.run (device.log.take count) initial place
  moments : forall moment, moment ∈ device.history -> exists stream op,
    device.log[moment.index]? = some ⟨stream, .perform op⟩ ∧
    (forall place, operations.Reads op place ∨ operations.Writes op place ->
      moment.memory place =
        operations.run (device.log.take (moment.index + 1)) initial place) ∧
    forall first, first < moment.index -> forall other earlier,
      device.log[first]? = some ⟨other, .perform earlier⟩ ->
      operations.Conflicts earlier op -> first < moment.reached other

variable {device} {operations : Operations ω Loc Val} {initial : Loc -> Val}

theorem consistent_empty : (empty initial : Device τ ω Loc Val).Consistent operations initial where
  bounded _ := Nat.le_refl 0
  waited _ _ _ _ found := nomatch found
  memory place count within _ _ := by
    rw [Nat.le_zero.mp within]
    rfl
  moments _ member := absurd member List.not_mem_nil

/-- A guard is done once the stream has got there. -/
theorem Consistent.done (consistent : device.Consistent operations initial)
    {first position : Nat} {stream : τ} (before : first < position)
    (guards : device.Guards first stream position) (there : position ≤ device.reached stream)
    {submission : Submission τ ω} (found : device.log[first]? = some submission) :
    first < device.reached submission.stream := by
  rcases guards submission found with done | same | ⟨index, target, earlier, waits, covers⟩
  · exact done
  · rw [same]
    exact Nat.lt_of_lt_of_le before there
  · exact Nat.lt_of_lt_of_le covers
      (consistent.waited index stream _ target waits (Nat.lt_of_lt_of_le earlier there))

/-! ## Submissions -/

section Submissions

variable {stream : τ} {item : Item τ ω}

theorem log_submit_old {index : Nat} (old : index < device.log.length) :
    (device.submit stream item).log[index]? = device.log[index]? :=
  List.getElem?_append_left old

theorem log_submit_new :
    (device.submit stream item).log[device.log.length]? = some ⟨stream, item⟩ :=
  List.getElem?_concat_length

/-- A submission of the longer log is an old one or the new one. -/
theorem log_submit_cases {index : Nat} {submission : Submission τ ω}
    (found : (device.submit stream item).log[index]? = some submission) :
    device.log[index]? = some submission ∨
      index = device.log.length ∧ submission = ⟨stream, item⟩ := by
  rcases Nat.lt_trichotomy index device.log.length with old | new | past
  · rw [log_submit_old old] at found
    exact Or.inl found
  · rw [new, log_submit_new] at found
    exact Or.inr ⟨new, (Option.some.inj found).symm⟩
  · have absent : (device.submit stream item).log.length ≤ index := by
      change (device.log ++ [_]).length ≤ index
      rw [List.length_append, List.length_singleton]
      exact past
    rw [List.getElem?_eq_none absent] at found
    cases found

theorem index_lt {index : Nat} {submission : Submission τ ω}
    (found : device.log[index]? = some submission) : index < device.log.length :=
  (List.getElem?_eq_some_iff.mp found).1

theorem log_submit_of_old {index : Nat} {submission : Submission τ ω}
    (found : device.log[index]? = some submission) :
    (device.submit stream item).log[index]? = some submission := by
  rw [log_submit_old (index_lt found)]
  exact found

theorem take_submit {count : Nat} (within : count ≤ device.log.length) :
    (device.submit stream item).log.take count = device.log.take count :=
  List.take_append_of_le_length within

/-- A longer log keeps the guards. -/
theorem Guards.submit {first position : Nat} {other : τ}
    (guards : device.Guards first other position) (old : first < device.log.length) :
    (device.submit stream item).Guards first other position := by
  intro submission found
  rw [log_submit_old old] at found
  rcases guards submission found with done | same | ⟨index, target, earlier, waits, covers⟩
  · exact Or.inl done
  · exact Or.inr (Or.inl same)
  · exact Or.inr (Or.inr ⟨index, target, earlier, log_submit_of_old waits, covers⟩)

theorem Ordered.submitWait (ordered : device.Ordered operations) (other : τ) (position : Nat) :
    (device.submit stream (.wait other position)).Ordered operations := by
  intro first second order firstStream op secondStream later atFirst atSecond conflict
  rcases log_submit_cases atFirst with oldFirst | ⟨_, new⟩
  · rcases log_submit_cases atSecond with oldSecond | ⟨_, new⟩
    · exact (ordered first second order _ op _ later oldFirst oldSecond conflict).submit
        (index_lt oldFirst)
    · cases new
  · cases new

/-- A new operation has to be guarded by those it conflicts with. -/
theorem Ordered.submitPerform (ordered : device.Ordered operations) {op : ω}
    (guarded : forall first other earlier,
      device.log[first]? = some ⟨other, .perform earlier⟩ -> operations.Conflicts earlier op ->
      device.Guards first stream device.log.length) :
    (device.submit stream (.perform op)).Ordered operations := by
  intro first second order firstStream early secondStream later atFirst atSecond conflict
  rcases log_submit_cases atFirst with oldFirst | ⟨last, _⟩
  · rcases log_submit_cases atSecond with oldSecond | ⟨last, new⟩
    · exact (ordered first second order _ _ _ later oldFirst oldSecond conflict).submit
        (index_lt oldFirst)
    · cases new
      rw [last]
      exact (guarded first firstStream early oldFirst conflict).submit (index_lt oldFirst)
  · have bound := index_lt atSecond
    change second < (device.log ++ [_]).length at bound
    rw [List.length_append, List.length_singleton] at bound
    omega

theorem Consistent.submit (consistent : device.Consistent operations initial) :
    (device.submit stream item).Consistent operations initial where
  bounded other := by
    apply Nat.le_trans (consistent.bounded other)
    change device.log.length ≤ (device.log ++ [_]).length
    rw [List.length_append]
    exact Nat.le_add_right _ _
  waited index other awaited position found done := by
    rcases log_submit_cases found with old | ⟨new, _⟩
    · exact consistent.waited index other awaited position old done
    · have bound := consistent.bounded other
      change index < device.reached other at done
      omega
  memory place count within before after := by
    have oldBefore (index : Nat) (lower : index < count) (other : τ) (op : ω)
        (found : device.log[index]? = some ⟨other, .perform op⟩)
        (writes : operations.Writes op place) : index < device.reached other :=
      before index lower other op (log_submit_of_old found) writes
    have oldAfter (index : Nat) (lower : count ≤ index) (other : τ) (op : ω)
        (found : device.log[index]? = some ⟨other, .perform op⟩)
        (writes : operations.Writes op place) : ¬ index < device.reached other :=
      after index lower other op (log_submit_of_old found) writes
    rcases Nat.lt_or_ge device.log.length count with all | some
    · -- The new operation is not done, so it does not write the place.
      have kept (op : ω) (performs : item = .perform op) : ¬ operations.Writes op place := by
        intro writes
        have done := before device.log.length all stream op
          (by rw [log_submit_new, performs]) writes
        have bound := consistent.bounded stream
        change device.log.length < device.reached stream at done
        omega
      have whole : (device.submit stream item).log.take count = device.log ++ [⟨stream, item⟩] := by
        apply List.take_of_length_le
        change (device.log ++ [_]).length ≤ count
        rw [List.length_append, List.length_singleton]
        exact all
      have oldMemory := consistent.memory place device.log.length (Nat.le_refl _)
        (fun index lower => oldBefore index (Nat.lt_trans lower all))
        (fun index lower other op found => absurd (index_lt found) (Nat.not_lt.mpr lower))
      rw [List.take_length] at oldMemory
      rw [whole, Operations.run_keeps kept]
      exact oldMemory
    · rw [take_submit some]
      exact consistent.memory place count some oldBefore oldAfter
  moments moment member := by
    rcases consistent.moments moment member with ⟨other, op, found, memory, conflicts⟩
    refine ⟨other, op, log_submit_of_old found, ?_, ?_⟩
    · rw [take_submit (index_lt found)]
      exact memory
    · intro first before awaited earlier atFirst
      rw [log_submit_old (Nat.lt_trans before (index_lt found))] at atFirst
      exact conflicts first before awaited earlier atFirst

end Submissions

/-! ## Progress -/

section Progress

variable {stream : τ}

/-- Only time has passed: the log is the same and every stream as far or
farther. -/
def Progressed (before after : Device τ ω Loc Val) : Prop :=
  after.log = before.log ∧ forall stream, before.reached stream ≤ after.reached stream

theorem Progressed.refl (device : Device τ ω Loc Val) : Progressed device device :=
  ⟨rfl, fun _ => Nat.le_refl _⟩

theorem Progressed.trans {first second third : Device τ ω Loc Val}
    (left : Progressed first second) (right : Progressed second third) : Progressed first third :=
  ⟨right.1.trans left.1, fun stream => Nat.le_trans (left.2 stream) (right.2 stream)⟩

theorem Guards.progressed {before after : Device τ ω Loc Val} {first position : Nat}
    (guards : before.Guards first stream position) (progressed : Progressed before after) :
    after.Guards first stream position := by
  intro submission found
  rw [progressed.1] at found
  rcases guards submission found with done | rest
  · exact Or.inl (Nat.lt_of_lt_of_le done (progressed.2 _))
  · rw [progressed.1]
    exact Or.inr rest

theorem Ordered.progressed {before after : Device τ ω Loc Val}
    (ordered : before.Ordered operations) (progressed : Progressed before after) :
    after.Ordered operations := by
  intro first second order firstStream op secondStream later atFirst atSecond conflict
  rw [progressed.1] at atFirst atSecond
  exact (ordered first second order _ op _ later atFirst atSecond conflict).progressed progressed

variable [DecidableEq τ]

theorem pass_reached (other : τ) :
    (device.pass stream).reached other =
      if other = stream then device.reached stream + 1 else device.reached other :=
  Function.update_apply device.reached stream (device.reached stream + 1) other

theorem pass_progressed (device : Device τ ω Loc Val) (stream : τ) :
    Progressed device (device.pass stream) := by
  refine ⟨rfl, fun other => ?_⟩
  rw [pass_reached]
  split
  · rename_i same
    rw [same]
    exact Nat.le_succ _
  · exact Nat.le_refl _

/-- A position that is not done before a stream passes is the one it passes. -/
theorem pass_new {index : Nat} {other : τ} (done : index < (device.pass stream).reached other) :
    index < device.reached other ∨ other = stream ∧ index = device.reached stream := by
  rw [pass_reached] at done
  split at done
  · rename_i same
    rcases Nat.lt_succ_iff_lt_or_eq.mp done with old | new
    · exact Or.inl (same ▸ old)
    · exact Or.inr ⟨same, new⟩
  · exact Or.inl done

theorem advance_progressed : Progressed device (device.advance operations stream) := by
  unfold advance
  cases device.log[device.reached stream]? with
  | none => exact Progressed.refl device
  | some submission =>
      change Progressed device (if _ then _ else _)
      split
      · cases submission.item with
        | perform op => exact pass_progressed device stream
        | wait other position =>
            change Progressed device (if _ then _ else _)
            split
            · exact pass_progressed device stream
            · exact Progressed.refl device
      · exact pass_progressed device stream

/-- Passing over an item that performs nothing for the stream. -/
theorem Consistent.pass (consistent : device.Consistent operations initial)
    {submission : Submission τ ω}
    (next : device.log[device.reached stream]? = some submission)
    (idle : forall op, submission ≠ ⟨stream, .perform op⟩)
    (enabled : forall other position, submission = ⟨stream, .wait other position⟩ ->
      position ≤ device.reached other) :
    (device.pass stream).Consistent operations initial where
  bounded other := by
    rw [pass_reached]
    split
    · exact index_lt next
    · exact consistent.bounded other
  waited index other awaited position found done := by
    apply Nat.le_trans _ ((pass_progressed device stream).2 awaited)
    rcases pass_new done with old | ⟨rfl, rfl⟩
    · exact consistent.waited index other awaited position found old
    · change device.log[device.reached other]? = _ at found
      rw [next] at found
      exact enabled awaited position (Option.some.inj found)
  memory place count within before after := by
    apply consistent.memory place count within
    · intro index lower other op found writes
      rcases pass_new (before index lower other op found writes) with old | ⟨rfl, rfl⟩
      · exact old
      · rw [next] at found
        exact absurd (Option.some.inj found) (idle op)
    · intro index lower other op found writes done
      exact after index lower other op found writes
        (Nat.lt_of_lt_of_le done ((pass_progressed device stream).2 other))
  moments := consistent.moments

omit [DecidableEq τ] in
/-- The next operation of a stream meets the memory of the submission order. -/
theorem Consistent.meets (consistent : device.Consistent operations initial)
    (ordered : device.Ordered operations) {op : ω}
    (next : device.log[device.reached stream]? = some ⟨stream, .perform op⟩) {place : Loc}
    (touches : operations.Reads op place ∨ operations.Writes op place) :
    device.memory place =
      operations.run (device.log.take (device.reached stream)) initial place := by
  apply consistent.memory place _ (Nat.le_of_lt (index_lt next))
  · intro index lower other earlier found writes
    have conflict : operations.Conflicts earlier op := ⟨place, Or.inl ⟨writes, touches⟩⟩
    exact consistent.done lower (ordered index _ lower other earlier stream op found next conflict)
      (Nat.le_refl _) found
  · intro index lower other later found writes done
    rcases Nat.eq_or_lt_of_le lower with same | past
    · rw [<- same, next] at found
      cases found
      omega
    · have conflict : operations.Conflicts op later := by
        rcases touches with reads | writesToo
        · exact ⟨place, Or.inr ⟨reads, writes⟩⟩
        · exact ⟨place, Or.inl ⟨writesToo, Or.inr writes⟩⟩
      have passed := consistent.done past
        (ordered _ index past stream op other later next found conflict) (Nat.le_of_lt done) next
      exact absurd passed (Nat.lt_irrefl _)

theorem Consistent.perform (consistent : device.Consistent operations initial)
    (ordered : device.Ordered operations) {op : ω}
    (next : device.log[device.reached stream]? = some ⟨stream, .perform op⟩) :
    (device.doItem operations stream (.perform op)).Consistent operations initial := by
  have here : device.reached stream < device.log.length := index_lt next
  have whole : device.log.take (device.reached stream + 1) =
      device.log.take (device.reached stream) ++ [⟨stream, .perform op⟩] := by
    rw [List.take_add_one, next, Option.toList_some]
  have met (place : Loc)
      (touches : operations.Reads op place ∨ operations.Writes op place) :
      operations.apply op device.memory place =
        operations.run (device.log.take (device.reached stream + 1)) initial place := by
    rw [whole, Operations.run_perform]
    by_cases writes : operations.Writes op place
    · exact Operations.apply_congr writes fun read reads =>
        consistent.meets ordered next (Or.inl reads)
    · rw [Operations.apply_of_not_writes writes, Operations.apply_of_not_writes writes]
      exact consistent.meets ordered next touches
  refine
    { bounded := ?_
      waited := ?_
      memory := ?_
      moments := ?_ }
  · intro other
    change (device.pass stream).reached other ≤ device.log.length
    rw [pass_reached]
    split
    · exact here
    · exact consistent.bounded other
  · intro index other awaited position found done
    apply Nat.le_trans _ ((pass_progressed device stream).2 awaited)
    rcases pass_new done with old | ⟨rfl, rfl⟩
    · exact consistent.waited index other awaited position found old
    · change device.log[device.reached other]? = _ at found
      rw [next] at found
      cases found
  · intro place count within before after
    change operations.apply op device.memory place = _
    by_cases writes : operations.Writes op place
    · have inside : device.reached stream < count := by
        by_contra outside
        apply after (device.reached stream) (Nat.le_of_not_lt outside) stream op next writes
        change device.reached stream < (device.pass stream).reached stream
        rw [pass_reached, if_pos rfl]
        exact Nat.lt_succ_self _
      rw [met place (Or.inr writes)]
      symm
      -- No later writer is done, so none stands before `count`.
      apply Operations.run_take_keeps inside
      intro index past lower other later found writesToo
      have conflict : operations.Conflicts op later :=
        ⟨place, Or.inl ⟨writes, Or.inr writesToo⟩⟩
      rcases pass_new (before index lower other later found writesToo) with done | ⟨_, same⟩
      · have passed := consistent.done past
          (ordered _ index past stream op other later next found conflict) (Nat.le_of_lt done) next
        exact absurd passed (Nat.lt_irrefl _)
      · omega
    · rw [Operations.apply_of_not_writes writes]
      apply consistent.memory place count within
      · intro index lower other earlier found writesToo
        rcases pass_new (before index lower other earlier found writesToo) with old | ⟨rfl, rfl⟩
        · exact old
        · rw [next] at found
          cases found
          exact absurd writesToo writes
      · intro index lower other later found writesToo done
        exact after index lower other later found writesToo
          (Nat.lt_of_lt_of_le done ((pass_progressed device stream).2 other))
  · intro moment member
    rcases List.mem_append.mp member with old | new
    · exact consistent.moments moment old
    · rw [List.mem_singleton.mp new]
      refine ⟨stream, op, next, met, ?_⟩
      intro first before other earlier atFirst conflict
      exact consistent.done before
        (ordered first _ before other earlier stream op atFirst next conflict) (Nat.le_refl _)
        atFirst

/-- Every step of an ordered device is consistent. -/
theorem Consistent.advance (consistent : device.Consistent operations initial)
    (ordered : device.Ordered operations) (stream : τ) :
    (device.advance operations stream).Consistent operations initial := by
  unfold Device.advance
  cases next : device.log[device.reached stream]? with
  | none => exact consistent
  | some submission =>
      rcases submission with ⟨other, item⟩
      change Consistent (if other = stream then _ else _) operations initial
      by_cases same : other = stream
      · rw [if_pos same]
        subst same
        cases item with
        | perform op => exact consistent.perform ordered next
        | wait awaited position =>
            change Consistent (if position ≤ _ then _ else _) operations initial
            by_cases enabled : position ≤ device.reached awaited
            · rw [if_pos enabled]
              apply consistent.pass next
              · exact fun op equal => nomatch equal
              · intro _ _ equal
                cases equal
                exact enabled
            · rw [if_neg enabled]
              exact consistent
      · rw [if_neg same]
        apply consistent.pass next
        · intro op equal
          cases equal
          exact same rfl
        · intro _ _ equal
          cases equal
          exact absurd rfl same

end Progress

/-! ## Waiting for a stream -/

section Settling

/-- A stream waits only for positions that were there when it was told to. -/
def Timely (device : Device τ ω Loc Val) : Prop :=
  forall (index : Nat) (stream other : τ) (position : Nat),
    device.log[index]? = some ⟨stream, .wait other position⟩ -> position ≤ index

theorem timely_empty : (empty initial : Device τ ω Loc Val).Timely :=
  fun _ _ _ _ found => nomatch found

theorem Timely.progressed {before after : Device τ ω Loc Val} (timely : before.Timely)
    (progressed : Progressed before after) : after.Timely := by
  intro index stream other position found
  rw [progressed.1] at found
  exact timely index stream other position found

theorem Timely.submit (timely : device.Timely) {stream : τ} {item : Item τ ω}
    (earlier : forall other position, item = .wait other position ->
      position ≤ device.log.length) : (device.submit stream item).Timely := by
  intro index waiting other position found
  rcases log_submit_cases found with old | ⟨last, new⟩
  · exact timely index waiting other position old
  · cases new
    rw [last]
    exact earlier other position rfl

variable [DecidableEq τ]

/-- Every stream takes a step. -/
def turn (operations : Operations ω Loc Val) (streams : List τ) (device : Device τ ω Loc Val) :
    Device τ ω Loc Val :=
  streams.foldl (fun device stream => device.advance operations stream) device

/-- The streams take turns until one of them has got to the position. -/
def settle (operations : Operations ω Loc Val) (streams : List τ) (stream : τ) (position : Nat) :
    Nat -> Device τ ω Loc Val -> Device τ ω Loc Val
  | 0, device => device
  | turns + 1, device =>
      if position ≤ device.reached stream then device
      else settle operations streams stream position turns (device.turn operations streams)

variable {stream : τ}

/-- A stream that is not ahead of any other goes on. -/
theorem advance_reaches (timely : device.Timely) {count : Nat} (inside : count < device.log.length)
    (others : forall other, count ≤ device.reached other) :
    count + 1 ≤ (device.advance operations stream).reached stream := by
  rcases Nat.lt_or_ge count (device.reached stream) with ahead | level
  · exact Nat.le_trans ahead (advance_progressed.2 stream)
  have here : device.reached stream = count := Nat.le_antisymm level (others stream)
  have passed : count + 1 ≤ (device.pass stream).reached stream :=
    Nat.le_of_eq (by rw [pass_reached, if_pos rfl, here])
  unfold advance
  rw [here]
  cases next : device.log[count]? with
  | none => exact absurd (List.getElem?_eq_none_iff.mp next) (Nat.not_le.mpr inside)
  | some submission =>
      rcases submission with ⟨owner, item⟩
      change count + 1 ≤ Device.reached (if owner = stream then _ else _) stream
      by_cases same : owner = stream
      · rw [if_pos same]
        cases item with
        | perform op => exact passed
        | wait other position =>
            change count + 1 ≤ Device.reached (if position ≤ _ then _ else _) stream
            rw [if_pos (Nat.le_trans (timely count owner other position next) (others other))]
            exact passed
      · rw [if_neg same]
        exact passed

theorem turn_progressed (streams : List τ) : Progressed device (device.turn operations streams) := by
  unfold turn
  induction streams generalizing device with
  | nil => exact Progressed.refl device
  | cons first streams previous => exact advance_progressed.trans previous

/-- A turn takes every stream in it past the place where all of them were. -/
theorem turn_reaches (timely : device.Timely) {count : Nat} (inside : count < device.log.length)
    (others : forall other, count ≤ device.reached other) {streams : List τ}
    (member : stream ∈ streams) : count + 1 ≤ (device.turn operations streams).reached stream := by
  induction streams generalizing device with
  | nil => exact absurd member List.not_mem_nil
  | cons first streams previous =>
      have stepped : Progressed device (device.advance operations first) := advance_progressed
      change count + 1 ≤ Device.reached (turn operations streams _) stream
      rcases List.mem_cons.mp member with rfl | later
      · exact Nat.le_trans (advance_reaches timely inside others)
          ((turn_progressed streams).2 stream)
      · apply previous (timely.progressed stepped) _ _ later
        · rw [stepped.1]
          exact inside
        · exact fun other => Nat.le_trans (others other) (stepped.2 other)

theorem settle_progressed (streams : List τ) (position turns : Nat) :
    Progressed device (device.settle operations streams stream position turns) := by
  induction turns generalizing device with
  | zero => exact Progressed.refl device
  | succ turns previous =>
      unfold settle
      split
      · exact Progressed.refl device
      · exact (turn_progressed streams).trans previous

/-- Enough turns of all streams get a stream to any position of the log. -/
theorem settle_reaches (timely : device.Timely) {streams : List τ}
    (every : forall other, other ∈ streams) {position turns count : Nat}
    (inside : position ≤ device.log.length) (others : forall other, count ≤ device.reached other)
    (enough : position ≤ count + turns) :
    position ≤ (device.settle operations streams stream position turns).reached stream := by
  induction turns generalizing device count with
  | zero => exact Nat.le_trans enough (others stream)
  | succ turns previous =>
      unfold settle
      by_cases there : position ≤ device.reached stream
      · rw [if_pos there]
        exact there
      rw [if_neg there]
      have short : count < device.log.length := by
        have := others stream
        omega
      have turned : Progressed device (device.turn operations streams) := turn_progressed streams
      apply previous (timely.progressed turned) _ _ (by omega : position ≤ count + 1 + turns)
      · rw [turned.1]
        exact inside
      · exact fun other => turn_reaches timely short others (every other)

end Settling

/-! ## Sound devices -/

/-- What a program that guards its submissions keeps of a device. -/
structure Sound (device : Device τ ω Loc Val) (operations : Operations ω Loc Val)
    (initial : Loc -> Val) : Prop where
  ordered : device.Ordered operations
  consistent : device.Consistent operations initial
  timely : device.Timely

namespace Sound

theorem empty : (Device.empty initial : Device τ ω Loc Val).Sound operations initial where
  ordered _ _ _ _ _ _ _ found := nomatch found
  consistent := consistent_empty
  timely := timely_empty

variable (sound : device.Sound operations initial)

include sound

theorem submitWait (stream : τ) {other : τ} {position : Nat}
    (earlier : position ≤ device.log.length) :
    (device.submit stream (.wait other position)).Sound operations initial where
  ordered := sound.ordered.submitWait other position
  consistent := sound.consistent.submit
  timely := sound.timely.submit fun _ _ same => by
    cases same
    exact earlier

theorem submitPerform (stream : τ) {op : ω}
    (guarded : forall first other earlier,
      device.log[first]? = some ⟨other, .perform earlier⟩ -> operations.Conflicts earlier op ->
      device.Guards first stream device.log.length) :
    (device.submit stream (.perform op)).Sound operations initial where
  ordered := sound.ordered.submitPerform guarded
  consistent := sound.consistent.submit
  timely := sound.timely.submit nofun

variable [DecidableEq τ]

theorem advance (stream : τ) : (device.advance operations stream).Sound operations initial where
  ordered := sound.ordered.progressed advance_progressed
  consistent := sound.consistent.advance sound.ordered stream
  timely := sound.timely.progressed advance_progressed

theorem turn (streams : List τ) : (device.turn operations streams).Sound operations initial := by
  unfold Device.turn
  induction streams generalizing device with
  | nil => exact sound
  | cons first streams previous => exact previous (sound.advance first)

theorem settle (streams : List τ) (stream : τ) (position turns : Nat) :
    (device.settle operations streams stream position turns).Sound operations initial := by
  induction turns generalizing device with
  | zero => exact sound
  | succ turns previous =>
      unfold Device.settle
      split
      · exact sound
      · exact previous (sound.turn streams)

end Sound

end Device

end Foundation
end QSAHiSparse

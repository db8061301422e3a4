import QSAHiSparse.Foundation.Effects
import QSAHiSparse.Foundation.Dict

namespace QSAHiSparse
namespace Foundation

/-!
# Exceptions and mapping access of the source language

The exception classes the source raises keep their message texts.  An
`external` exception is one that arrives from outside the modelled code, such
as a failed device call or an interrupt; only its class matters, since
`except Exception` lets a bare `BaseException` pass.
-/

inductive PyError where
  | valueError (message : String)
  | runtimeError (message : String)
  | assertionError (message : String)
  | indexError (message : String)
  | keyError
  | attributeError (message : String)
  | typeError (message : String)
  | external (isException : Bool) (message : String)
deriving DecidableEq, Repr

/-- Whether `except Exception` catches it. -/
def PyError.isException : PyError -> Bool
  | .external isException _ => isException
  | _ => true

variable {σ κ α : Type}

/-- A method of an object with state `σ`. -/
abbrev Method (σ α : Type) := EStateM PyError σ α

/-- `if condition: raise cause`. -/
def raiseIf (condition : Prop) [Decidable condition] (cause : PyError) : Method σ PUnit :=
  if condition then throw cause else pure ⟨⟩

/-- A computation that reads no state, within a method. -/
def fromExcept (result : Except PyError α) : Method σ α :=
  match result with
  | .ok value => pure value
  | .error cause => throw cause

/-- `mapping[key]`, which raises on an absent key. -/
def getItem [DecidableEq κ] (mapping : Dict κ α) (key : κ) : Method σ α :=
  match mapping.get? key with
  | none => throw .keyError
  | some value => pure value

/-- `except Exception`: every other exception passes through unhandled. -/
def exceptException (body : Method σ α) (handler : PyError -> Method σ α) : Method σ α :=
  tryCatch body (fun cause => if cause.isException then handler cause else throw cause)

section Specification

variable {post : α -> σ -> Prop} {raised : PyError -> σ -> Prop}

theorem Leaves.get_iff {post : σ -> σ -> Prop} (state : σ) :
    Leaves post raised ((get : Method σ σ).run state) <-> post state state := Iff.rfl

theorem Leaves.modify_iff {post : PUnit -> σ -> Prop} (update : σ -> σ) (state : σ) :
    Leaves post raised ((modify update : Method σ PUnit).run state) <->
      post ⟨⟩ (update state) := Iff.rfl

theorem Leaves.set_iff {post : PUnit -> σ -> Prop} (next state : σ) :
    Leaves post raised ((set next : Method σ PUnit).run state) <-> post ⟨⟩ next := Iff.rfl

theorem Leaves.fromExcept_iff (result : Except PyError α) (state : σ) :
    Leaves post raised ((fromExcept result : Method σ α).run state) <->
      match result with
      | .ok value => post value state
      | .error cause => raised cause state := by
  cases result <;> exact Iff.rfl

theorem Leaves.raiseIf_iff {post : PUnit -> σ -> Prop} (condition : Prop) [Decidable condition]
    (cause : PyError) (state : σ) :
    Leaves post raised ((raiseIf condition cause : Method σ PUnit).run state) <->
      (condition -> raised cause state) ∧ (¬ condition -> post ⟨⟩ state) := by
  unfold raiseIf
  by_cases holds : condition
  · rw [if_pos holds]
    exact ⟨fun escape => ⟨fun _ => escape, fun fails => absurd holds fails⟩,
      fun both => both.1 holds⟩
  · rw [if_neg holds]
    exact ⟨fun leave => ⟨fun fails => absurd fails holds, fun _ => leave⟩,
      fun both => both.2 holds⟩

theorem Leaves.getItem_iff [DecidableEq κ] (mapping : Dict κ α) (key : κ) (state : σ) :
    Leaves post raised ((getItem mapping key : Method σ α).run state) <->
      (mapping.get? key = none -> raised .keyError state) ∧
      (forall value, mapping.get? key = some value -> post value state) := by
  unfold getItem
  cases mapping.get? key with
  | none => simp
  | some value => simp

theorem Leaves.exceptException_iff (body : Method σ α) (handler : PyError -> Method σ α)
    (state : σ) :
    Leaves post raised ((exceptException body handler).run state) <->
      Leaves post (fun cause after =>
        (cause.isException = true -> Leaves post raised ((handler cause).run after)) ∧
        (cause.isException = false -> raised cause after)) (body.run state) := by
  rw [exceptException, Leaves.tryCatch_iff]
  cases body.run state with
  | ok value after => exact Iff.rfl
  | error cause after =>
      simp only [Leaves.error_iff]
      cases cause.isException <;> simp

theorem Preserves.raiseIf {invariant : σ -> Prop} (condition : Prop) [Decidable condition]
    (cause : PyError) : Preserves invariant (raiseIf condition cause : Method σ PUnit) :=
  Preserves.ite (fun _ => Preserves.throw cause) (fun _ => Preserves.pure PUnit.unit)

theorem Preserves.getItem [DecidableEq κ] {invariant : σ -> Prop} (mapping : Dict κ α) (key : κ) :
    Preserves invariant (getItem mapping key : Method σ α) := by
  intro state holds
  apply (Leaves.getItem_iff _ _ _).mpr
  exact ⟨fun _ => holds, fun _ _ => holds⟩

theorem Preserves.exceptException {invariant : σ -> Prop} {body : Method σ α}
    {handler : PyError -> Method σ α} (kept : Preserves invariant body)
    (handles : forall cause, Preserves invariant (handler cause)) :
    Preserves invariant (exceptException body handler) := by
  apply Preserves.tryCatch kept
  intro cause
  exact Preserves.ite (fun _ => handles cause) (fun _ => Preserves.throw cause)

end Specification

/-! ## Methods that check before they write -/

/-- The method returns exactly under its guard, with a result and a state
related by `returns`; otherwise it raises and has written nothing. -/
def Checked (guard : Prop) (before : σ) (returns : α -> σ -> Prop)
    (result : EStateM.Result PyError σ α) : Prop :=
  Leaves (fun value after => guard ∧ returns value after)
    (fun _ after => ¬ guard ∧ after = before) result

namespace Checked

variable {β : Type} {guard guard' : Prop} {before : σ} {returns : α -> σ -> Prop}

theorem raiseIf (condition : Prop) [Decidable condition] (cause : PyError) :
    Checked (¬ condition) before (fun _ after => after = before)
      ((raiseIf condition cause).run before) := by
  apply (Leaves.raiseIf_iff condition cause before).mpr
  exact ⟨fun holds => ⟨fun fails => fails holds, rfl⟩, fun fails => ⟨fails, rfl⟩⟩

/-- A first method that only checks contributes its guard to the whole. -/
theorem bind {program : Method σ α} {next : α -> Method σ β} {returns : β -> σ -> Prop}
    (first : Checked guard before (fun _ after => after = before) (program.run before))
    (rest : forall value, guard -> Checked guard' before returns ((next value).run before)) :
    Checked (guard ∧ guard') before returns ((program >>= next).run before) := by
  apply (Leaves.bind_iff program next before).mpr
  refine Leaves.mono first ?_ ?_
  · rintro value after ⟨holds, rfl⟩
    refine Leaves.mono (rest value holds) ?_ ?_
    · exact fun _ _ both => ⟨⟨holds, both.1⟩, both.2⟩
    · exact fun _ _ both => ⟨fun guards => both.1 guards.2, both.2⟩
  · exact fun _ _ both => ⟨fun guards => both.1 guards.1, both.2⟩

/-- The common first line `if condition: raise`. -/
theorem raiseIf_bind (condition : Prop) [Decidable condition] (cause : PyError)
    {next : Method σ α}
    (rest : ¬ condition -> Checked guard' before returns (next.run before)) :
    Checked (¬ condition ∧ guard') before returns
      ((Foundation.raiseIf condition cause >>= fun _ => next).run before) :=
  bind (raiseIf condition cause) (fun _ => rest)

/-- Reading the state is not a check. -/
theorem get_bind {next : σ -> Method σ α}
    (rest : Checked guard before returns ((next before).run before)) :
    Checked guard before returns ((get >>= next).run before) :=
  rest

theorem congr {result : EStateM.Result PyError σ α} (checked : Checked guard before returns result)
    (same : guard <-> guard') : Checked guard' before returns result :=
  Leaves.mono checked (fun _ _ both => ⟨same.mp both.1, both.2⟩)
    (fun _ _ both => ⟨fun holds => both.1 (same.mpr holds), both.2⟩)

/-- A method that returns with the state it entered with reads. -/
theorem reads {program : Method σ α} {guard : σ -> Prop} {returns : σ -> α -> σ -> Prop}
    (checked : forall before, Checked (guard before) before (returns before) (program.run before))
    (same : forall before value after, returns before value after -> after = before) :
    Reads program := by
  apply Keeps.of_leaves
  intro before
  exact Leaves.mono (checked before) (fun value after both => same before value after both.2)
    (fun _ _ both => both.2)

/-- A failing guard makes the method raise. -/
theorem raises {result : EStateM.Result PyError σ α} (checked : Checked guard before returns result)
    (fails : ¬ guard) : exists cause, result = .error cause before := by
  cases result with
  | ok value after => exact absurd checked.1 fails
  | error cause after =>
      rcases checked with ⟨_, same⟩
      exact ⟨cause, by rw [same]⟩

/-- What holds of the untouched state and of every state returned with holds
of the state the method leaves in. -/
theorem finalState {result : EStateM.Result PyError σ α} {property : σ -> Prop}
    (checked : Checked guard before returns result) (stays : property before)
    (moves : forall value after, guard -> returns value after -> property after) :
    property (finalState result) := by
  cases result with
  | ok value after => exact moves value after checked.1 checked.2
  | error cause after =>
      rcases checked with ⟨_, rfl⟩
      exact stays

theorem ok {result : EStateM.Result PyError σ α} (checked : Checked guard before returns result)
    {value : α} {after : σ} (ran : result = .ok value after) : guard ∧ returns value after := by
  rw [ran] at checked
  exact checked

theorem returned {result : EStateM.Result PyError σ α}
    (checked : Checked guard before returns result) (passes : guard) :
    exists value after, result = .ok value after ∧ returns value after := by
  cases result with
  | ok value after => exact ⟨value, after, rfl, checked.2⟩
  | error cause after => exact absurd passes checked.1

/-- A loop of lookups, each of which may refuse. -/
theorem mapEach {program : α -> Method σ β} {allows : α -> Prop} {answer : α -> β}
    (each : forall item, Checked (allows item) before
      (fun value after => value = answer item ∧ after = before) ((program item).run before))
    (items : List α) :
    Checked (forall item, item ∈ items -> allows item) before
      (fun values after => values = items.map answer ∧ after = before)
      ((items.mapM program).run before) := by
  induction items with
  | nil => exact ⟨fun _ member => absurd member List.not_mem_nil, rfl, rfl⟩
  | cons item items previous =>
      rw [List.mapM_cons]
      apply (Leaves.bind_iff _ _ _).mpr
      apply Leaves.mono (each item)
      · rintro value after ⟨allowed, rfl, rfl⟩
        apply (Leaves.bind_iff _ _ _).mpr
        apply Leaves.mono previous
        · rintro values last ⟨others, rfl, rfl⟩
          exact ⟨List.forall_mem_cons.mpr ⟨allowed, others⟩, rfl, rfl⟩
        · rintro cause last ⟨refused, rfl⟩
          exact ⟨fun all => refused (List.forall_mem_cons.mp all).2, rfl⟩
      · rintro cause after ⟨refused, rfl⟩
        exact ⟨fun all => refused (List.forall_mem_cons.mp all).1, rfl⟩

/-- A loop of checks. -/
theorem forEach {program : α -> Method σ PUnit} {allows : α -> Prop}
    (each : forall item, Checked (allows item) before (fun _ after => after = before)
      ((program item).run before)) (items : List α) :
    Checked (forall item, item ∈ items -> allows item) before (fun _ after => after = before)
      ((forM items program).run before) := by
  induction items with
  | nil => exact ⟨fun _ member => absurd member List.not_mem_nil, rfl⟩
  | cons item items previous =>
      rw [List.forM_cons]
      apply Checked.congr (Checked.bind (each item) fun _ _ => previous)
      exact List.forall_mem_cons.symm

theorem error {result : EStateM.Result PyError σ α} (checked : Checked guard before returns result)
    {cause : PyError} {after : σ} (ran : result = .error cause after) :
    ¬ guard ∧ after = before := by
  rw [ran] at checked
  exact checked

end Checked

/-! ## Programs that change nothing when they raise -/

/-- An exception leaves the state exactly as it was. -/
def RaisesUnchanged (program : Method σ α) : Prop :=
  forall state cause after, program.run state = .error cause after -> after = state

theorem RaisesUnchanged.of_leaves {program : Method σ α}
    (spec : forall state, Leaves (fun _ _ => True) (fun _ after => after = state)
      (program.run state)) : RaisesUnchanged program := by
  intro state cause after ran
  have outcome := spec state
  rw [ran] at outcome
  exact outcome

end Foundation
end QSAHiSparse

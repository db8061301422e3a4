import Mathlib.Tactic.Common

namespace QSAHiSparse
namespace Foundation

/-!
# Programs that raise without undoing their writes

An imperative method reads and writes one shared state and may leave by an
exception at any statement.  Writes made before the exception stay.  The core
library's `EStateM` without backtracking is exactly this semantics, so a method
is one `EStateM` program and no transaction is implied by it.

`Leaves` bounds both ways of leaving a program, and its lemmas compute it along
the syntax of the program.  `Ensures` is the corresponding judgement with an
entry condition.  `Keeps` relates the states before and after a program
whichever way it leaves, and composes along any preorder.  `zoom` runs a
program of a component on the state that contains the component.
-/

variable {ε σ τ α β : Type}

/-- Both ways of leaving: a normal return satisfies `post`, an exception
satisfies `raised`. -/
def Leaves (post : α -> σ -> Prop) (raised : ε -> σ -> Prop) :
    EStateM.Result ε σ α -> Prop
  | .ok value after => post value after
  | .error cause after => raised cause after

/-- The state in which a program leaves, whichever way it leaves. -/
def finalState : EStateM.Result ε σ α -> σ
  | .ok _ after => after
  | .error _ after => after

@[simp] theorem finalState_ok (value : α) (after : σ) :
    finalState (.ok value after : EStateM.Result ε σ α) = after := rfl

@[simp] theorem finalState_error (cause : ε) (after : σ) :
    finalState (.error cause after : EStateM.Result ε σ α) = after := rfl

/-- What a program returns or raises, without the state. -/
def outcome : EStateM.Result ε σ α -> Except ε α
  | .ok value _ => .ok value
  | .error cause _ => .error cause

/-- A program that returned is known by its value and its final state. -/
theorem eq_ok_of_outcome {result : EStateM.Result ε σ α} {value : α}
    (returned : outcome result = .ok value) : result = .ok value (finalState result) := by
  cases result with
  | ok found after => rw [Except.ok.inj returned]; rfl
  | error cause after => cases returned

theorem eq_error_of_outcome {result : EStateM.Result ε σ α} {cause : ε}
    (raised : outcome result = .error cause) : result = .error cause (finalState result) := by
  cases result with
  | ok found after => cases raised
  | error found after => rw [Except.error.inj raised]; rfl

theorem run_map (f : α -> β) (program : EStateM ε σ α) (state : σ) :
    (f <$> program).run state =
      match program.run state with
      | .ok value after => .ok (f value) after
      | .error cause after => .error cause after := by
  change EStateM.map f program state = _
  unfold EStateM.map EStateM.run
  cases program state <;> rfl

@[simp] theorem finalState_map (f : α -> β) (program : EStateM ε σ α) (state : σ) :
    finalState ((f <$> program).run state) = finalState (program.run state) := by
  rw [run_map]
  cases program.run state <;> rfl

theorem run_map_error {f : α -> β} {program : EStateM ε σ α} {state after : σ} {cause : ε}
    (raised : (f <$> program).run state = .error cause after) :
    program.run state = .error cause after := by
  rw [run_map] at raised
  cases ran : program.run state with
  | ok value last =>
      rw [ran] at raised
      cases raised
  | error raisedCause last =>
      rw [ran] at raised
      cases raised
      rfl

theorem outcome_map_ok {f : α -> β} {program : EStateM ε σ α} {state : σ} {value : β}
    (returns : outcome ((f <$> program).run state) = .ok value) :
    exists result after, program.run state = .ok result after ∧ f result = value := by
  rw [run_map] at returns
  cases ran : program.run state with
  | ok result after =>
      rw [ran] at returns
      exact ⟨result, after, rfl, Except.ok.inj returns⟩
  | error cause after =>
      rw [ran] at returns
      cases returns

@[simp] theorem run_modify (update : σ -> σ) (state : σ) :
    EStateM.run (modify update : EStateM ε σ PUnit) state = .ok ⟨⟩ (update state) := rfl

/-- A loop of writes is a fold. -/
theorem run_forM_modify (update : α -> σ -> σ) (items : List α) (state : σ) :
    EStateM.run (forM items fun item => modify (update item) : EStateM ε σ PUnit) state =
      .ok ⟨⟩ (items.foldl (fun current item => update item current) state) := by
  induction items generalizing state with
  | nil => rfl
  | cons item items previous =>
      rw [List.forM_cons, EStateM.run_bind, run_modify]
      exact previous (update item state)

/-- A sequence that returned returned at both of its parts. -/
theorem run_bind_ok {program : EStateM ε σ α} {next : α -> EStateM ε σ β} {state after : σ}
    {value : β} (returned : (program >>= next).run state = .ok value after) :
    exists first between, program.run state = .ok first between ∧
      (next first).run between = .ok value after := by
  rw [EStateM.run_bind] at returned
  cases ran : program.run state with
  | ok first between =>
      rw [ran] at returned
      exact ⟨first, between, rfl, returned⟩
  | error cause between =>
      rw [ran] at returned
      cases returned

/-- A loop that returned keeps what each of its turns keeps. -/
theorem run_forM_ok {invariant : σ -> Prop} {body : α -> EStateM ε σ PUnit} {items : List α}
    (turns : forall item, item ∈ items -> forall state after, invariant state ->
      (body item).run state = .ok ⟨⟩ after -> invariant after)
    {state after : σ} (holds : invariant state)
    (returned : (forM items body : EStateM ε σ PUnit).run state = .ok ⟨⟩ after) :
    invariant after := by
  induction items generalizing state with
  | nil =>
      cases returned
      exact holds
  | cons item items previous =>
      rw [List.forM_cons] at returned
      rcases run_bind_ok returned with ⟨_, between, first, rest⟩
      exact previous (fun other member => turns other (List.mem_cons_of_mem _ member))
        (turns item List.mem_cons_self state between holds first) rest

/-- A loop of checks that returned changed nothing and passed each of its items. -/
theorem run_forM_checks {passes : α -> Prop} {body : α -> EStateM ε σ PUnit}
    (turns : forall item state after, (body item).run state = .ok ⟨⟩ after ->
      after = state ∧ passes item) {items : List α} {state after : σ}
    (returned : (forM items body : EStateM ε σ PUnit).run state = .ok ⟨⟩ after) :
    after = state ∧ forall item, item ∈ items -> passes item := by
  induction items generalizing state with
  | nil =>
      cases returned
      exact ⟨rfl, fun _ member => absurd member List.not_mem_nil⟩
  | cons first items previous =>
      rw [List.forM_cons] at returned
      rcases run_bind_ok returned with ⟨_, between, tested, rest⟩
      have head := turns first state between tested
      have tail := previous rest
      refine ⟨tail.1.trans head.1, ?_⟩
      intro item member
      rcases List.mem_cons.mp member with same | later
      · rw [same]
        exact head.2
      · exact tail.2 item later

@[simp] theorem run_throw (cause : ε) (state : σ) :
    EStateM.run (throw cause : EStateM ε σ α) state = .error cause state := rfl

@[simp] theorem run_tryCatch (body : EStateM ε σ α) (handler : ε -> EStateM ε σ α) (state : σ) :
    EStateM.run (tryCatch body handler) state =
      match body.run state with
      | .ok value after => .ok value after
      | .error cause after => (handler cause).run after := by
  change EStateM.tryCatch body handler state = _
  unfold EStateM.tryCatch EStateM.run
  cases body state <;> rfl

@[simp] theorem run_tryFinally (body : EStateM ε σ α) (closing : EStateM ε σ β) (state : σ) :
    EStateM.run (tryFinally body closing) state =
      match body.run state with
      | .ok value after =>
          match closing.run after with
          | .ok _ last => .ok value last
          | .error cause last => .error cause last
      | .error cause after =>
          match closing.run after with
          | .ok _ last => .error cause last
          | .error replaced last => .error replaced last := by
  simp only [tryFinally, MonadFinally.tryFinally', Functor.map, EStateM.map, EStateM.run]
  cases body state with
  | ok value after => simp only; cases closing after <;> rfl
  | error cause after => simp only; cases closing after <;> rfl

/-- The closing block runs last, whichever way the body is left. -/
theorem finalState_tryFinally (body : EStateM ε σ α) (closing : EStateM ε σ β) (state : σ) :
    finalState (EStateM.run (tryFinally body closing) state) =
      finalState (closing.run (finalState (body.run state))) := by
  rw [run_tryFinally]
  cases body.run state with
  | ok value after => dsimp only [finalState_ok]; cases closing.run after <;> rfl
  | error cause after => dsimp only [finalState_error]; cases closing.run after <;> rfl

namespace Leaves

variable {post post' : α -> σ -> Prop} {raised raised' : ε -> σ -> Prop}

@[simp] theorem ok_iff (value : α) (after : σ) :
    Leaves post raised (.ok value after) <-> post value after := Iff.rfl

@[simp] theorem error_iff (cause : ε) (after : σ) :
    Leaves post raised (.error cause after) <-> raised cause after := Iff.rfl

theorem mono {result : EStateM.Result ε σ α} (holds : Leaves post raised result)
    (leave : forall value state, post value state -> post' value state)
    (escape : forall cause state, raised cause state -> raised' cause state) :
    Leaves post' raised' result := by
  cases result with
  | ok value after => exact leave value after holds
  | error cause after => exact escape cause after holds

theorem and {result : EStateM.Result ε σ α} (first : Leaves post raised result)
    (second : Leaves post' raised' result) :
    Leaves (fun value state => post value state ∧ post' value state)
      (fun cause state => raised cause state ∧ raised' cause state) result := by
  cases result with
  | ok value after => exact ⟨first, second⟩
  | error cause after => exact ⟨first, second⟩

/-- A program that cannot raise returns. -/
theorem exists_ok {result : EStateM.Result ε σ α}
    (returns : Leaves post (fun _ _ => False) result) :
    exists value after, result = .ok value after ∧ post value after := by
  cases result with
  | ok value after => exact ⟨value, after, rfl, returns⟩
  | error cause after => exact absurd returns id

/-- A bound that does not look at the way of leaving is one on the final
state. -/
theorem finalState_iff {invariant : σ -> Prop} {result : EStateM.Result ε σ α} :
    Leaves (fun _ => invariant) (fun _ => invariant) result <->
      invariant (finalState result) := by
  cases result <;> exact Iff.rfl

theorem bind_iff (program : EStateM ε σ α) (next : α -> EStateM ε σ β) (state : σ)
    {post : β -> σ -> Prop} :
    Leaves post raised (EStateM.run (program >>= next) state) <->
      Leaves (fun value after => Leaves post raised ((next value).run after)) raised
        (program.run state) := by
  rw [EStateM.run_bind]
  cases program.run state <;> exact Iff.rfl

theorem tryCatch_iff (body : EStateM ε σ α) (handler : ε -> EStateM ε σ α) (state : σ) :
    Leaves post raised (EStateM.run (tryCatch body handler) state) <->
      Leaves post (fun cause after => Leaves post raised ((handler cause).run after))
        (body.run state) := by
  rw [run_tryCatch]
  cases body.run state <;> exact Iff.rfl

theorem tryFinally_iff (body : EStateM ε σ α) (closing : EStateM ε σ β) (state : σ) :
    Leaves post raised (EStateM.run (tryFinally body closing) state) <->
      Leaves
        (fun value after =>
          Leaves (fun _ last => post value last) raised (closing.run after))
        (fun cause after =>
          Leaves (fun _ last => raised cause last) raised (closing.run after))
        (body.run state) := by
  rw [run_tryFinally]
  cases body.run state with
  | ok value after => simp only [ok_iff]; cases closing.run after <;> exact Iff.rfl
  | error cause after => simp only [error_iff]; cases closing.run after <;> exact Iff.rfl

end Leaves

/-- From every state satisfying the precondition, a normal return satisfies
`post` and an exception satisfies `raised`. -/
def Ensures (pre : σ -> Prop) (program : EStateM ε σ α)
    (post : α -> σ -> Prop) (raised : ε -> σ -> Prop) : Prop :=
  forall state, pre state -> Leaves post raised (program.run state)

namespace Ensures

variable {pre : σ -> Prop} {program : EStateM ε σ α}
  {post : α -> σ -> Prop} {raised : ε -> σ -> Prop}

theorem bind {next : α -> EStateM ε σ β} {post' : β -> σ -> Prop}
    (first : Ensures pre program post raised)
    (rest : forall value, Ensures (post value) (next value) post' raised) :
    Ensures pre (program >>= next) post' raised := by
  intro state holds
  rw [Leaves.bind_iff]
  exact (first state holds).mono (fun value after => rest value after) (fun _ _ => id)

/-- A loop keeps its invariant when every turn does; an exception leaves the
loop with the bound of the turn that raised. -/
theorem forEach {invariant : σ -> Prop} {body : α -> EStateM ε σ PUnit} :
    forall (items : List α),
      (forall item, item ∈ items ->
        Ensures invariant (body item) (fun _ => invariant) raised) ->
      Ensures invariant (forM items body) (fun _ => invariant) raised
  | [], _ => fun _ holds => holds
  | item :: items, turns => by
      rw [List.forM_cons]
      refine bind (turns item List.mem_cons_self) (fun _ => ?_)
      exact forEach items (fun other member => turns other (List.mem_cons_of_mem _ member))

end Ensures

/-- The invariant holds however the program leaves, when it held before. -/
def Preserves (invariant : σ -> Prop) (program : EStateM ε σ α) : Prop :=
  Ensures invariant program (fun _ => invariant) (fun _ => invariant)

namespace Preserves

variable {invariant : σ -> Prop} {program : EStateM ε σ α}

theorem finalState (preserves : Preserves invariant program) {state : σ}
    (holds : invariant state) : invariant (finalState (program.run state)) :=
  Leaves.finalState_iff.mp (preserves state holds)

theorem pure (value : α) : Preserves invariant (Pure.pure value : EStateM ε σ α) :=
  fun _ holds => holds

theorem throw (cause : ε) : Preserves invariant (throw cause : EStateM ε σ α) :=
  fun _ holds => holds

theorem modify {update : σ -> σ} (keeps : forall state, invariant state -> invariant (update state)) :
    Preserves invariant (modify update : EStateM ε σ PUnit) :=
  keeps

theorem bind {next : α -> EStateM ε σ β} (first : Preserves invariant program)
    (rest : forall value, Preserves invariant (next value)) :
    Preserves invariant (program >>= next) :=
  Ensures.bind first rest

/-- The invariant carries on to a program that needs it and may leave with
less. -/
theorem andThen {next : α -> EStateM ε σ β} {post : β -> σ -> Prop} {raised : ε -> σ -> Prop}
    (first : Preserves invariant program) (escape : forall cause state, invariant state ->
      raised cause state) (rest : forall value, Ensures invariant (next value) post raised) :
    Ensures invariant (program >>= next) post raised := by
  intro state holds
  apply (Leaves.bind_iff _ _ _).mpr
  exact (first state holds).mono (fun value after => rest value after) escape

/-- A program that keeps the invariant may be asked for less when it raises. -/
theorem escaping {raised : ε -> σ -> Prop} (preserves : Preserves invariant program)
    (escape : forall cause state, invariant state -> raised cause state) :
    Ensures invariant program (fun _ => invariant) raised :=
  fun state holds => (preserves state holds).mono (fun _ _ => id) escape

/-- What follows a read may use that the state was read. -/
theorem get_bind {next : σ -> EStateM ε σ β} (rest : forall state, Preserves invariant (next state)) :
    Preserves invariant (get >>= next) :=
  fun state => rest state state

theorem ite {condition : Prop} [Decidable condition] {other : EStateM ε σ α}
    (chosen : condition -> Preserves invariant program)
    (rejected : ¬ condition -> Preserves invariant other) :
    Preserves invariant (if condition then program else other) := by
  by_cases holds : condition
  · rw [if_pos holds]
    exact chosen holds
  · rw [if_neg holds]
    exact rejected holds

theorem forEach {body : α -> EStateM ε σ PUnit} (items : List α)
    (turns : forall item, item ∈ items -> Preserves invariant (body item)) :
    Preserves invariant (forM items body) :=
  Ensures.forEach items turns

theorem mapEach {body : α -> EStateM ε σ β} (items : List α)
    (turns : forall item, item ∈ items -> Preserves invariant (body item)) :
    Preserves invariant (items.mapM body) := by
  induction items with
  | nil => exact pure []
  | cons item items previous =>
      rw [List.mapM_cons]
      refine bind (turns item List.mem_cons_self) fun first => ?_
      refine bind (previous fun other member => turns other (List.mem_cons_of_mem _ member)) ?_
      exact fun rest => pure (first :: rest)

theorem tryCatch {handler : ε -> EStateM ε σ α} (body : Preserves invariant program)
    (handles : forall cause, Preserves invariant (handler cause)) :
    Preserves invariant (MonadExcept.tryCatch program handler) := by
  intro state holds
  apply (Leaves.tryCatch_iff _ _ _).mpr
  exact (body state holds).mono (fun _ _ => id) fun cause after => handles cause after

theorem tryFinally {closing : EStateM ε σ β} (body : Preserves invariant program)
    (closes : Preserves invariant closing) :
    Preserves invariant (tryFinally program closing) := by
  intro state holds
  apply (Leaves.tryFinally_iff _ _ _).mpr
  exact (body state holds).mono (fun _ after => closes after) fun _ after => closes after

end Preserves

/-- The program relates the state it starts from to the state it leaves in,
whichever way it leaves. -/
def Keeps (relation : σ -> σ -> Prop) (program : EStateM ε σ α) : Prop :=
  forall state, relation state (finalState (program.run state))

namespace Keeps

variable {relation : σ -> σ -> Prop} {program : EStateM ε σ α}

theorem leaves (keeps : Keeps relation program) (state : σ) :
    Leaves (fun _ => relation state) (fun _ => relation state) (program.run state) :=
  Leaves.finalState_iff.mpr (keeps state)

theorem of_leaves (holds : forall state,
    Leaves (fun _ => relation state) (fun _ => relation state) (program.run state)) :
    Keeps relation program :=
  fun state => Leaves.finalState_iff.mp (holds state)

theorem weaken {relation' : σ -> σ -> Prop} (keeps : Keeps relation program)
    (implies : forall before after, relation before after -> relation' before after) :
    Keeps relation' program :=
  fun state => implies _ _ (keeps state)

variable (refl : forall state, relation state state)
  (trans : forall first second third,
    relation first second -> relation second third -> relation first third)

include refl in
theorem pure (value : α) : Keeps relation (Pure.pure value : EStateM ε σ α) :=
  fun state => refl state

include refl in
theorem throw (cause : ε) : Keeps relation (throw cause : EStateM ε σ α) :=
  fun state => refl state

include trans in
theorem bind {next : α -> EStateM ε σ β} (first : Keeps relation program)
    (rest : forall value, Keeps relation (next value)) :
    Keeps relation (program >>= next) := by
  intro state
  rw [EStateM.run_bind]
  have step := first state
  cases ran : program.run state with
  | ok value after =>
      rw [ran] at step
      exact trans _ _ _ step (rest value after)
  | error cause after =>
      rw [ran] at step
      exact step

include refl trans in
theorem forEach {body : α -> EStateM ε σ PUnit} (turn : forall item, Keeps relation (body item)) :
    forall items : List α, Keeps relation (forM items body)
  | [] => fun state => refl state
  | item :: items => by
      rw [List.forM_cons]
      exact bind trans (turn item) (fun _ => forEach turn items)

include trans in
theorem tryCatch {handler : ε -> EStateM ε σ α} (body : Keeps relation program)
    (handles : forall cause, Keeps relation (handler cause)) :
    Keeps relation (MonadExcept.tryCatch program handler) := by
  intro state
  rw [run_tryCatch]
  have step := body state
  cases ran : program.run state with
  | ok value after =>
      rw [ran] at step
      exact step
  | error cause after =>
      rw [ran] at step
      exact trans _ _ _ step (handles cause after)

end Keeps

/-- A preorder that every entry state bounds is a relation the program keeps. -/
theorem Keeps.of_preserves {relation : σ -> σ -> Prop} {program : EStateM ε σ α}
    (refl : forall state, relation state state)
    (preserves : forall start, Preserves (relation start) program) : Keeps relation program :=
  fun state => (preserves state).finalState (refl state)

/-- The program leaves in the state it started from. -/
def Reads (program : EStateM ε σ α) : Prop :=
  Keeps (fun before after => after = before) program

namespace Reads

variable {program : EStateM ε σ α}

theorem preserves (reads : Reads program) {invariant : σ -> Prop} :
    Preserves invariant program := by
  intro state holds
  apply (reads.leaves state).mono
  · rintro _ after rfl
    exact holds
  · rintro _ after rfl
    exact holds

theorem returns_or_raises (reads : Reads program) (state : σ) :
    (exists value, program.run state = .ok value state) ∨
      exists cause, program.run state = .error cause state := by
  have same := reads state
  cases ran : program.run state with
  | ok value after =>
      rw [ran] at same
      exact Or.inl ⟨value, congrArg _ same⟩
  | error cause after =>
      rw [ran] at same
      exact Or.inr ⟨cause, congrArg _ same⟩

theorem of_preserves (preserves : forall start, Preserves (fun state => state = start) program) :
    Reads program :=
  Keeps.of_preserves (fun _ => rfl) preserves

end Reads

/-! ## Programs of a component -/

/-- A component of a larger state, with the three laws of a record field. -/
structure Field (σ τ : Type) where
  get : σ -> τ
  set : τ -> σ -> σ
  get_set : forall part state, get (set part state) = part
  set_get : forall state, set (get state) state = state
  set_set : forall first second state, set second (set first state) = set second state

/-- Run a program of the component in place. -/
def Field.zoom (field : Field σ τ) (program : EStateM ε τ α) : EStateM ε σ α :=
  fun state =>
    match program.run (field.get state) with
    | .ok value part => .ok value (field.set part state)
    | .error cause part => .error cause (field.set part state)

theorem Field.run_zoom (field : Field σ τ) (program : EStateM ε τ α) (state : σ) :
    (field.zoom program).run state =
      match program.run (field.get state) with
      | .ok value part => .ok value (field.set part state)
      | .error cause part => .error cause (field.set part state) := rfl

theorem Field.zoom_ok (field : Field σ τ) {program : EStateM ε τ α} {state : σ} {value : α}
    {part : τ} (ran : program.run (field.get state) = .ok value part) :
    (field.zoom program).run state = .ok value (field.set part state) := by
  rw [Field.run_zoom, ran]

theorem Field.leaves_zoom (field : Field σ τ) (program : EStateM ε τ α) (state : σ)
    {post : α -> σ -> Prop} {raised : ε -> σ -> Prop} :
    Leaves post raised ((field.zoom program).run state) <->
      Leaves (fun value part => post value (field.set part state))
        (fun cause part => raised cause (field.set part state))
        (program.run (field.get state)) := by
  rw [Field.run_zoom]
  cases program.run (field.get state) <;> exact Iff.rfl

theorem Reads.zoom {field : Field σ τ} {program : EStateM ε τ α} (reads : Reads program) :
    Reads (field.zoom program) := by
  apply Keeps.of_leaves
  intro state
  apply (field.leaves_zoom program state).mpr
  apply (reads.leaves (field.get state)).mono
  · rintro _ part rfl
    exact field.set_get state
  · rintro _ part rfl
    exact field.set_get state

/-- A whole state is its own component. -/
def Field.whole : Field σ σ where
  get state := state
  set part _ := part
  get_set _ _ := rfl
  set_get _ := rfl
  set_set _ _ _ := rfl

end Foundation
end QSAHiSparse

import Mathlib.Data.List.Perm.Basic
import Mathlib.Tactic.Common

namespace QSAHiSparse
namespace Foundation

/-!
# Interleavings

Threads take turns, one action at a time, in any order.  A trace has all their
actions, those of each thread in its order.  What every thread puts before an
action is before that action in the trace.
-/

variable {α β : Type}

/-- A complete run of several threads. -/
inductive Interleaves : List (List α) -> List α -> Prop where
  | done {programs : List (List α)} : (forall program, program ∈ programs -> program = []) ->
      Interleaves programs []
  | step {before after : List (List α)} {action : α} {rest trace : List α} :
      Interleaves (before ++ rest :: after) trace ->
      Interleaves (before ++ (action :: rest) :: after) (action :: trace)

namespace Interleaves

variable {programs : List (List α)} {trace : List α}

/-- A trace has the actions of all threads. -/
theorem perm (run : Interleaves programs trace) : trace.Perm programs.flatten := by
  induction run with
  | done empty => rw [List.flatten_eq_nil_iff.mpr empty]
  | @step before after action rest trace _ earlier =>
      have moved : (before ++ (action :: rest) :: after).flatten.Perm
          (action :: (before ++ rest :: after).flatten) := by
        rw [List.flatten_append, List.flatten_append, List.flatten_cons, List.flatten_cons,
          List.cons_append]
        exact List.perm_middle
      exact (earlier.cons action).trans moved.symm

/-- What an action needs is among the actions that were taken before it. -/
def Preceded (needs : α -> α -> Prop) (taken program : List α) : Prop :=
  forall before action after, program = before ++ action :: after ->
    forall needed, needs action needed -> needed ∈ taken ++ before

theorem Preceded.tail {needs : α -> α -> Prop} {taken rest : List α} {action : α}
    (preceded : Preceded needs taken (action :: rest)) :
    Preceded needs (taken ++ [action]) rest := by
  intro before other after split needed needs_it
  have found := preceded (action :: before) other after (by rw [split]; rfl) needed needs_it
  rw [List.append_assoc]
  exact found

theorem Preceded.later {needs : α -> α -> Prop} {taken program : List α} (action : α)
    (preceded : Preceded needs taken program) : Preceded needs (taken ++ [action]) program := by
  intro before other after split needed needs_it
  have found := preceded before other after split needed needs_it
  rcases List.mem_append.mp found with old | new
  · exact List.mem_append_left _ (List.mem_append_left _ old)
  · exact List.mem_append_right _ new

theorem Preceded.nil {needs : α -> α -> Prop} {taken : List α} : Preceded needs taken [] :=
  fun before action after split => absurd split (by simp)

theorem Preceded.append {needs : α -> α -> Prop} {taken first second : List α}
    (early : Preceded needs taken first) (late : Preceded needs [] second) :
    Preceded needs taken (first ++ second) := by
  intro before action after split needed needs_it
  rcases List.append_eq_append_iff.mp split with ⟨middle, same, rest⟩ | ⟨middle, same, rest⟩
  · rw [same, ← List.append_assoc]
    exact List.mem_append_right _ (late middle action after rest needed needs_it)
  · cases middle with
    | nil =>
        rw [List.append_nil] at same
        have found := late [] action after rest.symm needed needs_it
        exact (nomatch found)
    | cons other middle =>
        cases rest
        exact early before action middle same needed needs_it

theorem Preceded.flatMap {needs : α -> α -> Prop} {body : β -> List α} {turns : List β}
    (each : forall turn, Preceded needs [] (body turn)) :
    Preceded needs [] (turns.flatMap body) := by
  induction turns with
  | nil => exact Preceded.nil
  | cons turn turns inductionHypothesis =>
      rw [List.flatMap_cons]
      exact (each turn).append inductionHypothesis

/-- What precedes in a trace precedes in a part of it. -/
theorem Preceded.left {needs : α -> α -> Prop} {taken first second : List α}
    (whole : Preceded needs taken (first ++ second)) : Preceded needs taken first := by
  intro before action after split
  exact whole before action (after ++ second) (by rw [split, List.append_assoc, List.cons_append])

/-- The order that every thread keeps is kept by the trace. -/
theorem preceded {needs : α -> α -> Prop} (run : Interleaves programs trace) :
    forall taken, (forall program, program ∈ programs -> Preceded needs taken program) ->
      Preceded needs taken trace := by
  induction run with
  | done _ =>
      intro taken _ before action after split
      exact absurd split (by simp)
  | @step before after action rest trace _ later =>
      intro taken keep
      have own := keep (action :: rest) (by simp)
      have others := later (taken ++ [action]) (by
        intro program member
        rcases List.mem_append.mp member with front | back
        · exact (keep program (List.mem_append_left _ front)).later action
        · rcases List.mem_cons.mp back with same | back
          · rw [same]
            exact own.tail
          · exact (keep program (List.mem_append_right _ (List.mem_cons_of_mem _ back))).later
              action)
      intro head other tail split needed needs_it
      cases head with
      | nil =>
          cases split
          exact own [] action rest rfl needed needs_it
      | cons first head =>
          cases split
          have found := others head other tail rfl needed needs_it
          rw [List.append_assoc] at found
          exact found

/-- The threads may run one after the other. -/
theorem flatten : forall programs : List (List α), Interleaves programs programs.flatten := by
  have first (rest : List (List α)) (trace : List α)
      (others : forall before : List (List α), (forall program, program ∈ before -> program = []) ->
        Interleaves (before ++ rest) trace) :
      forall (program : List α) (before : List (List α)),
        (forall other, other ∈ before -> other = []) ->
        Interleaves (before ++ program :: rest) (program ++ trace) := by
    intro program
    induction program with
    | nil =>
        intro before empty
        have joined := others (before ++ [[]]) (by
          intro other member
          rcases List.mem_append.mp member with old | new
          · exact empty other old
          · exact List.mem_singleton.mp new)
        rw [List.append_assoc] at joined
        exact joined
    | cons action program inductionHypothesis =>
        exact fun before empty => .step (inductionHypothesis before empty)
  have all (programs : List (List α)) : forall before : List (List α),
      (forall program, program ∈ before -> program = []) ->
      Interleaves (before ++ programs) programs.flatten := by
    induction programs with
    | nil =>
        intro before empty
        rw [List.append_nil]
        exact .done empty
    | cons program programs inductionHypothesis =>
        exact first programs programs.flatten inductionHypothesis program
  exact fun programs => all programs [] fun _ member => (nomatch member)

end Interleaves

end Foundation
end QSAHiSparse

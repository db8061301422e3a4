import Mathlib.Tactic.Common

namespace QSAHiSparse
namespace Foundation

/-!
# Runs of a labelled transition system

A run lists its labels in the order in which they were performed, so that a
property of a whole history, such as the absence of a repeated result, can be
stated about the labels.  Invariants are proved once here: what holds initially
and is preserved by a step holds after every run.
-/

/-- A labelled transition system. -/
structure System (State Label : Type) where
  initial : State -> Prop
  step : State -> Label -> State -> Prop

namespace System

variable {State Label : Type} (system : System State Label)

/-- The run from `first` to `last` performs `labels` in order. -/
inductive Run : State -> List Label -> State -> Prop where
  | nil (state : State) : Run state [] state
  | snoc {first middle last : State} {labels : List Label} {label : Label} :
      Run first labels middle -> system.step middle label last ->
      Run first (labels ++ [label]) last

def Reachable (state : State) : Prop :=
  exists first labels, system.initial first ∧ system.Run first labels state

variable {system}

theorem Run.invariant {property : State -> Prop} {first last : State} {labels : List Label}
    (run : system.Run first labels last) (start : property first)
    (preserved : forall before label after, property before ->
      system.step before label after -> property after) : property last := by
  induction run with
  | nil => exact start
  | snoc _ step inductionHypothesis => exact preserved _ _ _ inductionHypothesis step

theorem Reachable.invariant {property : State -> Prop} {state : State}
    (reachable : system.Reachable state)
    (start : forall first, system.initial first -> property first)
    (preserved : forall before label after, property before ->
      system.step before label after -> property after) : property state := by
  obtain ⟨first, labels, initial, run⟩ := reachable
  exact run.invariant (start first initial) preserved

theorem Reachable.step {before after : State} {label : Label}
    (reachable : system.Reachable before) (step : system.step before label after) :
    system.Reachable after := by
  obtain ⟨first, labels, initial, run⟩ := reachable
  exact ⟨first, labels ++ [label], initial, run.snoc step⟩

theorem Run.append {first middle last : State} {left right : List Label}
    (before : system.Run first left middle) (after : system.Run middle right last) :
    system.Run first (left ++ right) last := by
  induction after with
  | nil => rwa [List.append_nil]
  | snoc _ step inductionHypothesis =>
      rw [← List.append_assoc]
      exact inductionHypothesis.snoc step

end System

end Foundation
end QSAHiSparse

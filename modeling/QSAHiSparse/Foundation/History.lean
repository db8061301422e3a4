import Mathlib.Tactic.Common

namespace QSAHiSparse
namespace Foundation

/-!
# Laws of a history

A history is the list of the events so far.  A law says of an event what must
have happened before it; a history is lawful when every event in it is.
-/

variable {α : Type}

def Lawful (law : List α -> α -> Prop) (history : List α) : Prop :=
  forall earlier event later, history = earlier ++ event :: later -> law earlier event

namespace Lawful

variable {law : List α -> α -> Prop} {history : List α}

theorem nil : Lawful law [] := by
  intro earlier event later equal
  exact absurd equal.symm (List.append_ne_nil_of_right_ne_nil earlier (List.cons_ne_nil _ _))

/-- An event is added under its law. -/
theorem snoc (lawful : Lawful law history) {event : α} (allowed : law history event) :
    Lawful law (history ++ [event]) := by
  intro earlier other later equal
  rcases List.eq_nil_or_concat later with rfl | ⟨init, last, rfl⟩
  · rcases List.append_inj' equal rfl with ⟨rfl, same⟩
    rw [← List.head_eq_of_cons_eq same]
    exact allowed
  · rw [List.concat_eq_append, ← List.cons_append, ← List.append_assoc] at equal
    exact lawful earlier other init (List.append_inj' equal rfl).1

/-- Every beginning of a lawful history is lawful. -/
theorem initial (events : List α) (lawful : Lawful law (history ++ events)) : Lawful law history := by
  intro earlier event later equal
  apply lawful earlier event (later ++ events)
  rw [equal, List.append_assoc, List.cons_append]

/-- Events that no law forbids may be added anywhere. -/
theorem append (lawful : Lawful law history) {events : List α}
    (allowed : forall event, event ∈ events -> forall earlier, law earlier event) :
    Lawful law (history ++ events) := by
  induction events generalizing history with
  | nil =>
      rw [List.append_nil]
      exact lawful
  | cons event events previous =>
      rw [List.append_cons]
      apply previous (lawful.snoc (allowed event List.mem_cons_self history))
      exact fun other member => allowed other (List.mem_cons_of_mem _ member)

end Lawful

end Foundation
end QSAHiSparse

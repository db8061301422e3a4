import QSAHiSparse.Foundation.Effects

namespace QSAHiSparse
namespace Foundation

/-!
# Sequences of calls

An object is used by calling its methods in some order, going on after a call
that raised.  `callAll` is the state that results and `answers` the list of what
the calls returned or raised.  Invariants are proved once here, and so is the
law that a value never seen before is never handed out twice.
-/

variable {ε σ α ω : Type} (perform : ω -> EStateM ε σ α)

/-- The state after the calls, each made whether or not the one before it
raised. -/
def callAll (state : σ) (calls : List ω) : σ :=
  calls.foldl (fun current call => finalState ((perform call).run current)) state

/-- What the calls returned or raised, in order. -/
def answers : σ -> List ω -> List (Except ε α)
  | _, [] => []
  | state, call :: rest =>
      outcome ((perform call).run state) ::
        answers (finalState ((perform call).run state)) rest

@[simp] theorem callAll_nil (state : σ) : callAll perform state [] = state := rfl

@[simp] theorem callAll_cons (state : σ) (call : ω) (rest : List ω) :
    callAll perform state (call :: rest) =
      callAll perform (finalState ((perform call).run state)) rest := rfl

theorem callAll_append (state : σ) (first second : List ω) :
    callAll perform state (first ++ second) =
      callAll perform (callAll perform state first) second :=
  List.foldl_append

variable {perform}

/-- What every call preserves holds after any calls. -/
theorem callAll_induction (property : σ -> Prop)
    (preserved : forall state call, property state ->
      property (finalState ((perform call).run state)))
    (calls : List ω) :
    forall state, property state -> property (callAll perform state calls) := by
  induction calls with
  | nil => exact fun _ holds => holds
  | cons call rest inductionHypothesis =>
      intro state holds
      exact inductionHypothesis _ (preserved state call holds)

/-! ## Values that are handed out once -/

section Fresh

variable {ρ : Type} (pick : Except ε α -> Option ρ) (seen : σ -> ρ -> Prop)

/-- The value in the answer of a call that need not return one. -/
def returnedValue : Except ε (Option ρ) -> Option ρ
  | .ok value => value
  | .error _ => none

theorem returnedValue_iff {answer : Except ε (Option ρ)} {value : ρ} :
    returnedValue answer = some value <-> answer = .ok (some value) := by
  cases answer <;> simp [returnedValue]

/-- The values picked from the answers, in order. -/
def picked (perform : ω -> EStateM ε σ α) (state : σ) (calls : List ω) : List ρ :=
  (answers perform state calls).filterMap pick

/-- Every value handed out is new, and is seen from then on. -/
structure HandsOutFresh (perform : ω -> EStateM ε σ α) : Prop where
  new : forall state call value,
    pick (outcome ((perform call).run state)) = some value -> ¬ seen state value
  records : forall state call value,
    pick (outcome ((perform call).run state)) = some value ->
    seen (finalState ((perform call).run state)) value
  remembers : forall state call value, seen state value ->
    seen (finalState ((perform call).run state)) value

variable {pick seen}

theorem mem_picked_cons {state : σ} {call : ω} {rest : List ω} {value : ρ} :
    value ∈ picked pick perform state (call :: rest) <->
      pick (outcome ((perform call).run state)) = some value ∨
        value ∈ picked pick perform (finalState ((perform call).run state)) rest := by
  unfold picked
  rw [answers, List.filterMap_cons]
  cases pick (outcome ((perform call).run state)) with
  | none => simp
  | some first => simp [eq_comm]

namespace HandsOutFresh

variable (fresh : HandsOutFresh pick seen perform)

include fresh

theorem picked_new (calls : List ω) :
    forall state value, value ∈ picked pick perform state calls -> ¬ seen state value := by
  induction calls with
  | nil => exact fun _ _ member => absurd member List.not_mem_nil
  | cons call rest inductionHypothesis =>
      intro state value member
      rcases mem_picked_cons.mp member with now | later
      · exact fresh.new state call value now
      · intro known
        exact inductionHypothesis _ value later (fresh.remembers state call value known)

theorem picked_seen (calls : List ω) :
    forall state value, value ∈ picked pick perform state calls ->
      seen (callAll perform state calls) value := by
  induction calls with
  | nil => exact fun _ _ member => absurd member List.not_mem_nil
  | cons call rest inductionHypothesis =>
      intro state value member
      rw [callAll_cons]
      rcases mem_picked_cons.mp member with now | later
      · exact callAll_induction (fun state => seen state value)
          (fun state call => fresh.remembers state call value) rest _
          (fresh.records state call value now)
      · exact inductionHypothesis _ value later

/-- No value is handed out twice. -/
theorem picked_nodup (calls : List ω) : forall state, (picked pick perform state calls).Nodup := by
  induction calls with
  | nil => exact fun _ => List.nodup_nil
  | cons call rest inductionHypothesis =>
      intro state
      have tail := inductionHypothesis (finalState ((perform call).run state))
      unfold picked at tail
      unfold picked
      rw [answers, List.filterMap_cons]
      cases now : pick (outcome ((perform call).run state)) with
      | none => exact tail
      | some value =>
          apply List.nodup_cons.mpr
          refine ⟨?_, tail⟩
          intro again
          exact fresh.picked_new rest _ value again (fresh.records state call value now)

end HandsOutFresh

end Fresh

end Foundation
end QSAHiSparse

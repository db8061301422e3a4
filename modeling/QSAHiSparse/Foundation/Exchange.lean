import Mathlib.Algebra.GroupWithZero.Nat
import QSAHiSparse.Foundation.Python

namespace QSAHiSparse
namespace Foundation

/-!
# Programs that exchange values

Every member of a group runs a program of its own.  A collective operation takes
a value from each member and gives the same answer to all; it completes only
when every member has entered it.  A group of which one member ends, or enters
another operation, while the others wait, is stuck.
-/

/-- What one member does until it ends. -/
inductive Exchange (μ ω : Type) where
  | ended (result : ω)
  /-- The sum of all values. -/
  | allReduce (value : Nat) (next : Nat -> Exchange μ ω)
  /-- All values, in the order of the members. -/
  | allGather (value : μ) (next : List μ -> Exchange μ ω)

variable {μ ω ω' : Type}

namespace Exchange

/-- Go on where the first program ended. -/
def andThen (rest : ω -> Exchange μ ω') : Exchange μ ω -> Exchange μ ω'
  | ended result => rest result
  | allReduce value next => allReduce value fun total => andThen rest (next total)
  | allGather value next => allGather value fun values => andThen rest (next values)

def ended? : Exchange μ ω -> Option ω
  | ended result => some result
  | _ => none

def reducing? : Exchange μ ω -> Option (Nat × (Nat -> Exchange μ ω))
  | allReduce value next => some (value, next)
  | _ => none

def gathering? : Exchange μ ω -> Option (μ × (List μ -> Exchange μ ω))
  | allGather value next => some (value, next)
  | _ => none

/-- How a member and the others behind it end, unless they are stuck. -/
def meet : Exchange μ ω -> List (Exchange μ ω) -> Option (List ω)
  | ended result, others => (others.mapM ended?).map fun results => result :: results
  | allReduce value next, others =>
      match others.mapM reducing? with
      | none => none
      | some peers =>
          meet (next (value + (peers.map Prod.fst).sum))
            (peers.map fun peer => peer.2 (value + (peers.map Prod.fst).sum))
  | allGather value next, others =>
      match others.mapM gathering? with
      | none => none
      | some peers =>
          meet (next (value :: peers.map Prod.fst))
            (peers.map fun peer => peer.2 (value :: peers.map Prod.fst))

/-- How the members of a group end. -/
def meetAll : List (Exchange μ ω) -> Option (List ω)
  | [] => some []
  | member :: others => member.meet others

/-! ## Groups that run one program -/

section Members

variable {κ : Type} (members : List κ)

theorem mapM_some {α β : Type} (items : List α) {pick : β -> Option ω} {build : α -> β}
    {answer : α -> ω} (picks : forall item, pick (build item) = some (answer item)) :
    (items.map build).mapM pick = some (items.map answer) := by
  induction items with
  | nil => rfl
  | cons item items previous =>
      rw [List.map_cons, List.mapM_cons, picks, previous]
      rfl

theorem meetAll_ended (result : κ -> ω) :
    meetAll (members.map fun member => (ended (result member) : Exchange μ ω)) =
      some (members.map result) := by
  cases members with
  | nil => rfl
  | cons member others =>
      have peers : (others.map fun other => (ended (result other) : Exchange μ ω)).mapM ended? =
          some (others.map result) := mapM_some others fun other => rfl
      rw [List.map_cons, meetAll, meet, peers]
      rfl

theorem meetAll_allReduce (value : κ -> Nat) (next : κ -> Nat -> Exchange μ ω) :
    meetAll (members.map fun member => allReduce (value member) (next member)) =
      meetAll (members.map fun member => next member (members.map value).sum) := by
  cases members with
  | nil => rfl
  | cons member others =>
      have peers : (others.map fun other => allReduce (value other) (next other)).mapM reducing? =
          some (others.map fun other => (value other, next other)) :=
        mapM_some others fun other => rfl
      rw [List.map_cons, meetAll, meet, peers, List.map_cons, meetAll]
      simp only [List.map_map, List.map_cons, List.sum_cons, Function.comp_def]

theorem meetAll_allGather (value : κ -> μ) (next : κ -> List μ -> Exchange μ ω) :
    meetAll (members.map fun member => allGather (value member) (next member)) =
      meetAll (members.map fun member => next member (members.map value)) := by
  cases members with
  | nil => rfl
  | cons member others =>
      have peers : (others.map fun other => allGather (value other) (next other)).mapM gathering? =
          some (others.map fun other => (value other, next other)) :=
        mapM_some others fun other => rfl
      rw [List.map_cons, meetAll, meet, peers, List.map_cons, meetAll]
      simp only [List.map_map, List.map_cons, Function.comp_def]

end Members

end Exchange

/-! ## Methods with collective operations -/

/-- A method of a member with state `σ`. -/
def Collective (μ σ α : Type) := σ -> Exchange μ (EStateM.Result PyError σ α)

namespace Collective

variable {σ α β : Type}

/-- The exchange of a member in a state. -/
def run (program : Collective μ σ α) (state : σ) : Exchange μ (EStateM.Result PyError σ α) :=
  program state

/-- The rest of a program runs where the first part returned. -/
def resume (rest : α -> Collective μ σ β) :
    EStateM.Result PyError σ α -> Exchange μ (EStateM.Result PyError σ β)
  | .ok value state => (rest value).run state
  | .error cause state => .ended (.error cause state)

instance : Monad (Collective μ σ) where
  pure value := fun state => .ended (.ok value state)
  bind program rest := fun state => (program.run state).andThen (Collective.resume rest)

/-- A part without collective operations. -/
def lift (program : Method σ α) : Collective μ σ α := fun state => .ended (program.run state)

def allReduce (value : Nat) : Collective μ σ Nat :=
  fun state => .allReduce value fun total => .ended (.ok total state)

def allGather (value : μ) : Collective μ σ (List μ) :=
  fun state => .allGather value fun values => .ended (.ok values state)

theorem run_pure (value : α) (state : σ) :
    (pure value : Collective μ σ α).run state = .ended (.ok value state) := rfl

theorem run_allReduce_bind (value : Nat) (rest : Nat -> Collective μ σ β) (state : σ) :
    (allReduce value >>= rest).run state =
      .allReduce value fun total => (rest total).run state := rfl

theorem run_lift_bind (program : Method σ α) (rest : α -> Collective μ σ β) (state : σ) :
    (lift program >>= rest : Collective μ σ β).run state =
      Collective.resume rest (program.run state) := rfl

end Collective

end Foundation
end QSAHiSparse

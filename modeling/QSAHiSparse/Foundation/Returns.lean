import QSAHiSparse.Foundation.Python

namespace QSAHiSparse
namespace Foundation

/-!
# What a program that returns has done

A run that is followed only as long as its methods return needs nothing about
exceptions.  `Returns` is the judgement for this: whatever the program raises,
only its normal returns are bounded.  The rules follow the statements of a
method in order; a read of the state is remembered, and a check that passed is.
-/

variable {σ α β : Type} {pre : σ -> Prop} {program : Method σ α} {post : α -> σ -> Prop}

/-- From every state satisfying the precondition, a normal return satisfies
`post`. -/
abbrev Returns (pre : σ -> Prop) (program : Method σ α) (post : α -> σ -> Prop) : Prop :=
  Ensures pre program post fun _ _ => True

theorem Preserves.returns {invariant : σ -> Prop} (preserves : Preserves invariant program) :
    Returns invariant program fun _ => invariant :=
  preserves.escaping fun _ _ _ => trivial

/-- A judgement of the state a run has got to. -/
theorem Returns.ok (returns : Returns pre program post) {state after : σ} {value : α}
    (start : pre state) (ran : program.run state = .ok value after) : post value after := by
  have leaves := returns state start
  rw [ran] at leaves
  exact leaves

namespace Returns

theorem weaken {pre' : σ -> Prop} {post' : α -> σ -> Prop} (returns : Returns pre program post)
    (enters : forall state, pre' state -> pre state)
    (leaves : forall value state, post value state -> post' value state) :
    Returns pre' program post' :=
  fun state holds => (returns state (enters state holds)).mono leaves fun _ _ => id

theorem throw (cause : PyError) : Returns pre (throw cause : Method σ α) post :=
  fun _ _ => trivial

theorem modify (next : σ -> Prop) {update : σ -> σ}
    (writes : forall state, pre state -> next (update state)) :
    Returns pre (modify update : Method σ PUnit) fun _ => next :=
  writes

/-- What follows a read may use that the state was read. -/
theorem get_bind {next : σ -> Method σ β} {post : β -> σ -> Prop}
    (rest : forall found, Returns (fun state => pre state ∧ state = found) (next found) post) :
    Returns pre (get >>= next) post :=
  fun state holds => rest state state ⟨holds, rfl⟩

/-- What follows a read may use what the precondition says of the state read. -/
theorem get_known {next : σ -> Method σ β} {post : β -> σ -> Prop}
    (rest : forall found, pre found -> Returns pre (next found) post) :
    Returns pre (get >>= next) post :=
  fun state holds => rest state holds state holds

/-- What follows a check may use that it passed. -/
theorem raiseIf_bind (condition : Prop) [Decidable condition] {cause : PyError}
    {next : PUnit -> Method σ β} {post : β -> σ -> Prop}
    (rest : ¬ condition -> Returns pre (next ⟨⟩) post) :
    Returns pre (raiseIf condition cause >>= next) post := by
  intro state holds
  apply (Leaves.bind_iff _ _ _).mpr
  apply (Leaves.raiseIf_iff _ _ _).mpr
  exact ⟨fun _ => trivial, fun passed => rest passed state holds⟩

theorem ite {condition : Prop} [Decidable condition] {other : Method σ α}
    (chosen : condition -> Returns pre program post)
    (rejected : ¬ condition -> Returns pre other post) :
    Returns pre (if condition then program else other) post := by
  by_cases holds : condition
  · rw [if_pos holds]
    exact chosen holds
  · rw [if_neg holds]
    exact rejected holds

/-- A handler that raises again. -/
theorem tryCatch {handler : PyError -> Method σ α} (body : Returns pre program post)
    (raises : forall cause, Returns (fun _ => True) (handler cause) fun _ _ => False) :
    Returns pre (tryCatch program handler) post := by
  intro state holds
  apply (Leaves.tryCatch_iff _ _ _).mpr
  apply (body state holds).mono (fun _ _ => id)
  intro cause after _
  exact (raises cause after trivial).mono (fun _ _ never => absurd never id) fun _ _ => id

/-- A program that ends by raising. -/
theorem bind_throw {cause : PyError} {post : β -> σ -> Prop} :
    Returns pre (program >>= fun _ => (MonadExcept.throw cause : Method σ β)) post := by
  intro state _
  apply (Leaves.bind_iff _ _ _).mpr
  cases program.run state <;> exact trivial

theorem exceptException {handler : PyError -> Method σ α} (body : Returns pre program post)
    (raises : forall cause, Returns (fun _ => True) (handler cause) fun _ _ => False) :
    Returns pre (exceptException program handler) post := by
  refine tryCatch body fun cause => ?_
  by_cases caught : cause.isException = true
  · rw [if_pos caught]
    exact raises cause
  · rw [if_neg caught]
    exact throw cause

theorem tryFinally {closing : Method σ β} {last : σ -> Prop} (body : Returns pre program post)
    (closes : forall value, Returns (post value) closing fun _ => last) :
    Returns pre (tryFinally program closing) fun _ => last := by
  intro state holds
  apply (Leaves.tryFinally_iff _ _ _).mpr
  apply (body state holds).mono
  · exact fun value after found => closes value after found
  · intro cause after _
    cases closing.run after <;> exact trivial

/-- A loop whose invariant knows which items are done. -/
theorem forEach (invariant : List α -> σ -> Prop) {body : α -> Method σ PUnit} {items : List α}
    (turns : forall before item rest, items = before ++ item :: rest ->
      Returns (invariant before) (body item) fun _ => invariant (before ++ [item])) :
    Returns (invariant []) (forM items body) fun _ => invariant items := by
  have loop (rest before : List α) (split : items = before ++ rest) :
      Returns (invariant before) (forM rest body) fun _ => invariant items := by
    induction rest generalizing before with
    | nil =>
        intro state holds
        rw [split, List.append_nil]
        exact holds
    | cons item rest previous =>
        rw [List.forM_cons]
        refine Ensures.bind (turns before item rest split) fun _ => ?_
        apply previous (before ++ [item])
        rw [split, List.append_assoc]
        rfl
  exact loop items [] rfl

/-- A loop over the first numbers. -/
theorem forRange (invariant : Nat -> σ -> Prop) {body : Nat -> Method σ PUnit} {count : Nat}
    (turns : forall index, index < count ->
      Returns (invariant index) (body index) fun _ => invariant (index + 1)) :
    Returns (invariant 0) (forM (List.range count) body) fun _ => invariant count := by
  have loop : Returns (invariant 0) (forM (List.range count) body)
      fun _ => invariant (List.range count).length := by
    refine forEach (fun done : List Nat => invariant done.length) fun done index rest split => ?_
    have found : (List.range count)[done.length]? = some index := by
      rw [split, List.getElem?_append_right (Nat.le_refl _), Nat.sub_self]
      rfl
    rcases List.getElem?_eq_some_iff.mp found with ⟨inside, same⟩
    rw [List.getElem_range] at same
    rw [List.length_range] at inside
    rw [List.length_append, <- same]
    exact turns done.length inside
  rwa [List.length_range] at loop

end Returns

end Foundation
end QSAHiSparse

import Mathlib.Data.List.Forall2
import QSAHiSparse.Foundation.Python

namespace QSAHiSparse
namespace Foundation

/-!
# Two programs in lockstep

Two states that differ only in what no decision looks at lead a program to the
same answers.  The relation between the states is kept through every step, and
so are the answers, the exceptions among them.
-/

/-! ## Results -/

section Results

variable {ε σ τ α β α' β' : Type} {related : σ -> τ -> Prop}

/-- Both return related values or both raise the same exception, and either way
in related states. -/
def Together (related : σ -> τ -> Prop) (same : α -> β -> Prop) :
    EStateM.Result ε σ α -> EStateM.Result ε τ β -> Prop
  | .ok first state, .ok second other => same first second ∧ related state other
  | .error first state, .error second other => first = second ∧ related state other
  | _, _ => False

namespace Together

variable {same : α -> β -> Prop} {same' : α' -> β' -> Prop}

theorem mono {weaker : α -> β -> Prop} {first : EStateM.Result ε σ α}
    {second : EStateM.Result ε τ β} (together : Together related same first second)
    (weakens : forall left right, same left right -> weaker left right) :
    Together related weaker first second := by
  cases first with
  | ok left state =>
      cases second with
      | ok right other => exact ⟨weakens left right together.1, together.2⟩
      | error cause other => exact together
  | error cause state =>
      cases second with
      | ok right other => exact together
      | error other _ => exact together

/-- The two results are of one kind. -/
theorem cases_on {first : EStateM.Result ε σ α} {second : EStateM.Result ε τ β}
    (together : Together related same first second) :
    (exists left right state other, first = .ok left state ∧ second = .ok right other ∧
      same left right ∧ related state other) ∨
    (exists cause state other, first = .error cause state ∧ second = .error cause other ∧
      related state other) := by
  cases first with
  | ok left state =>
      cases second with
      | ok right other => exact Or.inl ⟨left, right, state, other, rfl, rfl, together⟩
      | error cause other => exact together.elim
  | error cause state =>
      cases second with
      | ok right other => exact together.elim
      | error cause' other =>
          rcases together with ⟨rfl, states⟩
          exact Or.inr ⟨cause, state, other, rfl, rfl, states⟩

theorem bind {first : EStateM ε σ α} {second : EStateM ε τ β} {next : α -> EStateM ε σ α'}
    {next' : β -> EStateM ε τ β'} {state : σ} {other : τ}
    (together : Together related same (first.run state) (second.run other))
    (rest : forall left right state other, same left right -> related state other ->
      Together related same' ((next left).run state) ((next' right).run other)) :
    Together related same' ((first >>= next).run state) ((second >>= next').run other) := by
  rw [EStateM.run_bind, EStateM.run_bind]
  rcases together.cases_on with
    ⟨left, right, after, after', ran, ran', values, states⟩ | ⟨cause, after, after', ran, ran', states⟩
  · rw [ran, ran']
    exact rest left right after after' values states
  · rw [ran, ran']
    exact ⟨rfl, states⟩

theorem tryFinally {first : EStateM ε σ α} {second : EStateM ε τ β}
    {closing : EStateM ε σ α'} {closing' : EStateM ε τ β'} {state : σ} {other : τ}
    (together : Together related same (first.run state) (second.run other))
    (closes : forall state other, related state other ->
      Together related same' (closing.run state) (closing'.run other)) :
    Together related same (EStateM.run (tryFinally first closing) state)
      (EStateM.run (tryFinally second closing') other) := by
  rw [run_tryFinally, run_tryFinally]
  rcases together.cases_on with
    ⟨left, right, after, after', ran, ran', values, states⟩ | ⟨cause, after, after', ran, ran', states⟩
  · rw [ran, ran']
    rcases (closes after after' states).cases_on with
      ⟨_, _, last, last', closed, closed', _, lasts⟩ | ⟨cause, last, last', closed, closed', lasts⟩
    · simp only [closed, closed']
      exact ⟨values, lasts⟩
    · simp only [closed, closed']
      exact ⟨rfl, lasts⟩
  · rw [ran, ran']
    rcases (closes after after' states).cases_on with
      ⟨_, _, last, last', closed, closed', _, lasts⟩ | ⟨cause, last, last', closed, closed', lasts⟩
    · simp only [closed, closed']
      exact ⟨rfl, lasts⟩
    · simp only [closed, closed']
      exact ⟨rfl, lasts⟩

/-- The answers are the same and the states stay related. -/
theorem outcome_eq {first : EStateM.Result ε σ α} {second : EStateM.Result ε τ α}
    (together : Together related Eq first second) :
    outcome first = outcome second ∧ related (finalState first) (finalState second) := by
  cases first with
  | ok left state =>
      cases second with
      | ok right other => exact ⟨congrArg Except.ok together.1, together.2⟩
      | error cause other => exact together.elim
  | error cause state =>
      cases second with
      | ok right other => exact together.elim
      | error other _ => exact ⟨congrArg Except.error together.1, together.2⟩

end Together

/-! ## Programs without a state -/

/-- Both give related values or both raise the same exception. -/
def SameOutcome {ε : Type} (same : α -> β -> Prop) : Except ε α -> Except ε β -> Prop
  | .ok first, .ok second => same first second
  | .error first, .error second => first = second
  | _, _ => False

/-- A loop over items in lockstep. -/
theorem foldlM_together {ι ι' : Type} {items : ι -> ι' -> Prop} {same : α -> β -> Prop}
    {turn : α -> ι -> Except ε α} {turn' : β -> ι' -> Except ε β}
    (turns : forall left right item item', same left right -> items item item' ->
      SameOutcome same (turn left item) (turn' right item')) {list : List ι} {list' : List ι'}
    (lists : List.Forall₂ items list list') :
    forall {left : α} {right : β}, same left right ->
      SameOutcome same (list.foldlM turn left) (list'.foldlM turn' right) := by
  induction lists with
  | nil => exact fun both => both
  | @cons item item' list list' heads _ tails =>
      intro left right both
      have first := turns left right item item' both heads
      rw [List.foldlM_cons, List.foldlM_cons]
      cases ran : turn left item with
      | ok value =>
          cases ran' : turn' right item' with
          | ok value' =>
              rw [ran, ran'] at first
              exact tails first
          | error cause =>
              rw [ran, ran'] at first
              exact first.elim
      | error cause =>
          cases ran' : turn' right item' with
          | ok value' =>
              rw [ran, ran'] at first
              exact first.elim
          | error cause' =>
              rw [ran, ran'] at first
              exact first

/-! ## Primitive programs -/

section Primitives

variable {state : σ} {other : τ}

/-- Both read their state. -/
theorem together_get {same : α -> β -> Prop} {next : σ -> EStateM ε σ α} {next' : τ -> EStateM ε τ β}
    (rest : Together related same ((next state).run state) ((next' other).run other)) :
    Together related same ((get >>= next).run state) ((get >>= next').run other) :=
  rest

theorem together_raiseIf {same : α -> β -> Prop} {condition condition' : Prop}
    [Decidable condition] [Decidable condition'] {cause : PyError} {σ τ : Type}
    {related : σ -> τ -> Prop} {state : σ} {other : τ} {next : Method σ α} {next' : Method τ β}
    (alike : condition <-> condition') (states : related state other)
    (rest : ¬ condition -> Together related same (next.run state) (next'.run other)) :
    Together related same ((raiseIf condition cause >>= fun _ => next).run state)
      ((raiseIf condition' cause >>= fun _ => next').run other) := by
  unfold raiseIf
  by_cases holds : condition
  · rw [if_pos holds, if_pos (alike.mp holds)]
    exact ⟨rfl, states⟩
  · rw [if_neg holds, if_neg fun holds' => holds (alike.mpr holds')]
    exact rest holds

end Primitives

end Results

/-! ## Lists in lockstep -/

section Lists

variable {α β : Type} {same : α -> β -> Prop} {lefts : List α} {rights : List β}

/-- The same places are filled, with related values. -/
theorem getElem?_together (both : List.Forall₂ same lefts rights) (place : Nat) :
    (lefts[place]? = none ∧ rights[place]? = none) ∨
      exists left right, lefts[place]? = some left ∧ rights[place]? = some right ∧
        same left right := by
  induction both generalizing place with
  | nil => exact Or.inl ⟨rfl, rfl⟩
  | @cons left right lefts rights head _ tail =>
      cases place with
      | zero => exact Or.inr ⟨left, right, rfl, rfl, head⟩
      | succ place => exact tail place

theorem modify_together (both : List.Forall₂ same lefts rights) {update : α -> α}
    {update' : β -> β} (updates : forall left right, same left right ->
      same (update left) (update' right)) (place : Nat) :
    List.Forall₂ same (lefts.modify place update) (rights.modify place update') := by
  induction both generalizing place with
  | nil => cases place <;> exact List.Forall₂.nil
  | @cons left right lefts rights head tail previous =>
      cases place with
      | zero => exact List.Forall₂.cons (updates left right head) tail
      | succ place => exact List.Forall₂.cons head (previous place)

/-- Every item is related to the one built from it. -/
theorem forall₂_map {related : α -> β -> Prop} {build : α -> β} {items : List α}
    (each : forall item, item ∈ items -> related item (build item)) :
    List.Forall₂ related items (items.map build) := by
  rw [List.forall₂_map_right_iff, List.forall₂_same]
  exact each

/-- What stands on the right has something on the left. -/
theorem exists_of_mem_right (both : List.Forall₂ same lefts rights) {right : β}
    (member : right ∈ rights) : exists left, left ∈ lefts ∧ same left right := by
  induction both with
  | nil => exact absurd member List.not_mem_nil
  | cons head _ previous =>
      rcases List.mem_cons.mp member with rfl | later
      · exact ⟨_, List.mem_cons_self, head⟩
      · rcases previous later with ⟨left, inside, related⟩
        exact ⟨left, List.mem_cons_of_mem _ inside, related⟩

/-- An item after the change of one place. -/
theorem mem_modify {items : List α} {place : Nat} {update : α -> α} {item : α}
    (member : item ∈ items.modify place update) :
    exists original, original ∈ items ∧ (item = original ∨ item = update original) := by
  induction items generalizing place with
  | nil =>
      cases place <;> exact absurd member List.not_mem_nil
  | cons head items previous =>
      cases place with
      | zero =>
          rcases List.mem_cons.mp member with same | later
          · exact ⟨head, List.mem_cons_self, Or.inr same⟩
          · exact ⟨item, List.mem_cons_of_mem _ later, Or.inl rfl⟩
      | succ place =>
          rcases List.mem_cons.mp member with same | later
          · exact ⟨head, List.mem_cons_self, Or.inl same⟩
          · rcases previous later with ⟨original, inside, either⟩
            exact ⟨original, List.mem_cons_of_mem _ inside, either⟩

end Lists

/-! ## Dictionaries with the same keys -/

namespace Dict

variable {κ α β : Type} {same : α -> β -> Prop}

/-- The same keys in the same order, with related values. -/
def Paired (same : α -> β -> Prop) (first : Dict κ α) (second : Dict κ β) : Prop :=
  List.Forall₂ (fun left right => left.1 = right.1 ∧ same left.2 right.2) first.items second.items

namespace Paired

variable {first : Dict κ α} {second : Dict κ β}

theorem empty : Paired same (Dict.empty : Dict κ α) (Dict.empty : Dict κ β) := List.Forall₂.nil

theorem keys_eq (paired : Paired same first second) : first.keys = second.keys := by
  unfold keys
  unfold Paired at paired
  generalize first.items = lefts, second.items = rights at paired
  induction paired with
  | nil => rfl
  | cons heads _ tails => rw [List.map_cons, List.map_cons, heads.1, tails]

theorem size_eq (paired : Paired same first second) : first.size = second.size :=
  paired.length_eq

theorem values (paired : Paired same first second) :
    List.Forall₂ same first.values second.values := by
  unfold Dict.values
  rw [List.forall₂_map_left_iff, List.forall₂_map_right_iff]
  exact paired.imp fun _ _ both => both.2

theorem filter (paired : Paired same first second) {keep : κ × α -> Bool} {keep' : κ × β -> Bool}
    (alike : forall left right, left.1 = right.1 -> same left.2 right.2 ->
      keep left = keep' right) :
    List.Forall₂ (fun left right => left.1 = right.1 ∧ same left.2 right.2)
      (first.items.filter keep) (second.items.filter keep') := by
  unfold Paired at paired
  generalize first.items = lefts, second.items = rights at paired
  induction paired with
  | nil => exact List.Forall₂.nil
  | @cons left right lefts rights heads _ tails =>
      have agrees := alike left right heads.1 heads.2
      by_cases kept : keep left = true
      · rw [List.filter_cons_of_pos kept, List.filter_cons_of_pos (agrees ▸ kept)]
        exact List.Forall₂.cons heads tails
      · rw [List.filter_cons_of_neg kept, List.filter_cons_of_neg (agrees ▸ kept)]
        exact tails

/-- The first item that a test of the key and the value picks is the same. -/
theorem find? (paired : Paired same first second) {pick : κ × α -> Bool} {pick' : κ × β -> Bool}
    (alike : forall left right, left.1 = right.1 -> same left.2 right.2 ->
      pick left = pick' right) :
    (first.items.find? pick = none ∧ second.items.find? pick' = none) ∨
      exists left right, first.items.find? pick = some left ∧
        second.items.find? pick' = some right ∧ left.1 = right.1 ∧ same left.2 right.2 := by
  unfold Paired at paired
  generalize first.items = lefts, second.items = rights at paired
  induction paired with
  | nil => exact Or.inl ⟨rfl, rfl⟩
  | @cons left right lefts rights heads _ tails =>
      have agrees := alike left right heads.1 heads.2
      by_cases picked : pick left = true
      · exact Or.inr ⟨left, right, List.find?_cons_of_pos picked,
          List.find?_cons_of_pos (agrees ▸ picked), heads⟩
      · rw [List.find?_cons_of_neg picked, List.find?_cons_of_neg (agrees ▸ picked)]
        exact tails

/-- A stronger relation that holds of every two items in the same place. -/
theorem refine {stronger : α -> β -> Prop} (paired : Paired same first second)
    (strengthens : forall key left right, (key, left) ∈ first.items -> (key, right) ∈ second.items ->
      same left right -> stronger left right) : Paired stronger first second := by
  unfold Paired at paired ⊢
  generalize first.items = lefts, second.items = rights at paired strengthens
  induction paired with
  | nil => exact List.Forall₂.nil
  | @cons left right lefts rights heads _ tails =>
      apply List.Forall₂.cons
      · refine ⟨heads.1, strengthens left.1 left.2 right.2 List.mem_cons_self ?_ heads.2⟩
        rw [heads.1]
        exact List.mem_cons_self
      · exact tails fun key one another member member' =>
          strengthens key one another (List.mem_cons_of_mem _ member)
            (List.mem_cons_of_mem _ member')

variable [DecidableEq κ]

theorem contains_eq (paired : Paired same first second) (key : κ) :
    first.contains key = second.contains key := by
  unfold contains
  rw [paired.keys_eq]

/-- The same key is found on both sides, or on neither. -/
theorem get? (paired : Paired same first second) (key : κ) :
    (first.get? key = none ∧ second.get? key = none) ∨
      exists left right, first.get? key = some left ∧ second.get? key = some right ∧
        same left right := by
  unfold Dict.get?
  unfold Paired at paired
  generalize first.items = lefts, second.items = rights at paired
  induction paired with
  | nil => exact Or.inl ⟨rfl, rfl⟩
  | @cons left right lefts rights heads _ tails =>
      by_cases here : left.1 = key
      · refine Or.inr ⟨left.2, right.2, ?_, ?_, heads.2⟩
        · rw [List.find?_cons_of_pos (by simpa using here)]
          rfl
        · rw [List.find?_cons_of_pos (by simpa using heads.1 ▸ here)]
          rfl
      · rw [List.find?_cons_of_neg (by simpa using here),
          List.find?_cons_of_neg (by simpa using heads.1 ▸ here)]
        exact tails

theorem get?_some (paired : Paired same first second) {key : κ} {left : α}
    (found : first.get? key = some left) :
    exists right, second.get? key = some right ∧ same left right := by
  rcases paired.get? key with ⟨absent, _⟩ | ⟨_, right, foundLeft, foundRight, both⟩
  · rw [absent] at found
    cases found
  · rw [foundLeft] at found
    cases found
    exact ⟨right, foundRight, both⟩

theorem erase (paired : Paired same first second) (key : κ) :
    Paired same (first.erase key) (second.erase key) :=
  paired.filter fun left right keys _ => by rw [keys]

theorem set (paired : Paired same first second) (key : κ) {left : α} {right : β}
    (both : same left right) : Paired same (first.set key left) (second.set key right) := by
  have keys : key ∈ first.items.map Prod.fst <-> key ∈ second.items.map Prod.fst := by
    have equal := paired.keys_eq
    unfold Dict.keys at equal
    rw [equal]
  unfold Dict.set
  by_cases present : key ∈ first.items.map Prod.fst
  · rw [dif_pos present, dif_pos (keys.mp present)]
    change List.Forall₂ _ (first.items.map _) (second.items.map _)
    rw [List.forall₂_map_left_iff, List.forall₂_map_right_iff]
    apply paired.imp
    rintro one another ⟨sameKey, values⟩
    by_cases here : one.1 = key
    · rw [if_pos here, if_pos (sameKey ▸ here)]
      exact ⟨rfl, both⟩
    · rw [if_neg here, if_neg (sameKey ▸ here)]
      exact ⟨sameKey, values⟩
  · rw [dif_neg present, dif_neg fun there => present (keys.mpr there)]
    exact List.rel_append paired (List.Forall₂.cons ⟨rfl, both⟩ List.Forall₂.nil)

theorem moveToEnd (paired : Paired same first second) (key : κ) :
    Paired same (first.moveToEnd key) (second.moveToEnd key) := by
  unfold Dict.moveToEnd
  rcases paired.get? key with ⟨left, right⟩ | ⟨_, _, left, right, both⟩
  · rw [left, right]
    exact paired
  · rw [left, right]
    exact (paired.erase key).set key both

theorem update (paired : Paired same first second) {lefts : List (κ × α)} {rights : List (κ × β)}
    (items : List.Forall₂ (fun left right => left.1 = right.1 ∧ same left.2 right.2)
      lefts rights) : Paired same (first.update lefts) (second.update rights) := by
  induction items generalizing first second with
  | nil => exact paired
  | @cons left right lefts rights heads _ tails =>
      apply tails
      change Paired same (first.set left.1 left.2) (second.set right.1 right.2)
      rw [heads.1]
      exact paired.set right.1 heads.2

end Paired

end Dict

end Foundation
end QSAHiSparse

import Mathlib.Data.List.Basic

namespace QSAHiSparse
namespace Foundation

/-!
# Fallible loops

A loop whose steps may fail either fails or has performed every step.  When
the steps that succeed follow a plain function, the whole loop follows its
`map` or its `foldl`.
-/

variable {ε α β γ : Type}

theorem Except.ok_bind (value : α) (next : α -> Except ε β) :
    (Except.ok value >>= next) = next value := rfl

theorem Except.error_bind (cause : ε) (next : α -> Except ε β) :
    (Except.error cause >>= next) = .error cause := rfl

/-- A sequence that succeeds succeeded at both of its parts. -/
theorem Except.bind_ok {computation : Except ε α} {next : α -> Except ε β} {result : β}
    (accepted : computation >>= next = .ok result) :
    exists value, computation = .ok value ∧ next value = .ok result := by
  cases computation with
  | error cause => cases accepted
  | ok value => exact ⟨value, rfl, accepted⟩

/-- The results of a loop whose successful steps follow `answer`. -/
theorem mapM_ok {step : α -> Except ε β} (accepts : α -> Prop) (answer : α -> β)
    (items : List α) {results : List β}
    (follows : forall item, item ∈ items -> forall result, step item = .ok result ->
      accepts item ∧ result = answer item)
    (done : items.mapM step = .ok results) :
    (forall item, item ∈ items -> accepts item) ∧ results = items.map answer := by
  induction items generalizing results with
  | nil =>
      cases done
      exact ⟨fun _ member => absurd member List.not_mem_nil, rfl⟩
  | cons item items previous =>
      rw [List.mapM_cons] at done
      rcases Except.bind_ok done with ⟨first, stepped, rest⟩
      rcases Except.bind_ok rest with ⟨others, looped, same⟩
      cases same
      have head := follows item List.mem_cons_self first stepped
      have tail := previous
        (fun other member => follows other (List.mem_cons_of_mem _ member)) looped
      constructor
      · intro other member
        rcases List.mem_cons.mp member with rfl | member
        · exact head.1
        · exact tail.1 other member
      · rw [List.map_cons, head.2, tail.2]

/-- A loop succeeds when each of its steps does. -/
theorem mapM_succeeds {step : α -> Except ε β} {answer : α -> β} (items : List α)
    (follows : forall item, item ∈ items -> step item = .ok (answer item)) :
    items.mapM step = .ok (items.map answer) := by
  induction items with
  | nil => rfl
  | cons item items previous =>
      rw [List.mapM_cons, follows item List.mem_cons_self,
        previous fun other member => follows other (List.mem_cons_of_mem _ member)]
      rfl

/-- A loop of checks passes when each check does. -/
theorem forM_succeeds {step : α -> Except ε Unit} (items : List α)
    (passes : forall item, item ∈ items -> step item = .ok ()) : items.forM step = .ok () := by
  induction items with
  | nil => rfl
  | cons item items previous =>
      change (step item >>= fun _ => items.forM step) = _
      rw [passes item List.mem_cons_self, Except.ok_bind]
      exact previous fun other member => passes other (List.mem_cons_of_mem _ member)

/-- A loop of checks that passes has passed each of them. -/
theorem forM_ok {step : α -> Except ε Unit} {items : List α} (done : items.forM step = .ok ()) :
    forall item, item ∈ items -> step item = .ok () := by
  induction items with
  | nil => exact fun _ member => absurd member List.not_mem_nil
  | cons first items previous =>
      change (step first >>= fun _ => items.forM step) = _ at done
      rcases Except.bind_ok done with ⟨_, passed, rest⟩
      intro item member
      rcases List.mem_cons.mp member with same | later
      · rw [same]
        exact passed
      · exact previous rest item later

theorem filterAuxM_ok {test : α -> Except ε Bool} {items kept result : List α}
    (done : items.filterAuxM test kept = .ok result) :
    (forall item, item ∈ items -> exists answer, test item = .ok answer) ∧
      result.length = kept.length + items.countP fun item => (test item).toOption = some true := by
  induction items generalizing kept with
  | nil =>
      cases done
      exact ⟨fun _ member => absurd member List.not_mem_nil, rfl⟩
  | cons first items previous =>
      rw [List.filterAuxM] at done
      rcases Except.bind_ok done with ⟨answer, tested, rest⟩
      have later := previous rest
      constructor
      · intro item member
        rcases List.mem_cons.mp member with same | tail
        · rw [same]
          exact ⟨answer, tested⟩
        · exact later.1 item tail
      · rw [later.2, List.countP_cons, tested]
        cases answer with
        | true =>
            change kept.length + 1 + _ = kept.length + (_ + 1)
            omega
        | false => rfl

/-- A filter chooses nothing when no test holds. -/
theorem filterM_nil_iff {test : α -> Except ε Bool} {items : List α} :
    items.filterM test = .ok [] <-> forall item, item ∈ items -> test item = .ok false := by
  unfold List.filterM
  constructor
  · intro done item member
    rcases Except.bind_ok done with ⟨chosen, filtered, same⟩
    have counted := filterAuxM_ok filtered
    rcases counted.1 item member with ⟨answer, tested⟩
    cases answer with
    | false => exact tested
    | true =>
        have none : chosen.reverse = [] := Except.ok.inj same
        rw [List.reverse_eq_nil_iff.mp none, List.length_nil] at counted
        have some : 0 < items.countP fun item => (test item).toOption = some true :=
          List.countP_pos_iff.mpr ⟨item, member, by rw [tested]; rfl⟩
        omega
  · intro rejected
    have filtered : forall kept, items.filterAuxM test kept = .ok kept := by
      induction items with
      | nil => exact fun _ => rfl
      | cons first items previous =>
          intro kept
          rw [List.filterAuxM, rejected first List.mem_cons_self]
          exact previous (fun item member => rejected item (List.mem_cons_of_mem _ member)) kept
    rw [filtered []]
    rfl

/-- The state a loop leaves when its successful steps follow `perform`. -/
theorem foldlM_ok {step : γ -> α -> Except ε γ} (accepts : α -> Prop) (perform : γ -> α -> γ)
    (items : List α) {before after : γ}
    (follows : forall item, item ∈ items -> forall before after, step before item = .ok after ->
      accepts item ∧ after = perform before item)
    (done : items.foldlM step before = .ok after) :
    (forall item, item ∈ items -> accepts item) ∧ after = items.foldl perform before := by
  induction items generalizing before with
  | nil =>
      cases done
      exact ⟨fun _ member => absurd member List.not_mem_nil, rfl⟩
  | cons item items previous =>
      rw [List.foldlM_cons] at done
      rcases Except.bind_ok done with ⟨between, stepped, rest⟩
      have head := follows item List.mem_cons_self before between stepped
      have tail := previous
        (fun other member => follows other (List.mem_cons_of_mem _ member)) rest
      constructor
      · intro other member
        rcases List.mem_cons.mp member with rfl | member
        · exact head.1
        · exact tail.1 other member
      · rw [List.foldl_cons, ← head.2, tail.2]

/-- A loop over a state succeeds when each of its steps does. -/
theorem foldlM_succeeds {step : γ -> α -> Except ε γ} {perform : γ -> α -> γ} (items : List α)
    (before : γ)
    (follows : forall item, item ∈ items -> forall before,
      step before item = .ok (perform before item)) :
    items.foldlM step before = .ok (items.foldl perform before) := by
  induction items generalizing before with
  | nil => rfl
  | cons item items previous =>
      rw [List.foldlM_cons, follows item List.mem_cons_self]
      exact previous _ fun other member => follows other (List.mem_cons_of_mem _ member)

/-- A counted loop that keeps an invariant of the turns taken returns, and
leaves the invariant of all of them. -/
theorem foldlM_range (step : γ -> Nat -> Except ε γ) (holds : Nat -> γ -> Prop) (count : Nat)
    (advance : forall index, index < count -> forall state, holds index state ->
      exists next, step state index = .ok next ∧ holds (index + 1) next)
    {start : γ} (initially : holds 0 start) :
    exists final, (List.range count).foldlM step start = .ok final ∧ holds count final := by
  induction count with
  | zero => exact ⟨start, rfl, initially⟩
  | succ count previous =>
      rcases previous (fun index small => advance index (Nat.lt_succ_of_lt small)) with
        ⟨between, looped, held⟩
      rcases advance count (Nat.lt_succ_self count) between held with ⟨final, stepped, holdsNext⟩
      refine ⟨final, ?_, holdsNext⟩
      rw [List.range_succ, List.foldlM_append, looped, Except.ok_bind, List.foldlM_cons, stepped]
      rfl

end Foundation
end QSAHiSparse

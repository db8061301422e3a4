import Mathlib.Algebra.BigOperators.Group.List.Basic
import Mathlib.Algebra.Order.BigOperators.Group.List
import Mathlib.Tactic.Linarith

namespace QSAHiSparse
namespace Foundation

/-!
# Tallies over a table of objects

Objects are known by their position in a table that only grows.  A tally adds
up one number for each object; changing one object changes the tally by the
difference of its two numbers.
-/

variable {α : Type} (weight : α -> Int)

def tally (table : List α) : Int := (table.map weight).sum

@[simp] theorem tally_nil : tally weight [] = 0 := rfl

@[simp] theorem tally_cons (object : α) (table : List α) :
    tally weight (object :: table) = weight object + tally weight table := by
  rw [tally, List.map_cons, List.sum_cons, tally]

@[simp] theorem tally_append (first second : List α) :
    tally weight (first ++ second) = tally weight first + tally weight second := by
  rw [tally, List.map_append, List.sum_append, tally, tally]

theorem tally_modify {table : List α} {position : Nat} {object : α} (update : α -> α)
    (found : table[position]? = some object) :
    tally weight (table.modify position update) =
      tally weight table - weight object + weight (update object) := by
  induction table generalizing position with
  | nil => cases found
  | cons head rest inductionHypothesis =>
      cases position with
      | zero =>
          cases found
          change tally weight (update object :: rest) = _
          rw [tally_cons, tally_cons]
          omega
      | succ earlier =>
          change tally weight (head :: rest.modify earlier update) = _
          rw [tally_cons, tally_cons, inductionHypothesis found]
          omega

/-- An update that keeps what is read keeps all that is read. -/
theorem map_modify_same {β : Type} {read : α -> β} {update : α -> α}
    (same : forall object, read (update object) = read object) :
    forall (table : List α) (position : Nat),
      (table.modify position update).map read = table.map read := by
  intro table
  induction table with
  | nil => intro position; cases position <;> rfl
  | cons head rest inductionHypothesis =>
      intro position
      cases position with
      | zero =>
          change (update head :: rest).map read = _
          rw [List.map_cons, List.map_cons, same]
      | succ earlier =>
          change (head :: rest.modify earlier update).map read = _
          rw [List.map_cons, List.map_cons, inductionHypothesis]

theorem tally_nonneg {table : List α} (nonneg : forall object, object ∈ table -> 0 ≤ weight object) :
    0 ≤ tally weight table := by
  induction table with
  | nil => exact Int.le_refl _
  | cons head rest inductionHypothesis =>
      rw [tally_cons]
      have first := nonneg head List.mem_cons_self
      have others := inductionHypothesis
        (fun object member => nonneg object (List.mem_cons_of_mem _ member))
      omega

/-- One object's number is at most the tally when no number is negative. -/
theorem weight_le_tally {table : List α} {object : α}
    (nonneg : forall other, other ∈ table -> 0 ≤ weight other) (member : object ∈ table) :
    weight object ≤ tally weight table := by
  induction table with
  | nil => exact absurd member List.not_mem_nil
  | cons head rest inductionHypothesis =>
      rw [tally_cons]
      have first := nonneg head List.mem_cons_self
      have restNonneg : forall other, other ∈ rest -> 0 ≤ weight other :=
        fun other present => nonneg other (List.mem_cons_of_mem _ present)
      rcases List.mem_cons.mp member with rfl | later
      · have others := tally_nonneg weight restNonneg
        omega
      · have within := inductionHypothesis restNonneg later
        omega

theorem tally_eq_zero {table : List α} (zero : forall object, object ∈ table -> weight object = 0) :
    tally weight table = 0 := by
  induction table with
  | nil => rfl
  | cons head rest inductionHypothesis =>
      rw [tally_cons, zero head List.mem_cons_self,
        inductionHypothesis (fun object member => zero object (List.mem_cons_of_mem _ member))]
      rfl

/-- Tables that agree where something is counted have one tally. -/
theorem tally_eq_of_positions (counts : α -> Bool)
    (zero : forall object, counts object = false -> weight object = 0) {first second : List α}
    (same : forall position : Nat,
      first[position]?.filter counts = second[position]?.filter counts) :
    tally weight first = tally weight second := by
  have uncounted : forall table : List α,
      (forall position : Nat, table[position]?.filter counts = none) -> tally weight table = 0 := by
    intro table nothing
    apply tally_eq_zero
    intro object member
    rcases List.mem_iff_getElem?.mp member with ⟨position, found⟩
    have rejected := nothing position
    rw [found, Option.filter_eq_none_iff] at rejected
    exact zero object (Bool.eq_false_iff.mpr (rejected object rfl))
  induction first generalizing second with
  | nil => exact (uncounted second fun position => (same position).symm).symm
  | cons head rest previous =>
      cases second with
      | nil => exact uncounted (head :: rest) same
      | cons other others =>
          have tails : tally weight rest = tally weight others :=
            previous fun position => same (position + 1)
          have heads : weight head = weight other := by
            have first := same 0
            change (some head).filter counts = (some other).filter counts at first
            rw [Option.filter_some, Option.filter_some] at first
            cases one : counts head with
            | false =>
                cases two : counts other with
                | false => rw [zero head one, zero other two]
                | true => simp [one, two] at first
            | true =>
                cases two : counts other with
                | false => simp [one, two] at first
                | true =>
                    simp only [one, two, if_true, Option.some.injEq] at first
                    rw [first]
          rw [tally_cons, tally_cons, heads, tails]

end Foundation
end QSAHiSparse

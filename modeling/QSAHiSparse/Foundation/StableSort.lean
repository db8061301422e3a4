import Mathlib.Data.List.Sort
import Mathlib.Data.List.Enum

namespace QSAHiSparse
namespace Foundation

/-!
# Stable sorting

A stable sort keeps equal values in the order of their positions.  Together with
the positions its result is strictly ordered, so it is the only arrangement of
the values with that order: to know a sort's result it is enough to guess it.
-/

variable {α : Type} (le : α -> α -> Bool)

/-- A comparison a sort can use. -/
structure Comparison : Prop where
  trans : forall first second third, le first second -> le second third -> le first third
  total : forall first second, le first second || le second first

/-- The sorted values, each with the position it came from. -/
def argsort (values : List α) : List (α × Nat) :=
  values.zipIdx.mergeSort fun first second => le first.1 second.1

/-- The strict order of a stable sort: by value, then by position. -/
def Precedes (first second : α × Nat) : Prop :=
  le first.1 second.1 ∧ (le second.1 first.1 -> first.2 < second.2)

theorem argsort_perm (values : List α) : (argsort le values).Perm values.zipIdx :=
  List.mergeSort_perm _ _

theorem zipIdx_nodup (values : List α) : values.zipIdx.Nodup := by
  apply List.Nodup.of_map Prod.snd
  rw [List.zipIdx_map_snd]
  exact List.nodup_range'

variable {le}

theorem argsort_precedes (comparison : Comparison le) (values : List α) :
    (argsort le values).Pairwise (Precedes le) := by
  have distinct := (zipIdx_nodup values).perm (argsort_perm le values).symm
  have ranked := List.pairwise_mergeSort
    (List.zipIdxLE_trans fun (first second third : α × Nat) =>
      comparison.trans first.1 second.1 third.1)
    (List.zipIdxLE_total fun first second => comparison.total first.1 second.1)
    values.zipIdx.zipIdx
  -- The tag of a pair is its own position.
  have own : forall tagged, tagged ∈ values.zipIdx.zipIdx -> tagged.2 = tagged.1.2 := by
    rintro ⟨pair, tag⟩ member
    have found := List.mk_mem_zipIdx_iff_getElem?.mp member
    rw [List.getElem?_zipIdx] at found
    rcases Option.map_eq_some_iff.mp found with ⟨value, _, rfl⟩
    exact (Nat.zero_add tag).symm
  have tagged : (argsort le values).Pairwise fun first second =>
      le first.1 second.1 ∧ (le second.1 first.1 -> first.2 ≤ second.2) := by
    unfold argsort
    rw [← List.mergeSort_zipIdx, List.pairwise_map]
    apply ranked.imp_of_mem
    intro first second first_mem second_mem before
    have first_own := own first (List.mem_mergeSort.mp first_mem)
    have second_own := own second (List.mem_mergeSort.mp second_mem)
    unfold List.zipIdxLE at before
    split at before
    · rename_i least
      refine ⟨least, fun most => ?_⟩
      rw [if_pos most, decide_eq_true_eq, first_own, second_own] at before
      exact before
    · exact absurd before Bool.false_ne_true
  apply (tagged.and distinct).imp_of_mem
  intro first second first_mem second_mem both
  refine ⟨both.1.1, fun tie => lt_of_le_of_ne (both.1.2 tie) fun same => both.2 ?_⟩
  have first_at := List.mk_mem_zipIdx_iff_getElem?.mp ((argsort_perm le values).mem_iff.mp first_mem)
  have second_at :=
    List.mk_mem_zipIdx_iff_getElem?.mp ((argsort_perm le values).mem_iff.mp second_mem)
  rw [same, second_at] at first_at
  exact Prod.ext (Option.some.inj first_at).symm same

/-- The stable order determines the sort. -/
theorem eq_argsort (comparison : Comparison le) {values : List α} {candidate : List (α × Nat)}
    (arrangement : candidate.Perm values.zipIdx) (ordered : candidate.Pairwise (Precedes le)) :
    candidate = argsort le values := by
  apply List.Perm.eq_of_pairwise _ ordered (argsort_precedes comparison values)
    (arrangement.trans (argsort_perm le values).symm)
  intro first second _ _ before after
  have forwards := before.2 after.1
  have backwards := after.2 before.1
  omega

theorem Comparison.refl (comparison : Comparison le) (value : α) : le value value := by
  have either := comparison.total value value
  rwa [Bool.or_self] at either

theorem zipIdx_positions (values : List α) (base : Nat) :
    (values.zipIdx base).Pairwise fun first second => first.2 < second.2 := by
  rw [← List.pairwise_map, List.zipIdx_map_snd]
  exact List.pairwise_lt_range'

/-- A plain stable sort keeps the order among values that compare alike. -/
theorem mergeSort_stable (comparison : Comparison le) {earlier : α -> α -> Prop} {values : List α}
    (ordered : values.Pairwise earlier) :
    (values.mergeSort le).Pairwise fun first second =>
      le first second ∧ (le second first -> earlier first second) := by
  have sorted : (argsort le values).map Prod.fst = values.mergeSort le := by
    unfold argsort
    rw [List.map_mergeSort (s := le) fun _ _ _ _ => rfl, List.zipIdx_map_fst]
  rw [← sorted, List.pairwise_map]
  apply (argsort_precedes comparison values).imp_of_mem
  intro first second first_mem second_mem before
  refine ⟨before.1, fun tie => ?_⟩
  have first_at := List.mk_mem_zipIdx_iff_getElem?.mp ((argsort_perm le values).mem_iff.mp first_mem)
  have second_at :=
    List.mk_mem_zipIdx_iff_getElem?.mp ((argsort_perm le values).mem_iff.mp second_mem)
  rcases List.getElem?_eq_some_iff.mp first_at with ⟨first_bound, first_eq⟩
  rcases List.getElem?_eq_some_iff.mp second_at with ⟨second_bound, second_eq⟩
  have apart := List.pairwise_iff_getElem.mp ordered _ _ first_bound second_bound (before.2 tie)
  rw [first_eq, second_eq] at apart
  exact apart

/-- Sorting and then keeping some values is keeping them and then sorting. -/
theorem filter_mergeSort (comparison : Comparison le) {earlier : α -> α -> Prop} {values : List α}
    (ordered : values.Pairwise earlier)
    (antisymmetric : forall first second, earlier first second -> ¬ earlier second first)
    (keeps : α -> Bool) :
    (values.mergeSort le).filter keeps = (values.filter keeps).mergeSort le := by
  have arranged : ((values.mergeSort le).filter keeps).Perm ((values.filter keeps).mergeSort le) :=
    ((List.mergeSort_perm values le).filter keeps).trans (List.mergeSort_perm _ le).symm
  apply arranged.eq_of_pairwise _ ((mergeSort_stable comparison ordered).filter keeps)
    (mergeSort_stable comparison (ordered.filter keeps))
  intro first second _ _ before after
  exact absurd (after.2 before.1) (antisymmetric first second (before.2 after.1))

/-- Values that come last anyway stay in place behind the sorted others. -/
theorem argsort_append_replicate (comparison : Comparison le) (values : List α) {worst : α}
    (last : forall value, value ∈ values -> le value worst) (count : Nat) :
    argsort le (values ++ List.replicate count worst) =
      argsort le values ++ (List.replicate count worst).zipIdx values.length := by
  symm
  apply eq_argsort comparison
  · rw [List.zipIdx_append, Nat.zero_add]
    exact (argsort_perm le values).append_right _
  · rw [List.pairwise_append]
    refine ⟨argsort_precedes comparison values, ?_, ?_⟩
    · apply (zipIdx_positions (List.replicate count worst) values.length).imp_of_mem
      intro first second first_mem second_mem earlier
      have first_worst := List.eq_of_mem_replicate (List.fst_mem_of_mem_zipIdx first_mem)
      have second_worst := List.eq_of_mem_replicate (List.fst_mem_of_mem_zipIdx second_mem)
      refine ⟨?_, fun _ => earlier⟩
      rw [first_worst, second_worst]
      exact comparison.refl worst
    · intro first first_mem second second_mem
      have sorted := (argsort_perm le values).mem_iff.mp first_mem
      have second_worst := List.eq_of_mem_replicate (List.fst_mem_of_mem_zipIdx second_mem)
      have inside := List.snd_lt_of_mem_zipIdx sorted
      have outside := List.le_snd_of_mem_zipIdx second_mem
      refine ⟨?_, fun _ => by omega⟩
      rw [second_worst]
      exact last first.1 (List.fst_mem_of_mem_zipIdx sorted)

/-! ## Buckets -/

variable (key : α -> Int)

/-- The items of one bucket, in their order. -/
def bucket (items : List α) (place : Nat) : List α :=
  items.filter fun item => key item = place

theorem mem_bucket {items : List α} {place : Nat} {item : α} :
    item ∈ bucket key items place <-> item ∈ items ∧ key item = place := by
  unfold bucket
  rw [List.mem_filter, decide_eq_true_eq]

/-- The buckets hold every item once. -/
theorem flatMap_bucket_perm (count : Nat) (items : List α)
    (bounded : forall item, item ∈ items -> 0 ≤ key item ∧ key item < count) :
    ((List.range count).flatMap (bucket key items)).Perm items := by
  induction count generalizing items with
  | zero =>
      have empty : items = [] := by
        apply List.eq_nil_iff_forall_not_mem.mpr
        intro item member
        have bounds := bounded item member
        omega
      rw [empty]
      exact List.Perm.refl _
  | succ count inductionHypothesis =>
      have lower := inductionHypothesis (items.filter fun item => key item < count) (by
        intro item member
        have parts := List.mem_filter.mp member
        exact ⟨(bounded item parts.1).1, of_decide_eq_true parts.2⟩)
      have same : forall place, place ∈ List.range count ->
          bucket key items place = bucket key (items.filter fun item => key item < count) place := by
        intro place member
        have small := List.mem_range.mp member
        unfold bucket
        rw [List.filter_filter]
        apply List.filter_congr
        intro item _
        by_cases here : key item = place
        · have below : key item < count := by omega
          rw [decide_eq_true here, decide_eq_true below]
          rfl
        · rw [decide_eq_false here]
          rfl
      have last : bucket key items count = items.filter fun item => !decide (key item < count) := by
        apply List.filter_congr
        intro item member
        have bounds := bounded item member
        by_cases here : key item = count
        · have above : ¬ key item < count := by omega
          rw [decide_eq_true here, decide_eq_false above]
          rfl
        · have below : key item < count := by omega
          rw [decide_eq_false here, decide_eq_true below]
          rfl
      rw [List.range_succ, List.flatMap_append, List.flatMap_singleton, last,
        List.flatMap_congr same]
      exact (lower.append_right _).trans (List.filter_append_perm _ items)

theorem bucket_sublist (items : List α) (place : Nat) :
    (bucket key items place).Sublist items :=
  List.filter_sublist

/-- Sorting integers below a bound lays their buckets end to end. -/
theorem argsort_eq_buckets (values : List Int) (count : Nat)
    (bounded : forall value, value ∈ values -> 0 ≤ value ∧ value < count) :
    argsort (fun first second => decide (first ≤ second)) values =
      (List.range count).flatMap (bucket Prod.fst values.zipIdx) := by
  have comparison : Comparison fun (first second : Int) => decide (first ≤ second) := by
    constructor
    · intro first second third lower upper
      exact decide_eq_true ((of_decide_eq_true lower).trans (of_decide_eq_true upper))
    · intro first second
      rw [Bool.or_eq_true, decide_eq_true_eq, decide_eq_true_eq]
      exact Int.le_total first second
  have keys : forall pair, pair ∈ values.zipIdx -> 0 ≤ pair.1 ∧ pair.1 < count :=
    fun pair member => bounded pair.1 (List.fst_mem_of_mem_zipIdx member)
  have positions := zipIdx_positions values 0
  symm
  apply eq_argsort comparison (flatMap_bucket_perm Prod.fst count values.zipIdx keys)
  rw [List.pairwise_flatMap]
  constructor
  · intro place _
    apply (positions.sublist (bucket_sublist Prod.fst values.zipIdx place)).imp_of_mem
    intro first second first_mem second_mem earlier
    have first_key := ((mem_bucket Prod.fst).mp first_mem).2
    have second_key := ((mem_bucket Prod.fst).mp second_mem).2
    exact ⟨decide_eq_true (by omega), fun _ => earlier⟩
  · apply List.pairwise_lt_range.imp
    intro place later lower first first_mem second second_mem
    have first_key := ((mem_bucket Prod.fst).mp first_mem).2
    have second_key := ((mem_bucket Prod.fst).mp second_mem).2
    refine ⟨decide_eq_true (by omega), fun back => ?_⟩
    have reversed := of_decide_eq_true back
    omega

end Foundation
end QSAHiSparse

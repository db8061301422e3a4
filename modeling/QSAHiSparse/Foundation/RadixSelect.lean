import Mathlib.Data.List.Basic
import Mathlib.Data.List.Count
import Mathlib.Tactic.Common
import Mathlib.Algebra.Order.Ring.Int

namespace QSAHiSparse
namespace Foundation

/-!
# Radix selection

The largest of a list of items are selected digit by digit.  The rank of an item
is the number that its first digits make.  At each digit a threshold splits the
items of one rank: those above it are selected, those below it are not, and the
digit decides again among those at the threshold.
-/

section Threshold

variable {α : Type}

/-- The items with a digit from `bin` on. -/
def tailCount (items : List α) (digit : α -> Nat) (bin : Nat) : Nat :=
  items.countP fun item => decide (bin ≤ digit item)

/-- The bin in which the number of wanted items is exceeded. -/
def IsThreshold (items : List α) (digit : α -> Nat) (wanted : Int) (bin : Nat) : Prop :=
  wanted < tailCount items digit bin ∧ (tailCount items digit (bin + 1) : Int) ≤ wanted

variable {items : List α} {digit : α -> Nat} {wanted : Int}

theorem tailCount_antitone {first second : Nat} (below : first ≤ second) :
    tailCount items digit second ≤ tailCount items digit first := by
  apply List.countP_mono_left
  intro item _ reaches
  exact decide_eq_true (below.trans (of_decide_eq_true reaches))

theorem tailCount_zero : tailCount items digit 0 = items.length := by
  apply List.countP_eq_length.mpr
  exact fun item _ => decide_eq_true (Nat.zero_le _)

theorem tailCount_radix {radix : Nat} (digits : forall item, item ∈ items -> digit item < radix) :
    tailCount items digit radix = 0 := by
  apply List.countP_eq_zero.mpr
  intro item member reaches
  exact absurd (of_decide_eq_true reaches) (Nat.not_le.mpr (digits item member))

/-- The items at a bin, beside those above it. -/
theorem tailCount_split (bin : Nat) :
    tailCount items digit bin =
      items.countP (fun item => decide (digit item = bin)) + tailCount items digit (bin + 1) := by
  unfold tailCount
  induction items with
  | nil => rfl
  | cons item items inductionHypothesis =>
      rw [List.countP_cons, List.countP_cons, List.countP_cons, inductionHypothesis]
      by_cases at_bin : digit item = bin
      · rw [if_pos (decide_eq_true at_bin.ge), if_pos (decide_eq_true at_bin),
          if_neg (fun reaches => by have := of_decide_eq_true reaches; omega)]
        omega
      · by_cases above : bin + 1 ≤ digit item
        · rw [if_pos (decide_eq_true (by omega)), if_pos (decide_eq_true above),
            if_neg (fun same => at_bin (of_decide_eq_true same))]
          omega
        · rw [if_neg (fun reaches => by have := of_decide_eq_true reaches; omega),
            if_neg (fun same => at_bin (of_decide_eq_true same)),
            if_neg (fun reaches => above (of_decide_eq_true reaches))]
          omega

theorem IsThreshold.unique {first second : Nat} (one : IsThreshold items digit wanted first)
    (other : IsThreshold items digit wanted second) : first = second := by
  rcases Nat.lt_trichotomy first second with below | same | above
  · have fewer : tailCount items digit second ≤ tailCount items digit (first + 1) :=
      tailCount_antitone (Nat.succ_le_of_lt below)
    have := one.2
    have := other.1
    omega
  · exact same
  · have fewer : tailCount items digit first ≤ tailCount items digit (second + 1) :=
      tailCount_antitone (Nat.succ_le_of_lt above)
    have := one.1
    have := other.2
    omega

/-- More items than are wanted have a threshold. -/
theorem exists_threshold {radix : Nat} (digits : forall item, item ∈ items -> digit item < radix)
    (nonneg : 0 ≤ wanted) (many : wanted < items.length) :
    exists bin, bin < radix ∧ IsThreshold items digit wanted bin := by
  have last : ¬ wanted < (tailCount items digit radix : Int) := by
    rw [tailCount_radix digits]
    omega
  have start : wanted < (tailCount items digit 0 : Int) := by
    rw [tailCount_zero]
    exact many
  clear many digits
  induction radix with
  | zero => exact absurd start last
  | succ radix inductionHypothesis =>
      by_cases exceeds : wanted < (tailCount items digit radix : Int)
      · exact ⟨radix, Nat.lt_succ_self radix, exceeds, not_lt.mp last⟩
      · rcases inductionHypothesis exceeds with ⟨bin, inside, threshold⟩
        exact ⟨bin, Nat.lt_succ_of_lt inside, threshold⟩

/-! ## Doubling windows -/

/-- The items with one of `width` digits from `bin` on. -/
def windowCount (items : List α) (digit : α -> Nat) (bin width : Nat) : Nat :=
  items.countP fun item => decide (bin ≤ digit item ∧ digit item < bin + width)

theorem windowCount_one (bin : Nat) :
    windowCount items digit bin 1 = items.countP fun item => decide (digit item = bin) := by
  apply List.countP_congr
  intro item _
  rw [decide_eq_true_iff, decide_eq_true_iff]
  omega

/-- Two windows side by side. -/
theorem windowCount_add (bin first second : Nat) :
    windowCount items digit bin (first + second) =
      windowCount items digit bin first + windowCount items digit (bin + first) second := by
  unfold windowCount
  induction items with
  | nil => rfl
  | cons item items inductionHypothesis =>
      rw [List.countP_cons, List.countP_cons, List.countP_cons, inductionHypothesis]
      simp only [decide_eq_true_iff]
      split <;> split <;> split <;> omega

theorem windowCount_past {radix bin width : Nat} (past : radix ≤ bin)
    (digits : forall item, item ∈ items -> digit item < radix) :
    windowCount items digit bin width = 0 := by
  apply List.countP_eq_zero.mpr
  intro item member inside
  have := (of_decide_eq_true inside).1
  have := digits item member
  omega

theorem windowCount_radix {radix : Nat} (bin : Nat)
    (digits : forall item, item ∈ items -> digit item < radix) :
    windowCount items digit bin radix = tailCount items digit bin := by
  apply List.countP_congr
  intro item member
  have := digits item member
  rw [decide_eq_true_iff, decide_eq_true_iff]
  omega

end Threshold

/-! ## Ranks -/

section Ranks

variable {α : Type} {radix : Nat}

/-- The items of a rank. -/
def level (items : List α) (rank : α -> Nat) (bound : Nat) : List α :=
  items.filter fun item => decide (rank item = bound)

/-- The items of a higher rank. -/
def aboveLevel (items : List α) (rank : α -> Nat) (bound : Nat) : List α :=
  items.filter fun item => decide (bound < rank item)

/-- One digit more. -/
def extend (radix : Nat) (rank digit : α -> Nat) (item : α) : Nat :=
  rank item * radix + digit item

theorem extend_eq_iff {rank digit : α -> Nat} {item : α} {bound bin : Nat}
    (small : digit item < radix) (inside : bin < radix) :
    extend radix rank digit item = bound * radix + bin <->
      rank item = bound ∧ digit item = bin := by
  unfold extend
  constructor
  · intro same
    have ranks : rank item = bound := by
      rcases Nat.lt_trichotomy (rank item) bound with below | same_rank | above
      · have := Nat.mul_le_mul_right radix (Nat.succ_le_of_lt below)
        rw [Nat.succ_mul] at this
        omega
      · exact same_rank
      · have := Nat.mul_le_mul_right radix (Nat.succ_le_of_lt above)
        rw [Nat.succ_mul] at this
        omega
    rw [ranks] at same
    exact ⟨ranks, by omega⟩
  · rintro ⟨ranks, digits⟩
    rw [ranks, digits]

theorem lt_extend_iff {rank digit : α -> Nat} {item : α} {bound bin : Nat}
    (small : digit item < radix) (inside : bin < radix) :
    bound * radix + bin < extend radix rank digit item <->
      bound < rank item ∨ (rank item = bound ∧ bin < digit item) := by
  unfold extend
  rcases Nat.lt_trichotomy (rank item) bound with below | same_rank | above
  · have := Nat.mul_le_mul_right radix (Nat.succ_le_of_lt below)
    rw [Nat.succ_mul] at this
    omega
  · rw [same_rank]
    omega
  · have := Nat.mul_le_mul_right radix (Nat.succ_le_of_lt above)
    rw [Nat.succ_mul] at this
    omega

variable {items : List α} {rank digit : α -> Nat} {bound bin : Nat}

theorem level_extend (digits : forall item, item ∈ items -> digit item < radix)
    (inside : bin < radix) :
    level items (extend radix rank digit) (bound * radix + bin) =
      (level items rank bound).filter fun item => decide (digit item = bin) := by
  unfold level
  rw [List.filter_filter]
  apply List.filter_congr
  intro item member
  rw [← Bool.decide_and]
  exact decide_eq_decide.mpr ((extend_eq_iff (digits item member) inside).trans and_comm)

/-- What is selected at a digit joins what was selected before. -/
theorem aboveLevel_extend (digits : forall item, item ∈ items -> digit item < radix)
    (inside : bin < radix) :
    (aboveLevel items (extend radix rank digit) (bound * radix + bin)).Perm
      (aboveLevel items rank bound ++
        (level items rank bound).filter fun item => decide (bin < digit item)) := by
  unfold aboveLevel level
  rw [List.filter_filter]
  induction items with
  | nil => exact .refl _
  | cons item items inductionHypothesis =>
      have rest := inductionHypothesis fun other member =>
        digits other (List.mem_cons_of_mem item member)
      have own : bound * radix + bin < extend radix rank digit item <->
          bound < rank item ∨ (rank item = bound ∧ bin < digit item) :=
        lt_extend_iff (digits item List.mem_cons_self) inside
      rw [List.filter_cons, List.filter_cons, List.filter_cons]
      by_cases higher : bound < rank item
      · rw [if_pos (decide_eq_true (own.mpr (Or.inl higher))), if_pos (decide_eq_true higher),
          if_neg (fun both => by
            have := of_decide_eq_true (Bool.and_eq_true_iff.mp both).2
            omega)]
        exact rest.cons item
      · rw [if_neg (c := decide (bound < rank item) = true)
          (fun passed => higher (of_decide_eq_true passed))]
        by_cases taken : rank item = bound ∧ bin < digit item
        · rw [if_pos (decide_eq_true (own.mpr (Or.inr taken))), if_pos (Bool.and_eq_true_iff.mpr
            ⟨decide_eq_true taken.2, decide_eq_true taken.1⟩)]
          exact (rest.cons item).trans List.perm_middle.symm
        · rw [if_neg (fun passed => (own.mp (of_decide_eq_true passed)).elim higher taken),
            if_neg (fun both => taken ⟨of_decide_eq_true (Bool.and_eq_true_iff.mp both).2,
              of_decide_eq_true (Bool.and_eq_true_iff.mp both).1⟩)]
          exact rest

/-! ## What is selected -/

/-- A selection that has everything above a rank and nothing below it has the
largest keys, when ties at the rank are left out or have one key. -/
theorem selection_largest {κ : Type} [LinearOrder κ] {key : α -> κ} {selected : List α}
    (monotone : forall first second, first ∈ items -> second ∈ items ->
      key first ≤ key second -> rank first ≤ rank second)
    (inside : forall item, item ∈ selected -> item ∈ items ∧ bound ≤ rank item)
    (complete : forall item, item ∈ items -> bound < rank item -> item ∈ selected)
    (ties : (forall item, item ∈ selected -> bound < rank item) ∨
      forall first second, first ∈ items -> second ∈ items -> rank first = bound ->
        rank second = bound -> key first = key second) :
    forall first second, first ∈ items -> first ∉ selected -> second ∈ selected ->
      key first ≤ key second := by
  intro first second listed left_out taken
  rcases inside second taken with ⟨member, reaches⟩
  have low : rank first ≤ bound := not_lt.mp fun higher => left_out (complete first listed higher)
  by_contra larger
  have ranks := monotone second first member listed (not_le.mp larger).le
  rcases ties with strict | alike
  · have := strict second taken
    omega
  · exact larger (alike first second listed member (by omega) (by omega)).le

end Ranks

end Foundation
end QSAHiSparse

import Mathlib.Algebra.BigOperators.Group.Finset.Basic
import Mathlib.Algebra.Order.BigOperators.Group.Finset

namespace QSAHiSparse
namespace Foundation

/-!
# Storage shared between holders

Several holders may use one storage, which then counts once.  The bytes of a
collection of holders depend only on the set of storages they reach, so that
dropping a holder may free nothing and adding one may cost less than its own
size.
-/

variable {α κ : Type} [DecidableEq κ] (size : κ -> Nat) (uses : α -> Finset κ)

/-- The storages some holder uses. -/
def reached (holders : List α) : Finset κ :=
  holders.foldr (fun holder rest => uses holder ∪ rest) ∅

/-- The bytes of the reached storages, each counted once. -/
def sharedBytes (holders : List α) : Nat :=
  (reached uses holders).sum size

theorem mem_reached {holders : List α} {storage : κ} :
    storage ∈ reached uses holders <-> exists holder, holder ∈ holders ∧ storage ∈ uses holder := by
  induction holders with
  | nil => simp [reached]
  | cons holder rest inductionHypothesis =>
      change storage ∈ uses holder ∪ reached uses rest <-> _
      rw [Finset.mem_union, inductionHypothesis]
      constructor
      · intro either
        rcases either with here | ⟨other, member, used⟩
        · exact ⟨holder, List.mem_cons_self, here⟩
        · exact ⟨other, List.mem_cons_of_mem _ member, used⟩
      · rintro ⟨other, member, used⟩
        rcases List.mem_cons.mp member with rfl | member
        · exact Or.inl used
        · exact Or.inr ⟨other, member, used⟩

/-- Fewer holders never reach more bytes. -/
theorem sharedBytes_mono {fewer more : List α} (subset : fewer ⊆ more) :
    sharedBytes size uses fewer ≤ sharedBytes size uses more := by
  apply Finset.sum_le_sum_of_subset
  intro storage member
  rcases (mem_reached uses).mp member with ⟨holder, present, used⟩
  exact (mem_reached uses).mpr ⟨holder, subset present, used⟩

end Foundation
end QSAHiSparse

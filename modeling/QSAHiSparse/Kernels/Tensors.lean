import Mathlib.Algebra.Ring.Int.Defs
import Mathlib.Algebra.Ring.Nat
import Mathlib.Data.List.Range

namespace QSAHiSparse
namespace Kernels

/-!
# Tensors as lists

A one-dimensional tensor is the list of its elements.  Elements are unbounded
integers until they are narrowed to `int32`.
-/

/-- What a tensor operation raises. -/
inductive TensorError where
  | zeroDivision
  | indexRange
  | overflow
deriving DecidableEq, Repr

/-- `.to(torch.int32)`. -/
def toInt32 (value : Int) : Int :=
  value.bmod (2 ^ 32)

/-- `source[index]`, where a negative index counts from the end. -/
def item {α : Type} (source : List α) (index : Int) : Except TensorError α :=
  let place := if index < 0 then index + source.length else index
  if place < 0 then .error .indexRange
  else match source[place.toNat]? with
    | some value => .ok value
    | none => .error .indexRange

/-- One element of `source.gather`, which takes no negative index. -/
def gatherOne {α : Type} (source : List α) (index : Int) : Except TensorError α :=
  if index < 0 then .error .indexRange else item source index

theorem toInt32_eq {value : Int} (lower : -2 ^ 31 ≤ value) (upper : value < 2 ^ 31) :
    toInt32 value = value := by
  apply Int.bmod_eq_of_le <;> omega

theorem gatherOne_eq {α : Type} {source : List α} {place : Nat} {value : α}
    (found : source[place]? = some value) : gatherOne source place = .ok value := by
  have nonneg : ¬ (place : Int) < 0 := by omega
  unfold gatherOne item
  rw [if_neg nonneg, if_neg nonneg]
  dsimp only
  rw [if_neg nonneg, Int.toNat_natCast, found]

theorem item_map_range {α : Type} {entry : Nat -> α} {count place : Nat} (bound : place < count) :
    item ((List.range count).map entry) place = .ok (entry place) := by
  have nonneg : ¬ (place : Int) < 0 := by omega
  have found : ((List.range count).map entry)[place]? = some (entry place) := by
    rw [List.getElem?_map, List.getElem?_range bound]
    rfl
  unfold item
  rw [if_neg nonneg]
  dsimp only
  rw [if_neg nonneg, Int.toNat_natCast, found]

theorem item_last {α : Type} (entry : Nat -> α) (count : Nat) :
    item ((List.range (count + 1)).map entry) (-1) = .ok (entry count) := by
  have length : ((List.range (count + 1)).map entry).length = count + 1 := by
    rw [List.length_map, List.length_range]
  have found : ((List.range (count + 1)).map entry)[count]? = some (entry count) := by
    rw [List.getElem?_map, List.getElem?_range (Nat.lt_succ_self _)]
    rfl
  have place : (-1 : Int) + ((count + 1 : Nat) : Int) = count := by omega
  have nonneg : ¬ (count : Int) < 0 := by omega
  have negative : (-1 : Int) < 0 := by decide
  unfold item
  rw [if_pos negative, length, place]
  dsimp only
  rw [if_neg nonneg, Int.toNat_natCast, found]

end Kernels
end QSAHiSparse

import Mathlib.Algebra.GroupWithZero.Nat
import QSAHiSparse.Foundation.Effects
import QSAHiSparse.Foundation.SharedStorage

namespace QSAHiSparse
namespace Foundation

/-!
# New storage

An allocator hands out storage that nothing live uses.  What a program was handed
in several allocations is therefore counted in full beside whatever was live when
it began.  Storages of no bytes count for nothing and may be shared at will.
-/

/-! ## Storage that nothing uses -/

section Fresh

variable {κ : Type} {size : κ -> Nat} {held : Finset κ} {new : List κ}

/-- The storages are distinct and not held, those of no bytes aside. -/
structure Fresh (size : κ -> Nat) (held : Finset κ) (new : List κ) : Prop where
  distinct : (new.filter fun storage => size storage ≠ 0).Nodup
  unheld : forall storage, storage ∈ new -> size storage ≠ 0 -> storage ∉ held

namespace Fresh

theorem nil (size : κ -> Nat) (held : Finset κ) : Fresh size held [] where
  distinct := List.nodup_nil
  unheld _ member := absurd member List.not_mem_nil

/-- Fewer storages may be held. -/
theorem mono (fresh : Fresh size held new) {fewer : Finset κ}
    (subset : forall storage, storage ∈ fewer -> storage ∈ held) : Fresh size fewer new where
  distinct := fresh.distinct
  unheld storage member positive here := fresh.unheld storage member positive (subset storage here)

/-- One more allocation. -/
theorem concat (fresh : Fresh size held new) {storage : κ}
    (apart : size storage = 0 ∨ storage ∉ held ∧ storage ∉ new) :
    Fresh size held (new ++ [storage]) where
  distinct := by
    rw [List.filter_append]
    rcases apart with empty | ⟨_, absent⟩
    · have nothing : [storage].filter (fun storage => size storage ≠ 0) = [] := by simp [empty]
      rw [nothing, List.append_nil]
      exact fresh.distinct
    · apply List.Nodup.append fresh.distinct ((List.nodup_singleton storage).filter _)
      intro other old last
      have same := List.mem_singleton.mp (List.mem_filter.mp last).1
      exact absent (same ▸ (List.mem_filter.mp old).1)
  unheld := by
    intro other member positive
    rcases List.mem_append.mp member with old | last
    · exact fresh.unheld other old positive
    · have same := List.mem_singleton.mp last
      rw [same] at positive ⊢
      exact (apart.resolve_left positive).1

theorem tail {storage : κ} (fresh : Fresh size held (storage :: new)) : Fresh size held new where
  distinct := by
    have distinct := fresh.distinct
    rw [List.filter_cons] at distinct
    split at distinct
    · exact (List.nodup_cons.mp distinct).2
    · exact distinct
  unheld other member := fresh.unheld other (List.mem_cons_of_mem _ member)

/-- New storages are counted in full. -/
theorem sum [DecidableEq κ] (fresh : Fresh size held new) :
    (held ∪ new.toFinset).sum size = held.sum size + (new.map size).sum := by
  induction new with
  | nil => simp
  | cons storage rest previous =>
      have others := previous fresh.tail
      rw [List.toFinset_cons, Finset.union_insert, List.map_cons, List.sum_cons]
      by_cases empty : size storage = 0
      · rw [Finset.sum_insert_of_eq_zero_if_notMem fun _ => empty, others, empty, Nat.zero_add]
      · have absent : storage ∉ held ∪ rest.toFinset := by
          rw [Finset.mem_union, List.mem_toFinset]
          rintro (here | later)
          · exact fresh.unheld storage List.mem_cons_self empty here
          · have distinct := fresh.distinct
            rw [List.filter_cons_of_pos (by simpa using empty)] at distinct
            apply (List.nodup_cons.mp distinct).1
            exact List.mem_filter.mpr ⟨later, by simpa using empty⟩
        rw [Finset.sum_insert absent, others]
        omega

end Fresh

/-- A holder that shares some storage and has the rest to itself adds the bytes
of the rest. -/
theorem sharedBytes_concat [DecidableEq κ] {α : Type} {uses : α -> Finset κ} {holders : List α} {holder : α}
    {shared : Finset κ} (parts : uses holder = shared ∪ new.toFinset)
    (known : shared ⊆ reached uses holders) (fresh : Fresh size (reached uses holders) new) :
    sharedBytes size uses (holders ++ [holder]) =
      sharedBytes size uses holders + (new.map size).sum := by
  have together : reached uses (holders ++ [holder]) = reached uses holders ∪ new.toFinset := by
    ext storage
    rw [mem_reached, Finset.mem_union, mem_reached]
    constructor
    · rintro ⟨other, member, used⟩
      rcases List.mem_append.mp member with old | last
      · exact Or.inl ⟨other, old, used⟩
      · rw [List.mem_singleton.mp last, parts, Finset.mem_union] at used
        exact used.imp (fun here => (mem_reached uses).mp (known here)) id
    · rintro (⟨other, member, used⟩ | here)
      · exact ⟨other, List.mem_append_left _ member, used⟩
      · refine ⟨holder, List.mem_append_right _ List.mem_cons_self, ?_⟩
        rw [parts]
        exact Finset.mem_union_right _ here
  unfold sharedBytes
  rw [together, fresh.sum]

end Fresh

/-! ## Programs that allocate -/

section Programs

variable {ε σ ι α κ : Type}

/-- What a program that began when `start` was live has been handed since. -/
structure Allocated (size : κ -> Nat) (live : σ -> Finset κ) (start : Finset κ) (new : List κ)
    (state : σ) : Prop where
  fresh : Fresh size start new
  kept : start ⊆ live state
  added : forall storage, storage ∈ new -> storage ∈ live state

namespace Allocated

variable {size : κ -> Nat} {live : σ -> Finset κ} {start : Finset κ} {new : List κ}
  {before after : σ}

theorem begin (size : κ -> Nat) (live : σ -> Finset κ) (state : σ) :
    Allocated size live (live state) [] state where
  fresh := .nil size _
  kept _ member := member
  added _ member := absurd member List.not_mem_nil

/-- A step that frees nothing of this. -/
theorem mono (allocated : Allocated size live start new before)
    (grows : live before ⊆ live after) : Allocated size live start new after where
  fresh := allocated.fresh
  kept := allocated.kept.trans grows
  added storage member := grows (allocated.added storage member)

theorem concat (allocated : Allocated size live start new before) {storage : κ}
    (apart : size storage = 0 ∨ storage ∉ live before) (grows : live before ⊆ live after)
    (here : storage ∈ live after) : Allocated size live start (new ++ [storage]) after where
  fresh := by
    apply allocated.fresh.concat
    refine apart.imp id fun absent => ⟨fun old => ?_, fun old => ?_⟩
    · exact absent (allocated.kept old)
    · exact absent (allocated.added storage old)
  kept := allocated.kept.trans grows
  added := by
    intro other member
    rcases List.mem_append.mp member with old | last
    · exact grows (allocated.added other old)
    · rw [List.mem_singleton.mp last]
      exact here

/-- A loop has been handed what its turns were handed, in their order. -/
theorem mapM {body : ι -> EStateM ε σ α} {answers : ι -> α -> Prop} {stored : α -> List κ}
    {raised : ε -> σ -> Prop} (items : List ι)
    (turns : forall item, item ∈ items -> forall new,
      Ensures (Allocated size live start new) (body item)
        (fun value after => answers item value ∧
          Allocated size live start (new ++ stored value) after) raised) :
    forall new, Ensures (Allocated size live start new) (items.mapM body)
      (fun values after => List.Forall₂ answers items values ∧
        Allocated size live start (new ++ values.flatMap stored) after) raised := by
  induction items with
  | nil =>
      intro new state allocated
      rw [List.mapM_nil]
      refine ⟨.nil, ?_⟩
      rw [List.flatMap_nil, List.append_nil]
      exact allocated
  | cons item items previous =>
      intro new
      rw [List.mapM_cons]
      apply Ensures.bind (turns item List.mem_cons_self new)
      intro value
      have rest := previous (fun other member => turns other (List.mem_cons_of_mem _ member))
        (new ++ stored value)
      rintro state ⟨said, allocated⟩
      apply (Leaves.bind_iff _ _ _).mpr
      apply (rest state allocated).mono
      · rintro values after ⟨all, allocatedAfter⟩
        refine ⟨.cons said all, ?_⟩
        rw [List.flatMap_cons, ← List.append_assoc]
        exact allocatedAfter
      · exact fun _ _ => id

end Allocated

end Programs

end Foundation
end QSAHiSparse

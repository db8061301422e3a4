import Mathlib.Algebra.Group.Nat.Defs
import Mathlib.Logic.Function.Basic
import Mathlib.Data.List.Perm.Basic
import Mathlib.Data.Nat.Log

namespace QSAHiSparse
namespace Foundation

/-!
# Flat memories

A memory gives every address a value.  It is written by contiguous copies and
by lists of stores.  The stores of concurrent programs may land in any order;
the result does not depend on the order as soon as some memory explains every
store, so a launch is compared with sequential code address by address.
-/

variable {α : Type}

/-- A flat buffer, addressed by the linear index of an element. -/
abbrev Memory (α : Type) := Int -> α

/-! ## Contiguous copies -/

/-- Copy `length` elements of `source` from `start` to `target` at `base`. -/
def blit (target : Memory α) (base : Int) (source : Memory α) (start length : Int) : Memory α :=
  fun address =>
    if base ≤ address ∧ address < base + length then source (start + (address - base))
    else target address

theorem blit_inside {base length address : Int} (target source : Memory α) (start : Int)
    (lower : base ≤ address) (upper : address < base + length) :
    blit target base source start length address = source (start + (address - base)) := by
  unfold blit
  rw [if_pos ⟨lower, upper⟩]

theorem blit_outside {base length address : Int} (target source : Memory α) (start : Int)
    (outside : address < base ∨ base + length ≤ address) :
    blit target base source start length address = target address := by
  unfold blit
  rw [if_neg]
  rintro ⟨lower, upper⟩
  omega

/-- A copy looks at its target only at the address read. -/
theorem blit_congr {first second : Memory α} {address : Int}
    (same : first address = second address) (base : Int) (source : Memory α)
    (start length : Int) :
    blit first base source start length address = blit second base source start length address := by
  unfold blit
  rw [same]

/-! ## Stores -/

structure Store (α : Type) where
  address : Int
  value : α
deriving DecidableEq, Repr

/-- One store after the other. -/
def storeAll (memory : Memory α) (stores : List (Store α)) : Memory α :=
  stores.foldl (fun memory store => Function.update memory store.address store.value) memory

@[simp]
theorem storeAll_cons (memory : Memory α) (store : Store α) (stores : List (Store α)) :
    storeAll memory (store :: stores) =
      storeAll (Function.update memory store.address store.value) stores := rfl

theorem storeAll_append (memory : Memory α) (first second : List (Store α)) :
    storeAll memory (first ++ second) = storeAll (storeAll memory first) second :=
  List.foldl_append

/-- An address no store names keeps its value. -/
theorem storeAll_untouched {stores : List (Store α)} {address : Int} (memory : Memory α)
    (untouched : forall store, store ∈ stores -> store.address ≠ address) :
    storeAll memory stores address = memory address := by
  induction stores generalizing memory with
  | nil => rfl
  | cons store stores previous =>
      rw [storeAll_cons,
        previous _ fun other member => untouched other (List.mem_cons_of_mem _ member)]
      exact Function.update_of_ne (untouched store List.mem_cons_self).symm _ _

/-- An address holds what is stored there, when all stores to it agree. -/
theorem storeAll_determined {stores : List (Store α)} {address : Int} {value : α}
    (memory : Memory α) (stored : ⟨address, value⟩ ∈ stores)
    (agree : forall store, store ∈ stores -> store.address = address -> store.value = value) :
    storeAll memory stores address = value := by
  induction stores generalizing memory with
  | nil => exact absurd stored List.not_mem_nil
  | cons first stores previous =>
      rw [storeAll_cons]
      by_cases again : exists store, store ∈ stores ∧ store.address = address
      · rcases again with ⟨store, member, same⟩
        have last := agree store (List.mem_cons_of_mem _ member) same
        apply previous
        · rw [← same, ← last]
          exact member
        · exact fun other later => agree other (List.mem_cons_of_mem _ later)
      · have untouched : forall store, store ∈ stores -> store.address ≠ address :=
          fun store member same => again ⟨store, member, same⟩
        rw [storeAll_untouched _ untouched]
        rcases List.mem_cons.mp stored with head | tail
        · rw [← head, Function.update_self]
        · exact absurd rfl (untouched _ tail)

/-- `final` has every stored value, and the value of `memory` elsewhere. -/
structure Explains (memory final : Memory α) (stores : List (Store α)) : Prop where
  written : forall store, store ∈ stores -> final store.address = store.value
  kept : forall address, (forall store, store ∈ stores -> store.address ≠ address) ->
    final address = memory address

/-- A memory that explains the stores is what they leave. -/
theorem Explains.storeAll_eq {memory final : Memory α} {stores : List (Store α)}
    (explains : Explains memory final stores) : storeAll memory stores = final := by
  induction stores generalizing memory with
  | nil =>
      funext address
      exact (explains.kept address fun _ member => absurd member List.not_mem_nil).symm
  | cons store stores previous =>
      rw [storeAll_cons]
      apply previous
      constructor
      · exact fun other member => explains.written other (List.mem_cons_of_mem _ member)
      · intro address untouched
        by_cases same : store.address = address
        · rw [← same, Function.update_self]
          exact explains.written store List.mem_cons_self
        · rw [Function.update_of_ne (Ne.symm same)]
          apply explains.kept
          intro other member
          rcases List.mem_cons.mp member with head | tail
          · rw [head]
            exact same
          · exact untouched other tail

/-- Stores with the same members are explained alike. -/
theorem Explains.congr {memory final : Memory α} {stores others : List (Store α)}
    (explains : Explains memory final stores)
    (same : forall store, store ∈ others <-> store ∈ stores) : Explains memory final others where
  written := fun store member => explains.written store ((same store).mp member)
  kept := fun address untouched =>
    explains.kept address fun store member => untouched store ((same store).mpr member)

/-- Stores to distinct addresses explain what they leave. -/
theorem explains_storeAll (memory : Memory α) {stores : List (Store α)}
    (distinct : (stores.map Store.address).Nodup) :
    Explains memory (storeAll memory stores) stores := by
  constructor
  · intro store member
    induction stores generalizing memory with
    | nil => exact absurd member List.not_mem_nil
    | cons first stores previous =>
        have apart := List.nodup_cons.mp distinct
        rw [storeAll_cons]
        rcases List.mem_cons.mp member with head | tail
        · rw [head, storeAll_untouched, Function.update_self]
          intro other inTail same
          exact apart.1 (same ▸ List.mem_map_of_mem inTail)
        · exact previous _ apart.2 tail
  · exact fun address untouched => storeAll_untouched memory untouched

/-- What the stores of a launch leave when they land in some order. -/
def Lands (memory final : Memory α) (stores : List (Store α)) : Prop :=
  exists order : List (Store α), order.Perm stores ∧ storeAll memory order = final

theorem lands_storeAll (memory : Memory α) (stores : List (Store α)) :
    Lands memory (storeAll memory stores) stores :=
  ⟨stores, List.Perm.refl stores, rfl⟩

/-- The launch of explained stores has one result. -/
theorem Explains.lands_iff {memory explained final : Memory α} {stores : List (Store α)}
    (explains : Explains memory explained stores) :
    Lands memory final stores <-> final = explained := by
  constructor
  · rintro ⟨order, permuted, left⟩
    rw [← left, (explains.congr fun store => permuted.mem_iff).storeAll_eq]
  · intro same
    exact ⟨stores, List.Perm.refl stores, by rw [explains.storeAll_eq, same]⟩

/-- Stores to one address store one value. -/
def Agree (stores : List (Store α)) : Prop :=
  forall store, store ∈ stores -> forall other, other ∈ stores ->
    other.address = store.address -> other.value = store.value

/-- Stores that agree leave one memory in every order. -/
theorem Agree.explains {stores : List (Store α)} (agree : Agree stores) (memory : Memory α) :
    Explains memory (storeAll memory stores) stores where
  written := fun store member => storeAll_determined memory member (agree store member)
  kept := fun _ untouched => storeAll_untouched memory untouched

/-! ## Programs that write apart -/

section Programs

variable {ι : Type} (stores : ι -> List (Store α)) (perform : Memory α -> ι -> Memory α)

/-- No address of the first program is an address of the second. -/
def Apart (first second : ι) : Prop :=
  forall left, left ∈ stores first -> forall right, right ∈ stores second ->
    left.address ≠ right.address

/-- Sequential code explains a launch when each of its turns explains one
program whose values do not depend on the memory, and the programs write
apart. -/
theorem explains_foldl (memory : Memory α) (programs : List ι)
    (turn : forall program, program ∈ programs -> forall memory,
      Explains memory (perform memory program) (stores program))
    (apart : programs.Pairwise (Apart stores)) :
    Explains memory (programs.foldl perform memory) (programs.flatMap stores) := by
  induction programs generalizing memory with
  | nil =>
      exact ⟨fun _ member => absurd member List.not_mem_nil, fun _ _ => rfl⟩
  | cons program programs previous =>
      have first := turn program List.mem_cons_self memory
      have rest := previous (perform memory program)
        (fun other member => turn other (List.mem_cons_of_mem _ member))
        (List.pairwise_cons.mp apart).2
      constructor
      · intro store member
        rcases List.mem_append.mp member with head | tail
        · rw [List.foldl_cons, rest.kept store.address, first.written store head]
          intro other stored
          rcases List.mem_flatMap.mp stored with ⟨later, inLater, issued⟩
          exact ((List.pairwise_cons.mp apart).1 later inLater store head other issued).symm
        · exact rest.written store tail
      · intro address untouched
        rw [List.foldl_cons, rest.kept address, first.kept address]
        · exact fun other member => untouched other (List.mem_append_left _ member)
        · exact fun other member => untouched other (List.mem_append_right _ member)

end Programs

/-! ## Vector lanes -/

/-- `tl.store(pointer + address, value, mask)` over `tl.arange(0, lanes)`. -/
def vectorStore (lanes : Nat) (mask : Int -> Prop) [DecidablePred mask] (address : Int -> Int)
    (value : Int -> α) : List (Store α) :=
  (((List.range lanes).map Int.ofNat).filter fun lane => mask lane).map fun lane =>
    ⟨address lane, value lane⟩

theorem mem_vectorStore {lanes : Nat} {mask : Int -> Prop} [DecidablePred mask]
    {address : Int -> Int} {value : Int -> α} {store : Store α} :
    store ∈ vectorStore lanes mask address value <->
      exists lane : Int, 0 ≤ lane ∧ lane < lanes ∧ mask lane ∧
        store = ⟨address lane, value lane⟩ := by
  unfold vectorStore
  simp only [List.mem_map, List.mem_filter, List.mem_range, decide_eq_true_eq]
  constructor
  · rintro ⟨lane, ⟨⟨index, small, rfl⟩, chosen⟩, rfl⟩
    exact ⟨Int.ofNat index, Int.natCast_nonneg index, Int.ofNat_lt.mpr small, chosen, rfl⟩
  · rintro ⟨lane, lower, upper, chosen, rfl⟩
    refine ⟨lane, ⟨⟨lane.toNat, ?_, Int.toNat_of_nonneg lower⟩, chosen⟩, rfl⟩
    omega

/-- `tl.store(pointer + address, value, mask)` over two arrays of lanes. -/
def tileStore (rows columns : Nat) (mask : Int -> Int -> Prop)
    [forall row, DecidablePred (mask row)] (address : Int -> Int -> Int)
    (value : Int -> Int -> α) : List (Store α) :=
  (List.range rows).flatMap fun (row : Nat) =>
    vectorStore columns (mask row) (address row) (value row)

theorem mem_tileStore {rows columns : Nat} {mask : Int -> Int -> Prop}
    [forall row, DecidablePred (mask row)] {address : Int -> Int -> Int}
    {value : Int -> Int -> α} {store : Store α} :
    store ∈ tileStore rows columns mask address value <->
      exists row column : Nat, row < rows ∧ column < columns ∧ mask row column ∧
        store = ⟨address row column, value row column⟩ := by
  unfold tileStore
  rw [List.mem_flatMap]
  constructor
  · rintro ⟨row, in_rows, member⟩
    rcases mem_vectorStore.mp member with ⟨lane, nonneg, bound, chosen, same⟩
    rcases Int.eq_ofNat_of_zero_le nonneg with ⟨column, rfl⟩
    exact ⟨row, column, List.mem_range.mp in_rows, Int.ofNat_lt.mp bound, chosen, same⟩
  · rintro ⟨row, column, in_rows, in_columns, chosen, same⟩
    refine ⟨row, List.mem_range.mpr in_rows, mem_vectorStore.mpr ?_⟩
    exact ⟨column, Int.natCast_nonneg column, Int.ofNat_lt.mpr in_columns, chosen, same⟩

/-- `triton.next_power_of_2`, of a positive number. -/
def nextPowerOf2 (number : Nat) : Nat := 2 ^ Nat.clog 2 number

theorem le_nextPowerOf2 (number : Nat) : number ≤ nextPowerOf2 number :=
  Nat.le_pow_clog Nat.one_lt_two number

/-- `tl.load(pointer + address, mask, other)`. -/
def maskedLoad (memory : Memory α) (address : Int) (mask : Prop) [Decidable mask] (other : α) : α :=
  if mask then memory address else other

/-! ## Tables -/

/-- The entries of a list from address zero on. -/
def flatEntries (entries : List α) (outside : Memory α) : Memory α := fun address =>
  (entries[address.toNat]?).getD (outside address)

/-- Rows of `width` entries, one after the other. -/
def rowMajor (rows : List (List α)) (width : Nat) (outside : Memory α) : Memory α := fun address =>
  ((rows[(address / width).toNat]?).bind fun row => row[(address % width).toNat]?).getD
    (outside address)

theorem row_of_place {width column : Nat} (row : Nat) (inside : column < width) :
    (row * width + column) / width = row := by
  rw [Nat.mul_comm, Nat.mul_add_div (by omega), Nat.div_eq_of_lt inside, Nat.add_zero]

theorem column_of_place {width column : Nat} (row : Nat) (inside : column < width) :
    (row * width + column) % width = column := by
  rw [Nat.mul_comm, Nat.mul_add_mod, Nat.mod_eq_of_lt inside]

/-- A place determines its row and its column. -/
theorem row_column_unique {width first second column other : Nat} (inside : column < width)
    (other_inside : other < width)
    (same : (first : Int) * width + column = (second : Int) * width + other) :
    first = second ∧ column = other := by
  have places : first * width + column = second * width + other := by exact_mod_cast same
  have positive : 0 < width := Nat.lt_of_le_of_lt (Nat.zero_le column) inside
  have rows : first = second := by
    have quotient := congrArg (· / width) places
    rw [Nat.add_comm, Nat.add_mul_div_right _ _ positive, Nat.div_eq_of_lt inside, Nat.add_comm,
      Nat.add_comm (second * width), Nat.add_mul_div_right _ _ positive,
      Nat.div_eq_of_lt other_inside] at quotient
    omega
  rw [rows] at places
  exact ⟨rows, by omega⟩

theorem flatEntries_at {entries : List α} {place : Nat} {entry : α}
    (found : entries[place]? = some entry) (outside : Memory α) :
    flatEntries entries outside place = entry := by
  unfold flatEntries
  rw [Int.toNat_natCast, found]
  rfl

theorem rowMajor_at {rows : List (List α)} {width place column : Nat} {row : List α} {entry : α}
    (inside : column < width) (found : rows[place]? = some row)
    (at_column : row[column]? = some entry) (outside : Memory α) :
    rowMajor rows width outside ((place : Int) * width + column) = entry := by
  have positive : (0 : Int) < width := by omega
  have quotient : ((place : Int) * width + column) / width = place := by
    rw [Int.add_comm, Int.add_mul_ediv_right _ _ positive.ne', Int.ediv_eq_zero_of_lt (by omega)
      (by omega), Int.zero_add]
  have rest : ((place : Int) * width + column) % width = column := by
    rw [Int.add_comm, Int.add_mul_emod_self_right, Int.emod_eq_of_lt (by omega) (by omega)]
  unfold rowMajor
  rw [quotient, rest, Int.toNat_natCast, Int.toNat_natCast, found, Option.bind_some, at_column]
  rfl

end Foundation
end QSAHiSparse

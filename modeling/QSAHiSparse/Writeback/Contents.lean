import QSAHiSparse.Writeback.TwoStreams

namespace QSAHiSparse
namespace Writeback

open Foundation
open Ledger
open QSAHiSparse.Runtime

/-!
# What a slot and a layer hold

A decoding lease of length `n` has its complete blocks in host records and its
open tail in the ring.  A handoff establishes this for the prompt, chunk by
chunk.  A forward stores one more token in the ring and, when it completes a
block, copies the ring to the newest hot row and from there to the host.
-/

variable {resolver : Resolver} {memory : Place -> List Token} {lease : QSAHiSparseLease}
  {li : Nat} {n : Int}

/-- The first blocks are in host records. -/
def Records (memory : Place -> List Token) (lease : QSAHiSparseLease) (li : Nat)
    (count : Int) : Prop :=
  forall block, 0 ≤ block -> block < count ->
    memory (.host lease.slot li block) = blockTokens lease block

/-- The positions from `start` on are in the ring. -/
def Tail (memory : Place -> List Token) (lease : QSAHiSparseLease) (li : Nat)
    (start n : Int) : Prop :=
  forall position, start ≤ position -> position < n ->
    memory (.ring lease.slot li (1 + position % 4)) = [(lease, position)]

/-- The length `n` is kept by host records and the ring. -/
structure Represents (memory : Place -> List Token) (lease : QSAHiSparseLease) (li : Nat)
    (n : Int) : Prop where
  records : Records memory lease li (n / 4)
  tail : Tail memory lease li (n / 4 * 4) n

/-- The last token of the length is in the ring, and no block that it completes
has been closed. -/
structure Stored (memory : Place -> List Token) (lease : QSAHiSparseLease) (li : Nat)
    (n : Int) : Prop where
  records : Records memory lease li ((n - 1) / 4)
  tail : Tail memory lease li ((n - 1) / 4 * 4) n

/-- What a selection of this length finds: the earlier blocks in host records,
a block that was just closed in the newest hot row, the open tail in the ring. -/
structure Current (memory : Place -> List Token) (lease : QSAHiSparseLease) (li : Nat)
    (n : Int) : Prop extends Stored memory lease li n where
  newest : n % 4 = 0 -> memory (.hot lease.slot li 2048) = blockTokens lease (n / 4 - 1)

/-- The records of a chunk are packed. -/
def Packed (memory : Place -> List Token) (lease : QSAHiSparseLease) (start stop : Nat) : Prop :=
  forall block : Int, (start / 4 : Nat) ≤ block -> block < (stop / 4 : Nat) ->
    memory (.packed block) = blockTokens lease block

/-- What has to hold right after the work. -/
def Exact (memory : Place -> List Token) : Work -> Prop
  | .writeBack lease li block => memory (.host lease.slot li block) = blockTokens lease block
  | .copyChunk lease li start stop => forall block : Int, (start / 4 : Nat) ≤ block ->
      block < (stop / 4 : Nat) -> memory (.host lease.slot li block) = blockTokens lease block
  | .resolve lease li n => Current memory lease li n
  | _ => True

/-! ## Agreement -/

/-- The memories agree on the ring, the newest hot row and the host records of
the slot and the layer. -/
structure AgreeAt (slot li : Nat) (memory other : Place -> List Token) : Prop where
  ring : forall row, memory (.ring slot li row) = other (.ring slot li row)
  hot : memory (.hot slot li 2048) = other (.hot slot li 2048)
  host : forall block, memory (.host slot li block) = other (.host slot li block)

theorem AgreeAt.of_places {slot : Nat} {other : Place -> List Token}
    (agree : forall place : Place, place.At slot li -> memory place = other place) :
    AgreeAt slot li memory other where
  ring row := agree (.ring slot li row) ⟨rfl, rfl⟩
  hot := agree (.hot slot li 2048) ⟨rfl, rfl⟩
  host block := agree (.host slot li block) ⟨rfl, rfl⟩

theorem apply_agreeAt {work : Work} {slot : Nat} (apart : ¬ Touches slot li work) :
    AgreeAt slot li ((operations resolver).apply work memory) memory :=
  .of_places fun _ at_ => apply_apart resolver at_ apart memory

/-- A resolver leaves the newest row alone. -/
theorem resolve_agreeAt {slot layer : Nat} :
    AgreeAt slot layer ((operations resolver).apply (.resolve lease li n) memory) memory where
  ring _ := Operations.apply_of_none rfl memory
  hot := Operations.apply_of_none (if_neg fun same => absurd same.2.2 (by decide)) memory
  host _ := Operations.apply_of_none rfl memory

section Agree

variable {other : Place -> List Token}

theorem Records.congr {count : Int} (records : Records other lease li count)
    (agree : forall block, memory (.host lease.slot li block) = other (.host lease.slot li block)) :
    Records memory lease li count :=
  fun block lower upper => (agree block).trans (records block lower upper)

theorem Tail.congr {start : Int} (tail : Tail other lease li start n)
    (agree : forall row, memory (.ring lease.slot li row) = other (.ring lease.slot li row)) :
    Tail memory lease li start n :=
  fun position lower upper => (agree _).trans (tail position lower upper)

variable (agree : AgreeAt lease.slot li memory other)

include agree

theorem Represents.congr (represents : Represents other lease li n) :
    Represents memory lease li n :=
  ⟨represents.records.congr agree.host, represents.tail.congr agree.ring⟩

theorem Stored.congr (stored : Stored other lease li n) : Stored memory lease li n :=
  ⟨stored.records.congr agree.host, stored.tail.congr agree.ring⟩

theorem Current.congr (current : Current other lease li n) : Current memory lease li n where
  toStored := current.toStored.congr agree
  newest complete := agree.hot.trans (current.newest complete)

end Agree

/-- Only places that the work reads or writes decide whether it was exact. -/
theorem Exact.congr {work : Work} {other : Place -> List Token} (exact_ : Exact other work)
    (agree : forall place, (operations resolver).Reads work place ∨
      (operations resolver).Writes work place -> memory place = other place) :
    Exact memory work := by
  cases work with
  | writeBack lease li block =>
      have writes : (operations resolver).Writes (.writeBack lease li block)
          (.host lease.slot li block) := ⟨_, if_pos ⟨⟨rfl, rfl⟩, rfl⟩⟩
      exact (agree _ (Or.inr writes)).trans exact_
  | copyChunk lease li start stop =>
      intro block lower upper
      have writes : (operations resolver).Writes (.copyChunk lease li start stop)
          (.host lease.slot li block) := ⟨_, if_pos ⟨⟨rfl, rfl⟩, lower, upper⟩⟩
      exact (agree _ (Or.inr writes)).trans (exact_ block lower upper)
  | resolve lease li n =>
      exact Current.congr (.of_places fun place at_ => agree place (Or.inl (Or.inl at_))) exact_
  | _ => trivial

/-! ## The steps of a handoff -/

theorem pack_packed (lease : QSAHiSparseLease) (li start stop : Nat) :
    Packed ((operations resolver).apply (.packChunk lease li start stop) memory) lease start
      stop := by
  intro block lower upper
  rw [Operations.apply_of_source (if_pos ⟨lower, upper⟩)]
  rfl

theorem copyChunk_exact {start stop : Nat} (packed : Packed memory lease start stop) :
    Exact ((operations resolver).apply (.copyChunk lease li start stop) memory)
      (.copyChunk lease li start stop) := by
  intro block lower upper
  rw [Operations.apply_of_source (if_pos ⟨⟨rfl, rfl⟩, lower, upper⟩)]
  change [memory (.packed block)].flatten = _
  rw [packed block lower upper]
  exact List.append_nil _

theorem Records.copyChunk {start stop : Nat} (records : Records memory lease li (start / 4 : Nat))
    (packed : Packed memory lease start stop) :
    Records ((operations resolver).apply (.copyChunk lease li start stop) memory) lease li
      (stop / 4 : Nat) := by
  intro block lower upper
  by_cases earlier : block < (start / 4 : Nat)
  · rw [Operations.apply_of_none (if_neg fun same => absurd same.2.1 (Int.not_le.mpr earlier))]
    exact records block lower earlier
  · exact copyChunk_exact packed block (Int.not_lt.mp earlier) upper

/-- The open tail of the prompt completes a layer. -/
theorem Records.stageTail (records : Records memory lease li (n / 4)) :
    Represents ((operations resolver).apply (.stageTail lease li n) memory) lease li n where
  records := records.congr fun _ => Operations.apply_of_none rfl memory
  tail position lower upper := by
    have same : n / 4 * 4 + (1 + position % 4 - 1) = position := by omega
    rw [Operations.apply_of_source (if_pos ⟨⟨rfl, rfl⟩, by omega, by omega⟩), same, known]

/-- A prompt of complete blocks has no tail. -/
theorem Records.represents (records : Records memory lease li (n / 4)) (complete : n % 4 = 0) :
    Represents memory lease li n where
  records := records
  tail position lower upper := by omega

/-! ## The steps of a forward -/

/-- The token of a forward goes to the ring. -/
theorem Represents.store (represents : Represents memory lease li (n - 1)) :
    Stored ((operations resolver).apply (.storeRow lease li (n - 1)) memory) lease li n where
  records := represents.records.congr fun _ => Operations.apply_of_none rfl memory
  tail position lower upper := by
    by_cases last : position = n - 1
    · rw [last, Operations.apply_of_source (if_pos ⟨⟨rfl, rfl⟩, rfl⟩), known]
    · have row : 1 + position % 4 ≠ 1 + (n - 1) % 4 := by omega
      rw [Operations.apply_of_none (if_neg fun same => row same.2)]
      exact represents.tail position lower (by omega)

theorem Stored.represents (stored : Stored memory lease li n) (incomplete : n % 4 ≠ 0) :
    Represents memory lease li n where
  records block lower upper := stored.records block lower (by omega)
  tail position lower upper := stored.tail position (by omega) upper

theorem Stored.current (stored : Stored memory lease li n) (incomplete : n % 4 ≠ 0) :
    Current memory lease li n where
  toStored := stored
  newest complete := absurd complete incomplete

/-- Four ring rows make a record. -/
theorem Stored.ring (stored : Stored memory lease li n) (complete : n % 4 = 0) :
    ((ringRows lease.slot li).map memory).flatten = blockTokens lease (n / 4 - 1) := by
  have row (index : Int) (lower : 0 ≤ index) (upper : index < 4) :
      memory (.ring lease.slot li (1 + index)) = [(lease, 4 * (n / 4 - 1) + index)] := by
    have found := stored.tail (4 * (n / 4 - 1) + index) (by omega) (by omega)
    have place : (4 * (n / 4 - 1) + index) % 4 = index := by omega
    rw [place] at found
    exact found
  have first := row 0 (by decide) (by decide)
  have second := row 1 (by decide) (by decide)
  have third := row 2 (by decide) (by decide)
  have fourth := row 3 (by decide) (by decide)
  rw [Int.add_zero] at first
  change [memory (.ring lease.slot li (1 + 0)), memory (.ring lease.slot li (1 + 1)),
    memory (.ring lease.slot li (1 + 2)), memory (.ring lease.slot li (1 + 3))].flatten = _
  rw [Int.add_zero, first, second, third, fourth]
  unfold blockTokens
  rw [Int.add_zero]
  rfl

/-- The close of the block that a length completes. -/
theorem Stored.close (stored : Stored memory lease li n) (complete : n % 4 = 0) :
    Current ((operations resolver).apply (.closeBlock lease li (n / 4 - 1)) memory) lease li n where
  records := stored.records.congr fun _ => Operations.apply_of_none rfl memory
  tail := stored.tail.congr fun _ => Operations.apply_of_none rfl memory
  newest _ := by
    rw [Operations.apply_of_source (if_pos ⟨⟨rfl, rfl⟩, Or.inl rfl⟩)]
    exact stored.ring complete

/-- The writeback of the newest row. -/
theorem Current.writeBack (current : Current memory lease li n) (complete : n % 4 = 0) :
    Exact ((operations resolver).apply (.writeBack lease li (n / 4 - 1)) memory)
        (.writeBack lease li (n / 4 - 1)) ∧
      Represents ((operations resolver).apply (.writeBack lease li (n / 4 - 1)) memory) lease li n ∧
      Current ((operations resolver).apply (.writeBack lease li (n / 4 - 1)) memory) lease li
        n := by
  have written : (operations resolver).apply (.writeBack lease li (n / 4 - 1)) memory
      (.host lease.slot li (n / 4 - 1)) = blockTokens lease (n / 4 - 1) := by
    rw [Operations.apply_of_source (if_pos ⟨⟨rfl, rfl⟩, rfl⟩)]
    change [memory (.hot lease.slot li 2048)].flatten = _
    rw [current.newest complete]
    exact List.append_nil _
  have kept {block : Int} (earlier : block < n / 4 - 1) :
      (operations resolver).apply (.writeBack lease li (n / 4 - 1)) memory
        (.host lease.slot li block) = memory (.host lease.slot li block) := by
    apply Operations.apply_of_none
    exact if_neg fun same => absurd same.2 (Int.ne_of_lt earlier)
  have ring (row : Int) : (operations resolver).apply (.writeBack lease li (n / 4 - 1)) memory
      (.ring lease.slot li row) = memory (.ring lease.slot li row) :=
    Operations.apply_of_none rfl memory
  refine ⟨written, ⟨fun block lower upper => ?_, fun position lower upper => ?_⟩,
    ⟨⟨fun block lower upper => ?_, current.tail.congr ring⟩, fun _ => ?_⟩⟩
  · rcases Int.lt_or_eq_of_le (Int.le_sub_one_of_lt upper) with earlier | last
    · rw [kept earlier]
      exact current.records block lower (by omega)
    · rw [last]
      exact written
  · omega
  · rw [kept (by omega)]
    exact current.records block lower upper
  · rw [Operations.apply_of_none rfl]
    exact current.newest complete

end Writeback
end QSAHiSparse

import Mathlib.Tactic.Common
import QSAHiSparse.Foundation.Streams
import QSAHiSparse.Runtime.Machine

namespace QSAHiSparse
namespace Writeback

open Foundation
open Ledger
open QSAHiSparse.Runtime

/-!
# The runtime's work on two streams

The work of the runtime as operations on places of the device and the host: the
ring rows, the hot rows and the host records of a slot and a layer, and the
packed records of a chunk on their way to the host.  The bytes of a raw token
are named by the lease that produced it and its position.

What only the forwards' stream touches and no copy reads is left out: the
residency tokens, the recency lists and the compact workspace.
-/

/-! ## Places and values -/

/-- A raw token: the lease that produced it, and its position. -/
abbrev Token := QSAHiSparseLease × Int

inductive Place where
  | ring (slot li : Nat) (row : Int)
  | hot (slot li : Nat) (row : Int)
  | host (slot li : Nat) (block : Int)
  /-- The packed record of a block, in memory that every chunk uses again. -/
  | packed (block : Int)
deriving DecidableEq, Repr

/-- The place belongs to the slot and the layer. -/
def Place.At (slot li : Nat) : Place -> Prop
  | .ring owner layer _ => owner = slot ∧ layer = li
  | .hot owner layer _ => owner = slot ∧ layer = li
  | .host owner layer _ => owner = slot ∧ layer = li
  | .packed _ => False

/-- The four raw tokens of a C4 block. -/
def blockTokens (lease : QSAHiSparseLease) (block : Int) : List Token :=
  [(lease, 4 * block), (lease, 4 * block + 1), (lease, 4 * block + 2), (lease, 4 * block + 3)]

/-- What is written is known when it is submitted. -/
def known (tokens : List Token) : Source Place (List Token) := ⟨[], fun _ => tokens⟩

/-- The contents of the places, in order. -/
def joined (places : List Place) : Source Place (List Token) := ⟨places, List.flatten⟩

/-- The four ring rows that hold raw tokens; row 0 is padding. -/
def ringRows (slot li : Nat) : List Place :=
  [.ring slot li 1, .ring slot li 2, .ring slot li 3, .ring slot li 4]

/-- `load_cache_to_device_buffer_mla`: what it leaves in a hot row below the
newest is made of places of its slot and layer. -/
structure Resolver where
  fetch : QSAHiSparseLease -> Nat -> Int -> Int -> Source Place (List Token)
  own : forall lease li seqLen row place,
    place ∈ (fetch lease li seqLen row).places -> place.At lease.slot li

/-- A resolver that leaves every row to a host record. -/
def loading : Resolver where
  fetch lease li _ row := joined [.host lease.slot li row]
  own lease li _ row place member := by
    rw [List.mem_singleton.mp member]
    exact ⟨rfl, rfl⟩

/-! ## What the work writes and reads -/

section Sources

variable (resolver : Resolver)

/-- The places of the ring that the work writes. -/
def ringSource (slot layer : Nat) (row : Int) : Work -> Option (Source Place (List Token))
  | .clearSlot lease => if slot = lease.slot then some (known []) else none
  | .storeRow lease li position =>
      if (slot = lease.slot ∧ layer = li) ∧ row = 1 + position % 4 then
        some (known [(lease, position)])
      else none
  | .stageTail lease li promptLen =>
      if (slot = lease.slot ∧ layer = li) ∧ 1 ≤ row ∧ row ≤ promptLen % 4 then
        some (known [(lease, promptLen / 4 * 4 + (row - 1))])
      else none
  | _ => none

/-- The hot rows that the work writes: a block's own row and the newest, the
rows of the resolver, or all rows of a new layer state. -/
def hotSource (slot layer : Nat) (row : Int) : Work -> Option (Source Place (List Token))
  | .closeBlock lease li block =>
      if (slot = lease.slot ∧ layer = li) ∧ (row = 2048 ∨ row = block ∧ block < 2048) then
        some (joined (ringRows slot layer))
      else none
  | .resolve lease li seqLen =>
      if (slot = lease.slot ∧ layer = li) ∧ 0 ≤ row ∧ row < 2048 then
        some (resolver.fetch lease li seqLen row)
      else none
  | .stageHot lease li blocks =>
      if (slot = lease.slot ∧ layer = li) ∧ 0 ≤ row ∧ row < 2112 then
        if row = 2048 ∧ blocks ≠ 0 then some (joined [.host slot layer (blocks - 1)])
        else if row < blocks ∧ blocks ≤ 2048 then some (joined [.host slot layer row])
        else some (known [])
      else none
  | _ => none

/-- The host records that the work writes. -/
def hostSource (slot layer : Nat) (block : Int) : Work -> Option (Source Place (List Token))
  | .copyChunk lease li start stop =>
      if (slot = lease.slot ∧ layer = li) ∧ (start / 4 : Nat) ≤ block ∧
          block < (stop / 4 : Nat) then
        some (joined [.packed block])
      else none
  | .writeBack lease li closed =>
      if (slot = lease.slot ∧ layer = li) ∧ block = closed then
        some (joined [.hot slot layer 2048])
      else none
  | _ => none

/-- The packed records that the work writes; the raw tokens of a prompt are in
staging. -/
def packedSource (block : Int) : Work -> Option (Source Place (List Token))
  | .packChunk lease _ start stop =>
      if (start / 4 : Nat) ≤ block ∧ block < (stop / 4 : Nat) then
        some (known (blockTokens lease block))
      else none
  | _ => none

/-- The work as operations.  The resolver looks at everything of its slot and
layer. -/
def operations : Operations Work Place (List Token) where
  source work place :=
    match place with
    | .ring slot layer row => ringSource slot layer row work
    | .hot slot layer row => hotSource resolver slot layer row work
    | .host slot layer block => hostSource slot layer block work
    | .packed block => packedSource block work
  looks work place :=
    match work with
    | .resolve lease li _ => place.At lease.slot li
    | _ => False

end Sources

/-- The work goes to the copy stream. -/
def Copies : Work -> Prop
  | .copyChunk _ _ _ _ => True
  | .writeBack _ _ _ => True
  | _ => False

/-- The work is about the slot and the layer; a cleared slot is cleared in every
layer. -/
def Touches (slot li : Nat) : Work -> Prop
  | .clearSlot lease => slot = lease.slot
  | .storeRow lease layer _ => slot = lease.slot ∧ li = layer
  | .closeBlock lease layer _ => slot = lease.slot ∧ li = layer
  | .resolve lease layer _ => slot = lease.slot ∧ li = layer
  | .packChunk lease layer _ _ => slot = lease.slot ∧ li = layer
  | .stageTail lease layer _ => slot = lease.slot ∧ li = layer
  | .stageHot lease layer _ => slot = lease.slot ∧ li = layer
  | .copyChunk lease layer _ _ => slot = lease.slot ∧ li = layer
  | .writeBack lease layer _ => slot = lease.slot ∧ li = layer

/-- The kinds of work that a copy of the same slot and layer must not run into. -/
def Crosses (slot li : Nat) : Work -> Prop
  | .closeBlock lease layer _ => slot = lease.slot ∧ li = layer
  | .resolve lease layer _ => slot = lease.slot ∧ li = layer
  | .stageHot lease layer _ => slot = lease.slot ∧ li = layer
  | _ => False

/-- The work packs a chunk. -/
def Packs : Work -> Prop
  | .packChunk _ _ _ _ => True
  | _ => False

/-! ## What meets what -/

section Conflicts

variable (resolver : Resolver) {work earlier later : Work} {slot li : Nat} {place : Place}

theorem crosses_computes (crosses : Crosses slot li work) : ¬ Copies work := by
  cases work <;> first | exact id | cases crosses

/-- Outside the packed records the work stays in the slots and layers it is
about. -/
theorem source_touches {source : Source Place (List Token)} (at_ : place.At slot li)
    (written : (operations resolver).source work place = some source) : Touches slot li work := by
  cases place with
  | packed block => exact absurd at_ id
  | ring owner layer row =>
      rcases at_ with ⟨rfl, rfl⟩
      change ringSource owner layer row work = some source at written
      cases work <;> simp only [ringSource, Option.ite_none_right_eq_some, reduceCtorEq] at written
      · exact written.1
      · exact written.1.1
      · exact written.1.1
  | hot owner layer row =>
      rcases at_ with ⟨rfl, rfl⟩
      change hotSource resolver owner layer row work = some source at written
      cases work <;> simp only [hotSource, Option.ite_none_right_eq_some, reduceCtorEq] at written
      · exact written.1.1
      · exact written.1.1
      · exact written.1.1
  | host owner layer block =>
      rcases at_ with ⟨rfl, rfl⟩
      change hostSource owner layer block work = some source at written
      cases work <;> simp only [hostSource, Option.ite_none_right_eq_some, reduceCtorEq] at written
      · exact written.1.1
      · exact written.1.1

/-- Work about another slot or layer leaves a place as it is. -/
theorem apply_apart (at_ : place.At slot li) (apart : ¬ Touches slot li work)
    (memory : Place -> List Token) :
    (operations resolver).apply work memory place = memory place := by
  apply Operations.apply_of_none
  cases written : (operations resolver).source work place with
  | none => rfl
  | some source => exact absurd (source_touches resolver at_ written) apart

/-- Only a copy writes host records. -/
theorem writes_host {block : Int}
    (writes : (operations resolver).Writes work (.host slot li block)) : Copies work := by
  rcases writes with ⟨source, written⟩
  change hostSource slot li block work = some source at written
  cases work <;> first | cases written | trivial

theorem writes_hot {row : Int} (writes : (operations resolver).Writes work (.hot slot li row)) :
    Crosses slot li work := by
  rcases writes with ⟨source, written⟩
  change hotSource resolver slot li row work = some source at written
  cases work <;> simp only [hotSource, Option.ite_none_right_eq_some, reduceCtorEq] at written
  · exact written.1.1
  · exact written.1.1
  · exact written.1.1

theorem writes_packed {block : Int}
    (writes : (operations resolver).Writes work (.packed block)) : Packs work := by
  rcases writes with ⟨source, written⟩
  change packedSource block work = some source at written
  cases work <;> first | cases written | trivial

/-- What the copies do not write they read for a new layer state or in a
selection. -/
theorem reads_host {block : Int} (reads : (operations resolver).Reads work (.host slot li block)) :
    Crosses slot li work := by
  rcases reads with looks | ⟨target, source, written, member⟩
  · cases work <;> first | exact ⟨looks.1, looks.2⟩ | cases looks
  cases target with
  | packed other =>
      change packedSource other work = some source at written
      cases work <;> simp only [packedSource, Option.ite_none_right_eq_some, Option.some.injEq,
        reduceCtorEq] at written
      rw [<- written.2] at member
      cases member
  | ring owner layer row =>
      change ringSource owner layer row work = some source at written
      cases work <;> simp only [ringSource, Option.ite_none_right_eq_some, Option.some.injEq,
        reduceCtorEq] at written
      all_goals
        rw [<- written.2] at member
        cases member
  | host owner layer row =>
      change hostSource owner layer row work = some source at written
      cases work <;> simp only [hostSource, Option.ite_none_right_eq_some, Option.some.injEq,
        reduceCtorEq] at written
      all_goals
        rw [<- written.2] at member
        cases List.mem_singleton.mp member
  | hot owner layer row =>
      change hotSource resolver owner layer row work = some source at written
      cases work with
      | closeBlock lease closed other =>
          simp only [hotSource, Option.ite_none_right_eq_some, Option.some.injEq] at written
          rw [<- written.2] at member
          simp [joined, ringRows] at member
      | resolve lease layer seqLen =>
          simp only [hotSource, Option.ite_none_right_eq_some, Option.some.injEq] at written
          rw [<- written.2] at member
          exact resolver.own _ _ _ _ _ member
      | stageHot lease layer blocks =>
          simp only [hotSource, Option.ite_none_right_eq_some] at written
          rcases written with ⟨⟨same, _⟩, chosen⟩
          split at chosen
          · cases chosen
            cases List.mem_singleton.mp member
            exact same
          · split at chosen
            · cases chosen
              cases List.mem_singleton.mp member
              exact same
            · cases chosen
              cases member
      | _ => cases written

/-- A copy writes host records of its slot and layer. -/
theorem copy_writes (copies : Copies work) (writes : (operations resolver).Writes work place) :
    exists slot li block, place = .host slot li block ∧ Touches slot li work := by
  rcases writes with ⟨source, written⟩
  cases place with
  | host owner layer block =>
      have here : (Place.host owner layer block).At owner layer := ⟨rfl, rfl⟩
      exact ⟨owner, layer, block, rfl, source_touches resolver here written⟩
  | packed block =>
      change packedSource block work = some source at written
      cases work <;> first | cases written | cases copies
  | ring owner layer row =>
      change ringSource owner layer row work = some source at written
      cases work <;> first | cases written | cases copies
  | hot owner layer row =>
      exact absurd copies (crosses_computes (writes_hot resolver ⟨source, written⟩))

/-- It reads the newest hot row, or the packed records of a chunk. -/
theorem copy_reads (copies : Copies work) (reads : (operations resolver).Reads work place) :
    (exists slot li, place = .hot slot li 2048 ∧ Touches slot li work) ∨
      (exists block, place = .packed block) ∧
        forall lease li block, work ≠ .writeBack lease li block := by
  rcases reads with looks | ⟨target, source, written, member⟩
  · cases work <;> first | cases looks | cases copies
  rcases copy_writes resolver copies ⟨source, written⟩ with ⟨owner, layer, block, rfl, touches⟩
  change hostSource owner layer block work = some source at written
  cases work with
  | copyChunk lease li start stop =>
      simp only [hostSource, Option.ite_none_right_eq_some, Option.some.injEq] at written
      rw [<- written.2] at member
      exact Or.inr ⟨⟨block, List.mem_singleton.mp member⟩, nofun⟩
  | writeBack lease li closed =>
      simp only [hostSource, Option.ite_none_right_eq_some, Option.some.injEq] at written
      rw [<- written.2] at member
      exact Or.inl ⟨owner, layer, List.mem_singleton.mp member, touches⟩
  | _ => cases copies

/-- A copy meets later work of the forwards only where the work reads the host
records of the slot and the layer or writes the newest hot row, and where it
packs another chunk. -/
theorem conflicts_crosses (copies : Copies earlier) (computes : ¬ Copies later)
    (conflict : (operations resolver).Conflicts earlier later) :
    (exists slot li, Touches slot li earlier ∧ Crosses slot li later) ∨
      Packs later ∧ forall lease li block, earlier ≠ .writeBack lease li block := by
  rcases conflict with ⟨place, ⟨writes, meets⟩ | ⟨reads, writes⟩⟩
  · rcases copy_writes resolver copies writes with ⟨slot, li, block, rfl, touches⟩
    rcases meets with reads | writes
    · exact Or.inl ⟨slot, li, touches, reads_host resolver reads⟩
    · exact absurd (writes_host resolver writes) computes
  · rcases copy_reads resolver copies reads with ⟨slot, li, rfl, touches⟩ | ⟨⟨block, rfl⟩, chunk⟩
    · exact Or.inl ⟨slot, li, touches, writes_hot resolver writes⟩
    · exact Or.inr ⟨writes_packed resolver writes, chunk⟩

end Conflicts

/-! ## The machine -/

/-- Two streams that run at will, and the number of calls made so far. -/
structure Lagging where
  device : Device Stream Work Place (List Token)
  calls : Nat

def Lagging.empty : Lagging := ⟨.empty fun _ => [], 0⟩

/-- Which streams take a step before each call, and what a condition answers. -/
structure Pace where
  steps : Nat -> List Stream
  answer : Nat -> Bool

section Machine

variable (resolver : Resolver) (pace : Pace)

/-- The streams go on until the call is made. -/
def Lagging.pass (lagging : Lagging) : Lagging where
  device := lagging.device.turn (operations resolver) (pace.steps lagging.calls)
  calls := lagging.calls + 1

def Lagging.submit (stream : Stream) (item : Item Stream Work) (lagging : Lagging) : Lagging :=
  { lagging with device := lagging.device.submit stream item }

/-- The event is complete. -/
def Lagging.settle (mark : Mark) (lagging : Lagging) : Lagging :=
  { lagging with
    device := lagging.device.settle (operations resolver) [.compute, .copy] mark.stream
      mark.position mark.position }

/-- Everything submitted to the stream so far. -/
def Lagging.mark (stream : Stream) (lagging : Lagging) : Mark :=
  ⟨stream, lagging.device.log.length⟩

variable {α : Type}

/-- A call that does not raise. -/
def lagCall (effect : Lagging -> Lagging) (answer : Lagging -> α) : Method Lagging α :=
  fun lagging =>
    let now := lagging.pass resolver pace
    .ok (answer now) (effect now)

/-- The machine whose streams keep the pace. -/
def streamMachine : Machine Lagging where
  submit _ stream work := lagCall resolver pace (.submit stream (.perform work)) fun _ => ⟨⟩
  record _ stream := lagCall resolver pace id fun now => now.mark stream
  waitEvent _ stream mark :=
    lagCall resolver pace (.submit stream (.wait mark.stream mark.position)) fun _ => ⟨⟩
  synchronize _ mark := lagCall resolver pace (.settle resolver mark) fun _ => ⟨⟩
  drain _ stream := lagCall resolver pace (fun now => now.settle resolver (now.mark stream))
    fun _ => ⟨⟩
  outside _ := lagCall resolver pace id fun _ => ⟨⟩
  ask _ := lagCall resolver pace id fun now => pace.answer now.calls

end Machine

end Writeback
end QSAHiSparse

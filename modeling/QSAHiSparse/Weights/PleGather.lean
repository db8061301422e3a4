import QSAHiSparse.Foundation.Memory
import QSAHiSparse.Weights.PleRowScales

namespace QSAHiSparse
namespace Weights

open Foundation

/-!
# The gather of a table

A program of the launch copies one row to the output, scaled by its row scale.
An id outside the interval of the rank reads row zero and is stored as zeros.
The conversion of an element and the multiplication are parameters.
-/

section Gather

variable {Element Scale Value : Type} [Zero Value]

/-- What the kernel reads of a table. -/
structure GatherSource (Element Scale : Type) where
  weight : Memory Element
  rowScale : Memory Scale
  embeddingDim : Nat
  tpVocabStart : Int
  tpVocabEnd : Int
  pointerType : TorchDtype
  hasRowScale : Bool

variable (cast : TorchDtype -> Element -> Value) (rescale : Value -> Scale -> Value)
  (padding : Element)

/-- Whether an id is in the interval of the rank. -/
def GatherSource.InRange (source : GatherSource Element Scale) (globalIdx : Int) : Prop :=
  globalIdx ≥ source.tpVocabStart ∧ globalIdx < source.tpVocabEnd

instance (source : GatherSource Element Scale) (globalIdx : Int) :
    Decidable (source.InRange globalIdx) :=
  inferInstanceAs (Decidable (_ ∧ _))

/-- The row that is read for an id. -/
def GatherSource.localIdx (source : GatherSource Element Scale) (globalIdx : Int) : Int :=
  if source.InRange globalIdx then globalIdx - source.tpVocabStart else 0

/-- `values` of a lane. -/
def GatherSource.values (source : GatherSource Element Scale) (globalIdx offset : Int) : Value :=
  let loaded := cast source.pointerType
    (maskedLoad source.weight (source.localIdx globalIdx * source.embeddingDim + offset)
      (offset < source.embeddingDim) padding)
  if source.hasRowScale = true then rescale loaded (source.rowScale (source.localIdx globalIdx))
  else loaded

/-- `_gather_ple_embedding_from_pinned_kernel` at `program_id(0) = rowId`. -/
def gatherPleEmbedding (source : GatherSource Element Scale) (ids : Memory Int) (blockD : Nat)
    (rowId : Int) : List (Store Value) :=
  vectorStore blockD (fun offset => offset < source.embeddingDim)
    (fun offset => rowId * source.embeddingDim + offset)
    (fun offset =>
      if source.InRange (ids rowId) then source.values cast rescale padding (ids rowId) offset
      else 0)

/-- The type that the kernel reads the weight as. -/
def pointerType (dtype : TorchDtype) : TorchDtype :=
  if dtype = .float8E4m3fn then .float8E4m3fn
  else if dtype = .int8 then .int8
  else .bfloat16

/-- The buffers of a table, in memories that hold more than it. -/
def PleEmbedding.gatherSource (emb : PleEmbedding (List Element) Scale) (embeddingDim : Nat)
    (pinned : Memory Element) (pinnedScales : Memory Scale) : GatherSource Element Scale where
  weight := rowMajor emb.weight embeddingDim pinned
  rowScale := flatEntries emb.rowScale pinnedScales
  embeddingDim := embeddingDim
  tpVocabStart := emb.orgVocabStartIndex
  tpVocabEnd := emb.orgVocabEndIndex
  pointerType := pointerType emb.dtype
  hasRowScale := emb.pleRowScaleMode

/-- The launch of `gather`, one program for each id. -/
def gather (source : GatherSource Element Scale) (flatIds : List Int) (beyond : Memory Int) :
    List (Store Value) :=
  (List.range flatIds.length).flatMap fun (rowId : Nat) =>
    gatherPleEmbedding cast rescale padding source (flatEntries flatIds beyond)
      (nextPowerOf2 source.embeddingDim) rowId

variable {cast rescale padding} {source : GatherSource Element Scale}

/-- The stores of the launch: each lane of each row that is not masked. -/
theorem mem_gather {flatIds : List Int} {beyond : Memory Int} {store : Store Value} :
    store ∈ gather cast rescale padding source flatIds beyond <->
      exists (rowId offset : Nat) (id : Int), flatIds[rowId]? = some id ∧
        offset < source.embeddingDim ∧
        store = ⟨(rowId : Int) * source.embeddingDim + offset,
          if source.InRange id then source.values cast rescale padding id offset else 0⟩ := by
  unfold gather
  rw [List.mem_flatMap]
  constructor
  · rintro ⟨rowId, member, issued⟩
    have at_row := List.getElem?_eq_getElem (List.mem_range.mp member)
    rcases mem_vectorStore.mp issued with ⟨offset, lower, _, inside, same⟩
    rcases Int.eq_ofNat_of_zero_le lower with ⟨column, rfl⟩
    rw [flatEntries_at at_row] at same
    exact ⟨rowId, column, _, at_row, Int.ofNat_lt.mp inside, same⟩
  · rintro ⟨rowId, offset, id, at_row, inside, same⟩
    have bound := (List.getElem?_eq_some_iff.mp at_row).1
    have block := le_nextPowerOf2 source.embeddingDim
    refine ⟨rowId, List.mem_range.mpr bound, mem_vectorStore.mpr ⟨offset, by omega, by omega,
      Int.ofNat_lt.mpr inside, ?_⟩⟩
    rw [same, flatEntries_at at_row]

/-- The stores of the launch go to distinct places, so the order in which they
land does not matter. -/
theorem gather_lands {flatIds : List Int} {beyond : Memory Int} {output final : Memory Value}
    (lands : Lands output final (gather cast rescale padding source flatIds beyond))
    {rowId offset : Nat} {id : Int} (at_row : flatIds[rowId]? = some id)
    (inside : offset < source.embeddingDim) :
    final ((rowId : Int) * source.embeddingDim + offset) =
      if source.InRange id then source.values cast rescale padding id offset else 0 := by
  rcases lands with ⟨order, permuted, rfl⟩
  have stored : (⟨(rowId : Int) * source.embeddingDim + offset,
      if source.InRange id then source.values cast rescale padding id offset else 0⟩ :
        Store Value) ∈ order :=
    permuted.mem_iff.mpr (mem_gather.mpr ⟨rowId, offset, id, at_row, inside, rfl⟩)
  refine storeAll_determined output stored ?_
  intro other member same
  rcases mem_gather.mp (permuted.mem_iff.mp member) with
    ⟨otherRow, otherOffset, otherId, otherAt, otherInside, rfl⟩
  rcases row_column_unique inside otherInside same.symm with ⟨rows, columns⟩
  rw [rows, otherAt] at at_row
  rw [columns, Option.some.inj at_row]

end Gather

end Weights
end QSAHiSparse

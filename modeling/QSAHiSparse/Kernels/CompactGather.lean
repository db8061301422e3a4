import QSAHiSparse.Kernels.CompactKv
import Mathlib.Tactic.IntervalCases

namespace QSAHiSparse
namespace Kernels

open Foundation

/-!
# The gather is exact

Every element of a region is written by one program, with the selected row of the
pool or with a zero, and no program writes between or past the regions.  So the
order of the programs does not matter.
-/

variable {Element Float32 : Type} {args : CompactArgs Element Float32} {count : Nat -> Nat}

/-- The rows that a request owns in the scratch. -/
def CompactArgs.width (args : CompactArgs Element Float32) (count : Nat -> Nat) (place : Nat) :
    Nat :=
  if 0 < args.zeroFillCols then args.zeroFillCols.toNat else count place

/-- A batch whose valid entries come first, `count` of them in the row of a request.
Offsets are the sums of the counts, or multiples of the fill width. -/
structure CompactArgs.Laid (args : CompactArgs Element Float32) (count : Nat -> Nat) : Prop where
  first : forall place col : Nat, place < args.batch -> col < args.topk ->
    ((0 ≤ args.indices (place * args.idxStride + col) ∧
        args.indices (place * args.idxStride + col) < args.seqLens place) <-> col < count place)
  selected : forall place, place < args.batch -> count place ≤ args.topk
  offsets : forall place : Nat, place ≤ args.batch ->
    args.cuK place =
      if 0 < args.zeroFillCols then place * args.zeroFillCols else segmentStart count place
  fits : 0 < args.zeroFillCols -> forall place, place < args.batch ->
    (count place : Int) ≤ args.zeroFillCols

/-- The row of the pool that a column of a request selects. -/
def CompactArgs.selectedSlot (args : CompactArgs Element Float32) (place col : Nat) : Int :=
  args.reqToToken
    (args.reqIndices place * args.reqStride + args.indices (place * args.idxStride + col))

/-- The address of an element of a region. -/
def CompactArgs.regionAddress (args : CompactArgs Element Float32) (count : Nat -> Nat)
    (place head col element : Nat) : Int :=
  args.address (segmentStart (args.width count) place + col : Nat) head element

/-! ## Regions -/

theorem CompactArgs.width_strided (filled : 0 < args.zeroFillCols) (place : Nat) :
    args.width count place = args.zeroFillCols.toNat := by
  unfold CompactArgs.width
  rw [if_pos filled]

theorem CompactArgs.width_packed (packed : ¬ 0 < args.zeroFillCols) (place : Nat) :
    args.width count place = count place := by
  unfold CompactArgs.width
  rw [if_neg packed]

theorem CompactArgs.Laid.start (laid : args.Laid count) {place : Nat} (inside : place ≤ args.batch) :
    args.cuK place = segmentStart (args.width count) place := by
  rw [laid.offsets place inside]
  by_cases filled : 0 < args.zeroFillCols
  · have widths : args.width count = fun _ => args.zeroFillCols.toNat :=
      funext fun place => CompactArgs.width_strided filled place
    rw [if_pos filled, widths]
    unfold segmentStart
    rw [Finset.sum_const_nat fun _ _ => rfl, Finset.card_range, Nat.cast_mul,
      Int.toNat_of_nonneg filled.le]
  · have widths : args.width count = count :=
      funext fun place => CompactArgs.width_packed filled place
    rw [if_neg filled, widths]

/-- A region has room for the selected rows. -/
theorem CompactArgs.Laid.count_le (laid : args.Laid count) {place : Nat}
    (inside : place < args.batch) : count place ≤ args.width count place := by
  by_cases filled : 0 < args.zeroFillCols
  · have room := laid.fits filled place inside
    rw [CompactArgs.width_strided filled]
    omega
  · exact (CompactArgs.width_packed filled place).ge

theorem CompactArgs.Laid.validCount_eq (laid : args.Laid count) {place : Nat}
    (inside : place < args.batch) : args.validCount place = args.width count place := by
  have stop : args.cuK ((place : Int) + 1) = segmentStart (args.width count) (place + 1) :=
    laid.start (show place + 1 ≤ args.batch from inside)
  unfold CompactArgs.validCount
  rw [stop, laid.start inside.le, segmentStart_succ]
  push_cast
  omega

/-- A column is valid when it is one of the selected ones. -/
theorem CompactArgs.Laid.valid_iff (laid : args.Laid count) {place : Nat}
    (inside : place < args.batch) (col : Nat) : args.valid place col <-> col < count place := by
  have room := laid.count_le inside
  have selected := laid.selected place inside
  unfold CompactArgs.valid CompactArgs.positions maskedLoad
  rw [laid.validCount_eq inside]
  by_cases listed : col < args.topk
  · rw [if_pos (Int.ofNat_lt.mpr listed), laid.first place col inside listed]
    omega
  · rw [if_neg (fun small => listed (Int.ofNat_lt.mp small))]
    omega

theorem CompactArgs.Laid.slots_eq (laid : args.Laid count) {place col : Nat}
    (inside : place < args.batch) (chosen : col < count place) :
    args.slots place col = args.selectedSlot place col := by
  have valid := (laid.valid_iff inside col).mpr chosen
  have listed : (col : Int) < args.topk := by
    have selected := laid.selected place inside
    omega
  unfold CompactArgs.slots CompactArgs.selectedSlot CompactArgs.positions maskedLoad
  rw [if_pos valid, if_pos valid, if_pos listed]

/-- Regions do not overlap: an address names its request, head, row and element. -/
theorem CompactArgs.regionAddress_unique {place head col element other otherHead otherCol
    otherElement : Nat} (head_bound : head < args.heads) (other_head : otherHead < args.heads)
    (col_bound : col < args.width count place) (other_col : otherCol < args.width count other)
    (element_bound : element < args.dim) (other_element : otherElement < args.dim)
    (same : args.regionAddress count place head col element =
      args.regionAddress count other otherHead otherCol otherElement) :
    place = other ∧ head = otherHead ∧ col = otherCol ∧ element = otherElement := by
  unfold CompactArgs.regionAddress CompactArgs.address at same
  rw [← Int.add_mul, ← Int.add_mul] at same
  have elements :
      (segmentStart (args.width count) place + col) * args.heads + head =
          (segmentStart (args.width count) other + otherCol) * args.heads + otherHead ∧
        element = otherElement := by
    apply row_column_unique element_bound other_element
    push_cast
    push_cast at same
    exact same
  have heads := row_column_unique head_bound other_head
    (by exact_mod_cast elements.1)
  have rows := heads.1
  have places : place = other := by
    rcases Nat.lt_trichotomy place other with before | equal | after
    · have apart := segmentStart_mono (args.width count) (Nat.succ_le_of_lt before)
      rw [Nat.succ_eq_add_one, segmentStart_succ] at apart
      omega
    · exact equal
    · have apart := segmentStart_mono (args.width count) (Nat.succ_le_of_lt after)
      rw [Nat.succ_eq_add_one, segmentStart_succ] at apart
      omega
  rw [places] at rows
  exact ⟨places, heads.2, by omega, elements.2⟩

/-- An address of a region lies between the offset of the request and the next one. -/
theorem CompactArgs.regionAddress_bounds {place head col element : Nat}
    (head_bound : head < args.heads) (col_bound : col < args.width count place)
    (element_bound : element < args.dim) :
    (segmentStart (args.width count) place : Int) * (args.heads * args.dim) ≤
        args.regionAddress count place head col element ∧
      args.regionAddress count place head col element <
        (segmentStart (args.width count) place + args.width count place : Int) *
          (args.heads * args.dim) := by
  have position : args.regionAddress count place head col element =
      ((segmentStart (args.width count) place * (args.heads * args.dim) +
        ((col * args.heads + head) * args.dim + element) : Nat) : Int) := by
    unfold CompactArgs.regionAddress CompactArgs.address
    push_cast
    rw [Int.add_mul, Int.add_mul, Int.add_mul, Int.mul_assoc, Int.add_assoc, Int.add_assoc,
      Int.add_assoc]
  have row : head + 1 ≤ args.heads := head_bound
  have inside := Nat.mul_le_mul_right args.dim
    (show col * args.heads + head + 1 ≤ args.width count place * args.heads from
      calc
        col * args.heads + head + 1 ≤ col * args.heads + args.heads := Nat.add_le_add_left row _
        _ = (col + 1) * args.heads := (Nat.succ_mul _ _).symm
        _ ≤ args.width count place * args.heads := Nat.mul_le_mul_right _ col_bound)
  rw [Nat.add_mul, Nat.one_mul, Nat.mul_assoc (args.width count place)] at inside
  rw [position, Int.add_mul]
  constructor
  · exact_mod_cast Nat.le_add_right _ _
  · exact_mod_cast Nat.add_lt_add_left (by omega) _

/-- A store mask admits the columns of the region. -/
theorem CompactArgs.Laid.storeMask_iff (laid : args.Laid count) {place : Nat}
    (inside : place < args.batch) (col element : Nat) :
    args.storeMask args.numCols (0 < args.zeroFillCols) place col element <->
      col < args.width count place ∧ element < args.dim := by
  unfold CompactArgs.storeMask CompactArgs.numCols
  by_cases filled : 0 < args.zeroFillCols
  · rw [if_pos (decide_eq_true filled), if_pos filled, CompactArgs.width_strided filled]
    omega
  · rw [if_neg (fun yes => filled (of_decide_eq_true yes)), CompactArgs.width_packed filled]
    unfold CompactArgs.loadMask
    rw [laid.valid_iff inside, Int.ofNat_lt]

/-- The programs of the launcher. -/
def CompactArgs.programs (args : CompactArgs Element Float32) : List (Nat × Nat × Nat) :=
  gridOf args.batch args.heads ((args.numCols + 16 - 1) / 16).toNat

/-- The grid covers the regions. -/
theorem CompactArgs.Laid.width_le (laid : args.Laid count) {place : Nat}
    (inside : place < args.batch) : (args.width count place : Int) ≤ args.numCols := by
  unfold CompactArgs.numCols
  by_cases filled : 0 < args.zeroFillCols
  · rw [CompactArgs.width_strided filled, if_pos filled, Int.toNat_of_nonneg filled.le]
  · rw [CompactArgs.width_packed filled, if_neg filled]
    exact Int.ofNat_le.mpr (laid.selected place inside)

/-! ## What the programs store -/

variable {Output : Type} [Zero Element] [MulZeroClass Float32] [Zero Output]
  (conversions : Conversions Element Float32 Output) (dequantizeFp8 : Bool)
  (pool : Memory Element) (scale : Float32)

/-- What a region is to hold. -/
def CompactArgs.content (args : CompactArgs Element Float32) (count : Nat -> Nat)
    (place head col element : Nat) : Output :=
  if col < count place then
    conversions.stored dequantizeFp8 scale
      (pool (args.address (args.selectedSlot place col) head element))
  else 0

/-- What one program stores to one output. -/
def CompactArgs.programStores (args : CompactArgs Element Float32) (program : Nat × Nat × Nat) :
    List (Store Output) :=
  args.stores conversions args.numCols 16 (nextPowerOf2 args.dim) dequantizeFp8
    (0 < args.zeroFillCols) pool scale program.1 program.2.1 program.2.2

/-- A program stores the content of its columns. -/
theorem CompactArgs.Laid.mem_programStores (laid : args.Laid count) {place : Nat}
    (inside : place < args.batch) (head block : Nat) {store : Store Output} :
    store ∈ args.programStores conversions dequantizeFp8 pool scale (place, head, block) <->
      exists col element : Nat, col / 16 = block ∧ col < args.width count place ∧
        element < args.dim ∧
        store = ⟨args.regionAddress count place head col element,
          args.content conversions dequantizeFp8 pool scale count place head col element⟩ := by
  have value (col element : Nat) (bound : element < args.dim) :
      conversions.stored dequantizeFp8 scale
        (maskedLoad pool (args.address (args.slots place col) head element)
          (args.loadMask place col element) 0) =
        args.content conversions dequantizeFp8 pool scale count place head col element := by
    unfold CompactArgs.content maskedLoad
    by_cases chosen : col < count place
    · have loaded : args.loadMask place col element :=
        ⟨(laid.valid_iff inside col).mpr chosen, Int.ofNat_lt.mpr bound⟩
      rw [if_pos chosen, if_pos loaded, laid.slots_eq inside chosen]
    · have masked : ¬ args.loadMask place col element :=
        fun both => chosen ((laid.valid_iff inside col).mp both.1)
      rw [if_neg chosen, if_neg masked, conversions.stored_zero]
  have start := laid.start inside.le
  unfold CompactArgs.programStores CompactArgs.stores
  rw [mem_tileStore]
  constructor
  · rintro ⟨lane, element, in_block, _, admitted, same⟩
    have column : (block : Int) * (16 : Nat) + lane = (block * 16 + lane : Nat) := by push_cast; rfl
    rw [column] at admitted same
    rcases (laid.storeMask_iff inside _ element).mp admitted with ⟨in_region, in_row⟩
    refine ⟨block * 16 + lane, element, by omega, in_region, in_row, ?_⟩
    rw [same, value _ element in_row, start]
    rfl
  · rintro ⟨col, element, in_block, in_region, in_row, same⟩
    have column : (block : Int) * (16 : Nat) + (col % 16 : Nat) = col := by omega
    refine ⟨col % 16, element, by omega, in_row.trans_le (le_nextPowerOf2 _), ?_, ?_⟩
    · rw [column]
      exact (laid.storeMask_iff inside col element).mpr ⟨in_region, in_row⟩
    · rw [column, same, value col element in_row, start]
      rfl

/-! ## The launch -/

/-- No two programs store to one address. -/
def WrittenOnce {ι : Type} (programs : List ι) (stores : ι -> List (Store Output)) : Prop :=
  forall first, first ∈ programs -> forall second, second ∈ programs ->
    forall store, store ∈ stores first -> forall other, other ∈ stores second ->
      store.address = other.address -> first = second

/-- What the gather leaves of one output. -/
structure GatheredRows (args : CompactArgs Element Float32) (count : Nat -> Nat)
    (out final : Memory Output) : Prop where
  rows : forall place col head element : Nat, place < args.batch -> col < count place ->
    head < args.heads -> element < args.dim ->
    final (args.address (args.cuK place + col) head element) =
      conversions.stored dequantizeFp8 scale
        (pool (args.address (args.selectedSlot place col) head element))
  zeros : 0 < args.zeroFillCols -> forall place col head element : Nat, place < args.batch ->
    count place ≤ col -> (col : Int) < args.zeroFillCols -> head < args.heads ->
    element < args.dim -> final (args.address (args.cuK place + col) head element) = 0
  outside : forall address : Int,
    (forall place : Nat, place < args.batch ->
      address < args.cuK place * (args.heads * args.dim) ∨
        (args.cuK place + args.width count place) * (args.heads * args.dim) ≤ address) ->
    final address = out address

/-- The stores of the launch are the contents of the regions. -/
theorem CompactArgs.Laid.mem_launch (laid : args.Laid count) {store : Store Output} :
    store ∈ args.programs.flatMap
        (args.programStores conversions dequantizeFp8 pool scale) <->
      exists place head col element : Nat, place < args.batch ∧ head < args.heads ∧
        col < args.width count place ∧ element < args.dim ∧
        store = ⟨args.regionAddress count place head col element,
          args.content conversions dequantizeFp8 pool scale count place head col element⟩ := by
  rw [List.mem_flatMap]
  constructor
  · rintro ⟨⟨place, head, block⟩, launched, stored⟩
    have bounds := mem_gridOf.mp launched
    rcases (laid.mem_programStores conversions dequantizeFp8 pool scale bounds.1 head block).mp
      stored with ⟨col, element, _, in_region, in_row, same⟩
    exact ⟨place, head, col, element, bounds.1, bounds.2.1, in_region, in_row, same⟩
  · rintro ⟨place, head, col, element, inside, in_heads, in_region, in_row, same⟩
    have covered := laid.width_le inside
    refine ⟨(place, head, col / 16), mem_gridOf.mpr ⟨inside, in_heads, by omega⟩, ?_⟩
    exact (laid.mem_programStores conversions dequantizeFp8 pool scale inside head (col / 16)).mpr
      ⟨col, element, rfl, in_region, in_row, same⟩

theorem CompactArgs.Laid.writtenOnce (laid : args.Laid count) :
    WrittenOnce args.programs (args.programStores conversions dequantizeFp8 pool scale) := by
  rintro ⟨place, head, block⟩ launched ⟨other, otherHead, otherBlock⟩ also store stored again
    stored_again same
  have bounds := mem_gridOf.mp launched
  have other_bounds := mem_gridOf.mp also
  rcases (laid.mem_programStores conversions dequantizeFp8 pool scale bounds.1 head block).mp
    stored with ⟨col, element, in_block, in_region, in_row, here⟩
  rcases (laid.mem_programStores conversions dequantizeFp8 pool scale other_bounds.1 otherHead
    otherBlock).mp stored_again with
    ⟨otherCol, otherElement, in_other, in_other_region, in_other_row, there⟩
  rw [here, there] at same
  have unique := CompactArgs.regionAddress_unique bounds.2.1 other_bounds.2.1 in_region
    in_other_region in_row in_other_row same
  rw [unique.1, unique.2.1, ← in_block, ← in_other, unique.2.2.1]

/-- A region holds its content, in whatever order the stores land. -/
theorem CompactArgs.Laid.holds (laid : args.Laid count) {out final : Memory Output}
    (lands : Lands out final
      (args.programs.flatMap (args.programStores conversions dequantizeFp8 pool scale)))
    {place head col element : Nat} (inside : place < args.batch) (in_heads : head < args.heads)
    (in_region : col < args.width count place) (in_row : element < args.dim) :
    final (args.address (args.cuK place + col) head element) =
      args.content conversions dequantizeFp8 pool scale count place head col element := by
  rcases lands with ⟨order, permuted, rfl⟩
  have position : args.address (args.cuK place + col) head element =
      args.regionAddress count place head col element := by
    rw [laid.start inside.le]
    rfl
  have member (store : Store Output) : store ∈ order <-> _ :=
    permuted.mem_iff.trans (laid.mem_launch conversions dequantizeFp8 pool scale)
  rw [position]
  apply storeAll_determined
  · exact (member _).mpr ⟨place, head, col, element, inside, in_heads, in_region, in_row, rfl⟩
  · intro store stored same
    rcases (member store).mp stored with
      ⟨other, otherHead, otherCol, otherElement, _, other_heads, other_region, other_row, rfl⟩
    have unique := CompactArgs.regionAddress_unique other_heads in_heads other_region in_region
      other_row in_row same
    dsimp only
    rw [unique.1, unique.2.1, unique.2.2.1, unique.2.2.2]

/-- The stores of one output gather. -/
theorem CompactArgs.Laid.gathered (laid : args.Laid count) {out final : Memory Output}
    (lands : Lands out final
      (args.programs.flatMap (args.programStores conversions dequantizeFp8 pool scale))) :
    GatheredRows conversions dequantizeFp8 pool scale args count out final := by
  have holds := @CompactArgs.Laid.holds _ _ _ _ _ _ _ _ conversions dequantizeFp8 pool scale laid
    out final lands
  constructor
  · intro place col head element inside chosen in_heads in_row
    rw [holds inside in_heads (chosen.trans_le (laid.count_le inside)) in_row]
    exact if_pos chosen
  · intro filled place col head element inside past in_region in_heads in_row
    have width : args.width count place = args.zeroFillCols.toNat :=
      CompactArgs.width_strided filled place
    rw [holds inside in_heads (by omega) in_row]
    exact if_neg (Nat.not_lt.mpr past)
  · intro address apart
    rcases lands with ⟨order, permuted, rfl⟩
    apply storeAll_untouched
    intro store stored same
    rcases (laid.mem_launch conversions dequantizeFp8 pool scale).mp (permuted.mem_iff.mp stored)
      with ⟨place, head, col, element, inside, in_heads, in_region, in_row, rfl⟩
    have bounds := CompactArgs.regionAddress_bounds in_heads in_region in_row
    have away := apart place inside
    rw [laid.start inside.le] at away
    rcases away with below | above
    · exact absurd same (by dsimp only; omega)
    · exact absurd same (by dsimp only; omega)

/-- The gather accepts matching dtypes.  Each element of its outputs is written by
one program at most; the rows of a request are the selected rows of the pool,
followed by zeros where regions are of equal size, and the rest is untouched. -/
theorem compact_gather_exact [One Float32] (laid : args.Laid count)
    (inputs : args.kDtype = args.vDtype) (outputs : args.outKDtype = args.outVDtype) :
    exists launch, qwenSparseKvExtractionCompactTriton conversions args = .ok launch ∧
      WrittenOnce launch.grid (fun program => (launch.program program).1) ∧
      WrittenOnce launch.grid (fun program => (launch.program program).2) ∧
      (forall out final, Lands out final launch.storesK ->
        GatheredRows conversions args.dequantizeFp8 args.k (unitScale args.kScale) args count out
          final) ∧
      forall out final, Lands out final launch.storesV ->
        GatheredRows conversions args.dequantizeFp8 args.v (unitScale args.vScale) args count out
          final := by
  have accepted : ¬ (args.kDtype ≠ args.vDtype ∨ args.outKDtype ≠ args.outVDtype) := by
    rintro (different | different)
    · exact different inputs
    · exact different outputs
  refine ⟨_, if_neg accepted, ?_, ?_, ?_, ?_⟩
  · exact laid.writtenOnce conversions args.dequantizeFp8 args.k (unitScale args.kScale)
  · exact laid.writtenOnce conversions args.dequantizeFp8 args.v (unitScale args.vScale)
  · exact fun out final lands =>
      laid.gathered conversions args.dequantizeFp8 args.k (unitScale args.kScale) lands
  · exact fun out final lands =>
      laid.gathered conversions args.dequantizeFp8 args.v (unitScale args.vScale) lands

/-- Two requests in regions of two rows, out of an FP8 pool: the first selects its
position one, the second its positions two and zero. -/
def raggedArgs : CompactArgs Int Int where
  k := fun address => address + 1
  v := fun address => -address
  kDtype := .float8E4m3fn
  vDtype := .float8E4m3fn
  heads := 1
  dim := 2
  reqToToken := flatEntries [4, 5, 6, 7, 8, 9] fun _ => 0
  reqStride := 3
  reqIndices := flatEntries [1, 0] fun _ => 0
  indices := flatEntries [1, -1, 2, 0] fun _ => 0
  idxStride := 2
  seqLens := flatEntries [2, 3] fun _ => 0
  cuK := flatEntries [0, 2, 4] fun _ => 0
  outKDtype := .bfloat16
  outVDtype := .bfloat16
  batch := 2
  topk := 2
  kScale := some 3
  vScale := none
  zeroFillCols := 2

theorem raggedArgs_laid : raggedArgs.Laid fun place => place + 1 where
  first := by
    intro place col inside listed
    change place < 2 at inside
    change col < 2 at listed
    interval_cases place <;> interval_cases col <;> decide
  selected := fun place inside => inside
  offsets := by
    intro place inside
    change place ≤ 2 at inside
    interval_cases place <;> rfl
  fits := fun _ place inside => Int.ofNat_le.mpr inside

/-- Its rows are those of slots 8, 6 and 4, threefold, and a row of zeros. -/
theorem compact_gather_exact_example :
    exists launch, qwenSparseKvExtractionCompactTriton
        (⟨id, id, id, rfl, rfl, rfl⟩ : Conversions Int Int Int) raggedArgs = .ok launch ∧
      forall out final, Lands out final launch.storesK ->
        final 0 = 51 ∧ final 1 = 54 ∧ final 2 = 0 ∧ final 4 = 39 ∧ final 6 = 27 ∧
          final 8 = out 8 := by
  rcases compact_gather_exact (⟨id, id, id, rfl, rfl, rfl⟩ : Conversions Int Int Int)
    raggedArgs_laid rfl rfl with ⟨launch, launched, _, _, keys, _⟩
  refine ⟨launch, launched, fun out final lands => ?_⟩
  have gathered := keys out final lands
  exact ⟨gathered.rows 0 0 0 0 (by decide) (by decide) (by decide) (by decide),
    gathered.rows 0 0 0 1 (by decide) (by decide) (by decide) (by decide),
    gathered.zeros (by decide) 0 1 0 0 (by decide) (by decide) (by decide) (by decide) (by decide),
    gathered.rows 1 0 0 0 (by decide) (by decide) (by decide) (by decide),
    gathered.rows 1 1 0 0 (by decide) (by decide) (by decide) (by decide),
    gathered.outside 8 fun place inside => by
      change place < 2 at inside
      interval_cases place <;> decide⟩

end Kernels
end QSAHiSparse

import Mathlib.Algebra.Order.Ring.Int
import Mathlib.Tactic.Common

namespace QSAHiSparse
namespace Foundation

/-!
# Work done in chunks of whole pages

A task of `length` units is done in chunks.  A chunk takes all that remains if
it fits a cap, and otherwise the cap rounded down to whole pages.  A cap that
never reaches past a page boundary makes one chunk end there.
-/

/-- A cap of `none` is no cap. -/
def tighter : Option Int -> Option Int -> Option Int
  | none, other => other
  | some cap, none => some cap
  | some cap, some other => some (min cap other)

/-- The units of the next chunk. -/
def chunkOf (page : Int) (cap : Option Int) (remaining : Int) : Int :=
  match cap with
  | none => remaining
  | some cap => if remaining ≤ cap then remaining else cap / page * page

structure Chunk where
  start : Int
  stop : Int
deriving DecidableEq, Repr

/-- A chunk that may follow: not empty, within the task, up to a page or the end
of the task, and not across the boundary. -/
structure Chunk.Fits (chunk : Chunk) (page boundary length : Int) : Prop where
  nonempty : chunk.start < chunk.stop
  within : chunk.stop ≤ length
  paged : chunk.stop = length ∨ page ∣ chunk.stop
  stops : chunk.start < boundary -> chunk.stop ≤ boundary

/-- Chunks that follow each other from `start` to `reached`. -/
inductive Chunked (page boundary length start : Int) : List Chunk -> Int -> Prop where
  | nil : Chunked page boundary length start [] start
  | snoc {chunks : List Chunk} {chunk : Chunk} :
      Chunked page boundary length start chunks chunk.start ->
      chunk.Fits page boundary length ->
      Chunked page boundary length start (chunks ++ [chunk]) chunk.stop

section Size

variable {page remaining : Int} {cap : Option Int}

/-- A cap leaves room for one page. -/
def HoldsPage (page : Int) (cap : Option Int) : Prop :=
  forall tokens, cap = some tokens -> page ≤ tokens

theorem HoldsPage.tighter {other : Option Int} (first : HoldsPage page cap)
    (second : HoldsPage page other) : HoldsPage page (tighter cap other) := by
  cases cap with
  | none => exact second
  | some tokens =>
      cases other with
      | none => exact first
      | some limit =>
          intro least same
          cases same
          exact le_min (first tokens rfl) (second limit rfl)

theorem tighter_assoc (first second third : Option Int) :
    tighter (tighter first second) third = tighter first (tighter second third) := by
  cases first with
  | none => rfl
  | some cap =>
      cases second with
      | none => rfl
      | some limit =>
          cases third with
          | none => rfl
          | some least => exact congrArg some (min_assoc cap limit least)

theorem chunkOf_le_cap (positive : 0 < page) {tokens : Int} (capped : cap = some tokens) :
    chunkOf page cap remaining ≤ tokens := by
  rw [capped]
  unfold chunkOf
  dsimp only
  split
  · assumption
  · exact Int.ediv_mul_le tokens positive.ne'

/-- A chunk under a cap of a page or more is not empty, and is all that remains
or a number of pages. -/
theorem chunkOf_spec (positive : 0 < page) (more : 0 < remaining) (room : HoldsPage page cap) :
    0 < chunkOf page cap remaining ∧ chunkOf page cap remaining ≤ remaining ∧
      (chunkOf page cap remaining = remaining ∨ page ∣ chunkOf page cap remaining) := by
  cases cap with
  | none => exact ⟨more, le_refl _, Or.inl rfl⟩
  | some tokens =>
      by_cases fits : remaining ≤ tokens
      · have all : chunkOf page (some tokens) remaining = remaining := if_pos fits
        rw [all]
        exact ⟨more, le_refl _, Or.inl rfl⟩
      · have rounded : chunkOf page (some tokens) remaining = tokens / page * page := if_neg fits
        have pages : 1 ≤ tokens / page :=
          (Int.le_ediv_iff_mul_le positive).mpr (by rw [one_mul]; exact room tokens rfl)
        have below : tokens / page * page ≤ tokens := Int.ediv_mul_le tokens positive.ne'
        rw [rounded]
        refine ⟨Int.mul_pos (by omega) positive, by omega, Or.inr (Int.dvd_mul_left _ _)⟩

/-- A chunk that starts on a page under a cap up to the boundary. -/
theorem chunkOf_fits {start boundary length : Int} (positive : 0 < page) (paged : page ∣ start)
    (more : start < length) (room : HoldsPage page cap)
    (narrow : start < boundary ->
      length ≤ boundary ∨ exists tokens, cap = some tokens ∧ tokens ≤ boundary - start) :
    (Chunk.mk start (start + chunkOf page cap (length - start))).Fits page boundary length := by
  rcases chunkOf_spec positive (by omega : 0 < length - start) room with ⟨some, within, pages⟩
  constructor
  · dsimp only
    omega
  · dsimp only
    omega
  · rcases pages with all | pages
    · exact Or.inl (by dsimp only; omega)
    · exact Or.inr (Int.dvd_add paged pages)
  · intro before
    dsimp only
    rcases narrow before with all | ⟨tokens, capped, least⟩
    · omega
    · have bound : chunkOf page cap (length - start) ≤ tokens := chunkOf_le_cap positive capped
      omega

end Size

namespace Chunked

variable {page boundary length start reached : Int} {chunks : List Chunk}

theorem start_le (run : Chunked page boundary length start chunks reached) : start ≤ reached := by
  induction run with
  | nil => exact le_refl _
  | snoc _ fits earlier => exact earlier.trans fits.nonempty.le

theorem within (run : Chunked page boundary length start chunks reached)
    (inside : start ≤ length) : reached ≤ length := by
  cases run with
  | nil => exact inside
  | snoc _ fits => exact fits.within

theorem fits (run : Chunked page boundary length start chunks reached) :
    forall chunk, chunk ∈ chunks -> chunk.Fits page boundary length := by
  induction run with
  | nil => exact fun _ member => nomatch member
  | snoc _ last earlier =>
      intro chunk member
      rcases List.mem_append.mp member with old | new
      · exact earlier chunk old
      · rw [List.mem_singleton.mp new]
        exact last

/-- Where a chunk may start. -/
theorem paged (run : Chunked page boundary length start chunks reached) (aligned : page ∣ start) :
    reached = length ∨ page ∣ reached := by
  cases run with
  | nil => exact Or.inr aligned
  | snoc _ fits => exact fits.paged

/-- Every chunk but the last has a page or more. -/
theorem progress (run : Chunked page boundary length start chunks reached)
    (aligned : page ∣ start) : reached = length ∨ start + page * chunks.length ≤ reached := by
  induction run with
  | nil => exact Or.inr (by simp)
  | @snoc chunks chunk rest fits earlier =>
      rcases fits.paged with done | multiple
      · exact Or.inl done
      · right
        have unfinished : chunk.start ≠ length := by
          have := fits.nonempty
          have := fits.within
          omega
        have below := earlier.resolve_left unfinished
        have whole := (rest.paged aligned).resolve_left unfinished
        have step : page ≤ chunk.stop - chunk.start :=
          Int.le_of_dvd (by have := fits.nonempty; omega) (Int.dvd_sub multiple whole)
        rw [List.length_append, List.length_singleton, Nat.cast_add, Nat.cast_one, mul_add,
          mul_one]
        omega

/-- The task is finished after finitely many chunks. -/
theorem finished (run : Chunked page boundary length start chunks reached)
    (aligned : page ∣ start) (inside : start ≤ length)
    (many : length ≤ start + page * chunks.length) : reached = length := by
  rcases run.progress aligned with done | step
  · exact done
  · have := run.within inside
    omega

/-- Exactly one chunk ends at the boundary, once it is reached. -/
theorem boundary_once (run : Chunked page boundary length start chunks reached)
    (ahead : start < boundary) :
    chunks.countP (fun chunk => chunk.stop = boundary) = if boundary ≤ reached then 1 else 0 := by
  induction run with
  | nil => rw [if_neg (by omega)]; rfl
  | @snoc chunks chunk rest fits earlier =>
      have moved := fits.nonempty
      rw [List.countP_append, earlier, List.countP_singleton]
      by_cases before : chunk.start < boundary
      · have bound := fits.stops before
        have unreached : ¬ boundary ≤ chunk.start := by omega
        rw [if_neg unreached, Nat.zero_add]
        by_cases ends : chunk.stop = boundary
        · rw [if_pos (decide_eq_true ends), if_pos ends.ge]
        · have short : ¬ boundary ≤ chunk.stop := by omega
          rw [if_neg (fun passed => ends (of_decide_eq_true passed)), if_neg short]
      · have reached : boundary ≤ chunk.start := by omega
        have past : ¬ chunk.stop = boundary := by omega
        rw [if_pos reached, if_pos (reached.trans moved.le),
          if_neg (fun passed => past (of_decide_eq_true passed))]

end Chunked

end Foundation
end QSAHiSparse

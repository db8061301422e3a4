import Mathlib.Data.List.Basic
import Mathlib.Data.List.Induction

namespace QSAHiSparse
namespace Foundation

/-!
# Hash chains

Every digest hashes the digest before it followed by a block.  As long as the
hash tells the messages of two chains apart, equal digests at one position mean
equal blocks up to it.
-/

variable {β : Type} (hash : List β -> List β)

/-- The digest after all blocks. -/
def chained (seed : List β) (blocks : List (List β)) : List β :=
  blocks.foldl (fun previous block => hash (previous ++ block)) seed

/-- The digests after each block, as a loop collects them. -/
def digestChain (seed : List β) (blocks : List (List β)) : List (List β) :=
  (blocks.foldl (fun state block =>
    let digest := hash (state.1 ++ block)
    (digest, state.2 ++ [digest])) (seed, [])).2

/-- What is hashed on the way. -/
def chainedMessages : List β -> List (List β) -> List (List β)
  | _, [] => []
  | previous, block :: blocks =>
      (previous ++ block) :: chainedMessages (hash (previous ++ block)) blocks

/-- The hash is injective on these messages. -/
def NoCollision (messages : List (List β)) : Prop :=
  forall first second, first ∈ messages -> second ∈ messages -> hash first = hash second ->
    first = second

theorem NoCollision.subset {more fewer : List (List β)} (clear : NoCollision hash more)
    (subset : fewer ⊆ more) : NoCollision hash fewer :=
  fun first second first_mem second_mem =>
    clear first second (subset first_mem) (subset second_mem)

theorem chained_concat (seed : List β) (blocks : List (List β)) (block : List β) :
    chained hash seed (blocks ++ [block]) = hash (chained hash seed blocks ++ block) := by
  unfold chained
  rw [List.foldl_append]
  rfl

theorem digestChain_concat (seed : List β) (blocks : List (List β)) (block : List β) :
    digestChain hash seed (blocks ++ [block]) =
      digestChain hash seed blocks ++ [chained hash seed (blocks ++ [block])] := by
  have previous : (blocks.foldl (fun state block =>
      let digest := hash (state.1 ++ block)
      (digest, state.2 ++ [digest])) ((seed, []) : List β × List (List β))).1 =
      chained hash seed blocks := by
    induction blocks using List.reverseRecOn with
    | nil => rfl
    | append_singleton blocks block inductionHypothesis =>
        rw [List.foldl_append, chained_concat, ← inductionHypothesis]
        rfl
  unfold digestChain
  rw [List.foldl_append, chained_concat, ← previous]
  rfl

/-- The digest at a position covers the blocks up to it. -/
theorem digestChain_eq (seed : List β) (blocks : List (List β)) :
    digestChain hash seed blocks =
      (List.range blocks.length).map fun position =>
        chained hash seed (blocks.take (position + 1)) := by
  induction blocks using List.reverseRecOn with
  | nil => rfl
  | append_singleton blocks block inductionHypothesis =>
      rw [digestChain_concat, inductionHypothesis, List.length_append, List.length_singleton,
        List.range_succ, List.map_append, List.map_singleton]
      congr 1
      · apply List.map_congr_left
        intro position member
        have inside := List.mem_range.mp member
        rw [List.take_append_of_le_length inside]
      · rw [List.take_of_length_le (by simp)]

theorem chainedMessages_concat (blocks : List (List β)) (block : List β) :
    forall seed, chainedMessages hash seed (blocks ++ [block]) =
      chainedMessages hash seed blocks ++ [chained hash seed blocks ++ block] := by
  induction blocks with
  | nil => exact fun _ => rfl
  | cons head blocks inductionHypothesis =>
      intro seed
      change (seed ++ head) :: chainedMessages hash (hash (seed ++ head)) (blocks ++ [block]) = _
      rw [inductionHypothesis]
      rfl

variable {hash}

/-- The digests of chains of one length have one length. -/
theorem chained_length_congr {width : Nat} (wide : forall message, (hash message).length = width)
    (seed : List β) {first second : List (List β)} (sized : first.length = second.length) :
    (chained hash seed first).length = (chained hash seed second).length := by
  rcases List.eq_nil_or_concat' first with none | ⟨rest, block, rfl⟩
  · rw [none, List.length_nil] at sized
    rw [none, List.length_eq_zero_iff.mp sized.symm]
  · rcases List.eq_nil_or_concat' second with none | ⟨others, other, rfl⟩
    · rw [none, List.length_append] at sized
      cases sized
    · rw [chained_concat, chained_concat, wide, wide]

/-- What a shorter chain hashes, a longer one hashes too. -/
theorem chainedMessages_take (count : Nat) (blocks : List (List β)) :
    forall seed, chainedMessages hash seed (blocks.take count) ⊆
      chainedMessages hash seed blocks := by
  induction blocks generalizing count with
  | nil =>
      intro seed
      rw [List.take_nil]
      exact List.Subset.refl _
  | cons block blocks inductionHypothesis =>
      intro seed
      cases count with
      | zero => exact List.nil_subset _
      | succ count => exact List.cons_subset_cons _ (inductionHypothesis count _)

/-- Chains of one length with one digest have the same blocks. -/
theorem chained_injective {width : Nat} (wide : forall message, (hash message).length = width)
    (seed : List β) (first : List (List β)) :
    forall second : List (List β), first.length = second.length ->
      NoCollision hash (chainedMessages hash seed first ++ chainedMessages hash seed second) ->
      chained hash seed first = chained hash seed second -> first = second := by
  induction first using List.reverseRecOn with
  | nil =>
      intro second sized _ _
      exact (List.length_eq_zero_iff.mp sized.symm).symm
  | append_singleton first block inductionHypothesis =>
      intro second sized clear equal
      induction second using List.reverseRecOn with
      | nil =>
          rw [List.length_append] at sized
          cases sized
      | append_singleton second other _ =>
          rw [List.length_append, List.length_append] at sized
          have lengths : first.length = second.length := Nat.succ.inj sized
          rw [chained_concat, chained_concat] at equal
          rw [chainedMessages_concat, chainedMessages_concat] at clear
          have messages := clear _ _ (by simp) (by simp) equal
          have previous := chained_length_congr wide seed lengths
          have parts := List.append_inj messages previous
          have earlier : chainedMessages hash seed first ++ chainedMessages hash seed second ⊆
              chainedMessages hash seed first ++ [chained hash seed first ++ block] ++
                (chainedMessages hash seed second ++ [chained hash seed second ++ other]) := by
            intro message member
            rcases List.mem_append.mp member with one | two
            · exact List.mem_append_left _ (List.mem_append_left _ one)
            · exact List.mem_append_right _ (List.mem_append_left _ two)
          have rest := inductionHypothesis second lengths (clear.subset hash earlier) parts.1
          rw [rest, parts.2]

end Foundation
end QSAHiSparse

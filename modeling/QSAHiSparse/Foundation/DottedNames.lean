import Mathlib.Data.List.Basic

namespace QSAHiSparse
namespace Foundation

/-!
# Dotted names

A dotted name is a path of components.  Two names are related when one is a
prefix of the other component by component, which a comparison of texts decides
as long as it compares up to a dot.
-/

/-- The components of a dotted name. -/
def components (name : String) : List (List Char) :=
  name.toList.splitOn '.'

/-- `text.startswith(start)`. -/
def startsWith (text start : String) : Bool :=
  start.toList.isPrefixOf text.toList

/-- `upper` is `lower` or a name above it. -/
def AtOrAbove (upper lower : String) : Prop :=
  components upper <+: components lower

/-- Equal names, or one is above the other. -/
def Related (first second : String) : Prop :=
  AtOrAbove first second ∨ AtOrAbove second first

theorem components_injective : Function.Injective components := by
  intro first second same
  have texts := congrArg (fun parts => ['.'].intercalate parts) same
  unfold components at texts
  rw [List.intercalate_splitOn, List.intercalate_splitOn] at texts
  exact String.toList_injective texts

theorem AtOrAbove.refl (name : String) : AtOrAbove name name :=
  List.prefix_rfl

/-- A separator joins what is joined on its two sides. -/
theorem intercalate_append {α : Type} (separator : α) {first second : List (List α)}
    (some : first ≠ []) (others : second ≠ []) :
    [separator].intercalate (first ++ second) =
      [separator].intercalate first ++ separator :: [separator].intercalate second := by
  induction first with
  | nil => exact absurd rfl some
  | cons part parts previous =>
      rw [List.cons_append,
        List.intercalate_cons_of_ne_nil (List.append_ne_nil_of_right_ne_nil _ others)]
      by_cases last : parts = []
      · rw [last, List.nil_append, List.intercalate_singleton, List.append_assoc]
        rfl
      · rw [previous last, List.intercalate_cons_of_ne_nil last, List.append_assoc,
          List.append_assoc]
        simp only [List.append_assoc]

/-- A text starts with a name and a dot when it is below that name. -/
theorem startsWith_dot_iff (text start : String) :
    startsWith text (start ++ ".") = true <-> AtOrAbove start text ∧ text ≠ start := by
  unfold startsWith AtOrAbove components
  rw [List.isPrefixOf_iff_prefix, String.toList_append]
  constructor
  · rintro ⟨rest, same⟩
    have dot : ".".toList = ['.'] := by decide
    rw [dot, List.append_assoc, List.singleton_append] at same
    rw [← same]
    refine ⟨⟨rest.splitOn '.', (List.splitOn_append_cons_self _ _).symm⟩, ?_⟩
    intro equal
    rw [equal] at same
    have lengths := congrArg List.length same
    rw [List.length_append, List.length_cons] at lengths
    omega
  · rintro ⟨⟨rest, same⟩, different⟩
    have below : rest ≠ [] := by
      intro none
      rw [none, List.append_nil] at same
      exact different (components_injective same.symm)
    have texts := congrArg (fun parts => ['.'].intercalate parts) same
    rw [List.intercalate_splitOn, intercalate_append '.' (List.splitOn_ne_nil _ _) below,
      List.intercalate_splitOn] at texts
    exact ⟨['.'].intercalate rest, by rw [← texts, List.append_assoc]; rfl⟩

/-- The comparison of texts up to a dot decides whether names are related. -/
theorem related_iff (first second : String) :
    Related first second <->
      first = second ∨ startsWith first (second ++ ".") = true ∨
        startsWith second (first ++ ".") = true := by
  rw [startsWith_dot_iff, startsWith_dot_iff]
  unfold Related
  by_cases same : first = second
  · rw [same]
    exact ⟨fun _ => Or.inl rfl, fun _ => Or.inl (AtOrAbove.refl second)⟩
  · constructor
    · rintro (upper | lower)
      · exact Or.inr (Or.inr ⟨upper, Ne.symm same⟩)
      · exact Or.inr (Or.inl ⟨lower, same⟩)
    · rintro (equal | ⟨lower, _⟩ | ⟨upper, _⟩)
      · exact absurd equal same
      · exact Or.inr lower
      · exact Or.inl upper

/-- A name is not above a sibling that its text begins. -/
example : ¬ (startsWith "a.bc" ("a.b" ++ ".") = true) := by decide

end Foundation
end QSAHiSparse

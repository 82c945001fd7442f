import Mathlib.Data.List.Infix
import Mathlib.Tactic.ByContra
import Playground.Markup.Assembly

/-!
# First occurrences

A text is cut at the first occurrence of a pattern (`FirstCut`). Where a pattern stands is its first
occurrence exactly if it does not occur in front of its own last character (`firstCut_iff`), and
that is what the search for a pattern finds (`cutAtFirst?_of_firstCut`).
-/

namespace Playground

variable {pattern text before after : List Char}

/-- A text is cut at the first occurrence of a pattern. -/
structure FirstCut (pattern text before after : List Char) : Prop where
  split : text = before ++ pattern ++ after
  first : ∀ other rest, text = other ++ pattern ++ rest → before.length ≤ other.length

theorem exists_firstCut (occurs : pattern <:+: text) :
    ∃ before after, FirstCut pattern text before after := by
  obtain ⟨before, after, split⟩ := occurs
  induction size : before.length using Nat.strongRecOn generalizing before after with
  | ind size inductionHypothesis =>
    by_cases first : ∀ other rest, text = other ++ pattern ++ rest → before.length ≤ other.length
    · exact ⟨before, after, split.symm, first⟩
    · push Not at first
      obtain ⟨other, rest, same, shorter⟩ := first
      exact inductionHypothesis other.length (size ▸ shorter) other rest same.symm rfl

/-- An occurrence is the first one exactly if there is none in front of its last character. -/
theorem firstCut_iff (nonempty : pattern ≠ []) :
    FirstCut pattern (before ++ pattern ++ after) before after ↔
      ¬pattern <:+: before ++ pattern.dropLast := by
  have last := List.dropLast_append_getLast nonempty
  constructor
  · rintro ⟨-, first⟩ ⟨other, rest, same⟩
    have earlier : before ++ pattern ++ after =
        other ++ pattern ++ (rest ++ ([pattern.getLast nonempty] ++ after)) := by
      calc before ++ pattern ++ after
          = before ++ pattern.dropLast ++ ([pattern.getLast nonempty] ++ after) := by
            conv_lhs => rw [← last]
            simp
        _ = other ++ pattern ++ (rest ++ ([pattern.getLast nonempty] ++ after)) := by
            rw [← same, List.append_assoc]
    have bound := first other _ earlier
    have size := congrArg List.length same
    have positive := List.length_pos_iff.mpr nonempty
    simp only [List.length_append, List.length_dropLast] at size
    omega
  · intro absent
    refine ⟨rfl, fun other rest same => ?_⟩
    by_contra! shorter
    apply absent
    have found : other ++ pattern <+: before ++ pattern ++ after := ⟨rest, same.symm⟩
    have front : before ++ pattern.dropLast <+: before ++ pattern ++ after :=
      ⟨[pattern.getLast nonempty] ++ after, by
        conv_rhs => rw [← last]
        simp⟩
    have fits : (other ++ pattern).length ≤ (before ++ pattern.dropLast).length := by
      have positive := List.length_pos_iff.mpr nonempty
      simp only [List.length_append, List.length_dropLast]
      omega
    have inFront := List.prefix_of_prefix_length_le found front fits
    exact (List.suffix_append other pattern).isInfix.trans inFront.isInfix

theorem firstCut_of_split (split : text = before ++ pattern ++ after) (nonempty : pattern ≠ [])
    (absent : ¬pattern <:+: before ++ pattern.dropLast) : FirstCut pattern text before after :=
  split ▸ (firstCut_iff nonempty).mpr absent

theorem FirstCut.unique {other rest : List Char} (cut : FirstCut pattern text before after)
    (again : FirstCut pattern text other rest) : before = other ∧ after = rest := by
  have size : before.length = other.length :=
    Nat.le_antisymm (cut.first _ _ again.split) (again.first _ _ cut.split)
  have same := cut.split.symm.trans again.split
  obtain ⟨fronts, rfl⟩ := List.append_inj same (by simp [size])
  exact ⟨(List.append_inj fronts size).1, rfl⟩

theorem cutAtFirst?_of_firstCut (cut : FirstCut pattern text before after) :
    cutAtFirst? pattern text = some (before, after) := by
  induction text generalizing before with
  | nil =>
    have empty := cut.split
    simp only [List.nil_eq, List.append_eq_nil_iff] at empty
    obtain ⟨⟨rfl, rfl⟩, rfl⟩ := empty
    rfl
  | cons character text inductionHypothesis =>
    rw [cutAtFirst?]
    split
    case isTrue starts =>
      obtain ⟨rest, same⟩ := List.isPrefixOf_iff_prefix.mp starts
      obtain rfl : before = [] := by
        simpa using cut.first [] rest (by simpa using same.symm)
      rw [cut.split]
      simp
    case isFalse starts =>
      cases before with
      | nil =>
        refine absurd (List.isPrefixOf_iff_prefix.mpr ?_) starts
        exact ⟨after, by simpa using cut.split.symm⟩
      | cons first before =>
        have split := cut.split
        simp only [List.cons_append, List.cons.injEq] at split
        obtain ⟨rfl, split⟩ := split
        have inner : FirstCut pattern text before after := by
          refine ⟨split, fun other rest same => ?_⟩
          have bound := cut.first (character :: other) rest (by simp [same])
          simpa using bound
        rw [inductionHypothesis inner]
        rfl

end Playground

import Playground.Proofs.Erasure.Tiling

/-!
# Where a gap ends

A text determines where the gap at its front ends, so two texts that go on with different characters
behind their gaps are different (`GapItem.MakeUp.first_eq`).
-/

namespace Playground

/-- No gap begins with a character. -/
structure IsSolid (character : Char) : Prop where
  visible : Text.isBlank character = false
  noMark : character ≠ '\ufeff'
  noSlash : character ≠ '/'

namespace GapItem

variable {items others : List GapItem} {gap otherGap following rest : List Char} {first second : Char}

/-- Whether a comment is whole depends on no more than the next character. -/
theorem FitsBefore.of_head? {item : GapItem} {other : List Char} (fits : item.FitsBefore following)
    (same : other.head? = following.head?) : item.FitsBefore other := by
  cases item with
  | blank | blockComment => exact fits
  | lineComment body =>
    obtain ⟨inside, ends⟩ := fits
    exact ⟨inside, same ▸ ends⟩

/-- Whether items make up a gap depends on no more than the character behind it. -/
theorem MakeUp.of_head? {other : List Char} (made : MakeUp following items gap)
    (same : other.head? = following.head?) : MakeUp other items gap := by
  induction made with
  | nothing => exact .nothing
  | item fits _ inductionHypothesis =>
    exact .item (fits.of_head? (by simp [List.head?_append, same])) inductionHypothesis

/-- Blanks in front of a gap make it longer. -/
theorem MakeUp.blanks (made : MakeUp following items gap) {blanks : List Char}
    (blankAll : ∀ character ∈ blanks, Text.isBlank character = true) :
    MakeUp following (blanks.map .blank ++ items) (blanks ++ gap) := by
  induction blanks with
  | nil => exact made
  | cons character blanks inductionHypothesis =>
    obtain ⟨here, later⟩ := List.forall_mem_cons.mp blankAll
    have fits : (blank character).FitsBefore (blanks ++ gap ++ following) := .inl here
    exact .item fits (inductionHypothesis later)

/-- The body of a block comment does not go on behind its end mark. -/
theorem eq_nil_of_unclosed {body more : List Char}
    (unclosed : ¬['*', '/'] <:+: body ++ more ++ ['*'])
    (same : '*' :: '/' :: following = more ++ '*' :: '/' :: rest) : more = [] := by
  match more with
  | [] => rfl
  | [_] => simp at same
  | star :: slash :: more =>
    simp only [List.cons_append, List.cons.injEq] at same
    obtain ⟨rfl, rfl, -⟩ := same
    exact absurd ⟨body, more ++ ['*'], by simp⟩ unclosed

theorem blockComment_eq {body other : List Char} (unclosed : ¬['*', '/'] <:+: body ++ ['*'])
    (unclosedOther : ¬['*', '/'] <:+: other ++ ['*'])
    (same : body ++ '*' :: '/' :: following = other ++ '*' :: '/' :: rest) : following = rest := by
  rcases List.append_eq_append_iff.mp same with ⟨more, rfl, behind⟩ | ⟨more, rfl, behind⟩
  · rw [eq_nil_of_unclosed unclosedOther behind] at behind
    simpa using behind
  · rw [eq_nil_of_unclosed unclosed behind] at behind
    simpa using behind.symm

theorem lineComment_eq {body other : List Char}
    (inside : ∀ character ∈ body, endsLineComment character = false)
    (insideOther : ∀ character ∈ other, endsLineComment character = false)
    (ends : ∀ next ∈ following.head?, endsLineComment next = true)
    (endsOther : ∀ next ∈ rest.head?, endsLineComment next = true)
    (same : body ++ following = other ++ rest) : following = rest := by
  have shorter : ∀ {body more following : List Char},
      (∀ character ∈ body ++ more, endsLineComment character = false) →
      (∀ next ∈ (more ++ following).head?, endsLineComment next = true) → more = [] := by
    intro body more following inside ends
    cases more with
    | nil => rfl
    | cons character more =>
      have ended := ends character (by simp)
      rw [inside character (by simp)] at ended
      contradiction
  rcases List.append_eq_append_iff.mp same with ⟨more, rfl, rfl⟩ | ⟨more, rfl, rfl⟩
  · rw [shorter insideOther ends, List.nil_append]
  · rw [shorter inside endsOther, List.nil_append]

/-- An item that stands in front of a gap begins like no solid character. -/
theorem head_ne {item : GapItem} (fits : item.FitsBefore following) (solid : IsSolid first)
    (rest following : List Char) : item.text ++ following ≠ first :: rest := by
  intro same
  cases item with
  | blank character =>
    obtain ⟨rfl, -⟩ := List.cons.inj same
    rcases fits with blank | rfl
    · rw [solid.visible] at blank
      contradiction
    · exact solid.noMark rfl
  | lineComment | blockComment =>
    obtain ⟨rfl, -⟩ := List.cons.inj same
    exact solid.noSlash rfl

/-- Two items in front of the same text leave the same text. -/
theorem rest_eq {item other : GapItem} (fits : item.FitsBefore following)
    (fitsOther : other.FitsBefore rest) (same : item.text ++ following = other.text ++ rest) :
    following = rest := by
  have noSlash : ∀ {character : Char}, Text.isBlank character = true ∨ character = '\ufeff' →
      character ≠ '/' := by
    rintro character (blank | mark) rfl
    · exact absurd blank (by decide +kernel)
    · exact absurd mark (by decide)
  cases item with
  | blank character =>
    cases other with
    | blank => exact (List.cons.inj same).2
    | lineComment | blockComment => exact absurd (List.cons.inj same).1 (noSlash fits)
  | lineComment body =>
    cases other with
    | blank => exact absurd (List.cons.inj same).1.symm (noSlash fitsOther)
    | lineComment =>
      exact lineComment_eq fits.1 fitsOther.1 fits.2 fitsOther.2 (by simpa [text] using same)
    | blockComment => simp [text] at same
  | blockComment body =>
    cases other with
    | blank => exact absurd (List.cons.inj same).1.symm (noSlash fitsOther)
    | lineComment => simp [text] at same
    | blockComment => exact blockComment_eq fits fitsOther (by simpa [text] using same)

/-- The same character stands behind the gaps of a text. -/
theorem MakeUp.first_eq (made : MakeUp (first :: following) items gap)
    (madeOther : MakeUp (second :: rest) others otherGap) (solid : IsSolid first)
    (solidOther : IsSolid second) (same : gap ++ first :: following = otherGap ++ second :: rest) :
    first = second := by
  induction made generalizing others otherGap with
  | nothing =>
    cases madeOther with
    | nothing => exact (List.cons.inj same).1
    | item fits =>
      rw [List.nil_append, List.append_assoc] at same
      exact absurd same.symm (head_ne fits solid _ _)
  | item fits _ inductionHypothesis =>
    cases madeOther with
    | nothing =>
      rw [List.nil_append, List.append_assoc] at same
      exact absurd same (head_ne fits solidOther _ _)
    | item fitsOther madeOther =>
      rw [List.append_assoc, List.append_assoc] at same
      exact inductionHypothesis madeOther (rest_eq fits fitsOther same)

end GapItem

end Playground

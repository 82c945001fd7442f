import Playground.Proofs.Erasure.LineEnding.Scanners
import Playground.Proofs.Erasure.Relocation.Tokens
import Playground.Proofs.Erasure.Tokens

/-!
# Tokens of a program with carriage returns

Every token of a program stands for a token of the program with returns: offsets are `Displaced`
by the returns before them, and texts are the `SameLines`. The tokenizer runs over both programs
in step, so it also fails on both alike.
-/

namespace Playground

/-! ## Texts -/

/-- Texts that differ in returns before line feeds only, where the first has no returns. -/
inductive SameLines : List Char → List Char → Prop where
  | nil : SameLines [] []
  | cons {character text other} (plain : character ≠ '\r') (rest : SameLines text other) :
      SameLines (character :: text) (character :: other)
  | line {text other} (rest : SameLines text other) :
      SameLines ('\n' :: text) ('\r' :: '\n' :: other)

namespace SameLines

variable {text other first second another : List Char}

theorem refl (plain : '\r' ∉ text) : SameLines text text := by
  induction text with
  | nil => exact .nil
  | cons character text inductionHypothesis =>
    rw [List.mem_cons, not_or] at plain
    exact .cons (Ne.symm plain.1) (inductionHypothesis plain.2)

theorem withReturns (plain : '\r' ∉ text) : SameLines text (Playground.withReturns text) := by
  induction text with
  | nil => exact .nil
  | cons character text inductionHypothesis =>
    rw [List.mem_cons, not_or] at plain
    by_cases newline : character = '\n'
    · subst newline
      exact .line (inductionHypothesis plain.2)
    · rw [withReturns_cons newline]
      exact .cons (Ne.symm plain.1) (inductionHypothesis plain.2)

theorem append (one : SameLines first other) (two : SameLines second another) :
    SameLines (first ++ second) (other ++ another) := by
  induction one with
  | nil => exact two
  | cons plain _ inductionHypothesis => exact .cons plain inductionHypothesis
  | line _ inductionHypothesis => exact .line inductionHypothesis

/-- Without its returns the second text is the first. -/
theorem filter (same : SameLines text other) : other.filter (· ≠ '\r') = text := by
  induction same with
  | nil => rfl
  | cons plain _ inductionHypothesis =>
    rw [List.filter_cons_of_pos (by simpa using plain), inductionHypothesis]
  | line _ inductionHypothesis => simpa using inductionHypothesis

/-- The texts have the same line feeds. -/
theorem lineFeeds (same : SameLines text other) :
    other.filter (· == '\n') = text.filter (· == '\n') := by
  induction same with
  | nil => rfl
  | @cons character _ _ plain _ inductionHypothesis =>
    rw [List.filter_cons, List.filter_cons, inductionHypothesis]
  | line _ inductionHypothesis => simpa using inductionHypothesis

/-- The texts end with the same character. -/
theorem getLast? (same : SameLines text other) : other.getLast? = text.getLast? := by
  induction same with
  | nil => rfl
  | cons plain _ inductionHypothesis =>
    rw [List.getLast?_cons, List.getLast?_cons, inductionHypothesis]
  | line _ inductionHypothesis =>
    rw [List.getLast?_cons, List.getLast?_cons, List.getLast?_cons, inductionHypothesis]
    rfl

end SameLines

/-! ## Offsets -/

/-- An offset of a text, and where it comes to stand in the text with returns. -/
def Displaced (source : List Char) (offset other : Nat) : Prop :=
  ∃ passed rest, source = passed ++ rest ∧ offset = passed.length ∧
    other = (withReturns passed).length

section Displaced

variable {source : List Char} {first other second another : Nat}

theorem displaced_append (passed rest : List Char) :
    Displaced (passed ++ rest) passed.length (withReturns passed).length :=
  ⟨passed, rest, rfl, rfl, rfl⟩

theorem displaced_size (source : List Char) :
    Displaced source source.length (withReturns source).length :=
  ⟨source, [], (List.append_nil source).symm, rfl, rfl⟩

namespace Displaced

/-- What is passed between two offsets. -/
theorem between (one : Displaced source first other) (two : Displaced source second another)
    (ordered : first ≤ second) :
    ∃ passed text rest, source = passed ++ (text ++ rest) ∧ first = passed.length ∧
      second = (passed ++ text).length ∧ other = (withReturns passed).length ∧
      another = (withReturns (passed ++ text)).length := by
  obtain ⟨passed, rest, here, rfl, rfl⟩ := one
  obtain ⟨further, behind, there, rfl, rfl⟩ := two
  obtain ⟨text, rfl⟩ : passed <+: further :=
    List.prefix_of_prefix_length_le ⟨rest, here.symm⟩ ⟨behind, there.symm⟩ ordered
  exact ⟨passed, text, behind, by rw [there, List.append_assoc], rfl, rfl, rfl, rfl⟩

theorem lt (one : Displaced source first other) (two : Displaced source second another)
    (ordered : first < second) : other < another := by
  obtain ⟨passed, text, rest, -, rfl, rfl, rfl, rfl⟩ := one.between two (Nat.le_of_lt ordered)
  have longer := length_le_withReturns text
  rw [List.length_append] at ordered
  rw [withReturns_append, List.length_append]
  omega

theorem eq (one : Displaced source first other) (two : Displaced source first another) :
    other = another := by
  obtain ⟨passed, rest, here, rfl, rfl⟩ := one
  obtain ⟨further, behind, there, length, rfl⟩ := two
  rw [(List.append_inj (here.symm.trans there) length).1]

theorem lt_iff (one : Displaced source first other) (two : Displaced source second another) :
    first < second ↔ other < another := by
  refine ⟨one.lt two, fun before => ?_⟩
  rcases Nat.lt_trichotomy first second with ordered | rfl | ordered
  · exact ordered
  · have := one.eq two
    omega
  · have := two.lt one ordered
    omega

theorem le_iff (one : Displaced source first other) (two : Displaced source second another) :
    first ≤ second ↔ other ≤ another := by
  have := two.lt_iff one
  omega

theorem eq_iff (one : Displaced source first other) (two : Displaced source second another) :
    first = second ↔ other = another := by
  have := one.lt_iff two
  have := two.lt_iff one
  omega

end Displaced

end Displaced

/-! ## Tokens -/

/-- Tokens of a program, and tokens of the program with returns that stand for them. -/
structure TokenAlike (source : List Char) (token other : Token) : Prop where
  standsFor : token.StandsFor (Displaced source)
    (fun text image => SameLines text.toList image.toList) other
  newline : other.newlineBefore = token.newlineBefore

/-- Only templates reach over line ends. -/
theorem isTemplate_of_newline_mem {previous : Option Token} {braces : List Brace} {first : Char}
    {rest : List Char} {scanned : Scanned (first :: rest)} (plain : PlainLines (first :: rest))
    (inside : first ≠ '\n') (found : scanToken previous braces first rest = .ok scanned)
    (member : '\n' ∈ scanned.lexeme) : scanned.kind.isTemplate = true := by
  cases literal : startsLiteral braces first with
  | false =>
    have line : endsLineComment first = false := by
      rw [Bool.eq_false_iff]
      exact fun ends => (ends_iff.mp ends).elim inside plain.ne_return
    exact absurd (not_ends_of_mem_lexeme line literal found member) (by decide)
  | true =>
    rw [scanToken_of_literal literal, scanLiteral] at found
    split_ifs at found with quote backtick
    · obtain ⟨cut, body, rfl⟩ := Option.map_eq_some_iff.mp (elim_eq_ok_iff.mp found)
      refine absurd member ?_
      simp only [Scanned.headed, Cut.push, List.mem_cons, not_or]
      exact ⟨Ne.symm inside, newline_not_mem_stringBody inside plain.tail body⟩
    all_goals
      obtain ⟨kind | kind, -⟩ := Scanned.of_templatePart (elim_eq_ok_iff.mp found)
      all_goals rw [kind]; rfl

/-- Tokens that are cut at one place stand for one another. -/
theorem tokenAlike_of_scanToken {previous : Option Token} {braces : List Brace} {first : Char}
    {rest : List Char} {scanned : Scanned (first :: rest)} (passed : List Char)
    (plain : PlainLines (first :: rest)) (inside : first ≠ '\n') (found : scanToken previous braces first rest = .ok scanned)
    (breaks : Bool) :
    TokenAlike (passed ++ first :: rest)
      ⟨scanned.kind, String.ofList scanned.lexeme, passed.length, breaks⟩
      ⟨scanned.kind, String.ofList (withReturns scanned.lexeme), (withReturns passed).length,
        breaks⟩ := by
  have noReturn : '\r' ∉ scanned.lexeme := fun member =>
    plain.noReturn (scanned.joined ▸ List.mem_append_left _ member)
  refine ⟨⟨rfl, ?_, ?_, displaced_append .., ?_⟩, rfl⟩
  · simpa using SameLines.withReturns noReturn
  · by_cases newline : '\n' ∈ scanned.lexeme
    · exact .inr ⟨isTemplate_of_newline_mem plain inside found newline, by simpa using newline,
        by simpa using newline⟩
    · exact .inl (congrArg String.ofList (withReturns_eq_self newline))
  · have stop := displaced_append (passed ++ scanned.lexeme) scanned.rest
    rw [List.append_assoc, scanned.joined] at stop
    simpa [Token.stop] using stop

/-- The tokenizer goes over a program and the program with returns in step. -/
theorem tokensFrom_alike {source passed input : List Char} (split : source = passed ++ input)
    (plain : PlainLines input) {previous other : Option Token}
    (same : regexAllowed other = regexAllowed previous) (braces : List Brace) :
    AnswersAlike (Displaced source) (List.Forall₂ (TokenAlike source))
      (tokensFrom passed.length previous braces input)
      (tokensFrom (withReturns passed).length other braces (withReturns input)) := by
  have image := gapView_withReturns input
  cases found : gapView input with
  | error count =>
    rw [found] at image
    rw [tokensFrom_of_unterminated found, tokensFrom_of_unterminated image]
    refine .error ⟨passed ++ input.take count, input.drop count, ?_, ?_, ?_⟩
    · rw [split, List.append_assoc, List.take_append_drop]
    · rw [List.length_append, List.length_take_of_le (le_length_of_gapView found)]
    · rw [withReturns_append, List.length_append]
  | ok following =>
    obtain ⟨behind, breaks⟩ := following
    rw [found] at image
    cases behind with
    | nil =>
      rw [tokensFrom_of_end found, tokensFrom_of_end image]
      exact .ok .nil
    | cons first rest =>
      obtain ⟨front, rfl⟩ := exists_append_of_gapView found
      have inside : first ≠ '\n' := by
        rintro rfl
        have := not_breaks_of_gapView found
        contradiction
      have plainToken : PlainLines (first :: rest) := plain.right
      rw [withReturns_append, withReturns_cons inside] at image ⊢
      rw [tokensFrom_of_gap found, tokensFrom_of_gap (image.trans
        (congrArg (fun text => Except.ok (text, breaks)) (withReturns_cons inside))),
        scanToken_congr same, ← List.length_append, ← List.length_append, ← withReturns_append]
      rw [← List.append_assoc] at split
      obtain ⟨fault, shapeImage, shape⟩ | ⟨image, scanned, shapeImage, shape, ending⟩ :=
        map_eq_map_cases (scanToken_withReturns previous braces plainToken inside)
      · rw [shape, shapeImage, split]
        exact .error (displaced_append ..)
      · simp only [Scanned.ending, Scanned.endingWithReturns, Prod.mk.injEq] at ending
        obtain ⟨behind, kind, bracesAfter⟩ := ending
        have lexeme : image.lexeme = withReturns scanned.lexeme := eq_withReturns_of_append (by
          rw [← behind, image.joined, scanned.joined, withReturns_cons inside])
        have alike := tokenAlike_of_scanToken (passed ++ front) plainToken inside shape breaks
        have further : source = (passed ++ front ++ scanned.lexeme) ++ scanned.rest := by
          rw [split, List.append_assoc (passed ++ front), scanned.joined]
        have plainRest : PlainLines scanned.rest :=
          PlainLines.right (scanned.joined.symm ▸ plainToken)
        have expression : regexAllowed (some _) = regexAllowed (some _) :=
          congrArg (!·) alike.standsFor.endsExpression
        rw [shape, shapeImage]
        dsimp only
        rw [lexeme, kind, bracesAfter, behind, ← List.length_append, ← List.length_append,
          ← withReturns_append]
        refine (tokensFrom_alike further plainRest expression scanned.braces).map
          fun following => ?_
        exact .cons (split ▸ alike) following
termination_by input.length
decreasing_by
  have shorter := scanned.progress
  subst_vars
  rw [List.length_append]
  omega

end Playground

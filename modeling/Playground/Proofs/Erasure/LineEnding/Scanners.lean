import Mathlib.Data.List.Infix
import Playground.Proofs.Erasure.Scanners

/-!
# Scanning a program with carriage returns

`withReturns` writes a carriage return before every line feed. Where no backslash protects a
line feed, every scanner cuts the program with returns where it cuts the program without them:
the rest of the one is the rest of the other with returns.
-/

namespace Playground

/-- A text with a carriage return before every line feed. -/
def withReturns (characters : List Char) : List Char :=
  characters.flatMap fun character => if character = '\n' then ['\r', '\n'] else [character]

/-- A text with no carriage return, in which no backslash protects a line feed. -/
structure PlainLines (characters : List Char) : Prop where
  noReturn : '\r' ∉ characters
  noContinuation : ¬['\\', '\n'] <:+: characters

section WithReturns

variable {characters rest : List Char} {character : Char}

@[simp] theorem withReturns_nil : withReturns [] = [] := rfl

@[simp] theorem withReturns_newline : withReturns ('\n' :: rest) = '\r' :: '\n' :: withReturns rest :=
  rfl

theorem withReturns_cons (other : character ≠ '\n') :
    withReturns (character :: rest) = character :: withReturns rest := by
  simp [withReturns, other]

@[simp] theorem withReturns_append (first second : List Char) :
    withReturns (first ++ second) = withReturns first ++ withReturns second :=
  List.flatMap_append

theorem withReturns_eq_self (plain : '\n' ∉ characters) : withReturns characters = characters := by
  induction characters with
  | nil => rfl
  | cons first rest inductionHypothesis =>
    rw [List.mem_cons, not_or] at plain
    rw [withReturns_cons (Ne.symm plain.1), inductionHypothesis plain.2]

@[simp] theorem newline_mem_withReturns : '\n' ∈ withReturns characters ↔ '\n' ∈ characters := by
  induction characters with
  | nil => rfl
  | cons first rest inductionHypothesis =>
    by_cases newline : first = '\n'
    · simp [newline]
    · simp [withReturns_cons newline, inductionHypothesis]

theorem length_le_withReturns (characters : List Char) :
    characters.length ≤ (withReturns characters).length := by
  induction characters with
  | nil => exact Nat.le_refl 0
  | cons first rest inductionHypothesis =>
    by_cases newline : first = '\n'
    · subst newline
      simp only [withReturns_newline, List.length_cons]
      omega
    · simp only [withReturns_cons newline, List.length_cons]
      omega

theorem head?_of_withReturns (front : (withReturns characters).head? = some character)
    (other : character ≠ '\r') : characters.head? = some character := by
  cases characters with
  | nil => simp at front
  | cons first rest =>
    by_cases newline : first = '\n'
    · subst newline
      exact absurd (Option.some.inj front).symm other
    · rwa [withReturns_cons newline] at front

/-- Returns stand behind the first line. -/
@[simp] theorem firstLine_withReturns : firstLine (withReturns characters) = firstLine characters := by
  induction characters with
  | nil => rfl
  | cons first rest inductionHypothesis =>
    by_cases newline : first = '\n'
    · subst newline
      rfl
    · rw [withReturns_cons newline]
      cases ends : endsLineComment first with
      | true => rw [firstLine_of_ends ends, firstLine_of_ends ends]
      | false => rw [firstLine_cons ends, firstLine_cons ends, inductionHypothesis]

end WithReturns

namespace PlainLines

variable {first second rest : List Char} {character escaped : Char}

theorem right (plain : PlainLines (first ++ second)) : PlainLines second where
  noReturn member := plain.noReturn (List.mem_append_right first member)
  noContinuation inside := plain.noContinuation (inside.trans (List.suffix_append first second).isInfix)

theorem tail (plain : PlainLines (character :: rest)) : PlainLines rest :=
  @right [character] rest plain

theorem ne_return (plain : PlainLines (character :: rest)) : character ≠ '\r' := by
  rintro rfl
  exact plain.noReturn (List.mem_cons_self ..)

/-- A backslash protects no line feed. -/
theorem escaped_ne (plain : PlainLines ('\\' :: escaped :: rest)) : escaped ≠ '\n' := by
  rintro rfl
  exact plain.noContinuation ⟨[], rest, rfl⟩

end PlainLines

/-- Texts before rests that correspond do so as well. -/
theorem eq_withReturns_of_append {lexeme rest image : List Char}
    (joined : image ++ withReturns rest = withReturns (lexeme ++ rest)) :
    image = withReturns lexeme := by
  rw [withReturns_append] at joined
  exact List.append_cancel_right joined

/-! ## Literals -/

theorem stringBody_withReturns {quote : Char} {input : List Char} (plain : PlainLines input) :
    (stringBody quote (withReturns input)).map Cut.rest =
      (stringBody quote input).map fun cut => withReturns cut.rest := by
  fun_induction stringBody quote input with
  | case1 | case2 => rfl
  | case3 escaped rest inductionHypothesis =>
    rw [withReturns_cons (by decide), withReturns_cons plain.escaped_ne, stringBody,
      map_rest_escape, inductionHypothesis plain.tail.tail, Option.map_map]
    rfl
  | case4 character rest notLast notEscape ends =>
    obtain rfl | rfl := ends_iff.mp ends
    · rfl
    · exact absurd rfl plain.ne_return
  | case5 character rest notLast notEscape inside closes =>
    have other : character ≠ '\n' := fun same => inside (ends_iff.mpr (.inl same))
    have unescaped := ne_backslash notLast notEscape
    rw [withReturns_cons other, stringBody_cons unescaped, if_neg inside, if_pos closes]
    rfl
  | case6 character rest notLast notEscape inside goesOn inductionHypothesis =>
    have other : character ≠ '\n' := fun same => inside (ends_iff.mpr (.inl same))
    have unescaped := ne_backslash notLast notEscape
    rw [withReturns_cons other, stringBody_cons unescaped, if_neg inside, if_neg goesOn,
      map_rest_push, inductionHypothesis plain.tail, Option.map_map]
    rfl

theorem templateBody_withReturns {input : List Char} (plain : PlainLines input) :
    (templateBody (withReturns input)).map partEnd =
      (templateBody input).map fun part => (part.1, withReturns part.2.rest) := by
  fun_induction templateBody input with
  | case1 | case2 | case4 => rfl
  | case3 escaped rest inductionHypothesis =>
    rw [withReturns_cons (by decide), withReturns_cons plain.escaped_ne, templateBody,
      map_partEnd_escape, inductionHypothesis plain.tail.tail, Option.map_map]
    rfl
  | case5 character rest notLast notEscape noSubstitution closes =>
    obtain rfl := beq_iff_eq.mp closes
    rfl
  | case6 character rest notLast notEscape noSubstitution goesOn inductionHypothesis =>
    have unescaped := ne_backslash notLast notEscape
    by_cases newline : character = '\n'
    · subst newline
      rw [withReturns_newline, templateBody_cons (by decide) (by simp), if_neg (by decide),
        map_partEnd_push, templateBody_cons (by decide) (by simp), if_neg (by decide),
        map_partEnd_push, inductionHypothesis plain.tail, Option.map_map]
      rfl
    · have opens : ¬(character = '$' ∧ (withReturns rest).head? = some '{') := by
        rintro ⟨rfl, brace⟩
        obtain ⟨following, rfl⟩ := List.head?_eq_some_iff.mp (head?_of_withReturns brace (by decide))
        exact noSubstitution following rfl rfl
      rw [withReturns_cons newline, templateBody_cons unescaped opens, if_neg goesOn,
        map_partEnd_push, inductionHypothesis plain.tail, Option.map_map]
      rfl

/-- A string ends on its line. -/
theorem newline_not_mem_stringBody {quote : Char} (inside : quote ≠ '\n') {input : List Char}
    (plain : PlainLines input) {cut : Cut input} (found : stringBody quote input = some cut) :
    '\n' ∉ cut.lexeme := by
  fun_induction stringBody quote input with
  | case1 | case2 | case4 => contradiction
  | case3 escaped rest inductionHypothesis =>
    obtain ⟨body, foundBody, rfl⟩ := Option.map_eq_some_iff.mp found
    have later := inductionHypothesis plain.tail.tail foundBody
    simp only [Cut.push, List.mem_cons, not_or]
    exact ⟨by decide, Ne.symm plain.escaped_ne, later⟩
  | case5 character rest notLast notEscape goesOn closes =>
    cases found
    obtain rfl := beq_iff_eq.mp closes
    simpa using Ne.symm inside
  | case6 character rest notLast notEscape goesOn open_ inductionHypothesis =>
    obtain ⟨body, foundBody, rfl⟩ := Option.map_eq_some_iff.mp found
    have later := inductionHypothesis plain.tail foundBody
    simp only [Cut.push, List.mem_cons, not_or]
    exact ⟨fun newline => goesOn (ends_iff.mpr (.inl newline.symm)), later⟩

/-! ## Gaps -/

theorem blockCommentBody_withReturns (input : List Char) :
    (blockCommentBody (withReturns input)).map Cut.rest =
      (blockCommentBody input).map fun cut => withReturns cut.rest := by
  fun_induction blockCommentBody input with
  | case1 | case2 => rfl
  | case3 character rest notMark inductionHypothesis =>
    have whole : (blockCommentBody rest).map (fun cut => withReturns cut.rest) =
        ((blockCommentBody rest).map (·.push character)).map fun cut => withReturns cut.rest := by
      rw [Option.map_map]
      rfl
    by_cases newline : character = '\n'
    · subst newline
      rw [withReturns_newline, blockCommentBody_cons (by simp), map_rest_push,
        blockCommentBody_cons (by simp), map_rest_push, inductionHypothesis, whole]
    · have opened : ¬(character = '*' ∧ (withReturns rest).head? = some '/') := by
        rintro ⟨rfl, slash⟩
        obtain ⟨following, rfl⟩ := List.head?_eq_some_iff.mp (head?_of_withReturns slash (by decide))
        exact notMark following rfl rfl
      rw [withReturns_cons newline, blockCommentBody_cons opened, map_rest_push,
        inductionHypothesis, whole]

theorem dropWhile_withReturns (input : List Char) :
    (withReturns input).dropWhile (fun next => !endsLineComment next) =
      withReturns (input.dropWhile fun next => !endsLineComment next) := by
  induction input with
  | nil => rfl
  | cons first rest inductionHypothesis =>
    by_cases newline : first = '\n'
    · subst newline
      rfl
    · rw [withReturns_cons newline]
      cases ends : endsLineComment first with
      | true => simp [ends, withReturns_cons newline]
      | false => simp [ends, inductionHypothesis]

/-- A piece of a gap where what stands behind it has returns. -/
def PieceView.withReturns : PieceView → PieceView
  | .none => .none
  | .unterminated => .unterminated
  | .piece behind breaks => .piece (Playground.withReturns behind) breaks

theorem commentView_withReturns (rest : List Char) :
    commentView (withReturns rest) = (commentView rest).withReturns := by
  by_cases slash : rest.head? = some '/'
  · obtain ⟨afterSlashes, rfl⟩ := List.head?_eq_some_iff.mp slash
    rw [withReturns_cons (by decide)]
    exact congrArg (PieceView.piece · false) (dropWhile_withReturns afterSlashes)
  by_cases star : rest.head? = some '*'
  · obtain ⟨afterStar, rfl⟩ := List.head?_eq_some_iff.mp star
    rw [withReturns_cons (by decide)]
    have body := blockCommentBody_withReturns afterStar
    cases here : blockCommentBody afterStar with
    | none =>
      rw [here, Option.map_none, Option.map_eq_none_iff] at body
      simp [commentView, body, here, PieceView.withReturns]
    | some cut =>
      rw [here, Option.map_some, Option.map_eq_some_iff] at body
      obtain ⟨image, there, same⟩ := body
      have lexeme : image.lexeme = withReturns cut.lexeme :=
        eq_withReturns_of_append (by rw [← same, image.joined, cut.joined])
      have contains : image.lexeme.contains '\n' = cut.lexeme.contains '\n' := by
        rw [lexeme, Bool.eq_iff_iff, List.contains_iff_mem, List.contains_iff_mem,
          newline_mem_withReturns]
      simp only [commentView, here, there, same, contains, PieceView.withReturns]
  · rw [commentView_of_head slash star, commentView_of_head]
    · rfl
    · exact fun front => slash (head?_of_withReturns front (by decide))
    · exact fun front => star (head?_of_withReturns front (by decide))

/-- Where a place behind some text lies in the text with returns. -/
theorem length_withReturns_take {input rest : List Char} {passed : Nat}
    (joined : ∃ front, input = front ++ rest) :
    (withReturns (input.take (input.length - rest.length + passed))).length =
      (withReturns input).length - (withReturns rest).length +
        (withReturns (rest.take passed)).length := by
  obtain ⟨front, rfl⟩ := joined
  have front' : (front ++ rest).length - rest.length = front.length := by
    rw [List.length_append]
    omega
  rw [front', List.take_length_add_append, withReturns_append, withReturns_append,
    List.length_append, List.length_append]
  omega

/-- The gap before a token ends at one place, with or without returns. A comment that never
ends starts at one place. -/
theorem gapView_withReturns (input : List Char) :
    gapView (withReturns input) = match gapView input with
      | .ok (behind, breaks) => .ok (withReturns behind, breaks)
      | .error passed => .error (withReturns (input.take passed)).length := by
  match shape : input with
  | [] => rw [withReturns_nil, gapView_of_none rfl]; rfl
  | first :: rest =>
    by_cases newline : first = '\n'
    · subst newline
      have following := gapView_withReturns rest
      have line : ∀ rest, (gapPiece ('\n' :: rest)).view = .piece rest true :=
        view_gapPiece_of_breaks (by decide)
      rw [withReturns_newline, gapView_of_piece (view_gapPiece_of_breaks (by decide) _),
        gapView_of_piece (line _), gapView_of_piece (line _), following]
      cases gapView rest with
      | ok found => rfl
      | error passed =>
        have passes : (withReturns (('\n' :: rest).take (1 + passed))).length =
            1 + (1 + (withReturns (rest.take passed)).length) := by
          rw [Nat.add_comm 1 passed, List.take_succ_cons, withReturns_newline]
          simp only [List.length_cons]
          omega
        simp only [List.length_cons, Nat.add_sub_cancel_left, passes]
    · rw [withReturns_cons newline]
      have view : (gapPiece (first :: withReturns rest)).view =
          (gapPiece (first :: rest)).view.withReturns := by
        rw [view_gapPiece, view_gapPiece, commentView_withReturns]
        split_ifs <;> rfl
      cases here : (gapPiece (first :: rest)).view with
      | none =>
        rw [gapView_of_none here, gapView_of_none (by rw [view, here]; rfl)]
        exact congrArg (fun text => Except.ok (text, false)) (withReturns_cons newline).symm
      | unterminated =>
        rw [gapView_of_unterminated here, gapView_of_unterminated (by rw [view, here]; rfl)]
        rfl
      | piece behind breaks =>
        have shorter : behind.length ≤ rest.length := Nat.le_of_lt_succ (length_lt_of_view here)
        have joined := exists_append_of_view here
        have following := gapView_withReturns behind
        rw [gapView_of_piece here,
          gapView_of_piece (show (gapPiece (first :: withReturns rest)).view =
            .piece (withReturns behind) breaks by rw [view, here]; rfl), following]
        cases gapView behind with
        | ok found => rfl
        | error passed =>
          dsimp only
          rw [length_withReturns_take joined, withReturns_cons newline]
termination_by input.length

/-! ## Tokens -/

/-- What the tokenizer goes on with behind a token, with returns. -/
def Scanned.endingWithReturns {input : List Char} (scanned : Scanned input) :
    List Char × TokenKind × List Brace :=
  (withReturns scanned.rest, scanned.kind, scanned.braces)

theorem templatePart_withReturns (closed opened : TokenKind) (braces : List Brace) (first : Char)
    {rest : List Char} (plain : PlainLines rest) :
    (Scanned.templatePart closed opened braces first :
        Option (Scanned (first :: withReturns rest))).map Scanned.ending =
      (Scanned.templatePart closed opened braces first :
        Option (Scanned (first :: rest))).map Scanned.endingWithReturns := by
  have body := templateBody_withReturns plain
  unfold Scanned.templatePart
  cases here : templateBody rest with
  | none =>
    rw [here, Option.map_none, Option.map_eq_none_iff] at body
    rw [body]
    rfl
  | some part =>
    rw [here, Option.map_some, Option.map_eq_some_iff] at body
    obtain ⟨⟨imageEnding, image⟩, there, same⟩ := body
    obtain ⟨ending, cut⟩ := part
    obtain ⟨rfl, behind⟩ : imageEnding = ending ∧ image.rest = withReturns cut.rest :=
      Prod.mk.inj same
    rw [there]
    cases imageEnding <;>
      simp only [Option.map_some, Scanned.ending, Scanned.endingWithReturns, Scanned.headed,
        Cut.push, behind]

theorem scanLiteral_withReturns {braces : List Brace} {first : Char} {rest : List Char}
    (plain : PlainLines rest) :
    (scanLiteral braces first (withReturns rest)).map Scanned.ending =
      (scanLiteral braces first rest).map Scanned.endingWithReturns := by
  unfold scanLiteral
  split_ifs with quote backtick
  · refine map_elim_congr ?_ SyntaxFault.unterminatedString
    have body := congrArg (Option.map fun rest => (rest, TokenKind.string, braces))
      (stringBody_withReturns plain : (stringBody first (withReturns rest)).map Cut.rest = _)
    rw [Option.map_map, Option.map_map] at body ⊢
    exact body
  · exact map_elim_congr (templatePart_withReturns _ _ _ _ plain) _
  · exact map_elim_congr (templatePart_withReturns _ _ _ _ plain) _

/-- A token is cut at one place, with or without returns. -/
theorem scanToken_withReturns (previous : Option Token) (braces : List Brace) {first : Char}
    {rest : List Char} (plain : PlainLines (first :: rest)) (inside : first ≠ '\n') :
    (scanToken previous braces first (withReturns rest)).map Scanned.ending =
      (scanToken previous braces first rest).map Scanned.endingWithReturns := by
  cases literal : startsLiteral braces first with
  | true =>
    rw [scanToken_of_literal literal, scanToken_of_literal literal]
    exact scanLiteral_withReturns plain.tail
  | false =>
    have line : endsLineComment first = false := by
      rw [Bool.eq_false_iff]
      exact fun ends => (ends_iff.mp ends).elim inside plain.ne_return
    have same : (scanToken previous braces first (withReturns rest)).map Scanned.view =
        (scanToken previous braces first rest).map Scanned.view := by
      rw [← scanToken_firstLine previous line literal, firstLine_withReturns,
        scanToken_firstLine previous line literal]
    obtain ⟨fault, there, here⟩ | ⟨image, scanned, there, here, view⟩ := map_eq_map_cases same
    · rw [here, there]
      rfl
    · simp only [Scanned.view, Prod.mk.injEq] at view
      obtain ⟨lexeme, kind, braces⟩ := view
      have oneLine : '\n' ∉ scanned.lexeme := fun member =>
        absurd (not_ends_of_mem_lexeme line literal here member) (by decide)
      have joined : scanned.lexeme ++ image.rest = scanned.lexeme ++ withReturns scanned.rest :=
        calc scanned.lexeme ++ image.rest = image.lexeme ++ image.rest := by rw [lexeme]
          _ = withReturns (first :: rest) := by rw [image.joined, withReturns_cons inside]
          _ = withReturns (scanned.lexeme ++ scanned.rest) := by rw [scanned.joined]
          _ = scanned.lexeme ++ withReturns scanned.rest := by
            rw [withReturns_append, withReturns_eq_self oneLine]
      rw [here, there]
      simp only [Except.map, Scanned.ending, Scanned.endingWithReturns,
        List.append_cancel_left joined, kind, braces]

end Playground

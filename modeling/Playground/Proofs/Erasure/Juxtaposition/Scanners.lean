import Playground.Proofs.Erasure.Scanners

/-!
# Scanning up to a seam

A `seam` is a semicolon on a line of its own. No scanner that succeeds on a text with a seam
behind it reaches into the seam: literals and comments end with a mark that is not in it, and
other tokens end with their line. So the scanner cuts the text alike whatever starts a line
behind it, or nothing does.
-/

namespace Playground

/-- A semicolon on a line of its own. -/
def seam : List Char := ['\n', ';', '\n']

/-- A text that starts with a line feed, or nothing. -/
inductive StartsLine : List Char → Prop where
  | nil : StartsLine []
  | line (rest : List Char) : StartsLine ('\n' :: rest)

theorem startsLine_seam (rest : List Char) : StartsLine (seam ++ rest) :=
  .line _

theorem startsLine_seam_nil : StartsLine seam :=
  .line _

/-- A lexeme that cannot end in a seam ends before it. -/
theorem exists_rest_of_append {text lexeme rest : List Char}
    (joined : lexeme ++ rest = text ++ seam)
    (ends : '\n' ∉ lexeme ∨ ∃ mark, lexeme.getLast? = some mark ∧ mark ∉ seam) :
    ∃ left, text = lexeme ++ left ∧ rest = left ++ seam := by
  rcases List.append_eq_append_iff.mp joined with ⟨left, rfl, rfl⟩ | ⟨beyond, rfl, shape⟩
  · exact ⟨left, rfl, rfl⟩
  · cases beyond with
    | nil => exact ⟨[], by simp, shape.symm⟩
    | cons first beyond =>
      obtain ⟨rfl, tail⟩ := List.cons.inj shape
      rcases ends with oneLine | ⟨mark, last, foreign⟩
      · exact absurd (List.mem_append_right _ (List.mem_cons_self ..)) oneLine
      · have inBeyond : mark ∈ '\n' :: beyond := by
          rw [List.getLast?_append] at last
          cases ends : ('\n' :: beyond).getLast? with
          | none => simp at ends
          | some final =>
            rw [ends, Option.some_or] at last
            exact Option.some.inj last ▸ List.mem_of_getLast? ends
        exact absurd (shape ▸ List.mem_append_left rest inBeyond) foreign

/-! ## Literals and comments -/

section Bodies

variable {input : List Char}

/-- A string is scanned alike before every text. -/
theorem stringBody_lexeme_append {quote : Char} {cut : Cut input}
    (found : stringBody quote input = some cut) (rest : List Char) :
    (stringBody quote (cut.lexeme ++ rest)).map Cut.rest = some rest := by
  fun_induction stringBody quote input with
  | case1 | case2 | case4 => contradiction
  | case3 escaped following inductionHypothesis =>
    obtain ⟨body, foundBody, rfl⟩ := Option.map_eq_some_iff.mp found
    simp only [Cut.push, List.cons_append]
    rw [stringBody, map_rest_escape, inductionHypothesis foundBody]
  | case5 character following notLast notEscape inside closes =>
    cases found
    simp only [List.singleton_append]
    rw [stringBody_cons (ne_backslash notLast notEscape), if_neg inside, if_pos closes]
    rfl
  | case6 character following notLast notEscape inside goesOn inductionHypothesis =>
    obtain ⟨body, foundBody, rfl⟩ := Option.map_eq_some_iff.mp found
    simp only [Cut.push, List.cons_append]
    rw [stringBody_cons (ne_backslash notLast notEscape), if_neg inside, if_neg goesOn,
      map_rest_push, inductionHypothesis foundBody]

/-- A part of a template is scanned alike before every text. -/
theorem templateBody_lexeme_append {ending : TemplateEnd} {cut : Cut input}
    (found : templateBody input = some (ending, cut)) (rest : List Char) :
    (templateBody (cut.lexeme ++ rest)).map partEnd = some (ending, rest) := by
  fun_induction templateBody input generalizing ending with
  | case1 | case2 => contradiction
  | case3 escaped following inductionHypothesis =>
    obtain ⟨⟨_, body⟩, foundBody, same⟩ := Option.map_eq_some_iff.mp found
    cases same
    simp only [Cut.push, List.cons_append]
    rw [templateBody, map_partEnd_escape, inductionHypothesis foundBody]
  | case4 =>
    cases found
    rfl
  | case5 character following _ _ _ closes =>
    cases found
    obtain rfl := beq_iff_eq.mp closes
    rfl
  | case6 character following notLast notEscape noSubstitution goesOn inductionHypothesis =>
    obtain ⟨⟨_, body⟩, foundBody, same⟩ := Option.map_eq_some_iff.mp found
    cases same
    simp only [Cut.push, List.cons_append]
    have opens : ¬(character = '$' ∧ (body.lexeme ++ rest).head? = some '{') := by
      rintro ⟨dollar, brace⟩
      obtain ⟨mark, last, -⟩ := getLast?_templateBody foundBody
      rw [body.head?_append last] at brace
      obtain ⟨behind, shape⟩ := List.head?_eq_some_iff.mp brace
      exact noSubstitution behind dollar shape
    rw [templateBody_cons (ne_backslash notLast notEscape) opens, if_neg goesOn,
      map_partEnd_push, inductionHypothesis foundBody]

/-- A block comment is scanned alike before every text. -/
theorem blockCommentBody_lexeme_append {cut : Cut input} (found : blockCommentBody input = some cut)
    (rest : List Char) : ∃ image, blockCommentBody (cut.lexeme ++ rest) = some image ∧
      image.lexeme = cut.lexeme ∧ image.rest = rest := by
  fun_induction blockCommentBody input with
  | case1 => contradiction
  | case2 =>
    cases found
    exact ⟨_, rfl, rfl, rfl⟩
  | case3 character following notMark inductionHypothesis =>
    obtain ⟨body, foundBody, rfl⟩ := Option.map_eq_some_iff.mp found
    obtain ⟨image, foundImage, lexeme, behind⟩ := inductionHypothesis foundBody
    have opened : ¬(character = '*' ∧ (body.lexeme ++ rest).head? = some '/') := by
      rintro ⟨star, slash⟩
      rw [body.head?_append (getLast?_blockCommentBody foundBody)] at slash
      obtain ⟨further, shape⟩ := List.head?_eq_some_iff.mp slash
      exact notMark further star shape
    refine ⟨image.push character, ?_, congrArg (character :: ·) lexeme, behind⟩
    simp only [Cut.push, List.cons_append]
    rw [blockCommentBody_cons opened, foundImage]
    rfl

theorem commentView_lexeme_append {cut : Cut input} (found : blockCommentBody input = some cut)
    (rest : List Char) :
    commentView ('*' :: (cut.lexeme ++ rest)) = .piece rest (cut.lexeme.contains '\n') := by
  obtain ⟨image, foundImage, lexeme, behind⟩ := blockCommentBody_lexeme_append found rest
  simp only [commentView, foundImage, lexeme, behind]

end Bodies

/-! ## Gaps -/

theorem StartsLine.head?_ne {following : List Char} (starts : StartsLine following) {mark : Char}
    (foreign : mark ≠ '\n') : following.head? ≠ some mark := by
  cases starts with
  | nil => exact fun same => nomatch same
  | line rest => exact fun same => foreign (Option.some.inj same).symm

/-- A comment of one line ends before a line. -/
theorem dropWhile_append {following : List Char} (starts : StartsLine following) (text : List Char) :
    (text ++ following).dropWhile (fun next => !endsLineComment next) =
      text.dropWhile (fun next => !endsLineComment next) ++ following := by
  induction text with
  | nil => cases starts <;> rfl
  | cons first text inductionHypothesis =>
    cases ends : endsLineComment first with
    | true => simp [ends]
    | false => simpa [ends] using inductionHypothesis

/-- A comment before a seam ends there, whatever follows. -/
theorem commentView_seam {text : List Char} (closed : commentView (text ++ seam) ≠ .unterminated) :
    (∀ {following}, StartsLine following → commentView (text ++ following) = .none) ∨
      ∃ left breaks, ∀ {following}, StartsLine following →
        commentView (text ++ following) = .piece (left ++ following) breaks := by
  by_cases slash : text.head? = some '/'
  · obtain ⟨afterSlashes, rfl⟩ := List.head?_eq_some_iff.mp slash
    refine .inr ⟨afterSlashes.dropWhile fun next => !endsLineComment next, false, fun starts => ?_⟩
    exact congrArg (PieceView.piece · false) (dropWhile_append starts afterSlashes)
  by_cases star : text.head? = some '*'
  · obtain ⟨afterStar, rfl⟩ := List.head?_eq_some_iff.mp star
    cases body : blockCommentBody (afterStar ++ seam) with
    | none => simp [commentView, body] at closed
    | some cut =>
      obtain ⟨left, shape, -⟩ := exists_rest_of_append cut.joined
        (.inr ⟨'/', getLast?_blockCommentBody body, by decide⟩)
      refine .inr ⟨left, cut.lexeme.contains '\n', fun {following} _ => ?_⟩
      have whole : afterStar ++ following = cut.lexeme ++ (left ++ following) := by
        rw [← List.append_assoc, ← shape]
      rw [List.cons_append, whole, commentView_lexeme_append body]
  · refine .inl fun {following} starts => commentView_of_head ?_ ?_
    · cases text with
      | nil => exact starts.head?_ne (by decide)
      | cons first text => exact slash
    · cases text with
      | nil => exact starts.head?_ne (by decide)
      | cons first text => exact star

/-- A piece of a gap before a seam ends there, whatever follows. -/
theorem view_gapPiece_seam {first : Char} {text : List Char}
    (closed : (gapPiece (first :: (text ++ seam))).view ≠ .unterminated) :
    (∀ {following}, StartsLine following →
        (gapPiece (first :: (text ++ following))).view = .none) ∨
      ∃ left breaks, ∀ {following}, StartsLine following →
        (gapPiece (first :: (text ++ following))).view = .piece (left ++ following) breaks := by
  simp only [view_gapPiece] at closed ⊢
  split_ifs at closed ⊢ with breaks blank slash
  · exact .inr ⟨text, true, fun _ => rfl⟩
  · exact .inr ⟨text, false, fun _ => rfl⟩
  · exact commentView_seam closed
  · exact .inl fun _ => rfl

/-- How a gap before a seam ends: before a token, whatever follows the text, or at the seam. -/
inductive GapBefore (text : List Char) (breaks : Bool) : Prop where
  | token {front first left} (shape : text = front ++ first :: left)
      (found : ∀ {following}, StartsLine following →
        gapView (text ++ following) = .ok (first :: (left ++ following), breaks))
  | seam {breaksHere} (ends : gapView text = .ok ([], breaksHere))
      (found : ∀ rest, gapView (text ++ (seam ++ rest)) = .ok (';' :: '\n' :: rest, true))

theorem gapBefore_of_gapView {text behind : List Char} {breaks : Bool}
    (found : gapView (text ++ seam) = .ok (behind, breaks)) : GapBefore text breaks := by
  match text with
  | [] =>
    refine .seam (gapView_of_none rfl) fun rest => ?_
    have line : (gapPiece (seam ++ rest)).view = .piece (';' :: '\n' :: rest) true :=
      view_gapPiece_of_breaks (by decide) _
    have semicolon : (gapPiece (';' :: '\n' :: rest)).view = .none := by
      have plain : isLineBreak ';' = false ∧ Text.isBlank ';' = false := by decide +kernel
      simp [view_gapPiece, plain.1, plain.2]
    rw [List.nil_append, gapView_of_piece line, gapView_of_none semicolon]
    rfl
  | first :: text =>
    have closed : (gapPiece (first :: (text ++ seam))).view ≠ .unterminated := by
      intro open_
      rw [List.cons_append, gapView_of_unterminated open_] at found
      contradiction
    rcases view_gapPiece_seam closed with none | ⟨left, breaksHere, piece⟩
    · have whole := found
      rw [List.cons_append, gapView_of_none (none startsLine_seam_nil)] at whole
      cases whole
      exact @GapBefore.token _ _ [] first text rfl fun starts => gapView_of_none (none starts)
    · have here := piece .nil
      rw [List.append_nil, List.append_nil] at here
      have shorter : left.length ≤ text.length := Nat.le_of_lt_succ (length_lt_of_view here)
      obtain ⟨passed, shape⟩ := exists_append_of_view here
      have next := found
      rw [List.cons_append, gapView_of_piece (piece startsLine_seam_nil)] at next
      cases further : gapView (left ++ seam) with
      | error count =>
        rw [further] at next
        contradiction
      | ok following =>
        obtain ⟨behindLeft, breaksLeft⟩ := following
        rw [further] at next
        cases next
        cases gapBefore_of_gapView further with
        | @token front firstToken rest shapeLeft foundToken =>
          refine @GapBefore.token _ _ (passed ++ front) firstToken rest ?_ fun starts => ?_
          · rw [shape, shapeLeft, List.append_assoc]
          · rw [List.cons_append, gapView_of_piece (piece starts), foundToken starts]
        | @seam breaksEnd ends foundSeam =>
          refine @GapBefore.seam _ _ (breaksHere || breaksEnd) ?_ fun rest => ?_
          · rw [gapView_of_piece here, ends]
          · rw [List.cons_append, gapView_of_piece (piece (startsLine_seam rest)), foundSeam]
            simp only [Bool.or_true]
termination_by text.length

/-! ## Tokens -/

theorem firstLine_append_line {following : List Char} (starts : StartsLine following)
    (text : List Char) : firstLine (text ++ following) = firstLine text := by
  induction text with
  | nil => cases starts <;> rfl
  | cons first text inductionHypothesis =>
    rw [List.cons_append]
    cases ends : endsLineComment first with
    | true => rw [firstLine_of_ends ends, firstLine_of_ends ends]
    | false => rw [firstLine_cons ends, firstLine_cons ends, inductionHypothesis]

section Tokens

variable {previous : Option Token} {braces : List Brace} {first : Char} {text : List Char}
  {scanned : Scanned (first :: (text ++ seam))}

theorem exists_left_of_templatePart {closed opened : TokenKind}
    (found : Scanned.templatePart closed opened braces first = some scanned) :
    ∃ left, first :: text = scanned.lexeme ++ left ∧ scanned.rest = left ++ seam ∧
      ∀ following, (Scanned.templatePart closed opened braces first :
        Option (Scanned (first :: (text ++ following)))).map Scanned.ending =
          some (left ++ following, scanned.kind, scanned.braces) := by
  obtain ⟨⟨ending, cut⟩, body, same⟩ := Option.map_eq_some_iff.mp found
  obtain ⟨mark, last, closing⟩ := getLast?_templateBody body
  obtain ⟨left, shape, rest⟩ := exists_rest_of_append cut.joined
    (.inr ⟨mark, last, (by simp [seam] : ∀ mark ∈ ['\x60', '{'], mark ∉ seam) mark closing⟩)
  refine ⟨left, ?_, ?_, fun following => ?_⟩
  · rw [← same]
    cases ending <;> exact congrArg (first :: ·) shape
  · rw [← same]
    cases ending <;> exact rest
  · have image := templateBody_lexeme_append body (left ++ following)
    rw [← List.append_assoc, ← shape] at image
    obtain ⟨⟨other, cutImage⟩, there, sameImage⟩ := Option.map_eq_some_iff.mp image
    obtain ⟨rfl, behind⟩ : other = ending ∧ cutImage.rest = left ++ following :=
      Prod.mk.inj sameImage
    rw [Scanned.templatePart, there, ← same]
    cases other <;> simp only [Option.map_some, Scanned.ending, Scanned.headed, Cut.push, behind]

theorem exists_left_of_stringBody {quote : Char} (foreign : quote ∉ seam) {cut : Cut (text ++ seam)}
    (found : stringBody quote (text ++ seam) = some cut) :
    ∃ left, text = cut.lexeme ++ left ∧ cut.rest = left ++ seam ∧
      ∀ following, (stringBody quote (text ++ following)).map Cut.rest =
        some (left ++ following) := by
  obtain ⟨left, shape, rest⟩ := exists_rest_of_append cut.joined
    (.inr ⟨quote, getLast?_stringBody found, foreign⟩)
  refine ⟨left, shape, rest, fun following => ?_⟩
  have image := stringBody_lexeme_append found (left ++ following)
  rwa [← List.append_assoc, ← shape] at image

/-- A literal before a seam ends there, and is scanned alike before every text. -/
theorem exists_left_of_scanLiteral (found : scanLiteral braces first (text ++ seam) = .ok scanned) :
    ∃ left, first :: text = scanned.lexeme ++ left ∧ scanned.rest = left ++ seam ∧
      ∀ following, (scanLiteral braces first (text ++ following)).map Scanned.ending =
        .ok (left ++ following, scanned.kind, scanned.braces) := by
  unfold scanLiteral at found ⊢
  split_ifs at found ⊢ with quote backtick
  · obtain ⟨cut, body, rfl⟩ := Option.map_eq_some_iff.mp (elim_eq_ok_iff.mp found)
    have foreign : first ∉ seam := by
      rw [Bool.or_eq_true, beq_iff_eq, beq_iff_eq] at quote
      rcases quote with rfl | rfl <;> decide
    obtain ⟨left, shape, rest, image⟩ := exists_left_of_stringBody foreign body
    refine ⟨left, congrArg (first :: ·) shape, rest, fun following => ?_⟩
    obtain ⟨other, there, same⟩ := Option.map_eq_some_iff.mp (image following)
    rw [there, ← same]
    rfl
  all_goals
    obtain ⟨left, shape, rest, image⟩ := exists_left_of_templatePart (elim_eq_ok_iff.mp found)
    refine ⟨left, shape, rest, fun following => ?_⟩
    obtain ⟨other, there, same⟩ := Option.map_eq_some_iff.mp (image following)
    rw [there, ← same]
    rfl

/-- A token before a seam ends there, and is scanned alike whatever line follows the text. -/
theorem exists_left_of_scanToken (inside : endsLineComment first = false)
    (found : scanToken previous braces first (text ++ seam) = .ok scanned) :
    ∃ left, first :: text = scanned.lexeme ++ left ∧ scanned.rest = left ++ seam ∧
      ∀ {following}, StartsLine following →
        (scanToken previous braces first (text ++ following)).map Scanned.ending =
          .ok (left ++ following, scanned.kind, scanned.braces) := by
  cases literal : startsLiteral braces first with
  | true =>
    rw [scanToken_of_literal literal] at found
    obtain ⟨left, shape, rest, image⟩ := exists_left_of_scanLiteral found
    refine ⟨left, shape, rest, fun {following} _ => ?_⟩
    rw [scanToken_of_literal literal, image following]
  | false =>
    have oneLine : '\n' ∉ scanned.lexeme := fun member =>
      absurd (not_ends_of_mem_lexeme inside literal found member) (by decide)
    obtain ⟨left, shape, rest⟩ : ∃ left, first :: text = scanned.lexeme ++ left ∧
        scanned.rest = left ++ seam := exists_rest_of_append scanned.joined (.inl oneLine)
    refine ⟨left, shape, rest, fun {following} starts => ?_⟩
    have same : (scanToken previous braces first (text ++ following)).map Scanned.view =
        (scanToken previous braces first (text ++ seam)).map Scanned.view := by
      rw [← scanToken_firstLine previous inside literal, firstLine_append_line starts,
        ← firstLine_append_line startsLine_seam_nil, scanToken_firstLine previous inside literal]
    rw [found] at same
    obtain ⟨fault, -, here⟩ | ⟨image, value, there, here, view⟩ := map_eq_map_cases same
    · contradiction
    · cases here
      simp only [Scanned.view, Prod.mk.injEq] at view
      obtain ⟨lexeme, kind, bracesAfter⟩ := view
      have behind : scanned.lexeme ++ image.rest = scanned.lexeme ++ (left ++ following) :=
        calc scanned.lexeme ++ image.rest = image.lexeme ++ image.rest := by rw [lexeme]
          _ = first :: text ++ following := image.joined
          _ = scanned.lexeme ++ (left ++ following) := by rw [shape, List.append_assoc]
      rw [there]
      simp only [Except.map, Scanned.ending, List.append_cancel_left behind, kind, bracesAfter]

end Tokens

end Playground

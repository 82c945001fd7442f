import Mathlib.Data.List.Find
import Mathlib.Tactic.SplitIfs
import Playground.Erasure.Lexer

/-!
# What scanners look at

Equations for the scanners of the tokenizer that name the rest of their cuts only, and one fact
about what they look at: words, numbers, regular expressions and punctuators end with their line
at the latest, so what the tokenizer finds there depends on the rest of the line only. Strings
and templates may reach over a line end; `scanLiteral` is the part of `scanToken` that is about
them, and `scanToken_firstLine` is about the other tokens.
-/

namespace Playground

/-! ## Cuts -/

theorem map_lexeme_push {input : List Char} (found : Option (Cut input)) (character : Char) :
    (found.map (·.push character)).map Cut.lexeme =
      (found.map Cut.lexeme).map (character :: ·) := by
  cases found <;> rfl

theorem map_lexeme_escape {input : List Char} (found : Option (Cut input)) (escaped : Char) :
    (found.map fun cut => (cut.push escaped).push '\\').map Cut.lexeme =
      (found.map Cut.lexeme).map ('\\' :: escaped :: ·) := by
  cases found <;> rfl

theorem map_rest_push {input : List Char} (found : Option (Cut input)) (character : Char) :
    (found.map (·.push character)).map Cut.rest = found.map Cut.rest := by
  cases found <;> rfl

theorem map_rest_escape {input : List Char} (found : Option (Cut input)) (escaped : Char) :
    (found.map fun cut => (cut.push escaped).push '\\').map Cut.rest = found.map Cut.rest := by
  cases found <;> rfl

/-- How a part of a template ends, and what stands behind it. -/
def partEnd {input : List Char} (part : TemplateEnd × Cut input) : TemplateEnd × List Char :=
  (part.1, part.2.rest)

theorem map_partEnd_push {input : List Char} (found : Option (TemplateEnd × Cut input))
    (character : Char) :
    (found.map fun (ending, cut) => (ending, cut.push character)).map partEnd =
      found.map partEnd := by
  cases found <;> rfl

theorem map_partEnd_escape {input : List Char} (found : Option (TemplateEnd × Cut input))
    (escaped : Char) :
    (found.map fun (ending, cut) => (ending, (cut.push escaped).push '\\')).map partEnd =
      found.map partEnd := by
  cases found <;> rfl

/-! ## Bodies of literals and comments -/

/-- A character that neither protects another nor stands alone at the end is no backslash. -/
theorem ne_backslash {character : Char} {rest : List Char}
    (notLast : character = '\\' → rest = [] → False)
    (notEscape : ∀ escaped following, character = '\\' → rest = escaped :: following → False) :
    character ≠ '\\' := by
  intro escape
  cases rest with
  | nil => exact notLast escape rfl
  | cons escaped following => exact notEscape escaped following escape rfl

theorem stringBody_cons {quote character : Char} (plain : character ≠ '\\') (rest : List Char) :
    stringBody quote (character :: rest) =
      if endsLineComment character then none
      else if character == quote then some ⟨[character], rest, rfl⟩
      else (stringBody quote rest).map (·.push character) :=
  stringBody.eq_4 quote character rest (fun same _ => plain same) fun _ _ same _ => plain same

section StringItems

variable {quote character : Char}

theorem rest_stringBody_plain (inside : character ≠ quote ∧ character ≠ '\\')
    (onLine : endsLineComment character = false) (rest : List Char) :
    (stringBody quote (character :: rest)).map Cut.rest = (stringBody quote rest).map Cut.rest := by
  rw [stringBody_cons inside.2, if_neg (by simp [onLine]), if_neg (by simpa using inside.1),
    map_rest_push]

/-- A backslash protects any single character. -/
theorem rest_stringBody_escape (rest : List Char) :
    (stringBody quote ('\\' :: character :: rest)).map Cut.rest =
      (stringBody quote rest).map Cut.rest := by
  rw [stringBody, map_rest_escape]

theorem rest_stringBody_quote (quoted : quote = '"' ∨ quote = '\'') (rest : List Char) :
    (stringBody quote (quote :: rest)).map Cut.rest = some rest := by
  have plain : quote ≠ '\\' ∧ endsLineComment quote = false := by
    rcases quoted with rfl | rfl <;> decide
  rw [stringBody_cons plain.1, if_neg (by simp [plain.2]), if_pos (beq_self_eq_true quote)]
  rfl

end StringItems

theorem templateBody_cons {character : Char} (plain : character ≠ '\\') {rest : List Char}
    (noSubstitution : ¬(character = '$' ∧ rest.head? = some '{')) :
    templateBody (character :: rest) =
      if character == '\x60' then some (.closed, ⟨[character], rest, rfl⟩)
      else (templateBody rest).map fun (ending, cut) => (ending, cut.push character) :=
  templateBody.eq_5 character rest (fun same _ => plain same) (fun _ _ same _ => plain same)
    fun _ dollar brace => noSubstitution ⟨dollar, by rw [brace]; rfl⟩

theorem regexBody_cons {character : Char} (plain : character ≠ '\\') (inClass : Bool)
    (rest : List Char) : regexBody inClass (character :: rest) =
      if endsLineComment character then none
      else if character == '/' && !inClass then some ⟨[character], rest, rfl⟩
      else (regexBody ((inClass || character == '[') && character != ']') rest).map
        (·.push character) :=
  regexBody.eq_4 inClass character rest (fun same _ => plain same) fun _ _ same _ => plain same

theorem blockCommentBody_cons {character : Char} {rest : List Char}
    (opened : ¬(character = '*' ∧ rest.head? = some '/')) :
    blockCommentBody (character :: rest) = (blockCommentBody rest).map (·.push character) :=
  blockCommentBody.eq_3 character rest fun _ star slash => opened ⟨star, by rw [slash]; rfl⟩

/-! Strings, templates and block comments end with a mark that closes them. -/

section Closed

variable {input : List Char}

/-- What a lexeme starts with does not depend on what follows it. -/
theorem Cut.head?_append {cut : Cut input} {mark : Char} (last : cut.lexeme.getLast? = some mark)
    (rest : List Char) : (cut.lexeme ++ rest).head? = input.head? := by
  obtain ⟨lexeme, behind, rfl⟩ := cut
  cases lexeme with
  | nil => contradiction
  | cons first lexeme => rfl

theorem getLast?_stringBody {quote : Char} {cut : Cut input}
    (found : stringBody quote input = some cut) : cut.lexeme.getLast? = some quote := by
  fun_induction stringBody quote input with
  | case1 | case2 | case4 => contradiction
  | case3 escaped rest inductionHypothesis =>
    obtain ⟨body, foundBody, rfl⟩ := Option.map_eq_some_iff.mp found
    simp [Cut.push, List.getLast?_cons, inductionHypothesis foundBody]
  | case5 character rest _ _ _ closes =>
    cases found
    simpa using closes
  | case6 character rest _ _ _ _ inductionHypothesis =>
    obtain ⟨body, foundBody, rfl⟩ := Option.map_eq_some_iff.mp found
    simp [Cut.push, List.getLast?_cons, inductionHypothesis foundBody]

theorem getLast?_templateBody {ending : TemplateEnd} {cut : Cut input}
    (found : templateBody input = some (ending, cut)) :
    ∃ mark, cut.lexeme.getLast? = some mark ∧ mark ∈ ['\x60', '{'] := by
  fun_induction templateBody input generalizing ending with
  | case1 | case2 => contradiction
  | case3 escaped rest inductionHypothesis =>
    obtain ⟨⟨_, body⟩, foundBody, same⟩ := Option.map_eq_some_iff.mp found
    cases same
    obtain ⟨mark, last, closing⟩ := inductionHypothesis foundBody
    exact ⟨mark, by simp [Cut.push, List.getLast?_cons, last], closing⟩
  | case4 =>
    cases found
    exact ⟨'{', rfl, by decide⟩
  | case5 character rest _ _ _ closes =>
    cases found
    obtain rfl := beq_iff_eq.mp closes
    exact ⟨'\x60', rfl, by decide⟩
  | case6 character rest _ _ _ _ inductionHypothesis =>
    obtain ⟨⟨_, body⟩, foundBody, same⟩ := Option.map_eq_some_iff.mp found
    cases same
    obtain ⟨mark, last, closing⟩ := inductionHypothesis foundBody
    exact ⟨mark, by simp [Cut.push, List.getLast?_cons, last], closing⟩

theorem getLast?_blockCommentBody {cut : Cut input} (found : blockCommentBody input = some cut) :
    cut.lexeme.getLast? = some '/' := by
  fun_induction blockCommentBody input with
  | case1 => contradiction
  | case2 =>
    cases found
    rfl
  | case3 character rest _ inductionHypothesis =>
    obtain ⟨body, foundBody, rfl⟩ := Option.map_eq_some_iff.mp found
    simp [Cut.push, List.getLast?_cons, inductionHypothesis foundBody]

end Closed

/-! ## Gaps -/

/-- The first piece of a gap by what stands behind it and whether it breaks the line. -/
inductive PieceView where
  | none
  | unterminated
  | piece (rest : List Char) (breaksLine : Bool)

def GapPiece.view {input : List Char} : GapPiece input → PieceView
  | .none => .none
  | .unterminated => .unterminated
  | .piece cut breaksLine _ => .piece cut.rest breaksLine

/-- The comment whose first slash has been passed, if there is one. -/
def commentView : List Char → PieceView
  | '/' :: afterSlashes =>
    .piece (afterSlashes.dropWhile fun next => !endsLineComment next) false
  | '*' :: afterStar =>
    match blockCommentBody afterStar with
    | none => .unterminated
    | some body => .piece body.rest (body.lexeme.contains '\n')
  | _ => .none

theorem commentView_of_head {rest : List Char} (notSlash : rest.head? ≠ some '/')
    (notStar : rest.head? ≠ some '*') : commentView rest = .none := by
  unfold commentView
  split
  · exact absurd rfl notSlash
  · exact absurd rfl notStar
  · rfl

theorem view_gapPiece (first : Char) (rest : List Char) :
    (gapPiece (first :: rest)).view =
      if isLineBreak first then .piece rest true
      else if Text.isBlank first || first == '\ufeff' then .piece rest false
      else if first == '/' then commentView rest
      else .none := by
  unfold gapPiece
  dsimp only
  split_ifs
  · rfl
  · rfl
  · split
    · rfl
    · rename_i afterStar
      cases body : blockCommentBody afterStar with
      | none => simp [GapPiece.view, commentView, body]
      | some cut => simp [GapPiece.view, commentView, body, Cut.push]
    · rename_i notSlash notStar
      refine (commentView_of_head (fun slash => ?_) fun star => ?_).symm
      · obtain ⟨following, shape⟩ := List.head?_eq_some_iff.mp slash
        exact notSlash following shape
      · obtain ⟨following, shape⟩ := List.head?_eq_some_iff.mp star
        exact notStar following shape
  · rfl

theorem view_gapPiece_of_breaks {first : Char} (breaks : isLineBreak first = true)
    (rest : List Char) : (gapPiece (first :: rest)).view = .piece rest true := by
  rw [view_gapPiece, if_pos breaks]

/-- A gap by what stands behind it and whether it breaks the line, or the number of characters
before a block comment that never ends. -/
def gapView (input : List Char) : Except Nat (List Char × Bool) :=
  (gap input).map fun before => (before.rest, before.breaksLine)

section GapView

variable {input rest : List Char} {breaks : Bool}

theorem gapView_of_none (found : (gapPiece input).view = .none) :
    gapView input = .ok (input, false) := by
  unfold gapView
  rw [gap]
  split
  · rfl
  all_goals simp_all [GapPiece.view]

theorem gapView_of_unterminated (found : (gapPiece input).view = .unterminated) :
    gapView input = .error 0 := by
  unfold gapView
  rw [gap]
  split
  case h_2 => rfl
  all_goals simp_all [GapPiece.view]

/-- A gap that starts with a piece goes on behind it. -/
theorem gapView_of_piece (found : (gapPiece input).view = .piece rest breaks) :
    gapView input = match gapView rest with
      | .ok (behind, breaksAfter) => .ok (behind, breaks || breaksAfter)
      | .error passed => .error (input.length - rest.length + passed) := by
  unfold gapView
  rw [gap]
  split
  case h_3 cut breaksHere progress shape =>
    rw [shape, GapPiece.view, PieceView.piece.injEq] at found
    obtain ⟨rfl, rfl⟩ := found
    have size := cut.length_add
    have length : input.length - cut.rest.length = cut.lexeme.length := by omega
    rw [length]
    cases gap cut.rest <;> rfl
  all_goals simp_all [GapPiece.view]

/-- What stands behind a piece is shorter. -/
theorem length_lt_of_view (found : (gapPiece input).view = .piece rest breaks) :
    rest.length < input.length := by
  cases shape : gapPiece input with
  | piece cut breaksHere progress =>
    rw [shape, GapPiece.view, PieceView.piece.injEq] at found
    exact found.1 ▸ progress
  | none | unterminated =>
    rw [shape] at found
    contradiction

/-- The piece and what stands behind it make up the input. -/
theorem exists_append_of_view (found : (gapPiece input).view = .piece rest breaks) :
    ∃ front, input = front ++ rest := by
  cases shape : gapPiece input with
  | piece cut breaksHere progress =>
    rw [shape, GapPiece.view, PieceView.piece.injEq] at found
    exact ⟨cut.lexeme, by rw [← found.1, cut.joined]⟩
  | none | unterminated =>
    rw [shape] at found
    contradiction

/-- A gap and what stands behind it make up the input. -/
theorem exists_append_of_gapView (found : gapView input = .ok (rest, breaks)) :
    ∃ front, input = front ++ rest := by
  unfold gapView at found
  cases shape : gap input with
  | error passed =>
    rw [shape] at found
    contradiction
  | ok before =>
    rw [shape] at found
    simp only [Except.map, Except.ok.injEq, Prod.mk.injEq] at found
    exact ⟨before.lexeme, by rw [← found.1, before.joined]⟩

/-- No piece of a gap stands behind a gap. -/
theorem view_of_gapView (found : gapView input = .ok (rest, breaks)) :
    (gapPiece rest).view = .none := by
  unfold gapView at found
  cases shape : gap input with
  | error passed =>
    rw [shape] at found
    contradiction
  | ok before =>
    rw [shape] at found
    obtain rfl : before.rest = rest := congrArg Prod.fst (Except.ok.inj found)
    clear found
    fun_induction gap input with
    | case1 input none =>
      cases shape
      rw [Cut.atStart, none, GapPiece.view]
    | case2 | case4 => contradiction
    | case3 input cut breaksHere progress piece following foundFollowing inductionHypothesis =>
      cases shape
      exact inductionHypothesis following foundFollowing

theorem not_breaks_of_gapView {first : Char} (found : gapView input = .ok (first :: rest, breaks)) :
    isLineBreak first = false := by
  rw [Bool.eq_false_iff]
  intro breaksLine
  have none := view_of_gapView found
  rw [view_gapPiece_of_breaks breaksLine] at none
  contradiction

theorem le_length_of_gapView {passed : Nat} (found : gapView input = .error passed) :
    passed ≤ input.length := by
  unfold gapView at found
  cases shape : gap input with
  | ok before =>
    rw [shape] at found
    contradiction
  | error here =>
    rw [shape] at found
    cases found
    fun_induction gap input generalizing passed with
    | case1 | case3 => contradiction
    | case2 =>
      cases shape
      exact Nat.zero_le _
    | case4 input cut breaksHere progress piece further foundFurther inductionHypothesis =>
      have size := cut.length_add
      have := inductionHypothesis foundFurther
      have := Except.error.inj shape
      omega

end GapView

/-! ## The first line -/

/-- The characters up to the first line end. -/
def firstLine (input : List Char) : List Char :=
  input.takeWhile fun character => !endsLineComment character

section FirstLine

variable {input rest : List Char} {character : Char}

@[simp] theorem firstLine_nil : firstLine [] = [] := rfl

theorem firstLine_of_ends (ends : endsLineComment character = true) :
    firstLine (character :: rest) = [] := by
  simp [firstLine, ends]

theorem firstLine_cons (inside : endsLineComment character = false) :
    firstLine (character :: rest) = character :: firstLine rest := by
  simp [firstLine, inside]

/-- No line ends within the first line. -/
theorem not_ends_of_mem_firstLine (member : character ∈ firstLine input) :
    endsLineComment character = false := by
  have accepted := List.all_eq_true.mp List.all_takeWhile character member
  simpa using accepted

end FirstLine

theorem ends_iff {character : Char} :
    endsLineComment character = true ↔ character = '\n' ∨ character = '\r' := by
  simp [endsLineComment]

/-- Characters of words and numbers end no line. -/
theorem not_ends_of_accepts {accepts : Char → Bool} (newline : accepts '\n' = false)
    (returns : accepts '\r' = false) {character : Char} (accepted : accepts character = true) :
    endsLineComment character = false := by
  rw [Bool.eq_false_iff]
  intro ends
  obtain rfl | rfl := ends_iff.mp ends
  · rw [newline] at accepted
    contradiction
  · rw [returns] at accepted
    contradiction

/-! ## Scanners -/

section Scanners

variable {accepts : Char → Bool} (newline : accepts '\n' = false) (returns : accepts '\r' = false)

include newline returns

/-- A run of characters that end no line. -/
theorem takeWhile_firstLine (input : List Char) :
    (firstLine input).takeWhile accepts = input.takeWhile accepts := by
  induction input with
  | nil => rfl
  | cons first rest inductionHypothesis =>
    cases accepted : accepts first with
    | true =>
      rw [firstLine_cons (not_ends_of_accepts newline returns accepted)]
      simp [accepted, inductionHypothesis]
    | false =>
      cases ends : endsLineComment first with
      | true => simp [firstLine_of_ends ends, accepted]
      | false => simp [firstLine_cons ends, accepted]

/-- A character that is looked for at the front of the rest. -/
theorem head?_firstLine (input : List Char) :
    (firstLine input).head?.any accepts = input.head?.any accepts := by
  cases input with
  | nil => rfl
  | cons first rest =>
    cases ends : endsLineComment first with
    | false => simp [firstLine_cons ends]
    | true =>
      have refused : accepts first = false := by
        obtain rfl | rfl := ends_iff.mp ends
        · exact newline
        · exact returns
      simp [firstLine_of_ends ends, refused]

end Scanners

theorem startsWithDigit_firstLine (input : List Char) :
    startsWithDigit (firstLine input) = startsWithDigit input := by
  have headed : ∀ input, startsWithDigit input = input.head?.any Char.isDigit := by
    intro input
    cases input <;> rfl
  rw [headed, headed, head?_firstLine (by decide) (by decide)]

theorem numberRun_firstLine (hexadecimal : Bool) (previous : Char) (input : List Char) :
    (numberRun hexadecimal previous (firstLine input)).lexeme =
      (numberRun hexadecimal previous input).lexeme := by
  induction input generalizing previous with
  | nil => rfl
  | cons first rest inductionHypothesis =>
    cases ends : endsLineComment first with
    | false =>
      rw [firstLine_cons ends, numberRun, numberRun]
      split
      · exact congrArg (first :: ·) (inductionHypothesis first)
      · rfl
    | true =>
      rw [firstLine_of_ends ends]
      obtain rfl | rfl := ends_iff.mp ends
      all_goals simp [numberRun, Cut.atStart]

theorem isHexadecimal_firstLine (first : Char) (rest : List Char) :
    isHexadecimal (first :: firstLine rest) = isHexadecimal (first :: rest) := by
  cases rest with
  | nil => rfl
  | cons second rest =>
    cases ends : endsLineComment second with
    | false =>
      rw [firstLine_cons ends]
      unfold isHexadecimal
      split <;> simp_all
    | true =>
      rw [firstLine_of_ends ends]
      obtain rfl | rfl := ends_iff.mp ends
      all_goals simp [isHexadecimal]

theorem regexBody_firstLine (inClass : Bool) (input : List Char) :
    (regexBody inClass (firstLine input)).map Cut.lexeme =
      (regexBody inClass input).map Cut.lexeme := by
  fun_induction regexBody inClass input with
  | case1 | case2 => rfl
  | case3 inClass escaped rest ends =>
    rw [firstLine_cons (by decide), firstLine_of_ends ends]
    rfl
  | case4 inClass escaped rest inside inductionHypothesis =>
    rw [firstLine_cons (by decide), firstLine_cons (Bool.eq_false_iff.mpr inside), regexBody,
      if_neg inside, map_lexeme_escape, map_lexeme_escape, inductionHypothesis]
  | case5 inClass character rest notLast notEscape ends =>
    rw [firstLine_of_ends ends]
    rfl
  | case6 inClass character rest notLast notEscape inside closes =>
    have plain : character ≠ '\\' := by
      rintro rfl
      exact absurd (Bool.and_eq_true_iff.mp closes).1 (by decide)
    rw [firstLine_cons (Bool.eq_false_iff.mpr inside), regexBody_cons plain, if_neg inside,
      if_pos closes]
    rfl
  | case7 inClass character rest notLast notEscape inside goesOn inductionHypothesis =>
    have plain := ne_backslash notLast notEscape
    rw [firstLine_cons (Bool.eq_false_iff.mpr inside), regexBody_cons plain, if_neg inside,
      if_neg goesOn, map_lexeme_push, map_lexeme_push, inductionHypothesis]

/-! ## Punctuators -/

section Punctuators

variable {mark : List Char} (plain : ∀ character ∈ mark, endsLineComment character = false)

include plain

theorem firstLine_append (rest : List Char) : firstLine (mark ++ rest) = mark ++ firstLine rest := by
  induction mark with
  | nil => rfl
  | cons first mark inductionHypothesis =>
    rw [List.cons_append, firstLine_cons (plain first (List.mem_cons_self ..)),
      inductionHypothesis fun character member => plain character (List.mem_cons_of_mem _ member)]
    rfl

theorem isPrefixOf_firstLine (input : List Char) :
    mark.isPrefixOf (firstLine input) = mark.isPrefixOf input := by
  rw [Bool.eq_iff_iff, List.isPrefixOf_iff_prefix, List.isPrefixOf_iff_prefix]
  constructor
  · exact fun front => front.trans (List.takeWhile_prefix _)
  · rintro ⟨rest, rfl⟩
    rw [firstLine_append plain]
    exact List.prefix_append mark (firstLine rest)

end Punctuators

theorem not_ends_of_mem_longPunctuators : ∀ mark ∈ longPunctuators, ∀ character ∈ mark,
    endsLineComment character = false := by
  simp [longPunctuators, endsLineComment]

theorem punctuatorLength_firstLine (input : List Char) :
    punctuatorLength (firstLine input) = punctuatorLength input := by
  have same : ∀ mark ∈ longPunctuators,
      (mark.isPrefixOf (firstLine input) &&
        !(mark == ['?', '.'] && startsWithDigit ((firstLine input).drop 2))) =
      (mark.isPrefixOf input && !(mark == ['?', '.'] && startsWithDigit (input.drop 2))) := by
    intro mark listed
    have plain := not_ends_of_mem_longPunctuators mark listed
    rw [isPrefixOf_firstLine plain]
    cases front : mark.isPrefixOf input with
    | false => rfl
    | true =>
      obtain ⟨rest, rfl⟩ := List.isPrefixOf_iff_prefix.mp front
      rw [firstLine_append plain]
      by_cases chaining : mark = ['?', '.']
      · subst chaining
        simp [startsWithDigit_firstLine]
      · rw [beq_eq_false_iff_ne.mpr chaining]
        rfl
  unfold punctuatorLength
  rw [List.find?_congr same]

/-- A punctuator is spelled on its line. -/
theorem take_punctuatorLength_firstLine {first : Char} (inside : endsLineComment first = false)
    (rest : List Char) :
    (firstLine (first :: rest)).take (punctuatorLength (first :: rest)) =
      (first :: rest).take (punctuatorLength (first :: rest)) := by
  unfold punctuatorLength
  split
  case h_1 mark found =>
    have plain := not_ends_of_mem_longPunctuators mark (List.mem_of_find?_eq_some found)
    have accepted := List.find?_some found
    have front := (Bool.and_eq_true_iff.mp accepted).1
    obtain ⟨following, shape⟩ := List.isPrefixOf_iff_prefix.mp front
    rw [← shape, firstLine_append plain, List.take_left, List.take_left]
  case h_2 => rw [firstLine_cons inside, List.take_succ_cons, List.take_succ_cons, List.take_zero,
    List.take_zero]

/-! ## Tokens -/

/-- A cut within the first line leaves the rest of that line. -/
theorem rest_of_lexeme {input : List Char} {cut : Cut input} {image : Cut (firstLine input)}
    (same : image.lexeme = cut.lexeme) : image.rest = firstLine cut.rest := by
  have plain : ∀ character ∈ cut.lexeme, endsLineComment character = false := by
    intro character member
    have onLine : character ∈ firstLine input := by
      rw [← image.joined, same]
      exact List.mem_append_left _ member
    exact not_ends_of_mem_firstLine onLine
  have joined : cut.lexeme ++ image.rest = firstLine (cut.lexeme ++ cut.rest) :=
    calc cut.lexeme ++ image.rest = image.lexeme ++ image.rest := by rw [same]
      _ = firstLine input := image.joined
      _ = firstLine (cut.lexeme ++ cut.rest) := by rw [cut.joined]
  rw [firstLine_append plain] at joined
  exact List.append_cancel_left joined

/-- What a scanned token looks like. -/
def Scanned.view {input : List Char} (scanned : Scanned input) : List Char × TokenKind × List Brace :=
  (scanned.lexeme, scanned.kind, scanned.braces)

/-- Whether a literal that may reach over line ends starts with a character. -/
def startsLiteral (braces : List Brace) (first : Char) : Bool :=
  first == '"' || first == '\'' || first == '\x60' ||
    (first == '}' && braces.head? == some .substitution)

/-- A token that is neither a string nor a part of a template depends on its line only. -/
theorem scanToken_firstLine (previous : Option Token) {braces : List Brace} {first : Char}
    (inside : endsLineComment first = false) (plain : startsLiteral braces first = false)
    (rest : List Char) :
    (scanToken previous braces first (firstLine rest)).map Scanned.view =
      (scanToken previous braces first rest).map Scanned.view := by
  simp only [startsLiteral, Bool.or_eq_false_iff] at plain
  obtain ⟨⟨⟨double, single⟩, template⟩, resumes⟩ := plain
  have word : (continuesWord '\n' = false) ∧ (continuesWord '\r' = false) := by decide +kernel
  have start : (startsWord '\n' = false) ∧ (startsWord '\r' = false) := by decide +kernel
  unfold scanToken
  simp only [double, single, template, resumes, head?_firstLine start.1 start.2,
    startsWithDigit_firstLine, isHexadecimal_firstLine, Bool.or_false, if_false, Bool.false_eq_true]
  have tail := takeWhile_firstLine word.1 word.2
  split_ifs with isPrivate isWord isNumber isRegex
  case pos | pos =>
    simp only [Except.map, Scanned.view, Scanned.headed, Cut.push, Cut.spanning, tail]
  case pos =>
    simp only [Except.map, Scanned.view, Scanned.headed, Cut.push, numberRun_firstLine]
  case pos =>
    have body := regexBody_firstLine false rest
    cases here : regexBody false rest with
    | none =>
      rw [here, Option.map_none, Option.map_eq_none_iff] at body
      rw [body]
      rfl
    | some cut =>
      rw [here, Option.map_some, Option.map_eq_some_iff] at body
      obtain ⟨image, there, same⟩ := body
      rw [there]
      simp only [Except.map, Scanned.view, Scanned.headed, Cut.push, Cut.append, Cut.spanning,
        same, rest_of_lexeme same, tail]
  case neg =>
    have line : firstLine (first :: rest) = first :: firstLine rest := firstLine_cons inside
    simp only [Except.map, Scanned.view, Scanned.punctuator, Cut.after, ← line,
      punctuatorLength_firstLine, take_punctuatorLength_firstLine inside]

/-- The token before counts only by whether a regular expression may follow it. -/
theorem scanToken_congr {previous other : Option Token}
    (same : regexAllowed other = regexAllowed previous) (braces : List Brace) (first : Char)
    (rest : List Char) : scanToken other braces first rest = scanToken previous braces first rest := by
  unfold scanToken
  rw [same]

/-- A token that is neither a string nor a part of a template holds no line end. -/
theorem not_ends_of_mem_lexeme {previous : Option Token} {braces : List Brace} {first : Char}
    {rest : List Char} {scanned : Scanned (first :: rest)} (inside : endsLineComment first = false)
    (plain : startsLiteral braces first = false)
    (found : scanToken previous braces first rest = .ok scanned) {character : Char}
    (member : character ∈ scanned.lexeme) : endsLineComment character = false := by
  have same := scanToken_firstLine previous inside plain rest
  rw [found] at same
  cases shape : scanToken previous braces first (firstLine rest) with
  | error fault =>
    rw [shape] at same
    contradiction
  | ok image =>
    rw [shape] at same
    have lexeme : image.lexeme = scanned.lexeme := congrArg Prod.fst (Except.ok.inj same)
    have onLine : character ∈ firstLine (first :: rest) := by
      rw [firstLine_cons inside, ← image.joined, lexeme]
      exact List.mem_append_left _ member
    exact not_ends_of_mem_firstLine onLine

/-- Results that correspond, where none is a fault. -/
theorem map_elim_congr {α β γ ε : Type} {one : Option α} {other : Option β} {view : α → γ}
    {otherView : β → γ} (same : one.map view = other.map otherView) (fault : ε) :
    (one.elim (.error fault) .ok : Except ε α).map view =
      (other.elim (.error fault) .ok : Except ε β).map otherView := by
  cases one <;> cases other <;> simp_all [Except.map]

/-- Results that correspond are faults, or values that correspond. -/
theorem map_eq_map_cases {α β γ ε : Type} {one : Except ε α} {other : Except ε β} {view : α → γ}
    {otherView : β → γ} (same : one.map view = other.map otherView) :
    (∃ fault, one = .error fault ∧ other = .error fault) ∨
      ∃ value image, one = .ok value ∧ other = .ok image ∧ view value = otherView image := by
  cases one <;> cases other <;> simp_all [Except.map]

theorem elim_eq_ok_iff {α ε : Type} {found : Option α} {fault : ε} {value : α} :
    found.elim (.error fault) .ok = Except.ok value ↔ found = some value := by
  cases found <;> simp

/-- The string or the part of a template at the front of the input. -/
def scanLiteral (braces : List Brace) (first : Char) (rest : List Char) :
    Except SyntaxFault (Scanned (first :: rest)) :=
  if first == '"' || first == '\'' then
    ((stringBody first rest).map (.headed .string braces first)).elim (.error .unterminatedString)
      .ok
  else
    (if first == '\x60' then Scanned.templatePart .template .templateHead braces first
      else Scanned.templatePart .templateTail .templateMiddle braces.tail first).elim
      (.error .unterminatedTemplate) .ok

theorem scanToken_of_literal {previous : Option Token} {braces : List Brace} {first : Char}
    (literal : startsLiteral braces first = true) (rest : List Char) :
    scanToken previous braces first rest = scanLiteral braces first rest := by
  have listed : first ∈ ['"', '\'', '\x60', '\x7d'] := by
    simp only [startsLiteral, Bool.or_eq_true, Bool.and_eq_true, beq_iff_eq] at literal
    rcases literal with ((quote | quote) | backtick) | ⟨resumes, -⟩
    all_goals simp [*]
  have plain : ∀ first ∈ ['"', '\'', '\x60', '\x7d'],
      (first == '#') = false ∧ startsWord first = false ∧ first.isDigit = false ∧
        (first == '.') = false := by
    simp only [List.forall_mem_cons, List.not_mem_nil, false_imp_iff, implies_true, and_true]
    decide +kernel
  obtain ⟨notPrivate, notWord, notDigit, notPoint⟩ := plain first listed
  unfold scanToken scanLiteral
  simp only [notPrivate, notWord, notDigit, notPoint, Bool.false_and, Bool.or_false, if_false,
    Bool.false_eq_true]
  split_ifs with quote backtick resumes
  · cases stringBody first rest <;> rfl
  · cases Scanned.templatePart .template .templateHead braces first <;> rfl
  · cases Scanned.templatePart .templateTail .templateMiddle braces.tail first <;> rfl
  all_goals
    simp only [startsLiteral, Bool.or_eq_true, Bool.and_eq_true] at *
    grind

/-- What the tokenizer goes on with behind a token. -/
def Scanned.ending {input : List Char} (scanned : Scanned input) :
    List Char × TokenKind × List Brace :=
  (scanned.rest, scanned.kind, scanned.braces)

/-! ## Runs of the tokenizer -/

section Runs

variable {offset passed : Nat} {previous : Option Token} {braces : List Brace}
  {input front rest : List Char} {first : Char} {breaks : Bool}

theorem tokensFrom_of_unterminated (found : gapView input = .error passed) :
    tokensFrom offset previous braces input = .error ⟨.unterminatedComment, offset + passed⟩ := by
  unfold gapView at found
  rw [tokensFrom]
  split
  case h_1 shape =>
    rw [shape] at found
    cases found
    rfl
  case h_2 before shape =>
    rw [shape] at found
    contradiction

theorem tokensFrom_of_end (found : gapView input = .ok ([], breaks)) :
    tokensFrom offset previous braces input = .ok [] := by
  unfold gapView at found
  rw [tokensFrom]
  split
  case h_1 shape =>
    rw [shape] at found
    contradiction
  case h_2 before shape =>
    rw [shape] at found
    simp only [Except.map, Except.ok.injEq, Prod.mk.injEq] at found
    split
    case h_1 => rfl
    case h_2 further =>
      rw [further] at found
      exact absurd found.1 (List.cons_ne_nil _ _)

/-- The token behind a gap, and the tokens behind that token. -/
theorem tokensFrom_of_gap (found : gapView (front ++ first :: rest) = .ok (first :: rest, breaks)) :
    tokensFrom offset previous braces (front ++ first :: rest) =
      match scanToken previous braces first rest with
      | .error fault => .error ⟨fault, offset + front.length⟩
      | .ok scanned =>
        let token : Token :=
          ⟨scanned.kind, String.ofList scanned.lexeme, offset + front.length, breaks⟩
        (token :: ·) <$> tokensFrom (offset + front.length + scanned.lexeme.length) (some token)
          scanned.braces scanned.rest := by
  unfold gapView at found
  rw [tokensFrom]
  split
  case h_1 shape =>
    rw [shape] at found
    contradiction
  case h_2 before shape =>
    rw [shape] at found
    simp only [Except.map, Except.ok.injEq, Prod.mk.injEq] at found
    obtain ⟨same, rfl⟩ := found
    have length : before.lexeme.length = front.length := by
      have whole := before.length_add
      rw [same, List.length_append] at whole
      omega
    split
    case h_1 empty =>
      rw [empty] at same
      contradiction
    case h_2 following further =>
      obtain ⟨rfl, rfl⟩ := List.cons.inj (further.symm.trans same)
      rw [length]
      cases scanToken previous braces _ _ with
      | error fault => rfl
      | ok scanned =>
        dsimp only
        cases tokensFrom (offset + front.length + scanned.lexeme.length) _ _ _ <;> rfl

end Runs

end Playground

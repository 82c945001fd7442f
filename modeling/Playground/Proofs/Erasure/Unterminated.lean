import Playground.Proofs.Erasure.Scanning

/-!
# Comments and literals that never end

`Unterminated` says of a text that it starts with a comment or a literal that nothing behind it
ends. That is what stands at the place where the tokenizer gives up (`unterminated_of_fails`).
-/

namespace Playground

/-- A string is closed by its quote in the same line; a backslash protects the next character. -/
inductive StringCloses (quote : Char) : List Char → Prop where
  | mark (rest : List Char) : StringCloses quote (quote :: rest)
  | escape (character : Char) {rest} (later : StringCloses quote rest) :
      StringCloses quote ('\\' :: character :: rest)
  | plain {character : Char} {rest} (noEscape : character ≠ '\\')
      (onLine : endsLineComment character = false) (later : StringCloses quote rest) :
      StringCloses quote (character :: rest)

/-- A part of a template is closed by a backtick or by the start of a substitution. -/
inductive TemplateCloses : List Char → Prop where
  | backtick (rest : List Char) : TemplateCloses ('\x60' :: rest)
  | substitution (rest : List Char) : TemplateCloses ('$' :: '{' :: rest)
  | escape (character : Char) {rest} (later : TemplateCloses rest) :
      TemplateCloses ('\\' :: character :: rest)
  | plain {character : Char} {rest} (noEscape : character ≠ '\\') (later : TemplateCloses rest) :
      TemplateCloses (character :: rest)

/-- A regular expression is closed by a slash outside of classes, in the same line. -/
inductive RegexCloses : Bool → List Char → Prop where
  | slash (rest : List Char) : RegexCloses false ('/' :: rest)
  | escape {inClass : Bool} {character : Char} {rest}
      (onLine : endsLineComment character = false) (later : RegexCloses inClass rest) :
      RegexCloses inClass ('\\' :: character :: rest)
  | classStart {inClass : Bool} {rest} (later : RegexCloses true rest) :
      RegexCloses inClass ('[' :: rest)
  | classEnd {inClass : Bool} {rest} (later : RegexCloses false rest) :
      RegexCloses inClass (']' :: rest)
  | plain {inClass : Bool} {character : Char} {rest} (special : character ∉ ['\\', '[', ']'])
      (onLine : endsLineComment character = false) (slash : character = '/' → inClass = true)
      (later : RegexCloses inClass rest) : RegexCloses inClass (character :: rest)

/-- A text starts with a comment or a literal that never ends, for which it is to blame. -/
inductive Unterminated : SyntaxFault → List Char → Prop where
  | comment {rest} (open_ : ¬['*', '/'] <:+: rest) :
      Unterminated .unterminatedComment ('/' :: '*' :: rest)
  | string {quote rest} (quoted : quote = '"' ∨ quote = '\'') (open_ : ¬StringCloses quote rest) :
      Unterminated .unterminatedString (quote :: rest)
  /-- A template, or a part of one that goes on behind a substitution. -/
  | template {first rest} (starts : first = '\x60' ∨ first = '}') (open_ : ¬TemplateCloses rest) :
      Unterminated .unterminatedTemplate (first :: rest)
  | regex {rest} (open_ : ¬RegexCloses false rest) :
      Unterminated .unterminatedRegex ('/' :: rest)

/-! ## Bodies that close -/

section Bodies

variable {input rest : List Char}

theorem isSome_of_stringCloses {quote : Char} (quoted : quote = '"' ∨ quote = '\'')
    (closes : StringCloses quote input) : (stringBody quote input).isSome := by
  induction closes with
  | mark rest =>
    have behind := rest_stringBody_quote quoted rest
    exact Option.isSome_of_eq_some (Option.map_eq_some_iff.mp behind).choose_spec.1
  | escape character later inductionHypothesis =>
    rw [stringBody, Option.isSome_map]
    exact inductionHypothesis
  | plain noEscape onLine later inductionHypothesis =>
    rw [stringBody_cons noEscape, if_neg (by simp [onLine])]
    split
    · rfl
    · rw [Option.isSome_map]
      exact inductionHypothesis

theorem isSome_of_templateCloses (closes : TemplateCloses input) :
    (templateBody input).isSome := by
  induction closes with
  | backtick rest => rw [templateBody_cons (by decide) (by simp)]; rfl
  | substitution rest => rw [templateBody]; rfl
  | escape character later inductionHypothesis =>
    rw [templateBody, Option.isSome_map]
    exact inductionHypothesis
  | @plain character rest noEscape later inductionHypothesis =>
    by_cases substitution : character = '$' ∧ rest.head? = some '{'
    · obtain ⟨rfl, brace⟩ := substitution
      obtain ⟨behind, rfl⟩ := List.head?_eq_some_iff.mp brace
      rw [templateBody]
      rfl
    · rw [templateBody_cons noEscape substitution]
      split
      · rfl
      · rw [Option.isSome_map]
        exact inductionHypothesis

theorem isSome_of_regexCloses {inClass : Bool} (closes : RegexCloses inClass input) :
    (regexBody inClass input).isSome := by
  induction closes with
  | slash rest => rw [regexBody_cons (by decide)]; rfl
  | escape onLine later inductionHypothesis =>
    rw [regexBody, if_neg (by simp [onLine]), Option.isSome_map]
    exact inductionHypothesis
  | @classStart inClass rest later inductionHypothesis =>
    rw [regexBody_cons (by decide), if_neg (by decide), if_neg (by simp), Option.isSome_map]
    cases inClass <;> exact inductionHypothesis
  | @classEnd inClass rest later inductionHypothesis =>
    rw [regexBody_cons (by decide), if_neg (by decide), if_neg (by simp), Option.isSome_map]
    cases inClass <;> exact inductionHypothesis
  | @plain inClass character rest special onLine slash later inductionHypothesis =>
    simp only [List.mem_cons, List.not_mem_nil, or_false, not_or] at special
    obtain ⟨noEscape, noStart, noEnd⟩ := special
    have inside : ((inClass || character == '[') && character != ']') = inClass := by
      rw [beq_false_of_ne noStart, bne_iff_ne.mpr noEnd, Bool.or_false, Bool.and_true]
    rw [regexBody_cons noEscape, if_neg (by simp [onLine]), inside]
    split
    · rfl
    · rw [Option.isSome_map]
      exact inductionHypothesis

/-- A comment without an end holds no end mark. -/
theorem not_infix_of_blockCommentBody (open_ : blockCommentBody input = none) :
    ¬['*', '/'] <:+: input := by
  fun_induction blockCommentBody input with
  | case1 => simp
  | case2 => contradiction
  | case3 character rest notMark inductionHypothesis =>
    rw [List.infix_cons_iff]
    rintro (⟨behind, atFront⟩ | later)
    · obtain ⟨rfl, rfl⟩ := List.cons.inj atFront
      exact notMark behind rfl rfl
    · exact inductionHypothesis (Option.map_eq_none_iff.mp open_) later

end Bodies

/-! ## Where the tokenizer gives up -/

theorem unterminated_of_view {input : List Char} (found : (gapPiece input).view = .unterminated) :
    Unterminated .unterminatedComment input := by
  cases input with
  | nil => contradiction
  | cons first rest =>
    rw [view_gapPiece] at found
    split_ifs at found with breaks blank slash
    obtain rfl := eq_of_beq slash
    unfold commentView at found
    split at found
    case h_1 | h_3 => contradiction
    case h_2 afterStar =>
      split at found
      case h_1 open_ => exact .comment (not_infix_of_blockCommentBody open_)
      case h_2 => contradiction

/-- Where a gap has no end, it holds a comment that has none. -/
theorem unterminated_of_gapView {input : List Char} {passed : Nat}
    (found : gapView input = .error passed) :
    Unterminated .unterminatedComment (input.drop passed) := by
  cases view : (gapPiece input).view with
  | none =>
    rw [gapView_of_none view] at found
    contradiction
  | unterminated =>
    rw [gapView_of_unterminated view] at found
    cases found
    exact unterminated_of_view view
  | piece rest breaks =>
    have shorter := length_lt_of_view view
    rw [gapView_of_piece view] at found
    cases further : gapView rest with
    | ok => rw [further] at found; contradiction
    | error behind =>
      rw [further] at found
      cases found
      obtain ⟨front, rfl⟩ := exists_append_of_view view
      rw [List.length_append, Nat.add_sub_cancel, List.drop_length_add_append]
      exact unterminated_of_gapView further
termination_by input.length

/-- A scanner that finds whatever closes, and finds nothing here, leaves it open. -/
theorem not_of_isSome {α : Type} {closes : Prop} {found : Option α} (finds : closes → found.isSome)
    (nothing : found = none) : ¬closes := by
  intro here
  have some := finds here
  rw [nothing] at some
  contradiction

theorem unterminated_of_scanToken {previous : Option Token} {braces : List Brace} {first : Char}
    {rest : List Char} {fault : SyntaxFault}
    (found : scanToken previous braces first rest = .error fault) :
    Unterminated fault (first :: rest) := by
  have openTemplate : ∀ {closed opened : TokenKind} {open_ : List Brace},
      (Scanned.templatePart closed opened open_ first : Option (Scanned (first :: rest))) = none →
        ¬TemplateCloses rest := by
    intro closed opened open_ none
    exact not_of_isSome isSome_of_templateCloses (Option.map_eq_none_iff.mp none)
  unfold scanToken at found
  split_ifs at found with isPrivate isWord isNumber isString isTemplate resumes isRegex
  · split at found
    case h_1 => contradiction
    case h_2 none =>
      cases found
      have quoted : first = '"' ∨ first = '\'' := by simpa using isString
      exact .string quoted (not_of_isSome (isSome_of_stringCloses quoted) none)
  · split at found
    case h_1 => contradiction
    case h_2 none =>
      cases found
      exact .template (.inl (eq_of_beq isTemplate)) (openTemplate none)
  · split at found
    case h_1 => contradiction
    case h_2 none =>
      cases found
      exact .template (.inr (eq_of_beq (Bool.and_eq_true_iff.mp resumes).1)) (openTemplate none)
  · split at found
    case h_1 => contradiction
    case h_2 none =>
      cases found
      obtain rfl := eq_of_beq (Bool.and_eq_true_iff.mp isRegex).1
      exact .regex (not_of_isSome isSome_of_regexCloses none)

/-- What the tokenizer has passed stands before what is left. -/
theorem ScanSteps.exists_passed {scanner after : Scanner} {tokens : List Token}
    (steps : ScanSteps scanner tokens after) : ∃ passed, scanner.input = passed ++ after.input ∧
      after.offset = scanner.offset + passed.length := by
  induction steps with
  | refl => exact ⟨[], rfl, rfl⟩
  | step taken _ inductionHypothesis =>
    obtain ⟨passed, input, offset⟩ := inductionHypothesis
    cases taken with
    | @intro start previous braces front first rest breaks scanned =>
      have joined : scanned.lexeme ++ scanned.rest = first :: rest := scanned.joined
      refine ⟨front ++ scanned.lexeme ++ passed, ?_, ?_⟩
      · rw [List.append_assoc, List.append_assoc, ← input]
        exact congrArg _ joined.symm
      · rw [offset]
        simp only [Scanner.behind, List.length_append, Nat.add_assoc]

/-- The tokenizer gives up at a comment or a literal that never ends. -/
theorem unterminated_of_fails {source : List Char} {tokens : List Token} {scanner : Scanner}
    {error : SyntaxError} (steps : ScanSteps (.start source) tokens scanner)
    (fails : scanner.Fails error) :
    error.offset ≤ source.length ∧ Unterminated error.fault (source.drop error.offset) := by
  obtain ⟨passed, whole, offset⟩ := steps.exists_passed
  obtain rfl : source = passed ++ scanner.input := whole
  obtain reached : scanner.offset = passed.length := offset.trans (Nat.zero_add _)
  cases fails with
  | comment gap =>
    obtain rfl := reached
    rw [List.length_append, List.drop_length_add_append]
    exact ⟨Nat.add_le_add_left (le_length_of_gapView gap) _, unterminated_of_gapView gap⟩
  | literal gap open_ =>
    obtain rfl := reached
    rw [List.drop_length_add_append, List.drop_left, List.length_append, List.length_append]
    exact ⟨Nat.add_le_add_left (Nat.le_add_right ..) _, unterminated_of_scanToken open_⟩

end Playground

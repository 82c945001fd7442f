import Playground.Proofs.Erasure.Conditional.Expression
import Playground.Proofs.Erasure.Scanners
import Playground.Proofs.Erasure.Tokens

/-!
# Reading a plain expression

`Reads` says of a text that the tokenizer finds certain symbols in it. What an expression is
written as is read as its symbols, whatever stands behind it, as long as no word and no number
goes on there.
-/

namespace Playground

/-- The tokenizer finds the symbols in a text, with single spaces between them at most. -/
inductive Reads : List Char → List Symbol → Prop where
  | nil : Reads [] []
  | blank {rest symbols} (later : Reads rest symbols) : Reads (' ' :: rest) symbols
  | token {first rest behind lexeme kind symbols}
      (solid : (gapPiece (first :: rest)).view = .none)
      (joined : first :: rest = lexeme ++ behind)
      (scans : ∀ previous, (scanToken previous [] first rest).map Scanned.ending =
        .ok (behind, kind, []))
      (later : Reads behind symbols) :
      Reads (first :: rest) (⟨kind, String.ofList lexeme⟩ :: symbols)

/-! ## Blanks -/

theorem view_gapPiece_space (rest : List Char) :
    (gapPiece (' ' :: rest)).view = .piece rest false := by
  rw [view_gapPiece, if_neg (by decide), if_pos (by decide +kernel)]

/-- A space moves what stands behind it. -/
theorem tokensFrom_space (offset : Nat) (previous : Option Token) (braces : List Brace)
    (rest : List Char) :
    tokensFrom offset previous braces (' ' :: rest) =
      tokensFrom (offset + 1) previous braces rest := by
  have view := gapView_of_piece (view_gapPiece_space rest)
  cases here : gapView rest with
  | error passed =>
    rw [here] at view
    rw [tokensFrom_of_unterminated view, tokensFrom_of_unterminated here]
    simp only [List.length_cons, Nat.add_sub_cancel_left, Nat.add_assoc]
  | ok found =>
    obtain ⟨behind, breaks⟩ := found
    rw [here] at view
    cases behind with
    | nil => rw [tokensFrom_of_end view, tokensFrom_of_end here]
    | cons first behind =>
      obtain ⟨front, rfl⟩ := exists_append_of_gapView here
      rw [← List.cons_append] at view ⊢
      rw [tokensFrom_of_gap view, tokensFrom_of_gap here, Bool.false_or, List.length_cons,
        Nat.add_right_comm offset 1, Nat.add_assoc offset _ 1]

theorem Reads.blanks {rest : List Char} {symbols : List Symbol} (count : Nat)
    (later : Reads rest symbols) : Reads (List.replicate count ' ' ++ rest) symbols := by
  induction count with
  | zero => exact later
  | succ count inductionHypothesis => exact .blank inductionHypothesis

/-- The tokens of a text that is read as symbols. -/
theorem Reads.tokens {text : List Char} {symbols : List Symbol} (reads : Reads text symbols)
    (offset : Nat) (previous : Option Token) :
    ∃ tokens, tokensFrom offset previous [] text = .ok tokens ∧
      tokens.map Token.symbol = symbols := by
  induction reads generalizing offset previous with
  | nil => exact ⟨[], tokensFrom_of_end (gapView_of_none rfl), rfl⟩
  | blank _ inductionHypothesis =>
    rw [tokensFrom_space]
    exact inductionHypothesis (offset + 1) previous
  | @token first rest behind lexeme kind symbols solid joined scans _ inductionHypothesis =>
    have view : gapView ([] ++ first :: rest) = .ok (first :: rest, false) :=
      gapView_of_none solid
    rw [← List.nil_append (first :: rest), tokensFrom_of_gap view]
    cases found : scanToken previous [] first rest with
    | error fault =>
      have ends := scans previous
      rw [found] at ends
      contradiction
    | ok scanned =>
      have ends := scans previous
      rw [found, Except.map, Scanned.ending, Except.ok.injEq, Prod.mk.injEq, Prod.mk.injEq] at ends
      obtain ⟨rfl, rfl, braces⟩ := ends
      have lexeme : scanned.lexeme = lexeme :=
        List.append_cancel_right (scanned.joined.trans joined)
      let token : Token := ⟨scanned.kind, String.ofList scanned.lexeme, offset + 0, false⟩
      obtain ⟨tokens, foundTokens, rfl⟩ := inductionHypothesis
        (offset + 0 + scanned.lexeme.length) (some token)
      refine ⟨token :: tokens, ?_, ?_⟩
      · dsimp only [List.length_nil]
        rw [braces, foundTokens]
        rfl
      · exact congrArg (fun text => ⟨scanned.kind, String.ofList text⟩ :: tokens.map Token.symbol)
          lexeme

/-! ## First characters -/

/-- The code points that start a word. -/
def wordStarts : List (Nat × Nat) :=
  [(0x24, 0x24), (0x41, 0x5a), (0x5f, 0x5f), (0x61, 0x7a)] ++ Text.alphabeticRanges.toList

theorem exists_wordStart {character : Char} (starts : startsWord character = true) :
    ∃ row ∈ wordStarts, row.1 ≤ character.toNat ∧ character.toNat ≤ row.2 := by
  simp only [startsWord, Bool.or_eq_true, beq_iff_eq] at starts
  rcases starts with (rfl | rfl) | letter
  · exact ⟨(0x5f, 0x5f), by simp [wordStarts], by decide⟩
  · exact ⟨(0x24, 0x24), by simp [wordStarts], by decide⟩
  unfold Text.isAlphabetic at letter
  split at letter
  · rcases Bool.or_eq_true_iff.mp (letter : (character.isUpper || character.isLower) = true) with
      upper | lower
    · exact ⟨(0x41, 0x5a), by simp [wordStarts], of_decide_eq_true upper⟩
    · obtain ⟨first, last⟩ := Bool.and_eq_true_iff.mp lower
      exact ⟨(0x61, 0x7a), by simp [wordStarts], of_decide_eq_true first, of_decide_eq_true last⟩
  · rw [Text.inRanges, ← Array.any_toList, List.any_eq_true] at letter
    obtain ⟨row, listed, within⟩ := letter
    exact ⟨row, List.mem_append_right _ listed, by simpa using within⟩

/-- A range that no row of the words meets starts no word. -/
theorem startsWord_of_apart {range : Nat × Nat} {character : Char}
    (apart : (wordStarts.all fun row => range.2 < row.1 || row.2 < range.1) = true)
    (within : range.1 ≤ character.toNat ∧ character.toNat ≤ range.2) :
    startsWord character = false := by
  rw [Bool.eq_false_iff]
  intro starts
  obtain ⟨row, listed, lower, upper⟩ := exists_wordStart starts
  have here := List.all_eq_true.mp apart row listed
  simp only [Bool.or_eq_true, decide_eq_true_eq] at here
  omega

/-- No blank starts a word. -/
theorem startsWord_of_isBlank {character : Char} (blank : Text.isBlank character = true) :
    startsWord character = false := by
  have apart : (Text.blankRanges.toList.all fun range =>
      wordStarts.all fun row => range.2 < row.1 || row.2 < range.1) = true := by
    decide +kernel
  rw [Text.isBlank, Text.inRanges, ← Array.any_toList, List.any_eq_true] at blank
  obtain ⟨range, listed, within⟩ := blank
  exact startsWord_of_apart (List.all_eq_true.mp apart range listed) (by simpa using within)

/-- Whether a gap may begin with a character. -/
def mayBeginGap (character : Char) : Bool :=
  Text.isBlank character || character == '\ufeff' || character == '/'

theorem isBlank_of_isLineBreak {character : Char} (breaks : isLineBreak character = true) :
    Text.isBlank character = true := by
  have breaksAreBlank : ['\n', '\r', '\u2028', '\u2029'].all Text.isBlank = true := by
    decide +kernel
  refine List.all_eq_true.mp breaksAreBlank character ?_
  simpa [isLineBreak, or_assoc] using breaks

theorem view_gapPiece_of_solid {first : Char} (solid : mayBeginGap first = false)
    (rest : List Char) : (gapPiece (first :: rest)).view = .none := by
  simp only [mayBeginGap, Bool.or_eq_false_iff] at solid
  obtain ⟨⟨notBlank, notMark⟩, notSlash⟩ := solid
  have notBreak : isLineBreak first = false := by
    rw [Bool.eq_false_iff]
    exact fun breaks => absurd (isBlank_of_isLineBreak breaks) (by simp [notBlank])
  rw [view_gapPiece]
  simp [notBreak, notBlank, notMark, notSlash]

theorem mayBeginGap_of_startsWord {first : Char} (starts : startsWord first = true) :
    mayBeginGap first = false := by
  rw [Bool.eq_false_iff]
  intro begins
  simp only [mayBeginGap, Bool.or_eq_true, beq_iff_eq] at begins
  have none : startsWord first = false := by
    rcases begins with (blank | rfl) | rfl
    · exact startsWord_of_isBlank blank
    · exact @startsWord_of_apart (0xfeff, 0xfeff) _ (by decide +kernel) (by decide)
    · decide
  rw [none] at starts
  contradiction

/-- What holds of every digit. -/
theorem of_isDigit {holds : Char → Bool} {character : Char} (digit : character.isDigit = true)
    (all : ((List.range' 48 10).all fun code => holds (Char.ofNat code)) = true) :
    holds character = true := by
  have inside : character.toNat ∈ List.range' 48 10 := by
    simp only [Char.isDigit, Bool.and_eq_true, decide_eq_true_eq] at digit
    exact List.mem_range'_1.mpr ⟨digit.1, Nat.lt_succ_of_le digit.2⟩
  simpa only [Char.ofNat_toNat] using List.all_eq_true.mp all _ inside

/-! ## Tokens of expressions -/

section Tokens

variable {rest front behind : List Char} {symbols : List Symbol}

/-- A run of accepted characters ends where it is said to end. -/
theorem dropWhile_of_ends {accepts : Char → Bool}
    (all : ∀ character ∈ front, accepts character = true)
    (ends : behind.head?.any accepts = false) : (front ++ behind).dropWhile accepts = behind := by
  rw [List.dropWhile_append_of_pos all]
  cases behind with
  | nil => rfl
  | cons next behind => exact List.dropWhile_cons_of_neg (by simpa using ends)

/-- Whether a number may go on with a character. -/
def mayContinueNumber (character : Char) : Bool :=
  character.isAlphanum || character == '_' || character == '.' || character == '+' ||
    character == '-'

theorem rest_numberRun_append {hexadecimal : Bool} {previous : Char}
    (whole : (numberRun hexadecimal previous front).rest = [])
    (ends : behind.head?.any mayContinueNumber = false) :
    (numberRun hexadecimal previous (front ++ behind)).rest = behind := by
  induction front generalizing previous with
  | nil =>
    cases behind with
    | nil => rfl
    | cons next behind =>
      simp only [List.head?_cons, Option.any_some, mayContinueNumber, Bool.or_eq_false_iff] at ends
      obtain ⟨⟨⟨⟨alphanumeric, underscore⟩, point⟩, plus⟩, minus⟩ := ends
      simp [numberRun, alphanumeric, underscore, point, plus, minus, Cut.atStart]
  | cons first front inductionHypothesis =>
    rw [numberRun] at whole
    rw [List.cons_append, numberRun]
    split at whole
    case isTrue accepted =>
      rw [if_pos accepted]
      exact inductionHypothesis whole
    case isFalse => contradiction

theorem isHexadecimal_append (first : Char)
    (ends : behind.head?.any mayContinueNumber = false) :
    isHexadecimal (first :: (front ++ behind)) = isHexadecimal (first :: front) := by
  cases front with
  | nil =>
    cases behind with
    | nil => rfl
    | cons next behind =>
      have notX : next ≠ 'x' ∧ next ≠ 'X' := by
        constructor <;>
        · rintro rfl
          rw [List.head?_cons, Option.any_some] at ends
          exact absurd ends (by decide)
      unfold isHexadecimal
      split <;> simp_all
  | cons second front =>
    unfold isHexadecimal
    split <;> simp_all

open Expression

theorem Reads.name (name : Name) (ends : behind.head?.any continuesWord = false)
    (later : Reads behind symbols) :
    Reads (name.text ++ behind) (name.symbol :: symbols) := by
  rw [Name.text, List.cons_append]
  refine .token (view_gapPiece_of_solid (mayBeginGap_of_startsWord name.starts) _) rfl ?_ later
  intro previous
  have notPrivate : (name.first == '#') = false := by
    rw [beq_eq_false_iff_ne]
    intro hash
    have := name.starts
    rw [hash] at this
    exact absurd this (by decide +kernel)
  unfold scanToken
  simp only [notPrivate, name.starts, Bool.false_and, Bool.false_eq_true, if_false, if_true]
  exact congrArg (fun rest => Except.ok (rest, TokenKind.word, []))
    (dropWhile_of_ends name.continues ends)

theorem Reads.number (numeral : Numeral) (ends : behind.head?.any mayContinueNumber = false)
    (later : Reads behind symbols) :
    Reads (numeral.text ++ behind) (numeral.symbol :: symbols) := by
  have plain : (!mayBeginGap numeral.first && !(numeral.first == '#') &&
      !startsWord numeral.first) = true := by
    rcases numeral.starts with digit | ⟨point, -⟩
    · exact @of_isDigit (fun first => !mayBeginGap first && !(first == '#') && !startsWord first)
        _ digit (by decide +kernel)
    · rw [point]
      decide +kernel
  simp only [Bool.and_eq_true, Bool.not_eq_true'] at plain
  obtain ⟨⟨solid, notPrivate⟩, notWord⟩ := plain
  rw [Numeral.text, List.cons_append]
  refine .token (view_gapPiece_of_solid solid _) rfl ?_ later
  intro previous
  have number : (numeral.first.isDigit ||
      (numeral.first == '.' && startsWithDigit (numeral.rest ++ behind))) = true := by
    rcases numeral.starts with digit | ⟨point, digit⟩
    · simp [digit]
    · cases shape : numeral.rest with
      | nil => simp [shape, startsWithDigit] at digit
      | cons second rest =>
        rw [shape] at digit
        simp only [startsWithDigit] at digit
        simp [point, startsWithDigit, digit]
  unfold scanToken
  simp only [notPrivate, notWord, number, Bool.false_and, Bool.false_eq_true, if_false, if_true]
  refine congrArg (fun rest => Except.ok (rest, TokenKind.number, [])) ?_
  change (numberRun (isHexadecimal (numeral.first :: (numeral.rest ++ behind))) numeral.first
    (numeral.rest ++ behind)).rest = behind
  rw [isHexadecimal_append numeral.first ends]
  exact rest_numberRun_append numeral.whole ends

/-- A string is closed by its quote. -/
theorem stringBody_items {quote : Char} (quoted : quote = '"' ∨ quote = '\'')
    (items : List (Item quote)) (behind : List Char) :
    (stringBody quote (items.flatMap Item.text ++ quote :: behind)).map Cut.rest = some behind := by
  induction items with
  | nil => exact rest_stringBody_quote quoted behind
  | cons item items inductionHypothesis =>
    rw [List.flatMap_cons, List.append_assoc, ← inductionHypothesis]
    cases item with
    | plain character inside onLine => exact rest_stringBody_plain inside onLine _
    | escape character => exact rest_stringBody_escape _

theorem Reads.string (literal : Literal) (later : Reads behind symbols) :
    Reads (literal.text ++ behind) (literal.symbol :: symbols) := by
  have solid : mayBeginGap literal.quote = false := by
    rcases literal.quoted with quote | quote <;> rw [quote] <;> decide +kernel
  rw [Literal.text, List.cons_append]
  refine .token (view_gapPiece_of_solid solid _) rfl ?_ later
  intro previous
  have starts : (literal.quote == '"' || literal.quote == '\'') = true := by
    simpa using literal.quoted
  have body := stringBody_items literal.quoted literal.items behind
  rw [List.append_cons, ← Literal.body] at body
  obtain ⟨cut, found, rest⟩ := Option.map_eq_some_iff.mp body
  rw [scanToken_of_literal (by simp [startsLiteral, starts])]
  unfold scanLiteral
  rw [if_pos starts, found]
  exact congrArg (fun rest => Except.ok (rest, TokenKind.string, [])) rest

/-- The punctuators of expressions, by their first characters. -/
def markCharacters : List Char :=
  ['(', ')', ',', '.', '=', '?', ':', ';']

theorem Reads.mark {first : Char} (lexeme : List Char) (listed : first ∈ markCharacters)
    (joined : first :: rest = lexeme ++ behind)
    (length : punctuatorLength (first :: rest) = lexeme.length)
    (noDigit : first = '.' → startsWithDigit rest = false) (later : Reads behind symbols) :
    Reads (first :: rest) (.mark (String.ofList lexeme) :: symbols) := by
  have plain : markCharacters.all (fun first => !mayBeginGap first && !(first == '#') &&
      !startsWord first && !first.isDigit && !(first == '"' || first == '\'') &&
        !(first == '\x60') && !(first == '\x7d') && !(first == '/') && !(first == '\x7b')) =
          true := by
    decide +kernel
  have here := List.all_eq_true.mp plain first listed
  simp only [Bool.and_eq_true, Bool.not_eq_true'] at here
  obtain ⟨⟨⟨⟨⟨⟨⟨⟨solid, notPrivate⟩, notWord⟩, notDigit⟩, notQuote⟩, notTemplate⟩, notClose⟩,
    notSlash⟩, notOpen⟩ := here
  refine .token (view_gapPiece_of_solid solid _) joined ?_ later
  intro previous
  have notNumber : (first == '.' && startsWithDigit rest) = false := by
    simpa using noDigit
  unfold scanToken
  simp only [notPrivate, notWord, notDigit, notNumber, notQuote, notTemplate, notClose, notSlash,
    Bool.false_and, Bool.or_false, Bool.false_eq_true, if_false]
  have drop : (first :: rest).drop lexeme.length = behind := by
    rw [joined, List.drop_left]
  simp only [Except.map, Scanned.ending, Scanned.punctuator, Cut.after, length, drop, bracesAfter,
    notOpen, notClose, Bool.false_eq_true, if_false]

end Tokens

/-! ## Expressions -/

/-- A punctuator of one character. -/
theorem Reads.single {first : Char} {behind : List Char} {symbols : List Symbol}
    (listed : first ∈ ['(', ')', ',', ':', ';']) (later : Reads behind symbols) :
    Reads (first :: behind) (.mark (String.ofList [first]) :: symbols) := by
  refine .mark [first] ((by decide : ['(', ')', ',', ':', ';'] ⊆ markCharacters) listed) rfl ?_ ?_ later
  · simp only [List.mem_cons, List.not_mem_nil, or_false] at listed
    rcases listed with rfl | rfl | rfl | rfl | rfl <;> rfl
  · rintro rfl
    simp at listed

/-- A property behind its point. -/
theorem Reads.property (property : Expression.Name) {behind : List Char} {symbols : List Symbol}
    (ends : behind.head?.any continuesWord = false) (later : Reads behind symbols) :
    Reads ('.' :: property.text ++ behind) (.mark "." :: property.symbol :: symbols) := by
  have notDigit : property.first.isDigit = false := by
    rw [Bool.eq_false_iff]
    intro digit
    have other := @of_isDigit (!startsWord ·) _ digit (by decide +kernel)
    rw [property.starts] at other
    contradiction
  have notPoint : ('.' == property.first) = false := by
    rw [beq_eq_false_iff_ne]
    intro point
    have starts := property.starts
    rw [← point] at starts
    exact absurd starts (by decide)
  refine .mark ['.'] (by decide) rfl ?_ (fun _ => notDigit) (.name property ends later)
  simp [punctuatorLength, longPunctuators, Expression.Name.text, List.find?, List.isPrefixOf, notPoint]

namespace Expression

variable {behind : List Char} {following : List Symbol}

/-- What may stand behind an expression: nothing that goes on with a word, and, unless a property
may be taken of the expression, nothing that goes on with a number. -/
structure MayFollow (rank : Rank) (behind : List Char) : Prop where
  word : behind.head?.any continuesWord = false
  number : rank ≠ .object → behind.head?.any mayContinueNumber = false

theorem mayFollow_of_head {first : Char} {behind : List Char} (rank : Rank)
    (listed : first ∈ [' ', '(', ')', ',', ';']) : MayFollow rank (first :: behind) := by
  have plain : ([' ', '(', ')', ',', ';'].all fun first =>
      !continuesWord first && !mayContinueNumber first) = true := by
    decide +kernel
  have here := List.all_eq_true.mp plain first listed
  simp only [Bool.and_eq_true, Bool.not_eq_true'] at here
  exact ⟨here.1, fun _ => here.2⟩

/-- What an expression is written as is read as its symbols. -/
theorem reads {rank : Rank} (expression : Expression rank) (spaces : Nat)
    (follows : MayFollow rank behind) (later : Reads behind following) :
    Reads (expression.text spaces ++ behind) (expression.symbols ++ following) := by
  induction expression generalizing behind following with
  | name word => exact .name word follows.word later
  | string literal => exact .string literal later
  | number numeral => exact .number numeral (follows.number nofun) later
  | object _ inductionHypothesis =>
    exact inductionHypothesis ⟨follows.word, fun other => absurd rfl other⟩ later
  | operand _ inductionHypothesis =>
    exact inductionHypothesis ⟨follows.word, fun _ => follows.number nofun⟩ later
  | last _ inductionHypothesis =>
    exact inductionHypothesis ⟨follows.word, fun _ => follows.number nofun⟩ later
  | member owner property inductionHypothesis =>
    simp only [text, symbols, List.append_assoc, List.cons_append, List.nil_append]
    exact inductionHypothesis ⟨show continuesWord '.' = false by decide +kernel,
      fun other => absurd rfl other⟩
      (.property property follows.word later)
  | invoke callee inductionHypothesis =>
    simp only [text, symbols, List.append_assoc, List.cons_append, List.nil_append]
    exact inductionHypothesis (mayFollow_of_head _ (by decide))
      (.single (by decide) (.single (by decide) later))
  | call callee arguments one other =>
    simp only [text, symbols, List.append_assoc, List.cons_append, List.nil_append]
    exact one (mayFollow_of_head _ (by decide))
      (.single (by decide) (other (mayFollow_of_head _ (by decide)) (.single (by decide) later)))
  | group inner inductionHypothesis =>
    simp only [text, symbols, List.append_assoc, List.cons_append, List.nil_append]
    exact .single (by decide)
      (inductionHypothesis (mayFollow_of_head _ (by decide)) (.single (by decide) later))
  | arrow parameter body inductionHypothesis =>
    simp only [text, symbols, List.append_assoc, List.cons_append, List.nil_append]
    exact .name parameter (mayFollow_of_head .expression (by decide)).word
      (.blank (.mark ['=', '>'] (by decide) rfl rfl (by simp)
        (.blank (inductionHypothesis ⟨follows.word, fun _ => follows.number nofun⟩ later))))
  | conditional test yes no one two three =>
    simp only [text, symbols, List.append_assoc, List.cons_append, List.nil_append]
    exact one (mayFollow_of_head _ (by decide))
      (.blank (.mark ['?'] (by decide) rfl rfl (by simp)
        (.blank (two (mayFollow_of_head _ (by decide))
          (.blank (.single (by decide) (.blank (three follows later))))))))
  | more argument rest one other =>
    simp only [text, symbols, List.append_assoc, List.cons_append]
    exact one (mayFollow_of_head _ (by decide))
      (.single (by decide) (.blanks spaces (other follows later)))

end Expression

end Playground

import Playground.Erasure.Fault
import Playground.Erasure.Token
import Playground.Text.Blank

/-!
# Splitting a program into tokens

Every scanner cuts its input in two and carries the proof that the halves join to the
input, so tokens and gaps tile the program. White space and comments are gaps; a gap
remembers whether it breaks the line. Whether a slash starts a regular expression
depends on the token before it, and whether a closing brace continues a template
depends on the braces still open.
-/

namespace Playground

/-- A cut of the input into a front part and the rest. -/
structure Cut (input : List Char) where
  lexeme : List Char
  rest : List Char
  joined : lexeme ++ rest = input

namespace Cut

/-- The cut before the first character. -/
def atStart (input : List Char) : Cut input :=
  ⟨[], input, rfl⟩

/-- Moves one more character in front of a cut. -/
def push {input : List Char} (cut : Cut input) (character : Char) : Cut (character :: input) :=
  ⟨character :: cut.lexeme, cut.rest, by simp [cut.joined]⟩

/-- The cut after the longest front part of accepted characters. -/
def spanning (accepts : Char → Bool) (input : List Char) : Cut input :=
  ⟨input.takeWhile accepts, input.dropWhile accepts, List.takeWhile_append_dropWhile⟩

/-- The cut after a fixed number of characters. -/
def after (count : Nat) (input : List Char) : Cut input :=
  ⟨input.take count, input.drop count, List.take_append_drop count input⟩

/-- Cuts the rest once more and moves the boundary there. -/
def append {input : List Char} (first : Cut input) (second : Cut first.rest) : Cut input :=
  ⟨first.lexeme ++ second.lexeme, second.rest, by
    rw [List.append_assoc, second.joined, first.joined]⟩

/-- The parts of a cut are as long as its input. -/
theorem length_add {input : List Char} (cut : Cut input) :
    cut.lexeme.length + cut.rest.length = input.length := by
  rw [← List.length_append, cut.joined]

end Cut

/-! ## Gaps -/

/-- Characters that break a line. -/
def isLineBreak (character : Char) : Bool :=
  character == '\n' || character == '\r' || character == '\u2028' || character == '\u2029'

/-- Characters that end a comment of one line. -/
def endsLineComment (character : Char) : Bool :=
  character == '\n' || character == '\r'

/-- The rest of a block comment, through its end mark. -/
def blockCommentBody : (input : List Char) → Option (Cut input)
  | [] => none
  | '*' :: '/' :: rest => some ⟨['*', '/'], rest, rfl⟩
  | character :: rest => (blockCommentBody rest).map (·.push character)

/-- A cut after a gap, with the knowledge whether the gap breaks the line. -/
structure Gap (input : List Char) extends Cut input where
  breaksLine : Bool

/-- Moves a front part before a gap. -/
def Gap.prepend {input : List Char} (first : Cut input) (breaks : Bool) (gap : Gap first.rest) :
    Gap input :=
  { first.append gap.toCut with breaksLine := breaks || gap.breaksLine }

/-- The first piece of a gap: one blank or one comment. -/
inductive GapPiece (input : List Char) where
  /-- No gap starts here. -/
  | none
  /-- A block comment starts here and never ends. -/
  | unterminated
  | piece (cut : Cut input) (breaksLine : Bool) (progress : cut.rest.length < input.length)

/-- Recognises one blank or one comment. -/
def gapPiece : (input : List Char) → GapPiece input
  | [] => .none
  | character :: rest =>
    if isLineBreak character then
      .piece ((Cut.atStart rest).push character) true (by simp [Cut.push, Cut.atStart])
    else if Text.isBlank character || character == '\ufeff' then
      .piece ((Cut.atStart rest).push character) false (by simp [Cut.push, Cut.atStart])
    else if character == '/' then
      match rest with
      | '/' :: afterSlashes =>
        let body := Cut.spanning (fun next => !endsLineComment next) afterSlashes
        .piece ((body.push '/').push character) false (by
          have size := body.length_add
          simp only [Cut.push, List.length_cons]
          omega)
      | '*' :: afterStar =>
        match blockCommentBody afterStar with
        | .none => .unterminated
        | .some body =>
          .piece ((body.push '*').push character) (body.lexeme.contains '\n') (by
            have size := body.length_add
            simp only [Cut.push, List.length_cons]
            omega)
      | _ => .none
    else .none

/-- The longest gap at the front of the input, or the number of characters before a
block comment that never ends. -/
def gap (input : List Char) : Except Nat (Gap input) :=
  match gapPiece input with
  | .none => .ok { Cut.atStart input with breaksLine := false }
  | .unterminated => .error 0
  | .piece cut breaksLine _ =>
    match gap cut.rest with
    | .ok following => .ok (.prepend cut breaksLine following)
    | .error passed => .error (cut.lexeme.length + passed)
termination_by input.length

/-! ## Literals -/

/-- The rest of a string literal, through its closing quote. A backslash protects the
next character; a bare line end leaves the literal open. -/
def stringBody (quote : Char) : (input : List Char) → Option (Cut input)
  | [] => none
  | ['\\'] => none
  | '\\' :: escaped :: rest => (stringBody quote rest).map fun cut => (cut.push escaped).push '\\'
  | character :: rest =>
    if endsLineComment character then none
    else if character == quote then some ⟨[character], rest, rfl⟩
    else (stringBody quote rest).map (·.push character)

/-- How a part of a template ends. -/
inductive TemplateEnd where
  | closed
  | substitution
  deriving DecidableEq, Repr

/-- The rest of a template part, through its backtick or through the opening of a
substitution. -/
def templateBody : (input : List Char) → Option (TemplateEnd × Cut input)
  | [] => none
  | ['\\'] => none
  | '\\' :: escaped :: rest =>
    (templateBody rest).map fun (ending, cut) => (ending, (cut.push escaped).push '\\')
  | '$' :: '{' :: rest => some (.substitution, ⟨['$', '{'], rest, rfl⟩)
  | character :: rest =>
    if character == '\x60' then some (.closed, ⟨[character], rest, rfl⟩)
    else (templateBody rest).map fun (ending, cut) => (ending, cut.push character)

/-- The rest of a regular expression, through its closing slash. A slash inside a class
does not close it. -/
def regexBody (inClass : Bool) : (input : List Char) → Option (Cut input)
  | [] => none
  | ['\\'] => none
  | '\\' :: escaped :: rest =>
    if endsLineComment escaped then none
    else (regexBody inClass rest).map fun cut => (cut.push escaped).push '\\'
  | character :: rest =>
    if endsLineComment character then none
    else if character == '/' && !inClass then some ⟨[character], rest, rfl⟩
    else
      (regexBody ((inClass || character == '[') && character != ']') rest).map
        (·.push character)

/-- The longest run of number characters. A sign continues the number only after an
exponent mark, and never in a hexadecimal number. -/
def numberRun (hexadecimal : Bool) (previous : Char) : (input : List Char) → Cut input
  | [] => .atStart []
  | character :: rest =>
    let exponentSign := (character == '+' || character == '-') &&
      (previous == 'e' || previous == 'E') && !hexadecimal
    if character.isAlphanum || character == '_' || character == '.' || exponentSign then
      (numberRun hexadecimal character rest).push character
    else .atStart (character :: rest)

/-- Whether a number is written in hexadecimal. -/
def isHexadecimal : List Char → Bool
  | '0' :: 'x' :: _ => true
  | '0' :: 'X' :: _ => true
  | _ => false

/-! ## Punctuators -/

/-- The punctuators of more than one character that are kept whole, longest first. -/
def longPunctuators : List (List Char) :=
  [['.', '.', '.'], ['=', '=', '='], ['!', '=', '='], ['=', '>'], ['=', '='], ['!', '='],
    ['?', '.'], ['?', '?'], ['+', '+'], ['-', '-']]

/-- Whether a digit stands at the front. -/
def startsWithDigit : List Char → Bool
  | character :: _ => character.isDigit
  | [] => false

/-- The number of characters of the punctuator at the front of a non-empty input. A
question mark, a point and a digit are a conditional, not optional chaining. -/
def punctuatorLength (input : List Char) : Nat :=
  match longPunctuators.find? fun mark =>
      mark.isPrefixOf input &&
        !(mark == ['?', '.'] && startsWithDigit (input.drop 2)) with
  | some mark => mark.length
  | none => 1

/-- Every listed punctuator has at least one character. -/
theorem punctuatorLength_pos (input : List Char) : 0 < punctuatorLength input := by
  unfold punctuatorLength
  split
  · rename_i mark found
    have listed := List.mem_of_find?_eq_some found
    simp only [longPunctuators, List.mem_cons, List.not_mem_nil, or_false] at listed
    rcases listed with h | h | h | h | h | h | h | h | h | h <;> subst h <;> decide
  · exact Nat.one_pos

/-! ## Tokens -/

/-- What an open brace closes with. -/
inductive Brace where
  | block
  | substitution
  deriving DecidableEq, Repr

/-- Whether a slash starts a regular expression rather than a division: it does unless an
expression ends before it. -/
def regexAllowed : Option Token → Bool
  | none => true
  | some previous => !previous.endsExpression

/-- The first token of an input, with the braces open after it. -/
structure Scanned (input : List Char) extends Cut input where
  kind : TokenKind
  braces : List Brace
  progress : rest.length < input.length

/-- A token whose first character is settled. -/
def Scanned.headed {rest : List Char} (kind : TokenKind) (braces : List Brace)
    (first : Char) (cut : Cut rest) : Scanned (first :: rest) :=
  { cut.push first with
    kind := kind
    braces := braces
    progress := by
      have size := cut.length_add
      simp only [Cut.push, List.length_cons]
      omega }

/-- The token of a template part that starts with `first`. -/
def Scanned.templatePart {rest : List Char} (closed opened : TokenKind) (braces : List Brace)
    (first : Char) : Option (Scanned (first :: rest)) :=
  (templateBody rest).map fun (ending, cut) =>
    match ending with
    | .closed => .headed closed braces first cut
    | .substitution => .headed opened (.substitution :: braces) first cut

/-- The braces open after the punctuator at the front. -/
def bracesAfter (braces : List Brace) (first : Char) : List Brace :=
  if first == '{' then .block :: braces
  else if first == '}' then braces.tail
  else braces

/-- The punctuator at the front of the input. -/
def Scanned.punctuator (braces : List Brace) (first : Char) (rest : List Char) :
    Scanned (first :: rest) :=
  { Cut.after (punctuatorLength (first :: rest)) (first :: rest) with
    kind := .punctuator
    braces := bracesAfter braces first
    progress := by
      have positive := punctuatorLength_pos (first :: rest)
      simp only [Cut.after, List.length_drop, List.length_cons]
      omega }

/-- The token at the front of a non-empty input, or the literal that never ends. -/
def scanToken (previous : Option Token) (braces : List Brace) (first : Char)
    (rest : List Char) : Except SyntaxFault (Scanned (first :: rest)) :=
  if first == '#' && rest.head?.any startsWord then
    .ok (.headed .word braces first (.spanning continuesWord rest))
  else if startsWord first then
    .ok (.headed .word braces first (.spanning continuesWord rest))
  else if first.isDigit || (first == '.' && startsWithDigit rest) then
    .ok (.headed .number braces first (numberRun (isHexadecimal (first :: rest)) first rest))
  else if first == '"' || first == '\'' then
    match stringBody first rest with
    | some cut => .ok (.headed .string braces first cut)
    | none => .error .unterminatedString
  else if first == '\x60' then
    match Scanned.templatePart .template .templateHead braces first with
    | some scanned => .ok scanned
    | none => .error .unterminatedTemplate
  else if first == '}' && braces.head? == some .substitution then
    match Scanned.templatePart .templateTail .templateMiddle braces.tail first with
    | some scanned => .ok scanned
    | none => .error .unterminatedTemplate
  else if first == '/' && regexAllowed previous then
    match regexBody false rest with
    | some cut => .ok (.headed .regex braces first (cut.append (.spanning continuesWord cut.rest)))
    | none => .error .unterminatedRegex
  else
    .ok (.punctuator braces first rest)

/-- The tokens of an input that starts at `offset`. -/
def tokensFrom (offset : Nat) (previous : Option Token) (braces : List Brace)
    (input : List Char) : Except SyntaxError (List Token) :=
  match gap input with
  | .error passed => .error ⟨.unterminatedComment, offset + passed⟩
  | .ok before =>
    match shape : before.rest with
    | [] => .ok []
    | first :: rest =>
      have shorter : rest.length < input.length := by
        have size := before.length_add
        rw [shape, List.length_cons] at size
        omega
      let start := offset + before.lexeme.length
      match scanToken previous braces first rest with
      | .error fault => .error ⟨fault, start⟩
      | .ok scanned =>
        let token : Token :=
          ⟨scanned.kind, String.ofList scanned.lexeme, start, before.breaksLine⟩
        match tokensFrom (start + scanned.lexeme.length) (some token) scanned.braces
            scanned.rest with
        | .error error => .error error
        | .ok following => .ok (token :: following)
termination_by input.length
decreasing_by
  have progress := scanned.progress
  rw [List.length_cons] at progress
  omega

/-- The tokens of a program. -/
def tokenize (source : List Char) : Except SyntaxError (List Token) :=
  tokensFrom 0 none [] source

end Playground

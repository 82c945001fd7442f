import Playground.Proofs.Erasure.Draft
import Playground.Proofs.Erasure.Scanners
import Playground.Proofs.Erasure.Tokens

/-!
# Tokens and gaps tile a program

A gap is made of blanks and comments, and nothing else: `GapItem.MakeUp` says so of a stretch
of the program, by the items that make it up. `Tiling` is what the tokenizer promises about a
program that it accepts: its tokens are non-empty slices of the program in order, every stretch
between them is a gap, no token begins where a gap could go on, and a token knows whether the
gap before it breaks the line. `tiling_of_tokenize` proves it.
-/

namespace Playground

/-- One item of a gap. -/
inductive GapItem where
  | blank (character : Char)
  | lineComment (body : List Char)
  | blockComment (body : List Char)

namespace GapItem

/-- The characters of an item, the marks of a comment included. -/
def text : GapItem → List Char
  | .blank character => [character]
  | .lineComment body => '/' :: '/' :: body
  | .blockComment body => '/' :: '*' :: body ++ ['*', '/']

/-- Whether an item breaks the line: a break outside of comments, or a line feed in a block
comment. -/
def breaksLine : GapItem → Bool
  | .blank character => isLineBreak character
  | .lineComment _ => false
  | .blockComment body => body.contains '\n'

/-- An item is whole where some text follows it: a comment of one line runs up to a line end or
the end of the program, and a block comment is closed by its first end mark. -/
def FitsBefore (following : List Char) : GapItem → Prop
  | .blank character => Text.isBlank character = true ∨ character = '\ufeff'
  | .lineComment body => (∀ character ∈ body, endsLineComment character = false) ∧
      ∀ next ∈ following.head?, endsLineComment next = true
  | .blockComment body => ¬['*', '/'] <:+: body ++ ['*']

/-- The items make up a gap before some text. -/
inductive MakeUp (following : List Char) : List GapItem → List Char → Prop where
  | nothing : MakeUp following [] []
  | item {first items gap} (fits : first.FitsBefore (gap ++ following))
      (rest : MakeUp following items gap) : MakeUp following (first :: items) (first.text ++ gap)

end GapItem

/-- No gap begins a text: it starts with no blank and with no comment mark. -/
structure BeginsToken (input : List Char) : Prop where
  notBlank : ∀ first ∈ input.head?, Text.isBlank first = false ∧ first ≠ '\ufeff'
  notLineComment : ¬['/', '/'] <+: input
  notBlockComment : ¬['/', '*'] <+: input

/-- Where the gap after some tokens starts. -/
def gapStart (tokens : List Token) : Nat :=
  tokens.getLast?.elim 0 Token.stop

/-- Where the gap before some tokens stops: at the next token or at the end of the program. -/
def gapStop (source : List Char) (tokens : List Token) : Nat :=
  tokens.head?.elim source.length Token.start

/-- Tokens and gaps tile a program. -/
structure Tiling (source : List Char) (tokens : List Token) : Prop where
  /-- A token is a non-empty slice of the program. -/
  slices : ∀ token ∈ tokens, token.start < token.stop ∧ token.stop ≤ source.length ∧
    slice source.toArray token.start token.stop = token.text.toList
  /-- Tokens do not overlap and stand in order. -/
  ordered : tokens.Pairwise fun earlier later => earlier.stop ≤ later.start
  /-- No token begins where a gap could go on. -/
  begins : ∀ token ∈ tokens, BeginsToken (source.drop token.start)
  /-- What stands before, between and after tokens is a gap, and the next token knows whether it
  breaks the line. -/
  gaps : ∀ earlier later, tokens = earlier ++ later → ∃ items,
    GapItem.MakeUp (source.drop (gapStop source later)) items
        (slice source.toArray (gapStart earlier) (gapStop source later)) ∧
      ∀ token ∈ later.head?, (token.newlineBefore = true ↔ ∃ item ∈ items, item.breaksLine = true)

/-! ## Gaps -/

/-- A block comment body ends with its first end mark. -/
theorem exists_body_of_blockCommentBody {input : List Char} {cut : Cut input}
    (found : blockCommentBody input = some cut) :
    ∃ body, cut.lexeme = body ++ ['*', '/'] ∧ ¬['*', '/'] <:+: body ++ ['*'] := by
  fun_induction blockCommentBody input with
  | case1 => contradiction
  | case2 rest =>
    cases found
    refine ⟨[], rfl, fun inside => ?_⟩
    exact absurd inside.length_le (by decide)
  | case3 character rest notMark inductionHypothesis =>
    obtain ⟨tail, foundTail, rfl⟩ := Option.map_eq_some_iff.mp found
    obtain ⟨body, lexeme, unclosed⟩ := inductionHypothesis foundTail
    refine ⟨character :: body, by simp [Cut.push, lexeme], fun inside => ?_⟩
    rcases List.infix_cons_iff.mp inside with atFront | later
    · -- The mark would stand at the front of the input, where it was looked for.
      have starts : ['*', '/'] <+: character :: rest := by
        rw [← tail.joined, lexeme]
        refine atFront.trans ⟨'/' :: tail.rest, by simp⟩
      obtain ⟨following, shape⟩ := starts
      obtain ⟨rfl, rfl⟩ := List.cons.inj shape
      exact notMark following rfl rfl
    · exact unclosed later

/-- The first piece of a gap is one item. -/
theorem exists_item_of_gapPiece {input : List Char} {cut : Cut input} {breaks : Bool}
    {progress : cut.rest.length < input.length}
    (found : gapPiece input = .piece cut breaks progress) :
    ∃ item : GapItem, item.text = cut.lexeme ∧ item.FitsBefore cut.rest ∧
      item.breaksLine = breaks := by
  unfold gapPiece at found
  split at found
  · contradiction
  rename_i character rest
  have lineBreakBlank : isLineBreak character = true → Text.isBlank character = true := by
    simp only [isLineBreak, Bool.or_eq_true, beq_iff_eq]
    rintro (((rfl | rfl) | rfl) | rfl) <;> decide +kernel
  split at found
  case isTrue breaksHere =>
    cases found
    exact ⟨.blank character, rfl, .inl (lineBreakBlank breaksHere), breaksHere⟩
  split at found
  case isTrue notBreak blank =>
    cases found
    refine ⟨.blank character, rfl, ?_, Bool.eq_false_iff.mpr notBreak⟩
    simpa [GapItem.FitsBefore] using blank
  split at found
  case isFalse => contradiction
  case isTrue slash =>
    obtain rfl := beq_iff_eq.mp slash
    split at found
    · rename_i afterSlashes
      cases found
      refine ⟨.lineComment _, rfl, ⟨fun character inBody => ?_, fun next atEnd => ?_⟩, rfl⟩
      · have accepted := List.all_eq_true.mp List.all_takeWhile character inBody
        simpa using accepted
      · have stopped := List.head?_dropWhile_not (fun next => !endsLineComment next) afterSlashes
        have shape : (afterSlashes.dropWhile fun next => !endsLineComment next).head? = some next :=
          atEnd
        rw [shape] at stopped
        simpa using stopped
    · split at found
      · contradiction
      · rename_i body foundBody
        cases found
        obtain ⟨inner, lexeme, unclosed⟩ := exists_body_of_blockCommentBody foundBody
        refine ⟨.blockComment inner, by simp [GapItem.text, Cut.push, lexeme], unclosed, ?_⟩
        simp [GapItem.breaksLine, lexeme]
    · contradiction

/-- Where no piece of a gap is found, a token begins. -/
theorem beginsToken_of_gapPiece {input : List Char} (found : gapPiece input = .none) :
    BeginsToken input := by
  unfold gapPiece at found
  split at found
  · exact ⟨by simp, by simp, by simp⟩
  rename_i character rest
  split at found
  · contradiction
  split at found
  · contradiction
  rename_i notBlank
  have first : ∀ first ∈ (character :: rest).head?,
      Text.isBlank first = false ∧ first ≠ '\ufeff' := by
    simpa using notBlank
  split at found
  case isFalse other =>
    simp only [beq_iff_eq] at other
    exact ⟨first, by simp [Ne.symm other], by simp [Ne.symm other]⟩
  case isTrue slash =>
    split at found
    · contradiction
    · split at found <;> contradiction
    · rename_i notSlash notStar
      refine ⟨first, ?_, ?_⟩
      · rintro ⟨following, shape⟩
        exact notSlash following (List.cons.inj shape).2.symm
      · rintro ⟨following, shape⟩
        exact notStar following (List.cons.inj shape).2.symm

/-- A gap is made of items, and a token begins after it. -/
theorem exists_items_of_gap {input : List Char} {before : Gap input}
    (found : gap input = .ok before) :
    ∃ items, GapItem.MakeUp before.rest items before.lexeme ∧
      before.breaksLine = items.any GapItem.breaksLine ∧ BeginsToken before.rest := by
  fun_induction gap input with
  | case1 input none =>
    cases found
    exact ⟨[], .nothing, rfl, beginsToken_of_gapPiece none⟩
  | case2 | case4 => contradiction
  | case3 input cut breaks progress piece following foundFollowing inductionHypothesis =>
    cases found
    obtain ⟨items, made, breaksAfter, begins⟩ := inductionHypothesis foundFollowing
    obtain ⟨item, text, fits, breaksFirst⟩ := exists_item_of_gapPiece piece
    rw [← following.joined] at fits
    refine ⟨item :: items, ?_, ?_, begins⟩
    · have whole := made.item fits
      rwa [text] at whole
    · simp [Gap.prepend, breaksAfter, breaksFirst]

/-! ## Tokens -/

/-- Tokens and gaps tile a text that starts at an offset. -/
inductive Tiled : Nat → List Char → List Token → Prop where
  | done {offset gap items} (made : GapItem.MakeUp [] items gap) : Tiled offset gap []
  | token {offset gap items token rest tokens}
      (made : GapItem.MakeUp (token.text.toList ++ rest) items gap)
      (begins : BeginsToken (token.text.toList ++ rest))
      (start : token.start = offset + gap.length)
      (newline : token.newlineBefore = items.any GapItem.breaksLine)
      (following : Tiled token.stop rest tokens) :
      Tiled offset (gap ++ (token.text.toList ++ rest)) (token :: tokens)

theorem tiled_of_tokensFrom {offset : Nat} {previous : Option Token} {braces : List Brace}
    {input : List Char} {tokens : List Token}
    (scanned : tokensFrom offset previous braces input = .ok tokens) :
    Tiled offset input tokens := by
  fun_induction tokensFrom offset previous braces input generalizing tokens with
  | case1 | case3 | case4 => contradiction
  | case2 offset previous braces input before found shape =>
    cases scanned
    obtain ⟨items, made, _⟩ := exists_items_of_gap found
    have whole : before.lexeme = input := by
      simpa [shape] using before.joined
    rw [shape, whole] at made
    exact .done made
  | case5 offset previous braces input before found first rest shape _ start token _ stream =>
    rename_i following followed inductionHypothesis
    cases scanned
    obtain ⟨items, made, newline, begins⟩ := exists_items_of_gap found
    have tokenText : before.rest = stream.text.toList ++ token.rest := by
      simpa [stream] using shape.trans token.joined.symm
    have cut : input = before.lexeme ++ (stream.text.toList ++ token.rest) := by
      rw [← tokenText]
      exact before.joined.symm
    rw [tokenText] at made begins
    rw [cut]
    refine .token made begins rfl newline ?_
    have stop : stream.stop = start + token.lexeme.length := by
      simp [Token.stop, stream]
    rw [stop]
    exact inductionHypothesis followed

section Splits

variable {offset : Nat} {input : List Char} {earlier later tokens : List Token}

/-- The tokens after some tokens tile the rest of the text. -/
theorem Tiled.split (tiled : Tiled offset input (earlier ++ later)) :
    ∃ passed rest, input = passed ++ rest ∧
      earlier.getLast?.elim offset Token.stop = offset + passed.length ∧
      Tiled (offset + passed.length) rest later := by
  induction earlier generalizing offset input with
  | nil => exact ⟨[], input, rfl, rfl, tiled⟩
  | cons token earlier inductionHypothesis =>
    cases tiled with
    | @token _ gap _ _ rest _ made begins start newline following =>
      obtain ⟨passed, left, rfl, stop, tiledLeft⟩ := inductionHypothesis following
      have length : token.stop + passed.length =
          offset + (gap ++ token.text.toList ++ passed).length := by
        simp only [Token.stop, start, List.length_append, String.length_toList]
        omega
      refine ⟨gap ++ token.text.toList ++ passed, left, by simp, ?_, length ▸ tiledLeft⟩
      rw [← length, ← stop, List.getLast?_cons]
      cases earlier.getLast? <;> rfl

/-- A token is the slice of the program between its ends. -/
theorem Tiled.slice_of_mem {source : List Char} {token : Token} (tiled : Tiled 0 source tokens)
    (member : token ∈ tokens) :
    slice source.toArray token.start token.stop = token.text.toList := by
  obtain ⟨earlier, later, rfl⟩ := List.append_of_mem member
  obtain ⟨passed, left, joined, _, rest⟩ := tiled.split
  cases rest with
  | @token _ gap _ _ rest _ made begins start newline _ =>
    have front : source = (passed ++ gap) ++ (token.text.toList ++ rest) := by
      rw [joined, List.append_assoc]
    rw [Nat.zero_add, ← List.length_append] at start
    rw [Draft.slice_eq, Token.stop, start, front, List.drop_take, List.drop_left,
      Nat.add_sub_cancel_left, ← String.length_toList, List.take_left]

end Splits

/-- The tokens of a program and its gaps tile it. -/
theorem tiling_of_tokenize {source : List Char} {tokens : List Token}
    (tokenized : tokenize source = .ok tokens) : Tiling source tokens := by
  have tiles : Tiles 0 source tokens := tiles_of_tokensFrom tokenized
  have tiled : Tiled 0 source tokens := tiled_of_tokensFrom tokenized
  -- What a token and the rest of the program look like from the end of the tokens before it.
  have next : ∀ {earlier later token}, tokens = earlier ++ token :: later → ∃ passed gap items rest,
      source = passed ++ (gap ++ (token.text.toList ++ rest)) ∧
      gapStart earlier = passed.length ∧ token.start = passed.length + gap.length ∧
      GapItem.MakeUp (token.text.toList ++ rest) items gap ∧
      BeginsToken (token.text.toList ++ rest) ∧
      token.newlineBefore = items.any GapItem.breaksLine := by
    intro earlier later token shape
    obtain ⟨passed, left, joined, start, rest⟩ := (shape ▸ tiled).split
    cases rest with
    | token made begins tokenStart newline _ =>
      simp only [Nat.zero_add] at start tokenStart
      exact ⟨_, _, _, _, joined, start, tokenStart, made, begins, newline⟩
  constructor
  case slices =>
    intro token member
    have bounds := tiles.of_mem member
    exact ⟨bounds.2.1, by simpa using bounds.2.2.1, tiled.slice_of_mem member⟩
  case ordered => exact tiles.pairwise
  case begins =>
    intro token member
    obtain ⟨earlier, later, shape⟩ := List.append_of_mem member
    obtain ⟨passed, gap, _, rest, joined, _, start, _, begins, _⟩ := next shape
    have dropped : source.drop token.start = token.text.toList ++ rest := by
      rw [joined, start, ← List.append_assoc, ← List.length_append, List.drop_left]
    rwa [dropped]
  case gaps =>
    intro earlier later shape
    cases later with
    | nil =>
      obtain ⟨passed, left, joined, start, rest⟩ := (shape ▸ tiled).split
      rw [Nat.zero_add] at start
      cases rest with
      | @done _ left items made =>
        refine ⟨items, ?_, by simp⟩
        have whole : slice source.toArray (gapStart earlier) source.length = left := by
          rw [Draft.slice_eq, gapStart, start, List.take_length, joined, List.drop_left]
        simpa [gapStop, whole] using made
    | cons token later =>
      obtain ⟨passed, gap, items, rest, joined, start, tokenStart, made, _, newline⟩ := next shape
      refine ⟨items, ?_, ?_⟩
      · have front : source = (passed ++ gap) ++ (token.text.toList ++ rest) := by
          rw [joined, List.append_assoc]
        have stop : gapStop source (token :: later) = (passed ++ gap).length := by
          simp [gapStop, tokenStart]
        rw [stop, start, front, List.drop_left, Draft.slice_eq, List.take_left, List.drop_left]
        exact made
      · simp [newline]

theorem tiling_of_comments :
    ∃ tokens, tokenize "a // note\n/* block */ b".toList = .ok tokens ∧ tokens.length = 2 ∧
      Tiling "a // note\n/* block */ b".toList tokens := by
  obtain ⟨tokens, tokenized, two⟩ := exists_ok_of_any (fun tokens : List Token => tokens.length = 2)
    (show ((tokenize "a // note\n/* block */ b".toList).toOption.any
      fun tokens => decide (tokens.length = 2)) = true by decide +kernel)
  exact ⟨tokens, tokenized, two, tiling_of_tokenize tokenized⟩

end Playground

import Playground.Proofs.Erasure.Juxtaposition.Scanners
import Playground.Proofs.Erasure.Relocation.Tokens
import Playground.Proofs.Erasure.Tokens

/-!
# Tokens on both sides of a seam

The tokens of a text with a seam behind it are the tokens of the text and a semicolon. Behind
the seam the tokenizer goes on as it starts: a semicolon ends no expression, and no brace is open
where the brackets of the text are balanced.
-/

namespace Playground

/-! ## Braces -/

/-- The braces open behind a token. -/
def Token.bracesAfter (braces : List Brace) (token : Token) : List Brace :=
  match token.kind with
  | .templateHead => .substitution :: braces
  | .templateMiddle => .substitution :: braces.tail
  | .templateTail => braces.tail
  | .punctuator =>
    if token.text = "\x7b" then .block :: braces
    else if token.text = "\x7d" then braces.tail
    else braces
  | .word | .number | .string | .regex | .template => braces

theorem punctuatorLength_brace {first : Char} (brace : first = '{' ∨ first = '}')
    (rest : List Char) : punctuatorLength (first :: rest) = 1 := by
  rcases brace with rfl | rfl <;> simp [punctuatorLength, longPunctuators]

theorem lexeme_punctuator_eq_iff {mark : Char} (brace : mark = '{' ∨ mark = '}')
    (braces : List Brace) (first : Char) (rest : List Char) :
    (Scanned.punctuator braces first rest).lexeme = [mark] ↔ first = mark := by
  constructor
  · intro alone
    have joined := (Scanned.punctuator braces first rest).joined
    rw [alone] at joined
    exact (List.cons.inj joined).1.symm
  · rintro rfl
    simp only [Scanned.punctuator, Cut.after, punctuatorLength_brace brace, List.take_succ_cons,
      List.take_zero]

theorem braces_of_punctuator (braces : List Brace) (first : Char) (rest : List Char) (start : Nat)
    (newlineBefore : Bool) :
    (Scanned.punctuator braces first rest).braces = Token.bracesAfter braces
      ⟨.punctuator, String.ofList (Scanned.punctuator braces first rest).lexeme, start,
        newlineBefore⟩ := by
  have spelled : ∀ {mark : Char}, mark = '{' ∨ mark = '}' →
      (String.ofList (Scanned.punctuator braces first rest).lexeme = String.ofList [mark] ↔
        first = mark) := fun brace => by
    rw [String.ofList_inj, lexeme_punctuator_eq_iff brace]
  have opening := spelled (.inl rfl)
  have closing := spelled (.inr rfl)
  simp only [Token.bracesAfter]
  rw [show "\x7b" = String.ofList ['{'] from rfl, show "\x7d" = String.ofList ['}'] from rfl]
  rw [if_congr opening rfl (if_congr closing rfl rfl)]
  simp only [Scanned.punctuator, bracesAfter, beq_iff_eq]

/-- A scanned token opens and closes braces by its kind and text. -/
theorem braces_of_scanToken {previous : Option Token} {braces : List Brace} {first : Char}
    {rest : List Char} {scanned : Scanned (first :: rest)}
    (found : scanToken previous braces first rest = .ok scanned) (start : Nat)
    (newlineBefore : Bool) :
    scanned.braces = Token.bracesAfter braces
      ⟨scanned.kind, String.ofList scanned.lexeme, start, newlineBefore⟩ := by
  unfold scanToken at found
  split_ifs at found with isPrivate isWord isNumber isString isTemplate resumes isRegex
  · cases found; rfl
  · cases found; rfl
  · cases found; rfl
  · split at found
    · cases found
      rfl
    · contradiction
  · split at found
    case h_1 part =>
      cases found
      obtain ⟨⟨ending, cut⟩, -, same⟩ := Option.map_eq_some_iff.mp part
      cases ending <;> cases same <;> rfl
    case h_2 => contradiction
  · split at found
    case h_1 part =>
      cases found
      obtain ⟨⟨ending, cut⟩, -, same⟩ := Option.map_eq_some_iff.mp part
      cases ending <;> cases same <;> rfl
    case h_2 => contradiction
  · split at found
    · cases found
      rfl
    · contradiction
  · cases found
    exact braces_of_punctuator braces first rest start newlineBefore

/-! ## The seam -/

/-- The semicolon of a seam. -/
def seamToken (start : Nat) : Token :=
  ⟨.punctuator, ";", start, true⟩

theorem scanToken_semicolon (previous : Option Token) (braces : List Brace) (rest : List Char) :
    (scanToken previous braces ';' ('\n' :: rest)).map Scanned.view =
      .ok ([';'], .punctuator, braces) := by
  have plain : startsWord ';' = false := by decide +kernel
  have length : punctuatorLength (';' :: '\n' :: rest) = 1 := by
    simp [punctuatorLength, longPunctuators]
  simp [scanToken, plain, Except.map, Scanned.view, Scanned.punctuator, Cut.after, length, bracesAfter]

/-- The tokenizer goes over a seam. -/
theorem tokensFrom_semicolon {offset : Nat} {previous : Option Token} {braces : List Brace}
    {text : List Char} {rest : List Char}
    (found : gapView (text ++ (seam ++ rest)) = .ok (';' :: '\n' :: rest, true)) :
    tokensFrom offset previous braces (text ++ (seam ++ rest)) =
      (seamToken (offset + text.length + 1) :: ·) <$>
        tokensFrom (offset + text.length + 2) (some (seamToken (offset + text.length + 1))) braces
          ('\n' :: rest) := by
  have shape : text ++ (seam ++ rest) = (text ++ ['\n']) ++ ';' :: '\n' :: rest := by
    simp [seam]
  rw [shape] at found ⊢
  rw [tokensFrom_of_gap found]
  have view := scanToken_semicolon previous braces rest
  cases scans : scanToken previous braces ';' ('\n' :: rest) with
  | error fault =>
    rw [scans] at view
    contradiction
  | ok scanned =>
    rw [scans] at view
    have same : scanned.view = ([';'], .punctuator, braces) := Except.ok.inj view
    simp only [Scanned.view, Prod.mk.injEq] at same
    obtain ⟨lexeme, kind, bracesAfter⟩ := same
    have behind : scanned.rest = '\n' :: rest := by
      have joined := scanned.joined
      rw [lexeme] at joined
      exact (List.cons.inj joined).2
    simp only [lexeme, kind, bracesAfter, behind, List.length_append, List.length_singleton]
    rfl

/-- The first token of a text with a seam behind it. -/
theorem exists_token_of_seam {offset : Nat} {previous : Option Token} {braces : List Brace}
    {front text : List Char} {first : Char} {breaks : Bool} {tokens : List Token}
    (gap : ∀ {following}, StartsLine following →
      gapView (front ++ first :: text ++ following) = .ok (first :: (text ++ following), breaks))
    (found : tokensFrom offset previous braces (front ++ first :: text ++ seam) = .ok tokens) :
    ∃ token left, left.length < (first :: text).length ∧
      token.stop + left.length = offset + (front ++ first :: text).length ∧
      ∀ {following}, StartsLine following →
        tokensFrom offset previous braces (front ++ first :: text ++ following) =
          (token :: ·) <$> tokensFrom token.stop (some token) (token.bracesAfter braces)
            (left ++ following) := by
  have whole := gap startsLine_seam_nil
  have inside : endsLineComment first = false := by
    have breaksNone := not_breaks_of_gapView whole
    simp only [isLineBreak, Bool.or_eq_false_iff] at breaksNone
    simp only [endsLineComment, breaksNone, Bool.or_false]
  have regroup : ∀ following, front ++ first :: text ++ following =
      front ++ first :: (text ++ following) := fun following => by simp
  rw [regroup] at found whole
  rw [tokensFrom_of_gap whole] at found
  cases scans : scanToken previous braces first (text ++ seam) with
  | error fault =>
    rw [scans] at found
    contradiction
  | ok scanned =>
    obtain ⟨left, shape, -, alike⟩ := exists_left_of_scanToken inside scans
    have length : scanned.lexeme.length + left.length = (first :: text).length := by
      rw [shape, List.length_append]
    have nonempty := List.length_pos_of_ne_nil scanned.lexeme_ne_nil
    refine ⟨⟨scanned.kind, String.ofList scanned.lexeme, offset + front.length, breaks⟩, left,
      by omega, ?_, fun {following} starts => ?_⟩
    · simp only [Token.stop, String.length_ofList, List.length_append]
      omega
    · have gapHere := gap starts
      rw [regroup] at gapHere ⊢
      rw [tokensFrom_of_gap gapHere, ← braces_of_scanToken scans]
      have ending := alike starts
      cases scansHere : scanToken previous braces first (text ++ following) with
      | error fault =>
        rw [scansHere] at ending
        contradiction
      | ok image =>
        rw [scansHere] at ending
        have same : image.ending = (left ++ following, scanned.kind, scanned.braces) :=
          Except.ok.inj ending
        simp only [Scanned.ending, Prod.mk.injEq] at same
        obtain ⟨rest, kind, bracesAfter⟩ := same
        have lexeme : image.lexeme ++ (left ++ following) =
            scanned.lexeme ++ (left ++ following) :=
          calc image.lexeme ++ (left ++ following) = image.lexeme ++ image.rest := by rw [rest]
            _ = first :: text ++ following := image.joined
            _ = scanned.lexeme ++ (left ++ following) := by rw [shape, List.append_assoc]
        simp only [List.append_cancel_right lexeme, rest, kind, bracesAfter, Token.stop,
          String.length_ofList]

/-- The tokenizer goes over a text and the seam behind it, and goes on alike whatever follows. -/
theorem tokensFrom_seam {offset : Nat} {previous : Option Token} {braces : List Brace}
    {text : List Char} {tokens : List Token}
    (found : tokensFrom offset previous braces (text ++ seam) = .ok tokens) :
    ∃ earlier, tokensFrom offset previous braces text = .ok earlier ∧
      ∀ rest, tokensFrom offset previous braces (text ++ (seam ++ rest)) =
        ((earlier ++ [seamToken (offset + text.length + 1)]) ++ ·) <$>
          tokensFrom (offset + text.length + 2) (some (seamToken (offset + text.length + 1)))
            (earlier.foldl Token.bracesAfter braces) ('\n' :: rest) := by
  cases gaps : gapView (text ++ seam) with
  | error count =>
    rw [tokensFrom_of_unterminated gaps] at found
    contradiction
  | ok following =>
    obtain ⟨behind, breaks⟩ := following
    cases gapBefore_of_gapView gaps with
    | seam ends further =>
      refine ⟨[], tokensFrom_of_end ends, fun rest => ?_⟩
      exact tokensFrom_semicolon (further rest)
    | @token front first afterFirst shape gap =>
      subst shape
      obtain ⟨token, left, shorter, stop, step⟩ := exists_token_of_seam gap found
      have next := found
      rw [step startsLine_seam_nil] at next
      cases rests : tokensFrom token.stop (some token) (token.bracesAfter braces) (left ++ seam) with
      | error error =>
        rw [rests] at next
        contradiction
      | ok others =>
        obtain ⟨earlier, foundEarlier, goesOn⟩ := tokensFrom_seam rests
        have here := step .nil
        simp only [List.append_nil] at here
        refine ⟨token :: earlier, ?_, fun rest => ?_⟩
        · rw [here, foundEarlier]
          rfl
        · rw [step (startsLine_seam rest), goesOn, stop]
          simp only [List.foldl_cons, ← LawfulFunctor.comp_map]
          rfl
termination_by text.length
decreasing_by
  subst_vars
  simp only [List.length_append] at shorter ⊢
  omega

/-! ## Behind the seam -/

/-- A token further on. -/
def Token.moved (count : Nat) (token : Token) : Token :=
  { token with start := token.start + count }

/-- Tokens the first of which is on a new line. -/
def onNewLine : List Token → List Token
  | [] => []
  | first :: rest => { first with newlineBefore := true } :: rest

/-- The tokenizer starts anywhere alike, behind whatever ends no expression or ends one. -/
theorem tokensFrom_moved {offset count : Nat} {previous other : Option Token}
    {braces : List Brace} {input : List Char} {tokens : List Token} (same : regexAllowed other = regexAllowed previous)
    (found : tokensFrom offset previous braces input = .ok tokens) :
    tokensFrom (offset + count) other braces input = .ok (tokens.map (Token.moved count)) := by
  cases gaps : gapView input with
  | error passed =>
    rw [tokensFrom_of_unterminated gaps] at found
    contradiction
  | ok following =>
    obtain ⟨behind, breaks⟩ := following
    cases behind with
    | nil =>
      rw [tokensFrom_of_end gaps] at found ⊢
      cases found
      rfl
    | cons first rest =>
      obtain ⟨front, rfl⟩ := exists_append_of_gapView gaps
      rw [tokensFrom_of_gap gaps] at found ⊢
      rw [scanToken_congr same]
      cases scans : scanToken previous braces first rest with
      | error fault =>
        rw [scans] at found
        contradiction
      | ok scanned =>
        rw [scans] at found
        dsimp only at found ⊢
        cases rests : tokensFrom (offset + front.length + scanned.lexeme.length) _ scanned.braces
            scanned.rest with
        | error error =>
          rw [rests] at found
          contradiction
        | ok others =>
          have shorter := scanned.progress
          have start : offset + count + front.length = offset + front.length + count := by omega
          have stop : offset + front.length + count + scanned.lexeme.length =
            offset + front.length + scanned.lexeme.length + count := by omega
          have expression : regexAllowed (some (Token.moved count ⟨scanned.kind,
              String.ofList scanned.lexeme, offset + front.length, breaks⟩)) = regexAllowed (some
              ⟨scanned.kind, String.ofList scanned.lexeme, offset + front.length, breaks⟩) := rfl
          have moved := @tokensFrom_moved _ count _ _ _ _ _ expression rests
          rw [rests] at found
          cases found
          rw [start, stop]
          simp only [Token.moved] at moved
          rw [moved]
          rfl
termination_by input.length
decreasing_by
  subst_vars
  rw [List.length_append]
  omega

/-- The tokenizer starts alike behind a line feed, but its first token is on a new line. -/
theorem tokensFrom_newline (offset : Nat) {previous other : Option Token} {braces : List Brace}
    {input : List Char} {tokens : List Token} (same : regexAllowed other = regexAllowed previous)
    (found : tokensFrom 0 previous braces input = .ok tokens) :
    tokensFrom offset other braces ('\n' :: input) =
      .ok (onNewLine (tokens.map (Token.moved (offset + 1)))) := by
  have line := gapView_of_piece (@view_gapPiece_of_breaks '\n' (by decide) input)
  cases gaps : gapView input with
  | error passed =>
    rw [tokensFrom_of_unterminated gaps] at found
    contradiction
  | ok following =>
    obtain ⟨behind, breaks⟩ := following
    rw [gaps] at line
    cases behind with
    | nil =>
      rw [tokensFrom_of_end gaps] at found
      rw [tokensFrom_of_end line]
      cases found
      rfl
    | cons first rest =>
      obtain ⟨front, rfl⟩ := exists_append_of_gapView gaps
      rw [tokensFrom_of_gap gaps] at found
      rw [← List.cons_append] at line ⊢
      rw [tokensFrom_of_gap line, scanToken_congr same]
      cases scans : scanToken previous braces first rest with
      | error fault =>
        rw [scans] at found
        contradiction
      | ok scanned =>
        rw [scans] at found
        dsimp only at found ⊢
        cases rests : tokensFrom (0 + front.length + scanned.lexeme.length) _ scanned.braces
            scanned.rest with
        | error error =>
          rw [rests] at found
          contradiction
        | ok others =>
          have start : offset + ('\n' :: front).length = 0 + front.length + (offset + 1) := by
            rw [List.length_cons]
            omega
          have stop : 0 + front.length + (offset + 1) + scanned.lexeme.length =
            0 + front.length + scanned.lexeme.length + (offset + 1) := by omega
          have expression : regexAllowed (some ⟨scanned.kind, String.ofList scanned.lexeme,
              0 + front.length + (offset + 1), true⟩) = regexAllowed (some
              ⟨scanned.kind, String.ofList scanned.lexeme, 0 + front.length, breaks⟩) := rfl
          have moved := @tokensFrom_moved _ (offset + 1) _ _ _ _ _ expression rests
          rw [rests] at found
          cases found
          simp only [start, stop, Bool.true_or, moved]
          rfl

/-- A text and a program behind a seam have the tokens of the text, a semicolon, and the tokens
of the program. -/
theorem tokenize_seam {text rest : List Char} {tokens others : List Token}
    (found : tokenize (text ++ seam) = .ok tokens) (foundRest : tokenize rest = .ok others)
    (balanced : tokens.foldl Token.bracesAfter [] = []) :
    (∃ earlier, tokenize text = .ok earlier ∧
      tokens = earlier ++ [seamToken (text.length + 1)]) ∧
    tokenize (text ++ (seam ++ rest)) =
      .ok (tokens ++ onNewLine (others.map (Token.moved (text ++ seam).length))) := by
  obtain ⟨earlier, foundEarlier, goesOn⟩ := tokensFrom_seam found
  simp only [Nat.zero_add] at goesOn
  have line : gapView ['\n'] = .ok ([], true) := by
    rw [gapView_of_piece (view_gapPiece_of_breaks (by decide) []), gapView_of_none rfl]
    rfl
  have whole : tokenize (text ++ seam) = .ok (earlier ++ [seamToken (text.length + 1)]) := by
    have ends := goesOn []
    rw [tokensFrom_of_end line, List.append_nil] at ends
    exact ends.trans (congrArg Except.ok (List.append_nil _))
  obtain rfl : tokens = earlier ++ [seamToken (text.length + 1)] :=
    Except.ok.inj (found.symm.trans whole)
  have braces : earlier.foldl Token.bracesAfter [] = [] := by
    rw [List.foldl_append] at balanced
    exact balanced
  refine ⟨⟨earlier, foundEarlier, rfl⟩, ?_⟩
  have expression : regexAllowed (some (seamToken (text.length + 1))) = regexAllowed none := rfl
  have length : (text ++ seam).length = text.length + 2 + 1 := by simp [seam]
  have behind := goesOn rest
  rw [braces, tokensFrom_newline _ expression foundRest, ← length] at behind
  exact behind

end Playground

import Playground.Proofs.Erasure.Scanners

/-!
# The tokenizer between two tokens

Between two tokens the tokenizer knows where it stands, the token before, the braces that are open
and the input that is left. `ScanSteps` goes from one such moment to another over the tokens in
between. A tokenizer that gives up has gone over some tokens and stands before a comment or a
literal that never ends (`exists_fails_of_tokens`).
-/

namespace Playground

/-- Where the tokenizer stands. -/
structure Scanner where
  offset : Nat
  previous : Option Token
  braces : List Brace
  input : List Char

namespace Scanner

/-- The tokenizer in front of a program. -/
def start (source : List Char) : Scanner :=
  ⟨0, none, [], source⟩

/-- What the tokenizer makes of the input that is left. -/
def tokens (scanner : Scanner) : Except SyntaxError (List Token) :=
  tokensFrom scanner.offset scanner.previous scanner.braces scanner.input

/-- The tokenizer behind a token with a gap before it. -/
def behind {first : Char} {rest : List Char} (offset : Nat) (front : List Char) (breaks : Bool)
    (scanned : Scanned (first :: rest)) : Scanner where
  offset := offset + front.length + scanned.lexeme.length
  previous := some ⟨scanned.kind, String.ofList scanned.lexeme, offset + front.length, breaks⟩
  braces := scanned.braces
  input := scanned.rest

end Scanner

/-- One token is read. -/
inductive ScanStep : Scanner → Token → Scanner → Prop where
  | intro {offset previous braces front first rest breaks scanned}
      (gap : gapView (front ++ first :: rest) = .ok (first :: rest, breaks))
      (found : scanToken previous braces first rest = .ok scanned) :
      ScanStep ⟨offset, previous, braces, front ++ first :: rest⟩
        ⟨scanned.kind, String.ofList scanned.lexeme, offset + front.length, breaks⟩
        (.behind offset front breaks scanned)

/-- Tokens are read one after another. -/
inductive ScanSteps : Scanner → List Token → Scanner → Prop where
  | refl {scanner} : ScanSteps scanner [] scanner
  | step {scanner token next tokens after} (taken : ScanStep scanner token next)
      (others : ScanSteps next tokens after) : ScanSteps scanner (token :: tokens) after

/-- The input that is left is a gap. -/
def Scanner.Ends (scanner : Scanner) : Prop :=
  ∃ breaks, gapView scanner.input = .ok ([], breaks)

/-- The tokenizer stands before a comment or a literal that never ends, with a gap before it. -/
inductive Scanner.Fails : Scanner → SyntaxError → Prop where
  | comment {offset previous braces input passed} (gap : gapView input = .error passed) :
      Fails ⟨offset, previous, braces, input⟩ ⟨.unterminatedComment, offset + passed⟩
  | literal {offset previous braces front first rest breaks fault}
      (gap : gapView (front ++ first :: rest) = .ok (first :: rest, breaks))
      (open_ : scanToken previous braces first rest = .error fault) :
      Fails ⟨offset, previous, braces, front ++ first :: rest⟩ ⟨fault, offset + front.length⟩

variable {scanner next : Scanner} {token : Token} {earlier later : List Token}
  {error : SyntaxError}

theorem ScanStep.tokens_eq (taken : ScanStep scanner token next) :
    scanner.tokens = (token :: ·) <$> next.tokens := by
  cases taken with
  | intro gap found =>
    rw [Scanner.tokens, tokensFrom_of_gap gap, found]
    rfl

theorem Scanner.Ends.tokens_eq (ends : scanner.Ends) : scanner.tokens = .ok [] := by
  obtain ⟨breaks, gap⟩ := ends
  exact tokensFrom_of_end gap

theorem Scanner.Fails.tokens_eq (fails : scanner.Fails error) : scanner.tokens = .error error := by
  cases fails with
  | comment gap => exact tokensFrom_of_unterminated gap
  | literal gap open_ => rw [Scanner.tokens, tokensFrom_of_gap gap, open_]

theorem ScanStep.shorter (taken : ScanStep scanner token next) :
    next.input.length < scanner.input.length := by
  cases taken with
  | @intro offset previous braces front first rest breaks scanned =>
    have progress := scanned.progress
    rw [List.length_append]
    exact Nat.lt_of_lt_of_le progress (Nat.le_add_left ..)

/-- The tokenizer ends, gives up or reads a token. -/
theorem Scanner.progress (scanner : Scanner) :
    scanner.Ends ∨ (∃ error, scanner.Fails error) ∨ ∃ token next, ScanStep scanner token next := by
  obtain ⟨offset, previous, braces, input⟩ := scanner
  cases gap : gapView input with
  | error passed => exact .inr (.inl ⟨_, .comment gap⟩)
  | ok found =>
    obtain ⟨behind, breaks⟩ := found
    cases behind with
    | nil => exact .inl ⟨breaks, gap⟩
    | cons first rest =>
      obtain ⟨front, rfl⟩ := exists_append_of_gapView gap
      cases found : scanToken previous braces first rest with
      | error fault => exact .inr (.inl ⟨_, .literal gap found⟩)
      | ok scanned => exact .inr (.inr ⟨_, _, .intro gap found⟩)

theorem map_cons_eq_ok {result : Except SyntaxError (List Token)} {first : Token}
    {rest : List Token} (whole : (token :: ·) <$> result = .ok (first :: rest)) :
    token = first ∧ result = .ok rest := by
  cases result with
  | error => contradiction
  | ok => cases whole; exact ⟨rfl, rfl⟩

/-- The tokenizer passes between any two tokens that it finds. -/
theorem exists_steps_of_tokens (found : scanner.tokens = .ok (earlier ++ later)) :
    ∃ next, ScanSteps scanner earlier next ∧ next.tokens = .ok later := by
  induction earlier generalizing scanner with
  | nil => exact ⟨scanner, .refl, found⟩
  | cons token earlier inductionHypothesis =>
    rcases scanner.progress with ends | ⟨error, fails⟩ | ⟨first, next, taken⟩
    · rw [ends.tokens_eq] at found
      cases found
    · rw [fails.tokens_eq] at found
      contradiction
    · rw [taken.tokens_eq] at found
      obtain ⟨rfl, rest⟩ := map_cons_eq_ok found
      obtain ⟨after, others, foundLater⟩ := inductionHypothesis rest
      exact ⟨after, .step taken others, foundLater⟩

/-- A tokenizer that gives up does so behind the tokens that it has found. -/
theorem exists_fails_of_tokens {scanner : Scanner} (found : scanner.tokens = .error error) :
    ∃ tokens next, ScanSteps scanner tokens next ∧ next.Fails error := by
  rcases scanner.progress with ends | ⟨other, fails⟩ | ⟨token, next, taken⟩
  · rw [ends.tokens_eq] at found
    contradiction
  · rw [fails.tokens_eq] at found
    cases found
    exact ⟨[], scanner, .refl, fails⟩
  · rw [taken.tokens_eq] at found
    cases rest : next.tokens with
    | ok => rw [rest] at found; contradiction
    | error =>
      rw [rest] at found
      cases found
      obtain ⟨tokens, after, others, fails⟩ := exists_fails_of_tokens rest
      exact ⟨token :: tokens, after, .step taken others, fails⟩
termination_by scanner.input.length
decreasing_by exact taken.shorter

end Playground

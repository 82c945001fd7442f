import Playground.Proofs.Erasure.Scanners

/-!
# String literals are single tokens

A string is a quote, items and the quote again. An item is a character of its own, a backslash with
the character that it protects, or a backslash with a line break over which the string continues.
The tokenizer reads such a text as one string exactly when no backslash stands before a carriage
return with a line feed (`tokenize_string_iff`): the backslash protects the return only, and the
line feed behind it leaves the string open.
-/

namespace Playground

/-- The quotes that a string may stand in. -/
inductive Quote where
  | single
  | double
  deriving DecidableEq, Repr

/-- The character of a quote. -/
def Quote.character : Quote → Char
  | single => '\''
  | double => '"'

/-- The line breaks that a backslash may stand before. -/
inductive LineBreak where
  | feed
  | carriageReturn
  | returnAndFeed
  deriving DecidableEq, Repr

/-- The characters of a line break. -/
def LineBreak.text : LineBreak → List Char
  | feed => ['\n']
  | carriageReturn => ['\r']
  | returnAndFeed => ['\r', '\n']

/-- What a string in quotes is made of. -/
inductive StringItem (quote : Char) where
  | plain (character : Char) (inside : character ≠ quote ∧ character ≠ '\\')
      (onLine : endsLineComment character = false)
  /-- A backslash and the character that it protects. -/
  | escape (character : Char) (noReturn : character ≠ '\r')
  /-- A backslash and the line break over which the string continues. -/
  | continuation (lineBreak : LineBreak)

/-- The characters of an item. -/
def StringItem.text {quote : Char} : StringItem quote → List Char
  | plain character _ _ => [character]
  | escape character _ => ['\\', character]
  | continuation lineBreak => '\\' :: lineBreak.text

/-- A string as it is written. -/
def stringLiteral (quote : Quote) (items : List (StringItem quote.character)) : List Char :=
  quote.character :: (items.flatMap StringItem.text ++ [quote.character])

/-! ## Reading the items -/

section Body

variable {quote : Char}

/-- Behind a protected return the line feed ends the line. -/
theorem stringBody_returnAndFeed (rest : List Char) :
    stringBody quote ('\\' :: '\r' :: '\n' :: rest) = none := by
  rw [stringBody, stringBody_cons (by decide), if_pos (by decide), Option.map_none]

theorem rest_stringBody_item {item : StringItem quote}
    (other : item ≠ .continuation .returnAndFeed) (rest : List Char) :
    (stringBody quote (item.text ++ rest)).map Cut.rest = (stringBody quote rest).map Cut.rest := by
  cases item with
  | plain character inside onLine => exact rest_stringBody_plain inside onLine rest
  | escape character => exact rest_stringBody_escape rest
  | continuation lineBreak =>
    cases lineBreak with
    | feed | carriageReturn => exact rest_stringBody_escape rest
    | returnAndFeed => exact absurd rfl other

/-- The string ends with its quote. -/
theorem rest_stringBody_of_not_mem (quoted : quote = '"' ∨ quote = '\'')
    {items : List (StringItem quote)} (spared : .continuation .returnAndFeed ∉ items)
    (behind : List Char) :
    (stringBody quote (items.flatMap StringItem.text ++ quote :: behind)).map Cut.rest =
      some behind := by
  induction items with
  | nil => exact rest_stringBody_quote quoted behind
  | cons item items inductionHypothesis =>
    obtain ⟨other, spared⟩ := List.ne_and_not_mem_of_not_mem_cons spared
    rw [List.flatMap_cons, List.append_assoc, rest_stringBody_item other.symm,
      inductionHypothesis spared]

/-- The string is left open at the first return with a line feed. -/
theorem stringBody_of_mem {items : List (StringItem quote)}
    (broken : .continuation .returnAndFeed ∈ items) (behind : List Char) :
    stringBody quote (items.flatMap StringItem.text ++ behind) = none := by
  induction items with
  | nil => contradiction
  | cons item items inductionHypothesis =>
    rw [List.flatMap_cons, List.append_assoc]
    by_cases here : item = .continuation .returnAndFeed
    · rw [here]
      exact stringBody_returnAndFeed _
    · have later := (List.mem_cons.mp broken).resolve_left (Ne.symm here)
      have same := rest_stringBody_item here (items.flatMap StringItem.text ++ behind)
      rw [inductionHypothesis later, Option.map_none] at same
      exact Option.map_eq_none_iff.mp same

end Body

/-! ## The token -/

theorem Quote.quoted (quote : Quote) : quote.character = '"' ∨ quote.character = '\'' := by
  cases quote <;> simp [character]

theorem Quote.gapView_eq (quote : Quote) (rest : List Char) :
    gapView ([] ++ quote.character :: rest) = .ok (quote.character :: rest, false) := by
  refine gapView_of_none ?_
  rw [List.nil_append, view_gapPiece]
  cases quote <;>
  · rw [if_neg (by decide), if_neg (by decide +kernel), if_neg (by decide)]

theorem Quote.scanToken_eq (quote : Quote) (rest : List Char) :
    scanToken none [] quote.character rest =
      ((stringBody quote.character rest).map (.headed .string [] quote.character)).elim
        (.error .unterminatedString) .ok := by
  have literal : startsLiteral [] quote.character = true := by
    cases quote <;> rfl
  rw [scanToken_of_literal literal, scanLiteral, if_pos (by simpa using quote.quoted)]

/-- A string that never ends is refused where it starts. -/
theorem Quote.tokenize_of_none (quote : Quote) {rest : List Char}
    (left : stringBody quote.character rest = none) :
    tokenize (quote.character :: rest) = .error ⟨.unterminatedString, 0⟩ := by
  have tokens : tokensFrom 0 none [] ([] ++ quote.character :: rest) = _ :=
    tokensFrom_of_gap (quote.gapView_eq rest)
  rw [quote.scanToken_eq, left] at tokens
  exact tokens

/-- A string with nothing behind it is the only token. -/
theorem Quote.tokenize_of_whole (quote : Quote) {rest : List Char}
    (whole : (stringBody quote.character rest).map Cut.rest = some []) :
    tokenize (quote.character :: rest) =
      .ok [⟨.string, String.ofList (quote.character :: rest), 0, false⟩] := by
  obtain ⟨cut, found, ended⟩ := Option.map_eq_some_iff.mp whole
  have lexeme : cut.lexeme = rest := by
    have joined := cut.joined
    rwa [ended, List.append_nil] at joined
  have tokens : tokensFrom 0 none [] ([] ++ quote.character :: rest) = _ :=
    tokensFrom_of_gap (quote.gapView_eq rest)
  rw [quote.scanToken_eq, found] at tokens
  simp only [Option.map_some, Option.elim_some, Scanned.headed, Cut.push, lexeme, ended] at tokens
  rw [tokensFrom_of_end (gapView_of_none rfl)] at tokens
  exact tokens

/-- A string in quotes is read as one token that covers it exactly when no backslash in it stands
before a carriage return with a line feed; otherwise it is refused as a string that never ends. -/
theorem tokenize_string_iff (quote : Quote) (items : List (StringItem quote.character)) :
    (tokenize (stringLiteral quote items) =
        .ok [⟨.string, String.ofList (stringLiteral quote items), 0, false⟩] ↔
      .continuation .returnAndFeed ∉ items) ∧
    (tokenize (stringLiteral quote items) = .error ⟨.unterminatedString, 0⟩ ↔
      .continuation .returnAndFeed ∈ items) := by
  have refused (broken : .continuation .returnAndFeed ∈ items) :
      tokenize (stringLiteral quote items) = .error ⟨.unterminatedString, 0⟩ :=
    quote.tokenize_of_none (stringBody_of_mem broken _)
  have read (spared : .continuation .returnAndFeed ∉ items) :
      tokenize (stringLiteral quote items) =
        .ok [⟨.string, String.ofList (stringLiteral quote items), 0, false⟩] :=
    quote.tokenize_of_whole (rest_stringBody_of_not_mem quote.quoted spared [])
  refine ⟨⟨fun whole broken => ?_, read⟩, fun fault => ?_, refused⟩
  · simp [refused broken] at whole
  · by_contra spared
    simp [read spared] at fault

/-- The line feed behind a protected return leaves the string open. -/
theorem tokenize_of_protectedReturn :
    stringLiteral .double [.plain 'a' (by decide) (by decide), .continuation .returnAndFeed,
        .plain 'b' (by decide) (by decide)] = "\"a\\\r\nb\"".toList ∧
      tokenize "\"a\\\r\nb\"".toList = .error ⟨.unterminatedString, 0⟩ := by
  constructor <;> decide +kernel

end Playground

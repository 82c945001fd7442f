import Playground.Number.Basic

/-!
# Reading JSON text

Readers go from left to right and report the first fault they meet: text that is not
JSON, text that ends too early, or well-formed text of the wrong type. Every reader
proves that it consumes something, so readers may be repeated until the text ends.
-/

namespace Playground

/-- Why JSON text is refused. -/
inductive JsonFault where
  /-- The text is not JSON. -/
  | malformed
  /-- The text ends before the value does. -/
  | truncated
  /-- The text is JSON so far, but not of the expected type or range. -/
  | mismatched
  deriving DecidableEq, Repr

/-- A value read from the front of `input`, and the rest. -/
structure Taken (input : List Char) (α : Type) where
  value : α
  rest : List Char
  shorter : rest.length < input.length

/-- A reader of values at the front of a text. -/
abbrev JsonReader (α : Type) := (input : List Char) → Except JsonFault (Taken input α)

namespace Taken

/-- Applies a function to the value. -/
def map {input : List Char} {α β : Type} (transform : α → β) (taken : Taken input α) :
    Taken input β :=
  ⟨transform taken.value, taken.rest, taken.shorter⟩

/-- A value that takes one character. -/
def single {first : Char} {rest : List Char} {α : Type} (value : α) : Taken (first :: rest) α :=
  ⟨value, rest, Nat.lt_succ_self rest.length⟩

/-- The same value, seen from an earlier place in the text. -/
def widen {near far : List Char} {α : Type} (taken : Taken near α)
    (order : near.length ≤ far.length) : Taken far α :=
  ⟨taken.value, taken.rest, Nat.lt_of_lt_of_le taken.shorter order⟩

/-- A value with one more character in front of it. -/
def behind {rest : List Char} {α : Type} (taken : Taken rest α) (first : Char) :
    Taken (first :: rest) α :=
  taken.widen (Nat.le_succ rest.length)

/-- The second of two values that stand one after the other, seen from the first. -/
def andThen {input : List Char} {α β : Type} (first : Taken input α)
    (second : Taken first.rest β) : Taken input β :=
  second.widen (Nat.le_of_lt first.shorter)

end Taken

namespace JsonReader

/-- The blanks between JSON tokens. -/
def isBlank (character : Char) : Bool :=
  character == ' ' || character == '\n' || character == '\t' || character == '\r'

/-- The text after the blanks at its front. -/
def skipBlanks (input : List Char) : List Char :=
  input.dropWhile isBlank

/-- Skipping blanks never lengthens the text. -/
theorem length_skipBlanks_le (input : List Char) :
    (skipBlanks input).length ≤ input.length := by
  have size := congrArg List.length (List.takeWhile_append_dropWhile (p := isBlank) (l := input))
  simp only [List.length_append] at size
  unfold skipBlanks
  omega

/-- The rest of a literal name whose first letter has been seen. -/
def literal : List Char → (input : List Char) →
    Except JsonFault { rest : List Char // rest.length ≤ input.length }
  | [], input => .ok ⟨input, Nat.le_refl _⟩
  | _ :: _, [] => .error .truncated
  | expected :: more, found :: input =>
    if expected = found then
      match literal more input with
      | .ok rest => .ok ⟨rest.1, Nat.le_succ_of_le rest.2⟩
      | .error fault => .error fault
    else .error .malformed

/-! ## Strings -/

/-- The value of a hexadecimal digit. -/
def hexDigit? (character : Char) : Option Nat :=
  if character.isDigit then some (character.toNat - '0'.toNat)
  else if 'a' ≤ character ∧ character ≤ 'f' then some (character.toNat - 'a'.toNat + 10)
  else if 'A' ≤ character ∧ character ≤ 'F' then some (character.toNat - 'A'.toNat + 10)
  else none

/-- The value of four hexadecimal digits. -/
def hexValue? (a b c d : Char) : Option Nat := do
  return ((← hexDigit? a) * 16 + (← hexDigit? b)) * 256 + (← hexDigit? c) * 16 + (← hexDigit? d)

/-- The bytes that a text takes. -/
def byteCount (input : List Char) : Nat :=
  (input.map Char.utf8Size).foldl (· + ·) 0

/-- The four digits of a numeric escape. A text of fewer than four bytes has ended too
early, whatever it holds. -/
def hexEscape : JsonReader Nat
  | a :: b :: c :: d :: _ =>
    match hexValue? a b c d with
    | some value => .ok ((((Taken.single value).behind c).behind b).behind a)
    | none => .error .malformed
  | short => if byteCount short < 4 then .error .truncated else .error .malformed

/-- The character written by two halves of a surrogate pair. -/
def joinSurrogates (high low : Nat) : Char :=
  Char.ofNat (0x10000 + (high - 0xd800) * 0x400 + (low - 0xdc00))

/-- The second half of a surrogate pair. -/
def lowSurrogate (high : Nat) : JsonReader Char
  | [] => .error .truncated
  | '\\' :: [] => .error .truncated
  | '\\' :: 'u' :: rest =>
    match hexEscape rest with
    | .error fault => .error fault
    | .ok low =>
      if 0xdc00 ≤ low.value ∧ low.value ≤ 0xdfff then
        .ok (((low.map (joinSurrogates high)).behind 'u').behind '\\')
      else .error .malformed
  | _ => .error .malformed

/-- A numeric escape after its `u`. Half of a surrogate pair is no character. -/
def unicodeEscape : JsonReader Char := fun input =>
  match hexEscape input with
  | .error fault => .error fault
  | .ok first =>
    if 0xdc00 ≤ first.value ∧ first.value ≤ 0xdfff then .error .malformed
    else if 0xd800 ≤ first.value ∧ first.value ≤ 0xdbff then
      match lowSurrogate first.value first.rest with
      | .error fault => .error fault
      | .ok pair => .ok (first.andThen pair)
    else .ok (first.map Char.ofNat)

/-- The character that a short escape stands for. -/
def shortEscape? : Char → Option Char
  | '"' => some '"'
  | '\\' => some '\\'
  | '/' => some '/'
  | 'b' => some '\x08'
  | 'f' => some '\x0c'
  | 'n' => some '\n'
  | 'r' => some '\r'
  | 't' => some '\t'
  | _ => none

/-- An escape after its backslash, with a given reader of numeric escapes. -/
def escape {α : Type} (numeric : JsonReader α) (short : Char → α) : JsonReader α
  | [] => .error .truncated
  | 'u' :: rest =>
    match numeric rest with
    | .error fault => .error fault
    | .ok taken => .ok (taken.behind 'u')
  | mark :: _ =>
    match shortEscape? mark with
    | some character => .ok (.single (short character))
    | none => .error .malformed

/-- The characters of a string after its opening quote, through its closing quote. -/
def stringRest : JsonReader (List Char)
  | [] => .error .truncated
  | '"' :: _ => .ok (.single [])
  | '\\' :: rest =>
    match escape unicodeEscape id rest with
    | .error fault => .error fault
    | .ok escaped =>
      have := escaped.shorter
      match stringRest escaped.rest with
      | .error fault => .error fault
      | .ok following =>
        .ok ((escaped.andThen (following.map (escaped.value :: ·))).behind '\\')
  | character :: rest =>
    if character.toNat < 32 then .error .malformed
    else
      match stringRest rest with
      | .error fault => .error fault
      | .ok following =>
        .ok ((following.map (character :: ·)).behind character)
termination_by input => input.length
decreasing_by all_goals simp_wf; all_goals omega

/-- Passes over a string after its opening quote. Halves of surrogate pairs are not
examined, since no character is made of them. -/
def skipStringRest : JsonReader Unit
  | [] => .error .truncated
  | '"' :: _ => .ok (.single ())
  | '\\' :: rest =>
    match escape (fun input => (hexEscape input).map (Taken.map fun _ => ())) (fun _ => ())
        rest with
    | .error fault => .error fault
    | .ok escaped =>
      have := escaped.shorter
      match skipStringRest escaped.rest with
      | .error fault => .error fault
      | .ok following => .ok ((escaped.andThen following).behind '\\')
  | character :: rest =>
    if character.toNat < 32 then .error .malformed
    else
      match skipStringRest rest with
      | .error fault => .error fault
      | .ok following => .ok (following.behind character)
termination_by input => input.length
decreasing_by all_goals simp_wf; all_goals omega

/-! ## Numbers -/

/-- A number, as far as settings tell numbers apart. -/
inductive JsonNumber where
  /-- A plain integer of at most sixty-four bits. -/
  | natural (value : Nat)
  /-- A number with a sign, a fraction, an exponent or too many digits. -/
  | other
  deriving DecidableEq, Repr

/-- The largest plain integer. -/
def largestNatural : Nat := Nat.pow 2 64 - 1

/-- A number under construction: its leading digits, as many as fit sixty-four bits, and
the power of ten they are scaled by. -/
structure Scaled where
  significand : Nat
  exponent : Int

/-- Whether a scaled number is too large for a finite number. -/
def Scaled.overflows (scaled : Scaled) : Bool :=
  if scaled.significand = 0 ∨ scaled.exponent < 0 then false
  else if 308 < scaled.exponent then true
  else
    let significand := Number.roundQuotient scaled.significand 1
    let power := Number.roundQuotient (Nat.pow 10 scaled.exponent.toNat) 1
    Nat.pow 2 1024 ≤ Number.roundQuotient (significand * power) 1

/-- Appends a digit before the point. -/
def Scaled.pushWhole (scaled : Scaled) (digit : Char) : Scaled :=
  let extended := scaled.significand * 10 + (digit.toNat - '0'.toNat)
  if scaled.exponent = 0 ∧ extended ≤ largestNatural then ⟨extended, 0⟩
  else ⟨scaled.significand, scaled.exponent + 1⟩

/-- Appends a digit after the point; digits that no longer fit are dropped. -/
def Scaled.pushFraction (state : Scaled × Bool) (digit : Char) : Scaled × Bool :=
  let (scaled, full) := state
  let extended := scaled.significand * 10 + (digit.toNat - '0'.toNat)
  if !full && extended ≤ largestNatural then (⟨extended, scaled.exponent - 1⟩, false)
  else (scaled, true)

/-- What to report where a digit has to follow and none does. -/
def missingDigit (rest : List Char) : JsonFault :=
  match rest with
  | [] => .truncated
  | _ => .malformed

/-- The run of digits at the front. -/
def digitRun (input : List Char) : List Char :=
  input.takeWhile Char.isDigit

/-- The text after the run of digits at the front. -/
def afterDigits (input : List Char) : List Char :=
  input.dropWhile Char.isDigit

/-- Dropping a run of digits never lengthens the text. -/
theorem length_afterDigits_le (input : List Char) :
    (afterDigits input).length ≤ input.length := by
  have size :=
    congrArg List.length (List.takeWhile_append_dropWhile (p := Char.isDigit) (l := input))
  simp only [List.length_append] at size
  unfold afterDigits
  omega

/-- The text after the sign at the front. -/
def afterSign (input : List Char) : Bool × { rest : List Char // rest.length ≤ input.length } :=
  match input with
  | '-' :: rest => (true, ⟨rest, by simp⟩)
  | '+' :: rest => (false, ⟨rest, by simp⟩)
  | rest => (false, ⟨rest, Nat.le_refl _⟩)

/-- The exponent of a number, if one follows. -/
def exponentPart (missing : List Char → JsonFault) (input : List Char) :
    Except JsonFault (Int × { rest : List Char // rest.length ≤ input.length }) :=
  match input with
  | mark :: rest =>
    if mark = 'e' ∨ mark = 'E' then
      let (negative, digits) := afterSign rest
      match digitRun digits.1 with
      | [] => .error (missing digits.1)
      | run =>
        let magnitude : Int := Nat.ofDigitChars 10 run 0
        .ok (if negative then -magnitude else magnitude, ⟨afterDigits digits.1, by
          have := length_afterDigits_le digits.1
          have := digits.2
          simp only [List.length_cons]
          omega⟩)
    else .ok (0, ⟨mark :: rest, Nat.le_refl _⟩)
  | [] => .ok (0, ⟨[], Nat.le_refl _⟩)

/-- The digits after the point, if a point follows. -/
def fractionPart (missing : List Char → JsonFault) (input : List Char) :
    Except JsonFault (List Char × { rest : List Char // rest.length ≤ input.length }) :=
  match input with
  | '.' :: rest =>
    match digitRun rest with
    | [] => .error (missing rest)
    | run => .ok (run, ⟨afterDigits rest, by
        have := length_afterDigits_le rest
        simp only [List.length_cons]
        omega⟩)
  | rest => .ok ([], ⟨rest, Nat.le_refl _⟩)

/-- The digits before the point: a zero alone, or digits that do not start with one. -/
def wholePart (missing : List Char → JsonFault) : JsonReader (List Char)
  | [] => .error (missing [])
  | '0' :: rest =>
    if rest.head?.any Char.isDigit then .error .malformed else .ok (.single ['0'])
  | digit :: rest =>
    if digit.isDigit then
      .ok ⟨digit :: digitRun rest, afterDigits rest, by
        have := length_afterDigits_le rest
        simp only [List.length_cons]
        omega⟩
    else .error .malformed

/-- The parts of a number as they are written. -/
structure NumberParts where
  whole : List Char
  fraction : List Char
  exponent : Int
  isPlain : Bool

/-- The parts of a number after its sign. -/
def numberParts (missing : List Char → JsonFault) : JsonReader NumberParts := fun input =>
  match wholePart missing input with
  | .error fault => .error fault
  | .ok whole =>
    match fractionPart missing whole.rest with
    | .error fault => .error fault
    | .ok (fraction, afterFraction) =>
      match exponentPart missing afterFraction.1 with
      | .error fault => .error fault
      | .ok (exponent, afterExponent) =>
        .ok ⟨⟨whole.value, fraction, exponent,
            afterExponent.1.length == whole.rest.length⟩, afterExponent.1, by
          have := whole.shorter
          have := afterFraction.2
          have := afterExponent.2
          omega⟩

/-- The scaled value of a number's parts. -/
def NumberParts.scaled (parts : NumberParts) : Scaled :=
  let whole := parts.whole.foldl Scaled.pushWhole ⟨0, 0⟩
  let (all, _) := parts.fraction.foldl Scaled.pushFraction (whole, false)
  ⟨all.significand, all.exponent + parts.exponent⟩

/-- The number after an optional sign. Too large a number is refused. -/
def number (negative : Bool) : JsonReader JsonNumber := fun input =>
  match numberParts missingDigit input with
  | .error fault => .error fault
  | .ok taken =>
    let scaled := taken.value.scaled
    if taken.value.isPlain && scaled.exponent == 0 && !negative then
      .ok (taken.map fun _ => .natural scaled.significand)
    else if scaled.overflows then .error .malformed
    else .ok (taken.map fun _ => .other)

/-- Passes over a number after its sign. A digit that is missing at the end of the text is
a fault of form here. -/
def skipNumber : JsonReader Unit := fun input =>
  match numberParts (fun _ => .malformed) input with
  | .error fault => .error fault
  | .ok taken => .ok (taken.map fun _ => ())

/-! ## Values of the wrong type -/

/-- The fault of a value that is read where another type is expected. A value that is not
well-formed is reported as such. -/
def wrongType : List Char → JsonFault
  | [] => .truncated
  | first :: rest =>
    let after {α : Type} (result : Except JsonFault α) : JsonFault :=
      match result with
      | .ok _ => .mismatched
      | .error fault => fault
    if first = 'n' then after (literal ['u', 'l', 'l'] rest)
    else if first = 't' then after (literal ['r', 'u', 'e'] rest)
    else if first = 'f' then after (literal ['a', 'l', 's', 'e'] rest)
    else if first = '-' then after (number true rest)
    else if first.isDigit then after (number false (first :: rest))
    else if first = '"' then after (stringRest rest)
    else if first = '[' ∨ first = '{' then .mismatched
    else .malformed

/-- Reads from the first character that is not blank; text that ends before it is
truncated. -/
def afterBlanks {α : Type} (reader : JsonReader α) : JsonReader α := fun input =>
  match reader (skipBlanks input) with
  | .error fault => .error fault
  | .ok taken => .ok (taken.widen (length_skipBlanks_le input))

/-- A string value. -/
def string : JsonReader String :=
  afterBlanks fun input =>
    match input with
    | '"' :: rest =>
      match stringRest rest with
      | .error fault => .error fault
      | .ok taken => .ok ((taken.map String.ofList).behind '"')
    | other => .error (wrongType other)

/-- A plain integer of at most `largest`. -/
def natural (largest : Nat) : JsonReader Nat :=
  afterBlanks fun input =>
    match input with
    | first :: rest =>
      if first.isDigit then
        match number false (first :: rest) with
        | .error fault => .error fault
        | .ok taken =>
          match taken.value with
          | .natural value =>
            if value ≤ largest then .ok (taken.map fun _ => value) else .error .mismatched
          | .other => .error .mismatched
      else .error (wrongType (first :: rest))
    | [] => .error .truncated

/-- The first character that is not blank. -/
def nextMark : JsonReader Char :=
  afterBlanks fun input =>
    match input with
    | [] => .error .truncated
    | first :: _ => .ok (.single first)

/-- An expected mark; any other character is a fault of form. -/
def mark (expected : Char) : JsonReader Unit := fun input =>
  match nextMark input with
  | .error fault => .error fault
  | .ok found =>
    if found.value = expected then .ok (found.map fun _ => ()) else .error .malformed

/-- Nothing but blanks up to the end of the text. -/
def expectEnd (input : List Char) : Except JsonFault Unit :=
  match skipBlanks input with
  | [] => .ok ()
  | _ => .error .malformed

end JsonReader

end Playground

import Mathlib.Data.List.Forall2
import Playground.Erasure.Bracket
import Playground.Erasure.Edit

/-!
# Tokens that stand for one another

Two programs that differ in their line ends, or in where they begin, have tokens that stand for
one another: of one kind, at places that correspond, and spelled alike but for the line breaks
inside templates. Their brackets pair up alike.
-/

namespace Playground

/-- Two computations answer alike, or fail with one fault at places that correspond. -/
inductive AnswersAlike (Offset : Nat → Nat → Prop) {α β : Type} (Related : α → β → Prop) :
    Except SyntaxError α → Except SyntaxError β → Prop where
  | ok {value other} (related : Related value other) :
      AnswersAlike Offset Related (.ok value) (.ok other)
  | error {fault offset otherOffset} (place : Offset offset otherOffset) :
      AnswersAlike Offset Related (.error ⟨fault, offset⟩) (.error ⟨fault, otherOffset⟩)

namespace AnswersAlike

variable {Offset : Nat → Nat → Prop} {α β γ δ : Type} {Related : α → β → Prop}
  {Result : γ → δ → Prop}

theorem bind {first : Except SyntaxError α} {other : Except SyntaxError β}
    {next : α → Except SyntaxError γ} {otherNext : β → Except SyntaxError δ}
    (one : AnswersAlike Offset Related first other)
    (rest : ∀ {value image}, Related value image →
      AnswersAlike Offset Result (next value) (otherNext image)) :
    AnswersAlike Offset Result (first >>= next) (other >>= otherNext) := by
  cases one with
  | ok related => exact rest related
  | error place => exact .error place

theorem map {first : Except SyntaxError α} {other : Except SyntaxError β} {change : α → γ}
    {otherChange : β → δ} (alike : AnswersAlike Offset Related first other)
    (changes : ∀ {value image}, Related value image → Result (change value) (otherChange image)) :
    AnswersAlike Offset Result (change <$> first) (otherChange <$> other) := by
  cases alike with
  | ok related => exact .ok (changes related)
  | error place => exact .error place

/-- What was answered, too. -/
theorem answered {first : Except SyntaxError α} {other : Except SyntaxError β}
    (alike : AnswersAlike Offset Related first other) :
    AnswersAlike Offset (fun value image => first = .ok value ∧ Related value image) first other := by
  cases alike with
  | ok related => exact .ok ⟨rfl, related⟩
  | error place => exact .error place

theorem exists_ok {value : α} {other : Except SyntaxError β}
    (alike : AnswersAlike Offset Related (.ok value) other) :
    ∃ image, other = .ok image ∧ Related value image := by
  cases alike with
  | ok related => exact ⟨_, rfl, related⟩

theorem exists_error {error : SyntaxError} {other : Except SyntaxError β}
    (alike : AnswersAlike Offset Related (.error error) other) :
    ∃ offset, other = .error ⟨error.fault, offset⟩ ∧ Offset error.offset offset := by
  cases alike with
  | error place => exact ⟨_, rfl, place⟩

end AnswersAlike

/-- An edit that stands for another. -/
inductive Edit.StandsFor (Offset : Nat → Nat → Prop) (Same : String → String → Prop) :
    Edit → Edit → Prop where
  | erase {start stop otherStart otherStop} (starts : Offset start otherStart)
      (stops : Offset stop otherStop) :
      StandsFor Offset Same (.erase start stop) (.erase otherStart otherStop)
  | replace {start stop otherStart otherStop text other} (starts : Offset start otherStart)
      (stops : Offset stop otherStop) (same : Same text other) :
      StandsFor Offset Same (.replace start stop text) (.replace otherStart otherStop other)
  | insert {offset otherOffset text other} (offsets : Offset offset otherOffset)
      (same : Same text other) :
      StandsFor Offset Same (.insert offset text) (.insert otherOffset other)

theorem Edit.StandsFor.imp {Offset : Nat → Nat → Prop} {Same Other : String → String → Prop}
    {edit image : Edit} (texts : ∀ {text other}, Same text other → Other text other)
    (alike : edit.StandsFor Offset Same image) : edit.StandsFor Offset Other image := by
  cases alike with
  | erase starts stops => exact .erase starts stops
  | replace starts stops same => exact .replace starts stops (texts same)
  | insert offsets same => exact .insert offsets (texts same)

theorem exists_getElem?_of_forall₂ {α β : Type} {Related : α → β → Prop} {one : List α}
    {other : List β} (alike : List.Forall₂ Related one other) {index : Nat} {value : α}
    (found : one[index]? = some value) :
    ∃ image, other[index]? = some image ∧ Related value image := by
  obtain ⟨inside, rfl⟩ := List.getElem?_eq_some_iff.mp found
  have insideOther : index < other.length := alike.length_eq ▸ inside
  exact ⟨other[index], List.getElem?_eq_getElem insideOther, alike.get inside insideOther⟩

/-- Whether a token is part of a template. -/
def TokenKind.isTemplate : TokenKind → Bool
  | .template | .templateHead | .templateMiddle | .templateTail => true
  | .word | .number | .string | .regex | .punctuator => false

/-- A part of a template is neither a word nor a punctuator. -/
theorem TokenKind.eq_false_of_isTemplate {kind : TokenKind} (template : kind.isTemplate = true) :
    (kind == .punctuator) = false ∧ (kind == .word) = false := by
  cases kind <;> first | contradiction | decide

/-- A token that stands for another. Only the text of a template may differ, where both texts
have line breaks. -/
structure Token.StandsFor (Offset : Nat → Nat → Prop) (Same : String → String → Prop)
    (token other : Token) : Prop where
  kind : other.kind = token.kind
  same : Same token.text other.text
  text : other.text = token.text ∨
    (token.kind.isTemplate = true ∧ '\n' ∈ token.text.toList ∧ '\n' ∈ other.text.toList)
  start : Offset token.start other.start
  stop : Offset token.stop other.stop

namespace Token

variable {token : Token}

theorem kind_of_opens (role : token.bracketRole = .opens) :
    token.kind = .punctuator ∨ token.opensSubstitution = true := by
  unfold bracketRole at role
  split at role
  case h_1 mark => exact .inl mark
  case h_2 head => exact .inr (by simp [opensSubstitution, head])
  all_goals contradiction

theorem kind_of_closes (role : token.bracketRole = .closes) : token.kind = .punctuator := by
  unfold bracketRole at role
  split at role
  case h_1 mark => exact mark
  all_goals contradiction

theorem opensSubstitution_of_resumes (role : token.bracketRole = .resumes true) :
    token.opensSubstitution = true := by
  unfold bracketRole at role
  split at role
  case h_1 =>
    split at role
    · contradiction
    · split at role <;> contradiction
  case h_3 middle => simp [opensSubstitution, middle]
  all_goals contradiction

end Token

namespace Token.StandsFor

variable {Offset : Nat → Nat → Prop} {Same : String → String → Prop} {token other : Token}

theorem text_of_mark (alike : token.StandsFor Offset Same other)
    (mark : token.kind = .punctuator) : other.text = token.text := by
  refine alike.text.resolve_right fun template => ?_
  rw [mark] at template
  exact absurd template.1 (by decide)

theorem bracketRole (alike : token.StandsFor Offset Same other) :
    other.bracketRole = token.bracketRole := by
  unfold Token.bracketRole
  rw [alike.kind]
  split
  case h_1 mark => rw [alike.text_of_mark mark]
  all_goals rfl

theorem opensSubstitution (alike : token.StandsFor Offset Same other) :
    other.opensSubstitution = token.opensSubstitution := by
  rw [Token.opensSubstitution, Token.opensSubstitution, alike.kind]

theorem leftOpen (alike : token.StandsFor Offset Same other) : other.leftOpen = token.leftOpen := by
  unfold Token.leftOpen
  rw [alike.kind]
  by_cases mark : token.kind = .punctuator
  · rw [alike.text_of_mark mark]
  · rw [if_neg (by simpa using mark), if_neg (by simpa using mark)]

theorem endsExpression (alike : token.StandsFor Offset Same other) :
    other.endsExpression = token.endsExpression := by
  unfold Token.endsExpression
  rw [alike.kind]
  obtain same | ⟨template, -⟩ := alike.text
  · rw [same]
  · cases kind : token.kind <;> simp_all [TokenKind.isTemplate]

/-- A text with a line break is no bracket. -/
theorem closer? (alike : token.StandsFor Offset Same other) : other.closer? = token.closer? := by
  have none : ∀ {token : Token}, '\n' ∈ token.text.toList → token.closer? = none := by
    intro token breaks
    have plain : ∀ {text : String}, '\n' ∉ text.toList → (token.text == text) = false := by
      intro text absent
      rw [beq_eq_false_iff_ne]
      rintro rfl
      exact absent breaks
    simp [Token.closer?, plain]
  obtain same | ⟨-, here, there⟩ := alike.text
  · rw [Token.closer?, Token.closer?, same]
  · rw [none here, none there]

end Token.StandsFor

/-- Open brackets that stand for one another, each by its index. -/
structure IndexedToken.StandsFor (Offset : Nat → Nat → Prop) (Same : String → String → Prop)
    (shift : Nat) (opener other : IndexedToken) : Prop where
  index : other.index = opener.index + shift
  token : opener.token.StandsFor Offset Same other.token
  opens : opener.token.kind = .punctuator ∨ opener.token.opensSubstitution = true

/-- Pairs of brackets, shifted by a number of indices. -/
def shiftPairs (shift : Nat) (pairs : List (Nat × Nat)) : List (Nat × Nat) :=
  pairs.map fun pair => (pair.1 + shift, pair.2 + shift)

/-- Brackets of tokens that stand for one another pair up alike. -/
theorem pairBrackets_alike {Offset : Nat → Nat → Prop} {Same : String → String → Prop}
    {shift : Nat} {opened others : List IndexedToken} {tokens images : List Token}
    (openers : List.Forall₂ (IndexedToken.StandsFor Offset Same shift) opened others)
    (alike : List.Forall₂ (Token.StandsFor Offset Same) tokens images) (index : Nat) :
    AnswersAlike Offset (fun pairs image => image = shiftPairs shift pairs)
      (pairBrackets opened index tokens) (pairBrackets others (index + shift) images) := by
  induction alike generalizing opened others index with
  | nil =>
    cases openers with
    | nil => exact .ok rfl
    | cons innermost _ =>
      rw [pairBrackets, pairBrackets, innermost.token.leftOpen]
      exact .error innermost.token.start
  | @cons token image rest imageRest head _ inductionHypothesis =>
    have next : ∀ {opened others : List IndexedToken},
        List.Forall₂ (IndexedToken.StandsFor Offset Same shift) opened others →
        AnswersAlike Offset (fun pairs image => image = shiftPairs shift pairs)
          (pairBrackets opened (index + 1) rest)
          (pairBrackets others (index + shift + 1) imageRest) := by
      intro opened others openers
      rw [Nat.add_right_comm]
      exact inductionHypothesis openers (index + 1)
    unfold pairBrackets
    rw [head.bracketRole]
    cases role : token.bracketRole with
    | neutral => exact next openers
    | opens => exact next (.cons ⟨rfl, head, Token.kind_of_opens role⟩ openers)
    | closes =>
      dsimp only
      rw [head.text_of_mark (Token.kind_of_closes role)]
      cases openers with
      | nil => exact .error head.start
      | cons innermost outer =>
        dsimp only
        rw [innermost.token.closer?]
        split
        · exact .error head.start
        · split
          · refine (next outer).bind fun {pairs image} same => .ok ?_
            rw [same, innermost.index]
            rfl
          · exact .error head.start
    | resumes continues =>
      cases openers with
      | nil => exact .error head.start
      | cons innermost outer =>
        dsimp only
        rw [innermost.token.opensSubstitution]
        split
        · cases continues with
          | true =>
            exact next (.cons ⟨rfl, head, .inr (Token.opensSubstitution_of_resumes role)⟩ outer)
          | false => exact next outer
        · rename_i plain
          rw [innermost.token.text_of_mark (innermost.opens.resolve_right plain)]
          exact .error innermost.token.start

end Playground

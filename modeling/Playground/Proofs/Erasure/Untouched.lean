import Playground.Proofs.Erasure.Provenance

/-!
# Programs without types

A program is `Untyped` when none of its tokens can begin an erasure. Such a program has no
justified edit, so erasing its types returns it as it is.
-/

namespace Playground

/-- Punctuators that annotations, markers and generics start with. -/
def typeMarks : List String :=
  [":", "?", "!", "<"]

/-- Words that erased declarations, assertions and modifiers start with. -/
def typeWords : List String :=
  ["interface", "type", "declare", "namespace", "module", "abstract", "enum", "class", "as",
    "satisfies", "public", "private", "protected", "readonly", "override"]

namespace TokenStream

/-- The token at an index cannot begin an erasure. -/
structure UntypedAt (stream : TokenStream) (index : Nat) : Prop where
  mark : stream.kind? index = some .punctuator → stream.text index ∉ typeMarks
  word : stream.kind? index = some .word → stream.text index ∉ typeWords
  /-- No list item is a lone `this`. -/
  receiver : stream.is index "(" = true ∨ stream.is index "," = true →
    stream.is (index + 1) "this" = true →
      ¬(stream.is (index + 2) "," = true ∨ stream.is (index + 2) ")" = true)
  /-- Every function has a body right after its parameters. -/
  body : stream.is index "function" = true →
    stream.is (stream.functionNameEnd index) "(" = true →
      ∀ close ∈ stream.closer? (stream.functionNameEnd index),
        stream.is (close + 1) "\x7b" = true

/-- No token of the stream can begin an erasure. -/
def Untyped (stream : TokenStream) : Prop :=
  ∀ index, stream.UntypedAt index

instance (stream : TokenStream) (index : Nat) : Decidable (stream.UntypedAt index) :=
  decidable_of_iff (_ ∧ _ ∧ _ ∧ _)
    ⟨fun ⟨mark, word, receiver, body⟩ => ⟨mark, word, receiver, body⟩,
      fun ⟨mark, word, receiver, body⟩ => ⟨mark, word, receiver, body⟩⟩

/-- Past the last token nothing begins. -/
theorem untyped_iff {stream : TokenStream} :
    stream.Untyped ↔ ∀ index < stream.size, stream.UntypedAt index := by
  refine ⟨fun untyped index _ => untyped index, fun inside index => ?_⟩
  rcases Nat.lt_or_ge index stream.size with before | past
  · exact inside index before
  · have nothing : ∀ {text : String}, stream.is index text ≠ true :=
      fun found => Nat.not_lt_of_ge past (lt_size_of_is found)
    refine ⟨fun mark => ?_, fun word => ?_, fun before => ?_, fun function => ?_⟩
    · exact absurd (lt_size_of_kind? mark) (Nat.not_lt_of_ge past)
    · exact absurd (lt_size_of_kind? word) (Nat.not_lt_of_ge past)
    · exact before.elim (absurd · nothing) (absurd · nothing)
    · exact absurd function nothing

instance (stream : TokenStream) : Decidable stream.Untyped :=
  decidable_of_iff' _ untyped_iff

namespace Untyped

variable {stream : TokenStream} (untyped : stream.Untyped) (placed : stream.Placed)

include untyped placed

theorem not_mark {index : Nat} {text : String} (listed : text ∈ typeMarks) :
    stream.is index text = false := by
  have marks : ∀ text ∈ typeMarks, hasMark text = true := by
    decide
  rw [Bool.eq_false_iff]
  intro found
  exact (untyped index).mark (placed.kind?_of_mark found (marks text listed))
    ((is_iff.mp found).2 ▸ listed)

theorem text_not_mem (index : Nat) : stream.text index ∉ typeWords := by
  have words : ∀ text ∈ typeWords, text.toList.head?.any startsWord = true := by
    decide
  intro listed
  exact (untyped index).word (placed.kind?_of_start (words _ listed)) listed

theorem not_word {index : Nat} {text : String} (listed : text ∈ typeWords) :
    stream.is index text = false := by
  rw [Bool.eq_false_iff]
  intro found
  exact untyped.text_not_mem placed index ((is_iff.mp found).2 ▸ listed)

theorem not_isAnnotated : ¬stream.IsAnnotated := by
  rintro ⟨index, colon⟩
  rw [untyped.not_mark placed (by decide)] at colon
  contradiction

theorem not_hasClass : ¬stream.HasClass := by
  rintro ⟨keyword, owner⟩
  rw [untyped.not_word placed (by decide)] at owner
  contradiction

omit placed in
theorem not_isLoneItem {index : Nat} (this : stream.is index "this" = true) :
    ¬stream.IsLoneItem index := by
  rintro ⟨before, positive, after⟩
  obtain ⟨previous, rfl⟩ := Nat.exists_eq_succ_of_ne_zero (Nat.ne_of_gt positive)
  exact (untyped previous).receiver before this after

theorem not_isSignature {keyword body : Nat} : ¬stream.IsSignature keyword body := by
  rintro ⟨opening, close, function, generics, opens, closes, annotated, bodiless⟩
  rw [optionalTypeParameters, untyped.not_mark placed (by decide)] at generics
  cases generics
  unfold optionalAnnotation at annotated
  rw [untyped.not_mark placed (by decide)] at annotated
  cases annotated
  rw [(untyped keyword).body function opens close closes] at bodiless
  contradiction

/-- Nothing calls for an edit. -/
theorem not_justified {edit : Edit} : ¬stream.Justified edit := by
  intro justified
  cases justified with
  | annotated colon => exact untyped.not_isAnnotated placed ⟨_, colon⟩
  | marker mark =>
    rcases mark with question | exclamation
    · rw [untyped.not_mark placed (by decide)] at question
      contradiction
    · rw [untyped.not_mark placed (by decide)] at exclamation
      contradiction
  | generics angle | arrowGenerics angle =>
    rw [untyped.not_mark placed (by decide)] at angle
    contradiction
  | receiver this place =>
    rcases place with annotation | lone
    · exact untyped.not_isAnnotated placed annotation
    · exact untyped.not_isLoneItem this lone
  | parameterModifier modifier =>
    have listed : ∀ text ∈ parameterModifiers, text ∈ typeWords := by decide
    exact untyped.text_not_mem placed _ (listed _ (List.contains_iff_mem.mp modifier))
  | signature signature => exact untyped.not_isSignature placed signature
  | declaration word declared =>
    have listed : ∀ text ∈ ["interface", "type", "declare"], text ∈ typeWords := by decide
    exact untyped.text_not_mem placed _ (listed _ (List.contains_iff_mem.mp declared))
  | abstractClass word | typeSpecifier word | enumeration word =>
    rw [untyped.not_word placed (by decide)] at word
    contradiction
  | implemented owner | memberModifier owner | member owner | assignments owner =>
    exact untyped.not_hasClass placed owner
  | assertion operator | typeClause operator =>
    rcases operator with first | second
    · rw [untyped.not_word placed (by decide)] at first
      contradiction
    · rw [untyped.not_word placed (by decide)] at second
      contradiction

end Untyped

end TokenStream

/-- Without edits the text stays. -/
theorem editedText_nil (source : Array Char) : editedText source [] = source.toList := by
  unfold editedText editedPieces Draft.applyAll Draft.keepTo
  rcases Nat.eq_zero_or_pos source.size with empty | present
  · simp [Draft.empty, Array.eq_empty_of_size_eq_zero empty]
  · simp [Draft.empty, present, Piece.characters, slice]

/-- Erasing the types of a program without types returns the program. -/
theorem eraseTypes_of_untyped {source output : String} {stream : TokenStream}
    (read : TokenStream.ofSource source.toList = .ok stream) (untyped : stream.Untyped)
    (erased : eraseTypes source = .ok output) : output = source := by
  obtain ⟨edits, found, written⟩ := (eraseTypes_eq_ok_iff read).mp erased
  have none : edits = [] := List.eq_nil_iff_forall_not_mem.mpr fun edit member =>
    untyped.not_justified (TokenStream.placed_of_ofSource read)
      (TokenStream.justified_of_edits read found edit member)
  have same : stream.source.toList = source.toList := by
    obtain ⟨tokens, partners, _, _, rfl⟩ := TokenStream.ofSource_eq_ok_iff.mp read
    rfl
  rw [none, editedText_nil, same] at written
  exact String.toList_injective written

theorem eraseTypes_of_loop :
    ∃ stream output, TokenStream.ofSource "for (const x of a) b?.(x, ([c]) => c ?? x);".toList =
      .ok stream ∧ stream.Untyped ∧
      eraseTypes "for (const x of a) b?.(x, ([c]) => c ?? x);" = .ok output ∧
      output = "for (const x of a) b?.(x, ([c]) => c ?? x);" := by
  obtain ⟨stream, read, untyped⟩ := exists_ok_of_any TokenStream.Untyped
    (show ((TokenStream.ofSource "for (const x of a) b?.(x, ([c]) => c ?? x);".toList).toOption.any
      fun stream => decide stream.Untyped) = true by decide +kernel)
  obtain ⟨output, erased, _⟩ := exists_ok_of_any (fun _ => True)
    (show ((eraseTypes "for (const x of a) b?.(x, ([c]) => c ?? x);").toOption.any
      fun _ => decide True) = true by decide +kernel)
  exact ⟨stream, output, read, untyped, erased, eraseTypes_of_untyped read untyped erased⟩

end Playground

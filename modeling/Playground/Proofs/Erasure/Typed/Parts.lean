import Playground.Proofs.Erasure.Pairing.Parts
import Playground.Proofs.Erasure.Provenance
import Playground.Proofs.Erasure.Removal
import Playground.Proofs.Erasure.Typed.Plain

/-!
# Parts of typed code

Declarations share their optional parts: marks, annotations, type parameters and values. Each is
described by its tokens and by the stretches that it loses. The walker of a part finds exactly
these erasures, and they lie within the part.
-/

namespace Playground

namespace TokenStream

/-- A mark that may stand at an index. -/
inductive OptionalMark (stream : TokenStream) (mark : String) : Nat → Nat → List Stretch → Prop where
  | absent {index} (missing : stream.is index mark = false) : OptionalMark stream mark index index []
  | present {index} (found : stream.is index mark = true) :
      OptionalMark stream mark index (index + 1) [stream.tokenStretch index]

/-- A colon and a type that may stand at an index. -/
inductive Annotation (stream : TokenStream) : Nat → Nat → List Stretch → Prop where
  | absent {index} (missing : stream.is index ":" = false) : Annotation stream index index []
  | present {colon stop} (found : stream.is colon ":" = true)
      (type : stream.typeEnd? (colon + 1) = some stop) :
      Annotation stream colon stop [stream.attachedStretch colon stop]

/-- Type parameters that may stand at an index. -/
inductive TypeParameters (stream : TokenStream) : Nat → Nat → List Stretch → Prop where
  | absent {index} (missing : stream.is index "<" = false) : TypeParameters stream index index []
  | present {index stop} (found : stream.typeParametersEnd? index = some stop) :
      TypeParameters stream index stop [stream.attachedStretch index stop]

/-- An equals sign and a value that may stand at an index. -/
inductive Initializer (stream : TokenStream) (Value : Nat → Nat → Prop) : Nat → Nat → Prop where
  | absent {index} (missing : stream.is index "=" = false) : Initializer stream Value index index
  | present {equals stop} (found : stream.is equals "=" = true) (value : Value (equals + 1) stop) :
      Initializer stream Value equals stop

/-- An expression may end with the token at an index. -/
abbrev EndsExpression (stream : TokenStream) (index : Nat) : Prop :=
  stream.endsExpression index = true

/-- A token stands at an index that is no word. -/
def MarkAt (stream : TokenStream) (index : Nat) : Prop :=
  ∃ text, stream.is index text = true ∧ text.toList.head?.any isWordCharacter = false

variable {stream : TokenStream} {index stop : Nat} {stretches : List Stretch} {mark : String}
  {Value : Nat → Nat → Prop}

/-! ## What walkers find -/

theorem OptionalMark.erasedMarker_eq (optional : stream.OptionalMark mark index stop stretches) :
    stream.erasedMarker mark index = ⟨stop, erasures stretches⟩ := by
  cases optional with
  | absent missing => simp [erasedMarker, missing, Progress.still]
  | present found => simp [erasedMarker, found, single, tokenStretch]

theorem Annotation.optionalAnnotation_eq (ascription : stream.Annotation index stop stretches) :
    stream.optionalAnnotation index = .ok stop := by
  cases ascription with
  | absent missing => simp [ optionalAnnotation, missing, pure, Except.pure]
  | present found type => simp [ optionalAnnotation, found, expectType, type]

theorem Annotation.attachedIf_eq (nested : stream.Nested) (placed : stream.Placed)
    (ascription : stream.Annotation index stop stretches) (later : 0 < index) :
    stream.attachedIf index stop = erasures stretches := by
  cases ascription with
  | absent => simp [attachedIf]
  | present found type =>
    have forward : index < stop := ((passes_of_typeEnd? placed type).balanced nested).ordered
    simp [attachedIf, forward, attached_eq later forward]

theorem Annotation.erasedAnnotation_eq (nested : stream.Nested) (placed : stream.Placed)
    (ascription : stream.Annotation index stop stretches) (later : 0 < index) :
    stream.erasedAnnotation index = .ok ⟨stop, erasures stretches⟩ := by
  rw [ erasedAnnotation, ascription.optionalAnnotation_eq,
    ← ascription.attachedIf_eq nested placed later]
  rfl

theorem OptionalMark.le (optional : stream.OptionalMark mark index stop stretches) :
    index ≤ stop := by
  cases optional with
  | absent => exact Nat.le_refl _
  | present => exact Nat.le_succ _

theorem Annotation.le (nested : stream.Nested) (placed : stream.Placed)
    (ascription : stream.Annotation index stop stretches) : index ≤ stop := by
  cases ascription with
  | absent => exact Nat.le_refl _
  | present _ type =>
    exact Nat.le_of_succ_le ((passes_of_typeEnd? placed type).balanced nested).ordered

theorem TypeParameters.optionalTypeParameters_eq
    (parameters : stream.TypeParameters index stop stretches) :
    stream.optionalTypeParameters index = .ok stop := by
  cases parameters with
  | absent missing => simp [optionalTypeParameters, missing, pure, Except.pure]
  | present found =>
    simp [optionalTypeParameters, angle_of_typeParameters found, expectTypeParameters, found]

theorem TypeParameters.attachedIf_eq (nested : stream.Nested) (placed : stream.Placed)
    (parameters : stream.TypeParameters index stop stretches) (later : 0 < index) :
    stream.attachedIf index stop = erasures stretches := by
  cases parameters with
  | absent => simp [attachedIf]
  | present found =>
    have forward := lt_of_typeParametersEnd? nested placed found
    simp [attachedIf, forward, attached_eq later forward]

theorem Initializer.initializer_eq {walk : Walk} {ending : WalkEnd}
    (value : stream.Initializer Value index stop)
    (walked : stream.is index "=" = true → Value (index + 1) stop →
      walk (index + 1) ending = .ok (.still stop)) :
    stream.initializer walk index ending = .ok (.still stop) := by
  cases value with
  | absent missing => simp [initializer, missing, pure, Except.pure]
  | present found value =>
    rw [initializer, if_pos found]
    exact walked found value

theorem TypeParameters.le (nested : stream.Nested) (placed : stream.Placed)
    (parameters : stream.TypeParameters index stop stretches) : index ≤ stop := by
  cases parameters with
  | absent => exact Nat.le_refl _
  | present found => exact Nat.le_of_lt (lt_of_typeParametersEnd? nested placed found)

theorem Initializer.le (value : stream.Initializer Value index stop)
    (ordered : ∀ {first}, Value first stop → first ≤ stop) : index ≤ stop := by
  cases value with
  | absent => exact Nat.le_refl _
  | present _ value => exact Nat.le_of_succ_le (ordered value)

/-! ## Where the stretches lie -/

section Laid

variable (nested : stream.Nested) (placed : stream.Placed)

include placed

theorem OptionalMark.laid (optional : stream.OptionalMark mark index stop stretches) :
    Laid (stream.passed index) stretches (stream.passed stop) := by
  cases optional with
  | absent => exact .nothing (Nat.le_refl _)
  | present found => exact placed.laid_token (lt_size_of_is found)

include nested

theorem Annotation.laid (ascription : stream.Annotation index stop stretches) :
    Laid (stream.passed index) stretches (stream.passed stop) := by
  cases ascription with
  | absent => exact .nothing (Nat.le_refl _)
  | present found type =>
    exact placed.laid_attached ((passes_of_typeEnd? placed type).balanced nested).ordered
      (lt_size_of_is found)

theorem TypeParameters.laid (parameters : stream.TypeParameters index stop stretches) :
    Laid (stream.passed index) stretches (stream.passed stop) := by
  cases parameters with
  | absent => exact .nothing (Nat.le_refl _)
  | present found =>
    exact placed.laid_attached (lt_of_typeParametersEnd? nested placed found)
      (lt_size_of_is (angle_of_typeParameters found))

end Laid

/-! ## What stands behind the stretches -/

theorem markAt_of_is (found : stream.is index mark = true)
    (noWord : mark.toList.head?.any isWordCharacter = false) : stream.MarkAt index :=
  ⟨mark, found, noWord⟩

theorem Annotation.markAt (ascription : stream.Annotation index stop stretches)
    (behind : stream.MarkAt stop) : stream.MarkAt index := by
  cases ascription with
  | absent => exact behind
  | present found => exact markAt_of_is found (by decide +kernel)

theorem Initializer.markAt (value : stream.Initializer Value index stop)
    (behind : stream.MarkAt stop) : stream.MarkAt index := by
  cases value with
  | absent => exact behind
  | present found => exact markAt_of_is found (by decide +kernel)

section Behind

variable {source : List Char} (read : ofSource source = .ok stream)

include read

theorem MarkAt.beforeNoWord (behind : stream.MarkAt index) (start : Nat) :
    Stretch.BeforeNoWord stream.source ⟨start, stream.passed index⟩ := by
  obtain ⟨text, found, noWord⟩ := behind
  exact beforeNoWord_of_mark read found noWord start

theorem OptionalMark.beforeNoWord (optional : stream.OptionalMark mark index stop stretches)
    (behind : stream.MarkAt stop) :
    ∀ stretch ∈ stretches, stretch.BeforeNoWord stream.source := by
  cases optional with
  | absent => nofun
  | present => exact List.forall_mem_singleton.mpr (behind.beforeNoWord read _)

theorem Annotation.beforeNoWord (ascription : stream.Annotation index stop stretches)
    (behind : stream.MarkAt stop) :
    ∀ stretch ∈ stretches, stretch.BeforeNoWord stream.source := by
  cases ascription with
  | absent => nofun
  | present => exact List.forall_mem_singleton.mpr (behind.beforeNoWord read _)

theorem TypeParameters.beforeNoWord (parameters : stream.TypeParameters index stop stretches)
    (behind : stream.MarkAt stop) :
    ∀ stretch ∈ stretches, stretch.BeforeNoWord stream.source := by
  cases parameters with
  | absent => nofun
  | present => exact List.forall_mem_singleton.mpr (behind.beforeNoWord read _)

end Behind

/-! ## Values -/

/-- A walk stops behind plain code where something there ends it. -/
theorem walkFrom_plain_value (nested : stream.Nested) (placed : stream.Placed) {ending : WalkEnd}
    {enclosed : Bool} {first : Nat} (plain : stream.Plain enclosed first stop)
    (headFree : stream.HeadFree stop) (spares : stream.Spares ending enclosed first stop)
    (ends : stop = ending.limit ∨ stream.endsBefore first stop ending = true) :
    stream.walkFrom first first ending = .ok (.still stop) := by
  refine walkFrom_of_plain nested placed plain headFree spares ?_
  rcases ends with rfl | ends
  · exact walkFrom_of_le (Nat.le_refl _)
  · exact walkFrom_of_endsBefore ends

theorem endsBefore_of_stop {ending : WalkEnd} {first : Nat}
    (found : stream.kind? stop = some .punctuator) (listed : stream.text stop ∈ ending.stops) :
    stream.endsBefore first stop ending = true := by
  simp [endsBefore, found, textIn, listed]

/-! ## Words that begin a construct -/

/-- The marks that an expression may end with. -/
theorem text_of_endsExpression (ends : stream.EndsExpression index)
    (found : stream.kind? index = some .punctuator) :
    stream.text index ∈ [")", "]", "\x7d", "++", "--"] := by
  unfold kind? at found
  unfold EndsExpression endsExpression at ends
  unfold text
  cases token : stream.get? index with
  | none =>
    rw [token] at found
    contradiction
  | some token =>
    simp only [token, Option.map_some, Option.some.injEq] at found ends ⊢
    simpa only [Token.endsExpression, found, List.contains_iff_mem] using ends

/-- At the start of a program, or behind a token that is no point, a word names no property. -/
theorem isPropertyName_eq_false
    (starts : index = 0 ∨ ∃ text, stream.is (index - 1) text = true ∧ text ∉ [".", "?."]) :
    stream.isPropertyName index = false := by
  rcases starts with rfl | ⟨text, found, other⟩
  · rfl
  · have noPoint : stream.is (index - 1) "." = false :=
      is_eq_false_of_is found (by rintro rfl; exact other (by decide))
    have noLink : stream.is (index - 1) "?." = false :=
      is_eq_false_of_is found (by rintro rfl; exact other (by decide))
    simp [isPropertyName, noPoint, noLink]

/-- Behind a token that an expression may end with, a word names no property. -/
theorem Placed.isPropertyName_eq_false_of_endsExpression (placed : stream.Placed)
    (behind : stream.EndsExpression (index - 1)) : stream.isPropertyName index = false := by
  have marks : ∀ text ∈ [".", "?."], text ∉ [")", "]", "\x7d", "++", "--"] ∧ hasMark text = true := by
    decide
  have noMark : ∀ text ∈ [".", "?."], stream.is (index - 1) text = false := by
    intro text listed
    rw [Bool.eq_false_iff]
    intro found
    have ended := text_of_endsExpression behind (placed.kind?_of_mark found (marks text listed).2)
    rw [(is_iff.mp found).2] at ended
    exact (marks text listed).1 ended
  simp [isPropertyName, noMark]

end TokenStream

/-! ## Results -/

/-- A program whose walk finds nothing but erasures in order loses exactly their stretches. -/
theorem eraseTypes_of_erasures {source : String} {stream : TokenStream}
    (read : TokenStream.ofSource source.toList = .ok stream) {stretches : List Stretch}
    {next upper : Nat}
    (walked : stream.walkFrom 0 0 (.upTo stream.size) = .ok ⟨next, erasures stretches⟩)
    (laid : Laid 0 stretches upper) :
    eraseTypes source = .ok (String.ofList (textWithout stream.source [] 0 stretches)) := by
  refine (eraseTypes_eq_ok_iff read).mpr ⟨erasures stretches, ?_, ?_⟩
  · rw [TokenStream.edits, walked]
    rfl
  · rw [String.toList_ofList, editedText_erasures laid]

end Playground

import Playground.Proofs.Erasure.Draft
import Playground.Proofs.Erasure.Justification.Walk

/-!
# Where an output comes from

`Provenance` is what an erasure promises about its output: it is made of slices of the
source, in their order and on their lines, with nothing between them but line breaks,
spaces that keep words apart, and assigned parameter properties.
`provenance_of_eraseTypes` proves it of every program without an enumeration.
-/

namespace Playground

/-- Whether a piece is a slice of the source that stops at or before an offset. -/
def Piece.StopsBefore (offset : Nat) : Piece → Prop
  | .kept _ stop => stop ≤ offset
  | .generated _ => True

/-- Whether a piece comes before another in the source. -/
def Piece.Precedes (earlier : Piece) : Piece → Prop
  | .kept start _ => earlier.StopsBefore start
  | .generated _ => True

/-- Whether a piece is generated text. -/
def Piece.IsGenerated : Piece → Prop
  | .kept _ _ => False
  | .generated _ => True

/-- A list of pieces accounts for an output by its source. -/
structure Provenance (source : List Char) (Assigned : List Char → Prop) (pieces : List Piece) :
    Prop where
  /-- Slices are not empty and lie in the source. -/
  kept : ∀ {start stop}, .kept start stop ∈ pieces → start < stop ∧ stop ≤ source.length
  /-- Slices follow one another in the source. -/
  ordered : pieces.Pairwise Piece.Precedes
  /-- Nothing else is written. -/
  generated : ∀ {text}, .generated text ∈ pieces →
    (∀ character ∈ text, character = '\n') ∨ text = [' '] ∨ Assigned text
  /-- Spaces are single. -/
  spaced : ∀ {before between after},
    pieces = before ++ .generated [' '] :: between ++ .generated [' '] :: after →
      ∃ piece ∈ between, ¬piece.IsGenerated
  /-- A slice stays on its line. -/
  aligned : ∀ {before start stop after}, pieces = before ++ .kept start stop :: after →
    (before.flatMap (Piece.characters source.toArray)).count '\n' =
      (source.take start).count '\n'
  /-- The output has the lines of the source. -/
  lines : (pieces.flatMap (Piece.characters source.toArray)).count '\n' = source.count '\n'
  /-- Words that were apart stay apart. -/
  apart : ∀ {before between after start stop nextStart nextStop},
    pieces = before ++ .kept start stop :: between ++ .kept nextStart nextStop :: after →
      (∀ piece ∈ between, piece.IsGenerated) → stop < nextStart →
        ((slice source.toArray start stop).getLast?).any isWordCharacter = true →
          ((slice source.toArray nextStart nextStop).head?).any isWordCharacter = true →
            between.flatMap (Piece.characters source.toArray) ≠ []

namespace Draft.Woven

variable {source : Array Char} {Insertable : List Char → Prop} {draft : Draft}

theorem stopsBefore_copied (woven : Woven source Insertable draft) :
    ∀ piece ∈ draft.pieces, piece.StopsBefore draft.copied := by
  intro piece member
  cases piece with
  | generated => trivial
  | kept start stop =>
    obtain ⟨newer, older, split⟩ := List.append_of_mem member
    obtain ⟨pieces, copied⟩ := draft
    obtain rfl := split
    exact woven.of_append_kept.2.1

/-- The pieces of a draft, latest first, are in order. -/
theorem ordered (woven : Woven source Insertable draft) :
    draft.pieces.Pairwise fun later earlier => earlier.Precedes later := by
  induction woven with
  | empty => exact .nil
  | keep woven _ _ inductionHypothesis =>
    exact List.pairwise_cons.mpr ⟨woven.stopsBefore_copied, inductionHypothesis⟩
  | drop _ _ _ inductionHypothesis | insert _ _ inductionHypothesis =>
    exact List.pairwise_cons.mpr ⟨fun _ _ => trivial, inductionHypothesis⟩

/-- What was generated is a gap or was inserted. -/
theorem generated (woven : Woven source Insertable draft) {text : List Char}
    (member : .generated text ∈ draft.pieces) :
    (∀ character ∈ text, character = '\n') ∨ text = [' '] ∨ Insertable text := by
  induction woven with
  | empty => contradiction
  | keep _ _ _ inductionHypothesis => exact inductionHypothesis (by simpa using member)
  | @drop draft stop _ _ _ inductionHypothesis =>
    rcases List.mem_cons.mp member with same | before
    · obtain rfl := Piece.generated.inj same
      exact (gapFor_shape source draft stop).imp_right .inl
    · exact inductionHypothesis before
  | insert _ insertable inductionHypothesis =>
    rcases List.mem_cons.mp member with same | before
    · obtain rfl := Piece.generated.inj same
      exact .inr (.inr insertable)
    · exact inductionHypothesis before

/-- A complete draft accounts for its source. -/
theorem provenance {source : List Char} {draft : Draft}
    (woven : Woven source.toArray Insertable draft) (complete : draft.copied = source.length)
    (noBreak : ∀ text, Insertable text → '\n' ∉ text)
    (noWord : ∀ text, Insertable text → text.getLast?.any isWordCharacter = false)
    (nonempty : ∀ text, Insertable text → text ≠ []) (notSpace : ¬Insertable [' ']) :
    Provenance source Insertable draft.pieces.reverse where
  kept member := by
    obtain ⟨newer, older, split⟩ := List.append_of_mem (List.mem_reverse.mp member)
    obtain ⟨pieces, copied⟩ := draft
    obtain rfl := split
    have placed := woven.of_append_kept
    exact ⟨placed.1, by simpa using placed.2.2.1⟩
  ordered := List.pairwise_reverse.mpr woven.ordered
  generated member := woven.generated (List.mem_reverse.mp member)
  spaced {before between after} split := by
    by_contra none
    obtain ⟨pieces, copied⟩ := draft
    obtain rfl : pieces = after.reverse ++
        (.generated [' '] :: between.reverse ++ .generated [' '] :: before.reverse) := by
      rw [← List.reverse_reverse pieces, split]
      simp
    obtain ⟨last, _, wovenLast⟩ := woven.of_append
    refine wovenLast.not_two_spaces noWord notSpace fun piece member => ?_
    cases piece with
    | kept => exact absurd ⟨_, List.mem_reverse.mp member, id⟩ none
    | generated text => exact ⟨text, rfl⟩
  aligned {before start stop after} split := by
    obtain ⟨pieces, copied⟩ := draft
    obtain rfl : pieces = after.reverse ++ .kept start stop :: before.reverse := by
      rw [← List.reverse_reverse pieces, split]
      simp
    have count := (woven.of_append_kept.2.2.2).count_newline noBreak
    simpa [characters] using count
  lines := by
    have count := woven.count_newline noBreak
    rw [complete] at count
    simpa [characters] using count
  apart {before between after start stop nextStart nextStop} split generated dropped word next := by
    intro nothing
    obtain ⟨pieces, copied⟩ := draft
    obtain rfl : pieces = after.reverse ++ .kept nextStart nextStop ::
        (between.reverse ++ .kept start stop :: before.reverse) := by
      rw [← List.reverse_reverse pieces, split]
      simp
    obtain ⟨positive, _, inside, wovenBefore⟩ := woven.of_append_kept
    have silent : ∀ piece ∈ between.reverse, piece = .generated [] := by
      intro piece member
      have listed := List.mem_reverse.mp member
      have characters := List.flatMap_eq_nil_iff.mp nothing piece listed
      cases piece with
      | kept => exact (generated _ listed).elim
      | generated text => exact congrArg Piece.generated characters
    have notWord := wovenBefore.not_word_of_empty_gap nonempty rfl silent dropped word
    have first : (slice source.toArray nextStart nextStop).head? = source[nextStart]? := by
      rw [slice_eq, List.head?_drop]
      simp [positive]
    simp [first] at next
    simp [next] at notWord

end Draft.Woven

/-! ## Assigned properties -/

/-- The assignment of one property. -/
theorem toList_propertyAssignments (names : List String) :
    (TokenStream.propertyAssignments names).toList =
      names.flatMap fun name =>
        " this.".toList ++ name.toList ++ " = ".toList ++ name.toList ++ [';'] := by
  induction names with
  | nil => rfl
  | cons name names inductionHypothesis =>
    unfold TokenStream.propertyAssignments at inductionHypothesis ⊢
    rw [List.map_cons, String.join_cons, String.toList_append, inductionHypothesis]
    simp [toString]

namespace TokenStream

variable {stream : TokenStream}

/-- A text assigns the parameter properties of a constructor. -/
def Assigned (stream : TokenStream) (text : List Char) : Prop :=
  stream.AssignsProperties (String.ofList text)

theorem Assigned.shape {text : List Char} (assigned : stream.Assigned text) :
    ∃ names : List String, names ≠ [] ∧
      (∀ name ∈ names, ∃ index, stream.isPlainWord index = true ∧ name = stream.text index) ∧
      text = (propertyAssignments names).toList := by
  obtain ⟨_, _, _, _, names, _, _, _, _, _, ⟨indices, properties, listed⟩, present, written⟩ :=
    assigned
  refine ⟨names, present, fun name member => ?_, ?_⟩
  · subst listed
    obtain ⟨index, inList, rfl⟩ := List.mem_map.mp member
    exact ⟨index, (properties index inList).2.2.1, rfl⟩
  · rw [← written, String.toList_ofList]

theorem Assigned.newline_not_mem (placed : stream.Placed) {text : List Char}
    (assigned : stream.Assigned text) : '\n' ∉ text := by
  obtain ⟨names, _, words, rfl⟩ := assigned.shape
  rw [toList_propertyAssignments, List.mem_flatMap]
  rintro ⟨name, member, inside⟩
  obtain ⟨index, word, rfl⟩ := words name member
  have noBreak := placed.newline_not_mem_text word
  simp [noBreak] at inside

theorem Assigned.getLast? {text : List Char} (assigned : stream.Assigned text) :
    text.getLast? = some ';' := by
  obtain ⟨names, present, _, rfl⟩ := assigned.shape
  rw [toList_propertyAssignments, ← List.dropLast_concat_getLast present, List.flatMap_append,
    List.flatMap_singleton, ← List.append_assoc, List.getLast?_concat]

theorem Justified.fits {edit : Edit} (justified : stream.Justified edit) (placed : stream.Placed)
    (noEnum : ¬stream.HasWord "enum") : edit.Fits stream.source stream.Assigned := by
  cases justified with
  | enumeration mark =>
    exact noEnum (placed.hasWord_of_is mark (by decide))
  | @assignments anchor text owner assigns =>
    exact ⟨placed.stopOf_le anchor, by rwa [Assigned, String.ofList_toList]⟩
  | annotated | marker | generics | signature | declaration | implemented | member | assertion
  | typeClause => exact placed.stopOf_le _
  | arrowGenerics | receiver | parameterModifier | abstractClass | memberModifier
  | typeSpecifier => exact placed.startOf_le _

end TokenStream

/-- An erasure succeeds with the edited text of its stream. -/
theorem eraseTypes_eq_ok_iff {source output : String} {stream : TokenStream}
    (read : TokenStream.ofSource source.toList = .ok stream) :
    eraseTypes source = .ok output ↔ ∃ edits, stream.edits = .ok edits ∧
      output.toList = editedText stream.source edits := by
  have same : stream.source = source.toList.toArray := by
    obtain ⟨tokens, partners, _, _, rfl⟩ := TokenStream.ofSource_eq_ok_iff.mp read
    rfl
  unfold eraseTypes eraseCharacters typeEdits
  rw [read, same]
  cases found : stream.edits with
  | error error => simp [bind, Except.bind, found]
  | ok edits =>
    simp only [bind, Except.bind, pure, Except.pure, found, Except.ok.injEq, exists_eq_left']
    constructor
    · rintro rfl
      exact String.toList_ofList
    · intro written
      rw [← written, String.ofList_toList]

/-- The output of a program without an enumeration is made of slices of the source, in order
and on their lines; what stands between them is line breaks, single spaces or the
assignments of parameter properties, and words that were apart stay apart. -/
theorem provenance_of_eraseTypes {source output : String} {stream : TokenStream}
    (read : TokenStream.ofSource source.toList = .ok stream)
    (noEnum : ¬stream.HasWord "enum") (erased : eraseTypes source = .ok output) :
    ∃ pieces, Provenance source.toList stream.Assigned pieces ∧
      output.toList = pieces.flatMap (Piece.characters source.toList.toArray) := by
  obtain ⟨edits, found, written⟩ := (eraseTypes_eq_ok_iff read).mp erased
  have placed := TokenStream.placed_of_ofSource read
  have same : stream.source = source.toList.toArray := by
    obtain ⟨tokens, partners, _, _, rfl⟩ := TokenStream.ofSource_eq_ok_iff.mp read
    rfl
  have woven : Draft.Woven stream.source stream.Assigned
      (Draft.empty.applyAll stream.source edits) :=
    Draft.Woven.empty.applyAll fun edit member =>
      (TokenStream.justified_of_edits read found edit member).fits placed noEnum
  have complete := woven.keepTo (Nat.le_refl _)
  have copied : ((Draft.empty.applyAll stream.source edits).keepTo stream.source.size).copied =
      source.toList.length := by
    rw [Draft.copied_keepTo, Nat.max_eq_right woven.copied_le, same, List.size_toArray]
  rw [same] at complete copied
  refine ⟨_, complete.provenance copied ?_ ?_ ?_ ?_, ?_⟩
  · exact fun text assigned => assigned.newline_not_mem placed
  · intro text assigned
    rw [assigned.getLast?]
    decide
  · intro text assigned
    exact List.getLast?_isSome.mp (by rw [assigned.getLast?]; rfl)
  · intro assigned
    exact absurd assigned.getLast? (by decide)
  · rw [written, editedText, editedPieces, same]

theorem provenance_of_parameterProperty :
    ∃ stream pieces, TokenStream.ofSource
        "class A \x7b constructor(private x: T) \x7b \x7d \x7d\nlet y = x as T;".toList = .ok stream ∧
      ¬stream.HasWord "enum" ∧
      Provenance "class A \x7b constructor(private x: T) \x7b \x7d \x7d\nlet y = x as T;".toList
        stream.Assigned pieces ∧
      "class A \x7b constructor(x) \x7b this.x = x; \x7d \x7d\nlet y = x;".toList =
        pieces.flatMap (Piece.characters
          "class A \x7b constructor(private x: T) \x7b \x7d \x7d\nlet y = x as T;".toList.toArray) := by
  obtain ⟨stream, read, noEnum⟩ := exists_ok_of_any (¬TokenStream.HasWord · "enum")
    (show ((TokenStream.ofSource
        "class A \x7b constructor(private x: T) \x7b \x7d \x7d\nlet y = x as T;".toList).toOption.any
      fun stream => decide ¬stream.HasWord "enum") = true by decide +kernel)
  have erased :
      eraseTypes "class A \x7b constructor(private x: T) \x7b \x7d \x7d\nlet y = x as T;" =
        .ok "class A \x7b constructor(x) \x7b this.x = x; \x7d \x7d\nlet y = x;" := by
    decide +kernel
  obtain ⟨pieces, accounts, written⟩ := provenance_of_eraseTypes read noEnum erased
  exact ⟨stream, pieces, read, noEnum, accounts, written⟩

end Playground

import Playground.Erasure.Program
import Playground.Proofs.Erasure.LineEnding.Tokens
import Playground.Proofs.Erasure.Relocation.Drafts
import Playground.Proofs.Erasure.Relocation.Walk

/-!
# Line ends do not matter

A program is erased alike whether its lines end with a line feed or with a carriage return and
a line feed. The streams of the two programs stand for one another as a whole, so the walks find
edits at displaced offsets, and applying these edits to the one program and the other leaves the
`SameLines`. Faults are reported at one line and column.
-/

namespace Playground

/-! ## Slices -/

theorem slice_append (passed text rest : List Char) :
    slice (passed ++ (text ++ rest)).toArray passed.length (passed ++ text).length = text := by
  rw [Draft.slice_eq, ← List.append_assoc, List.take_left, List.drop_left]

namespace Displaced

variable {source : List Char} {start stop otherStart otherStop : Nat}

/-- The text between displaced offsets has returns. -/
theorem slice (starts : Displaced source start otherStart) (stops : Displaced source stop otherStop) :
    Playground.slice (withReturns source).toArray otherStart otherStop =
      withReturns (Playground.slice source.toArray start stop) := by
  rcases Nat.le_total start stop with ordered | reversed
  · obtain ⟨passed, text, rest, rfl, rfl, rfl, rfl, rfl⟩ := starts.between stops ordered
    simp only [withReturns_append, slice_append]
  · have empty : ∀ (source : Array Char) {start stop : Nat}, stop ≤ start →
        Playground.slice source start stop = [] := by
      intro source start stop reversed
      rw [Draft.slice_eq, List.drop_eq_nil_iff, List.length_take]
      omega
    rw [empty _ reversed, empty _ ((stops.le_iff starts).mp reversed), withReturns_nil]

/-- A word goes on at an offset in both texts or in none. -/
theorem next (stops : Displaced source stop otherStop) :
    ((withReturns source).toArray[otherStop]?).any isWordCharacter =
      (source.toArray[stop]?).any isWordCharacter := by
  obtain ⟨passed, rest, rfl, rfl, rfl⟩ := stops
  have following : ∀ first rest : List Char, (first ++ rest).toArray[first.length]? = rest.head? := by
    intro first rest
    rw [List.getElem?_toArray, List.getElem?_append_right (Nat.le_refl _), Nat.sub_self,
      List.head?_eq_getElem?]
  rw [withReturns_append, following, following]
  cases rest with
  | nil => rfl
  | cons first rest =>
    by_cases newline : first = '\n'
    · have noWord : isWordCharacter '\r' = false ∧ isWordCharacter '\n' = false := by
        decide +kernel
      subst newline
      simp [noWord.1, noWord.2]
    · rw [withReturns_cons newline]
      rfl

end Displaced

theorem SameLines.slice {source : List Char} (plain : '\r' ∉ source)
    {start stop otherStart otherStop : Nat} (starts : Displaced source start otherStart)
    (stops : Displaced source stop otherStop) :
    SameLines (Playground.slice source.toArray start stop)
      (Playground.slice (Playground.withReturns source).toArray otherStart otherStop) := by
  rw [starts.slice stops]
  refine SameLines.withReturns fun member => plain ?_
  rw [Draft.slice_eq] at member
  exact List.mem_of_mem_take (List.mem_of_mem_drop member)

/-! ## Streams -/

/-- The streams of a program and of the program with returns. -/
structure ReturnsAlike (source : List Char) (stream image : TokenStream) : Prop where
  text : stream.source = source.toArray
  imageText : image.source = (withReturns source).toArray
  tokens : List.Forall₂ (TokenAlike source) stream.tokens.toList image.tokens.toList
  partners : image.partners = stream.partners

theorem matchBrackets_alike {source : List Char} {tokens others : List Token}
    (alike : List.Forall₂ (TokenAlike source) tokens others) :
    AnswersAlike (Displaced source) (fun partners image => image = partners)
      (matchBrackets tokens) (matchBrackets others) := by
  have paired : AnswersAlike (Displaced source) (fun pairs image => image = shiftPairs 0 pairs)
      (pairBrackets [] 0 tokens) (pairBrackets [] 0 others) :=
    pairBrackets_alike .nil (alike.imp fun _ _ one => one.standsFor) 0
  refine paired.bind fun {pairs image} same => .ok ?_
  have unshifted : image = pairs := by
    rw [same]
    exact List.map_id pairs
  rw [unshifted, alike.length_eq]

theorem ofSource_alike {source : List Char} (plain : PlainLines source) :
    AnswersAlike (Displaced source) (ReturnsAlike source) (TokenStream.ofSource source)
      (TokenStream.ofSource (withReturns source)) := by
  have tokenized : AnswersAlike (Displaced source) (List.Forall₂ (TokenAlike source))
      (tokenize source) (tokenize (withReturns source)) :=
    tokensFrom_alike (List.nil_append source).symm plain rfl []
  refine tokenized.bind fun {tokens others} alike => ?_
  refine (matchBrackets_alike alike).bind fun {partners image} same => .ok ?_
  exact ⟨rfl, rfl, alike, same⟩

namespace ReturnsAlike

open TokenStream

variable {source : List Char} {stream image : TokenStream}

theorem size (alike : ReturnsAlike source stream image) : image.size = stream.size :=
  alike.tokens.length_eq.symm

theorem token (alike : ReturnsAlike source stream image) {index : Nat} {token : Token}
    (found : stream.get? index = some token) :
    ∃ other, image.get? index = some other ∧ TokenAlike source token other := by
  rw [get?, ← Array.getElem?_toList] at found ⊢
  exact exists_getElem?_of_forall₂ alike.tokens found

theorem newlineBefore (alike : ReturnsAlike source stream image) {index : Nat}
    (inside : index < stream.size) : image.newlineBefore index = stream.newlineBefore index := by
  obtain ⟨token, found⟩ : ∃ token, stream.get? index = some token :=
    ⟨_, Array.getElem?_eq_getElem inside⟩
  obtain ⟨other, there, one⟩ := alike.token found
  simp only [TokenStream.newlineBefore, found, there, one.newline]

theorem partner? (alike : ReturnsAlike source stream image) (index : Nat) :
    image.partner? index = (stream.partner? index).map (· + 0) := by
  simp only [TokenStream.partner?, alike.partners, Nat.add_zero, Option.map_id']

theorem finish (alike : ReturnsAlike source stream image) :
    Displaced source stream.source.size image.source.size := by
  simpa [alike.text, alike.imageText] using displaced_size source

theorem slices (alike : ReturnsAlike source stream image) (plain : '\r' ∉ source)
    {start stop otherStart otherStop : Nat} (starts : Displaced source start otherStart)
    (stops : Displaced source stop otherStop) :
    SameLines (String.ofList (slice stream.source start stop)).toList
      (String.ofList (slice image.source otherStart otherStop)).toList := by
  simpa [alike.text, alike.imageText] using SameLines.slice plain starts stops

/-- The stream of the program with returns has the tokens of the program, displaced. -/
def relocation (alike : ReturnsAlike source stream image) (plain : '\r' ∉ source)
    (read : ofSource source = .ok stream) : Relocation stream image where
  shift := 0
  Whole := True
  Offset := Displaced source
  Same text other := SameLines text.toList other.toList
  placed := placed_of_ofSource read
  nested := nested_of_ofSource read
  tokens found := by
    obtain ⟨other, there, one⟩ := alike.token found
    exact ⟨other, there, one.standsFor⟩
  lines inside _ := alike.newlineBefore inside
  partners _ := alike.partner? _
  size _ := alike.size
  finish _ := alike.finish
  injective := Displaced.eq_iff
  plain := SameLines.refl
  append one two := by
    rw [String.toList_append, String.toList_append]
    exact one.append two
  slices _ starts stops := alike.slices plain starts stops
  seam := stream.whole_or_stopsAtSeam
  before shifted := absurd shifted (Nat.lt_irrefl 0)

end ReturnsAlike

/-! ## Edits -/

/-- An edit of a program, and an edit of the program with returns. -/
abbrev EditDisplaced (source : List Char) : Edit → Edit → Prop :=
  Edit.StandsFor (Displaced source) fun text other => SameLines text.toList other.toList

theorem typeEdits_alike {source : List Char} (plain : PlainLines source) :
    AnswersAlike (Displaced source) (List.Forall₂ (EditDisplaced source)) (typeEdits source)
      (typeEdits (withReturns source)) := by
  refine (ofSource_alike plain).answered.bind fun {stream image} answer => ?_
  obtain ⟨read, alike⟩ := answer
  exact ((alike.relocation plain.noReturn read).edits_alike trivial).bind fun same => .ok same

theorem transfer_withReturns {source : List Char} (plain : '\r' ∉ source) :
    Transfer source.toArray (withReturns source).toArray (Displaced source) SameLines SameLines where
  order := Displaced.le_iff
  slices := SameLines.slice plain
  lineFeeds := SameLines.lineFeeds
  plain := SameLines.refl
  next := Displaced.next
  append := SameLines.append
  last same := by rw [same.getLast?]

theorem SameLines.editedText {source : List Char} (plain : '\r' ∉ source)
    {edits images : List Edit} (same : List.Forall₂ (EditDisplaced source) edits images) :
    SameLines (Playground.editedText source.toArray edits)
      (Playground.editedText (Playground.withReturns source).toArray images) := by
  have transfer := transfer_withReturns plain
  have start : DraftAlike source.toArray (Playground.withReturns source).toArray (Displaced source)
      SameLines .empty .empty := ⟨displaced_append [] source, .nil⟩
  have ends := (start.applyAll transfer same).keepTo transfer (displaced_size source)
  simpa [editedText_eq] using ends.text

/-! ## Reports -/

theorem advance_withReturns (position : SourcePosition) (passed : List Char) :
    position.advance (withReturns passed) = position.advance passed := by
  induction passed generalizing position with
  | nil => rfl
  | cons first rest inductionHypothesis =>
    by_cases newline : first = '\n'
    · subst newline
      rw [withReturns_newline]
      simp only [SourcePosition.advance, if_true, if_neg (show '\r' ≠ '\n' by decide)]
      exact inductionHypothesis _
    · rw [withReturns_cons newline]
      simp only [SourcePosition.advance, if_neg newline]
      exact inductionHypothesis _

/-- Displaced offsets are at one line and column. -/
theorem Displaced.ofOffset {source : List Char} {offset other : Nat}
    (displaced : Displaced source offset other) :
    SourcePosition.ofOffset (withReturns source) other = SourcePosition.ofOffset source offset := by
  obtain ⟨passed, rest, rfl, rfl, rfl⟩ := displaced
  rw [SourcePosition.ofOffset, SourcePosition.ofOffset, withReturns_append, List.take_left,
    List.take_left, advance_withReturns]

/-- A program with a carriage return before every line feed. -/
def returnLines (source : String) : String :=
  String.ofList (withReturns source.toList)

/-- A text without its carriage returns. -/
def dropReturns (text : String) : String :=
  String.ofList (text.toList.filter (· ≠ '\r'))

/-- Erasing the types of a program with returns gives the erased program with some returns, or
the same report. -/
theorem eraseTypes_returnLines {source : String} (plain : PlainLines source.toList) :
    (eraseTypes (returnLines source)).map dropReturns = eraseTypes source := by
  have alike := typeEdits_alike plain
  unfold eraseTypes eraseCharacters returnLines
  rw [String.toList_ofList]
  cases here : typeEdits source.toList with
  | ok edits =>
    rw [here] at alike
    obtain ⟨images, there, same⟩ := alike.exists_ok
    rw [there]
    have text := (SameLines.editedText plain.noReturn same).filter
    simp only [bind, Except.bind, pure, Except.pure, Except.map, dropReturns, String.toList_ofList,
      text]
  | error error =>
    rw [here] at alike
    obtain ⟨offset, there, place⟩ := alike.exists_error
    rw [there]
    simp only [bind, Except.bind, Except.map, SyntaxError.report, place.ofOffset]

theorem eraseTypes_returnLines_of_template :
    PlainLines "let a: T =\n  \x60b\n\x60 as U; // c\n".toList ∧
      eraseTypes "let a: T =\n  \x60b\n\x60 as U; // c\n" =
        .ok "let a =\n  \x60b\n\x60; // c\n" ∧
      (eraseTypes (returnLines "let a: T =\n  \x60b\n\x60 as U; // c\n")).map dropReturns =
        .ok "let a =\n  \x60b\n\x60; // c\n" := by
  have plain : PlainLines "let a: T =\n  \x60b\n\x60 as U; // c\n".toList :=
    ⟨by decide +kernel, by decide +kernel⟩
  have erased : eraseTypes "let a: T =\n  \x60b\n\x60 as U; // c\n" =
      .ok "let a =\n  \x60b\n\x60; // c\n" := by
    decide +kernel
  exact ⟨plain, erased, (eraseTypes_returnLines plain).trans erased⟩

end Playground

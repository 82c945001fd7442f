import Playground.Erasure.Edit

/-!
# How edits weave a result

`Woven` are the drafts that erasures and insertions inside the source can produce: each of
its constructors adds one piece. Every tail of the pieces of a woven draft is woven too
(`Woven.of_append`), so a fact about whole drafts is a fact about what stands before any of
their pieces; the line count (`Woven.count_newline`) and the separation of words
(`Woven.not_word_of_empty_gap`) are used that way.
-/

namespace Playground

/-- The edits that erase inside the source, or insert one of some texts inside it. -/
def Edit.Fits (source : Array Char) (Insertable : List Char → Prop) : Edit → Prop
  | .erase _ stop => stop ≤ source.size
  | .insert offset text => offset ≤ source.size ∧ Insertable text.toList
  | .replace .. => False

namespace Draft

@[simp] theorem copied_keepTo (draft : Draft) (offset : Nat) :
    (draft.keepTo offset).copied = max draft.copied offset := by
  unfold keepTo
  split
  · exact (Nat.max_eq_right (Nat.le_of_lt ‹_›)).symm
  · exact (Nat.max_eq_left (Nat.le_of_not_lt ‹_›)).symm

@[simp] theorem copied_write (draft : Draft) (text : List Char) :
    (draft.write text).copied = draft.copied := rfl

@[simp] theorem copied_dropTo (draft : Draft) (stop : Nat) :
    (draft.dropTo stop).copied = max draft.copied stop := rfl

/-- An erasure that goes further passes what it drops. -/
theorem copied_apply_erase {source : Array Char} {draft : Draft} {start finish : Nat}
    (further : max start draft.copied < finish) :
    (draft.apply source (.erase start finish)).copied = finish := by
  simp only [apply, if_neg (Nat.not_le_of_lt further), copied_dropTo, copied_write, copied_keepTo]
  omega

/-- The drafts that fitting edits produce, one constructor to a piece. -/
inductive Woven (source : Array Char) (Insertable : List Char → Prop) : Draft → Prop where
  | empty : Woven source Insertable .empty
  | keep {draft offset} (woven : Woven source Insertable draft) (later : draft.copied < offset)
      (inside : offset ≤ source.size) :
      Woven source Insertable ⟨.kept draft.copied offset :: draft.pieces, offset⟩
  | drop {draft stop} (woven : Woven source Insertable draft) (later : draft.copied < stop)
      (inside : stop ≤ source.size) :
      Woven source Insertable ⟨.generated (gapFor source draft stop) :: draft.pieces, stop⟩
  | insert {draft text} (woven : Woven source Insertable draft) (insertable : Insertable text) :
      Woven source Insertable ⟨.generated text :: draft.pieces, draft.copied⟩

namespace Woven

variable {source : Array Char} {Insertable : List Char → Prop} {draft : Draft}

theorem keepTo {offset : Nat} (woven : Woven source Insertable draft)
    (inside : offset ≤ source.size) : Woven source Insertable (draft.keepTo offset) := by
  unfold Draft.keepTo
  split
  · exact woven.keep ‹_› inside
  · exact woven

theorem apply {edit : Edit} (woven : Woven source Insertable draft)
    (fits : edit.Fits source Insertable) : Woven source Insertable (draft.apply source edit) := by
  cases edit with
  | replace start stop text => exact fits.elim
  | insert offset text => exact (woven.keepTo fits.1).insert fits.2
  | erase start stop =>
    simp only [Draft.apply]
    split
    case isTrue => exact woven
    case isFalse further =>
      have later : (draft.keepTo start).copied < stop := by
        rw [copied_keepTo]
        omega
      have inside : start ≤ source.size := by
        simp only [Edit.Fits] at fits
        omega
      have kept := woven.keepTo inside
      have dropped := kept.drop later fits
      simpa only [write, dropTo, Nat.max_eq_right (Nat.le_of_lt later)] using dropped

theorem applyAll {edits : List Edit} (woven : Woven source Insertable draft)
    (fit : ∀ edit ∈ edits, edit.Fits source Insertable) :
    Woven source Insertable (draft.applyAll source edits) := by
  induction edits generalizing draft with
  | nil => exact woven
  | cons first rest inductionHypothesis =>
    exact inductionHypothesis (woven.apply (fit first (by simp)))
      fun edit member => fit edit (by simp [member])

/-- What stands before the latest piece is woven as well. -/
theorem of_cons {piece : Piece} {older : List Piece} {copied : Nat}
    (woven : Woven source Insertable ⟨piece :: older, copied⟩) :
    ∃ before, before ≤ copied ∧ Woven source Insertable ⟨older, before⟩ := by
  cases woven with
  | keep woven later _ | drop woven later _ => exact ⟨_, Nat.le_of_lt later, woven⟩
  | insert woven _ => exact ⟨_, Nat.le_refl _, woven⟩

/-- What stands before any piece is woven as well. -/
theorem of_append {newer older : List Piece} {copied : Nat}
    (woven : Woven source Insertable ⟨newer ++ older, copied⟩) :
    ∃ before, before ≤ copied ∧ Woven source Insertable ⟨older, before⟩ := by
  induction newer generalizing copied with
  | nil => exact ⟨copied, Nat.le_refl _, woven⟩
  | cons piece newer inductionHypothesis =>
    obtain ⟨middle, middleBound, wovenRest⟩ := woven.of_cons
    obtain ⟨before, bound, wovenOlder⟩ := inductionHypothesis wovenRest
    exact ⟨before, Nat.le_trans bound middleBound, wovenOlder⟩

/-- A kept piece begins where the draft before it ended. -/
theorem of_kept {start stop : Nat} {older : List Piece} {copied : Nat}
    (woven : Woven source Insertable ⟨.kept start stop :: older, copied⟩) :
    start < stop ∧ stop = copied ∧ stop ≤ source.size ∧ Woven source Insertable ⟨older, start⟩ := by
  cases woven with
  | keep woven later inside => exact ⟨later, rfl, inside, woven⟩

/-- A kept piece with all that stands before it. -/
theorem of_append_kept {start stop copied : Nat} {newer older : List Piece}
    (woven : Woven source Insertable ⟨newer ++ .kept start stop :: older, copied⟩) :
    start < stop ∧ stop ≤ copied ∧ stop ≤ source.size ∧
      Woven source Insertable ⟨older, start⟩ := by
  obtain ⟨before, bound, wovenKept⟩ := woven.of_append
  obtain ⟨positive, rfl, inside, wovenOlder⟩ := wovenKept.of_kept
  exact ⟨positive, bound, inside, wovenOlder⟩

theorem copied_le (woven : Woven source Insertable draft) : draft.copied ≤ source.size := by
  induction woven with
  | empty => exact Nat.zero_le _
  | keep _ _ inside | drop _ _ inside => exact inside
  | insert _ _ inductionHypothesis => exact inductionHypothesis

end Woven

/-! ## Slices and line breaks -/

theorem slice_eq (source : Array Char) (start stop : Nat) :
    slice source start stop = (source.toList.take stop).drop start := by
  simp [slice, List.drop_take]

theorem take_append_slice {source : Array Char} {start stop : Nat} (ordered : start ≤ stop) :
    source.toList.take start ++ slice source start stop = source.toList.take stop := by
  rw [slice_eq]
  conv => rhs; rw [← List.take_append_drop start (source.toList.take stop)]
  rw [List.take_take, Nat.min_eq_left ordered]

theorem lineBreaks_eq_replicate (source : Array Char) (start stop : Nat) :
    lineBreaks source start stop =
      List.replicate ((slice source start stop).count '\n') '\n' := by
  simp [lineBreaks, List.filter_beq]

/-- A gap keeps the line breaks of what it stands for. -/
theorem count_gapFor (source : Array Char) (draft : Draft) (stop : Nat) :
    (gapFor source draft stop).count '\n' =
      (slice source draft.copied stop).count '\n' := by
  have breaks := lineBreaks_eq_replicate source draft.copied stop
  unfold gapFor
  split
  · rename_i none
    rw [none] at breaks
    have noBreak := congrArg List.length breaks
    rw [List.length_replicate, List.length_nil] at noBreak
    rw [← noBreak]
    split <;> rfl
  · rw [breaks, List.count_replicate_self]

/-- A gap is made of line breaks or is a single space. -/
theorem gapFor_shape (source : Array Char) (draft : Draft) (stop : Nat) :
    (∀ character ∈ gapFor source draft stop, character = '\n') ∨
      gapFor source draft stop = [' '] := by
  unfold gapFor
  split
  · split
    · exact .inr rfl
    · simp
  · left
    rw [lineBreaks_eq_replicate]
    exact fun character member => List.eq_of_mem_replicate member

/-- An empty gap does not join two words. -/
theorem not_word_of_gapFor_eq_nil {source : Array Char} {draft : Draft} {stop : Nat}
    (empty : gapFor source draft stop = []) :
    ¬((draft.last? source).any isWordCharacter = true ∧
      (source[stop]?).any isWordCharacter = true) := by
  intro words
  unfold gapFor at empty
  split at empty
  · simp [words] at empty
  · contradiction

/-- A space stands only after a word. -/
theorem last?_word_of_gapFor_eq_space {source : Array Char} {draft : Draft} {stop : Nat}
    (space : gapFor source draft stop = [' ']) :
    (draft.last? source).any isWordCharacter = true := by
  have breaks := lineBreaks_eq_replicate source draft.copied stop
  unfold gapFor at space
  split at space
  · split at space
    · rename_i words
      exact (Bool.and_eq_true_iff.mp words).1
    · contradiction
  · rw [breaks] at space
    have listed : ' ' ∈ List.replicate ((slice source draft.copied stop).count '\n') '\n' := by
      simp [space]
    exact absurd (List.eq_of_mem_replicate listed) (by decide)

/-- Pieces without text do not hide the last character of a kept piece. -/
theorem last?_of_silent (source : Array Char) {draft : Draft} {start stop : Nat}
    {between older : List Piece} (split : draft.pieces = between ++ .kept start stop :: older)
    (silent : ∀ piece ∈ between, piece = .generated [])
    (present : (slice source start stop) ≠ []) :
    draft.last? source = (slice source start stop).getLast? := by
  have skipped : between.findSome? (fun piece => (piece.characters source).getLast?) = none := by
    rw [List.findSome?_eq_none_iff]
    intro piece member
    rw [silent piece member]
    rfl
  rw [last?, split, List.findSome?_append, skipped, Option.none_or, List.findSome?_cons]
  simp only [Piece.characters]
  rw [List.getLast?_eq_some_getLast present]

/-! ## The text of a draft -/

section Text

variable (source : Array Char) (draft : Draft)

@[simp] theorem characters_write (text : List Char) :
    (draft.write text).characters source = draft.characters source ++ text := by
  simp [characters, write, Piece.characters]

@[simp] theorem characters_dropTo (offset : Nat) :
    (draft.dropTo offset).characters source = draft.characters source :=
  rfl

theorem characters_keepTo (offset : Nat) :
    (draft.keepTo offset).characters source =
      draft.characters source ++ slice source draft.copied offset := by
  unfold keepTo
  split
  case isTrue => simp [characters, Piece.characters]
  case isFalse ended =>
    have nothing : slice source draft.copied offset = [] := by
      rw [slice_eq, List.drop_eq_nil_iff, List.length_take]
      omega
    rw [nothing, List.append_nil]

theorem last?_eq_getLast? : draft.last? source = (draft.characters source).getLast? := by
  obtain ⟨pieces, copied⟩ := draft
  induction pieces with
  | nil => rfl
  | cons piece older inductionHypothesis =>
    have text : characters source ⟨piece :: older, copied⟩ =
        characters source ⟨older, copied⟩ ++ piece.characters source := by
      simp [characters]
    rw [text, List.getLast?_append, ← inductionHypothesis]
    simp only [last?, List.findSome?_cons]
    cases (piece.characters source).getLast? <;> rfl

end Text

/-- A gap depends on the line breaks that it keeps and on what stands next to it. -/
theorem gapFor_congr {source other : Array Char} {draft image : Draft} {stop otherStop : Nat}
    (breaks : lineBreaks other image.copied otherStop = lineBreaks source draft.copied stop)
    (last : (image.last? other).any isWordCharacter = (draft.last? source).any isWordCharacter)
    (next : (other[otherStop]?).any isWordCharacter = (source[stop]?).any isWordCharacter) :
    gapFor other image otherStop = gapFor source draft stop := by
  unfold gapFor
  rw [breaks, last, next]

/-! ## What a draft has written stays -/

section Later

variable (source : Array Char) (draft : Draft)

theorem applyAll_append_cons (before : List Edit) (edit : Edit) (after : List Edit) :
    draft.applyAll source (before ++ edit :: after) =
      ((draft.applyAll source before).apply source edit).applyAll source after := by
  simp only [applyAll, List.foldl_append, List.foldl_cons]

theorem suffix_keepTo (offset : Nat) : draft.pieces <:+ (draft.keepTo offset).pieces := by
  unfold keepTo
  split
  · exact List.suffix_cons _ _
  · exact List.suffix_refl _

theorem suffix_applyAll (edits : List Edit) :
    draft.pieces <:+ (draft.applyAll source edits).pieces := by
  induction edits generalizing draft with
  | nil => exact List.suffix_refl _
  | cons edit edits inductionHypothesis =>
    refine List.IsSuffix.trans ?_ (inductionHypothesis (draft.apply source edit))
    cases edit with
    | erase start finish =>
      rw [apply]
      split
      · exact List.suffix_refl _
      · exact (draft.suffix_keepTo start).trans (List.suffix_cons _ _)
    | replace start =>
      exact ((draft.suffix_keepTo start).trans (List.suffix_cons _ _)).trans (List.suffix_cons _ _)
    | insert offset => exact (draft.suffix_keepTo offset).trans (List.suffix_cons _ _)

theorem prefix_applyAll (edits : List Edit) :
    draft.characters source <+: (draft.applyAll source edits).characters source := by
  obtain ⟨newer, stays⟩ := draft.suffix_applyAll source edits
  simp only [characters, ← stays, List.reverse_append, List.flatMap_append, List.prefix_append]

end Later

/-! ## What a woven draft keeps -/

namespace Woven

variable {source : Array Char} {Insertable : List Char → Prop} {draft : Draft}

/-- The draft has as many line breaks as the source that it stands for. -/
theorem count_newline (woven : Woven source Insertable draft)
    (selfContained : ∀ text, Insertable text → '\n' ∉ text) :
    (draft.characters source).count '\n' =
      (source.toList.take draft.copied).count '\n' := by
  induction woven with
  | empty => simp [Draft.empty, characters]
  | @keep draft offset woven later inside inductionHypothesis =>
    rw [← take_append_slice (Nat.le_of_lt later)]
    simp_all [characters, Piece.characters]
  | @drop draft stop woven later inside inductionHypothesis =>
    rw [← take_append_slice (Nat.le_of_lt later), List.count_append, ← inductionHypothesis,
      ← count_gapFor]
    simp [characters, Piece.characters]
  | @insert draft text woven insertable inductionHypothesis =>
    simp_all [characters, Piece.characters, List.count_eq_zero]

/-- Where nothing was written after a kept piece, a dropped span does not join words. -/
theorem not_word_of_empty_gap {start stop : Nat} {between older : List Piece}
    (woven : Woven source Insertable draft)
    (nonempty : ∀ text, Insertable text → text ≠ [])
    (split : draft.pieces = between ++ .kept start stop :: older)
    (silent : ∀ piece ∈ between, piece = .generated [])
    (dropped : stop < draft.copied)
    (word : ((slice source start stop).getLast?).any isWordCharacter = true) :
    (source[draft.copied]?).any isWordCharacter = false := by
  cases woven with
  | empty => simp [Draft.empty] at split
  | keep woven later inside =>
    cases between with
    | nil =>
      obtain ⟨_, rfl⟩ := Piece.kept.inj (List.cons.inj split).1
      exact absurd dropped (Nat.lt_irrefl _)
    | cons piece between => simp_all
  | @drop draft dropStop woven later inside =>
    cases between with
    | nil => simp at split
    | cons piece between =>
      obtain ⟨rfl, piecesBefore⟩ := List.cons.inj split
      have present : slice source start stop ≠ [] := fun empty => by simp [empty] at word
      have last := last?_of_silent source piecesBefore
        (fun piece member => silent piece (List.mem_cons_of_mem _ member)) present
      have empty := Piece.generated.inj (silent _ List.mem_cons_self)
      have joins := not_word_of_gapFor_eq_nil empty
      rw [last] at joins
      exact Bool.eq_false_iff.mpr fun first => joins ⟨word, first⟩
  | insert woven insertable =>
    cases between with
    | nil => simp at split
    | cons piece between => simp_all

/-- Generated text does not end with a word. -/
theorem last?_not_word {text : List Char} {between older : List Piece}
    (woven : Woven source Insertable draft)
    (selfContained : ∀ text, Insertable text → text.getLast?.any isWordCharacter = false)
    (generated : ∀ piece ∈ between, ∃ text, piece = .generated text)
    (split : draft.pieces = between ++ .generated text :: older) (present : text ≠ []) :
    (draft.last? source).any isWordCharacter = false := by
  have ends : ∀ {text : List Char} {rest : List Piece} {copied : Nat},
      Woven source Insertable ⟨.generated text :: rest, copied⟩ →
        text.getLast?.any isWordCharacter = false := by
    intro text rest copied woven
    cases woven with
    | insert _ insertable => exact selfContained _ insertable
    | @drop draft =>
      rcases gapFor_shape source draft copied with breaks | space
      · cases last : (gapFor source draft copied).getLast? with
        | none => rfl
        | some character =>
          rw [breaks character (List.mem_of_getLast? last)]
          decide
      · rw [space]
        decide
  obtain ⟨pieces, copied⟩ := draft
  obtain rfl := split
  induction between generalizing copied with
  | nil =>
    have last := ends woven
    rw [List.getLast?_eq_some_getLast present] at last
    simpa [last?, Piece.characters, List.getLast?_eq_some_getLast present] using last
  | cons piece between inductionHypothesis =>
    obtain ⟨first, rfl⟩ := generated piece List.mem_cons_self
    obtain ⟨before, _, wovenRest⟩ := woven.of_cons
    have rest := inductionHypothesis
      (fun piece member => generated piece (List.mem_cons_of_mem _ member)) before wovenRest
    cases first with
    | nil => exact rest
    | cons head tail =>
      have last := ends woven
      rw [List.getLast?_eq_some_getLast (by simp)] at last
      simpa [last?, Piece.characters, List.getLast?_eq_some_getLast] using last

/-- Between two generated spaces something is kept. -/
theorem not_two_spaces {copied : Nat} {between older : List Piece}
    (woven : Woven source Insertable
      ⟨.generated [' '] :: between ++ .generated [' '] :: older, copied⟩)
    (selfContained : ∀ text, Insertable text → text.getLast?.any isWordCharacter = false)
    (notSpace : ¬Insertable [' '])
    (generated : ∀ piece ∈ between, ∃ text, piece = .generated text) : False := by
  generalize shape : Piece.generated [' '] :: between ++ .generated [' '] :: older = pieces
    at woven
  cases woven with
  | empty => simp at shape
  | keep => simp at shape
  | @drop draft stop woven later inside =>
    obtain ⟨space, split⟩ := List.cons.inj shape
    have word := last?_word_of_gapFor_eq_space (Piece.generated.inj space).symm
    have notWord := woven.last?_not_word selfContained generated split.symm (by simp)
    simp [word] at notWord
  | @insert draft text woven insertable =>
    obtain ⟨space, _⟩ := List.cons.inj shape
    exact notSpace (Piece.generated.inj space ▸ insertable)

end Woven

end Draft

theorem editedText_eq (source : Array Char) (edits : List Edit) :
    editedText source edits =
      ((Draft.empty.applyAll source edits).keepTo source.size).characters source :=
  rfl

end Playground

import Playground.Proofs.Erasure.Draft
import Playground.Proofs.Erasure.Relocation.Tokens

/-!
# Drafts that stand for one another

Edits that stand for one another leave texts that correspond, if the slices between offsets that
stand for one another do. `Transfer` says what is needed of the two programs for that; a draft of
the one and a draft of the other then run in step.
-/

namespace Playground

/-- How the text of one program carries over to another: offsets, the slices between them, and
what drafts have written. -/
structure Transfer (source target : Array Char) (Offset : Nat → Nat → Prop)
    (Same Text : List Char → List Char → Prop) : Prop where
  order : ∀ {first second other another}, Offset first other → Offset second another →
    (first ≤ second ↔ other ≤ another)
  slices : ∀ {start stop otherStart otherStop}, Offset start otherStart → Offset stop otherStop →
    Same (slice source start stop) (slice target otherStart otherStop)
  lineFeeds : ∀ {text other}, Same text other →
    other.filter (· == '\n') = text.filter (· == '\n')
  plain : ∀ {text}, '\r' ∉ text → Same text text
  next : ∀ {stop otherStop}, Offset stop otherStop →
    (target[otherStop]?).any isWordCharacter = (source[stop]?).any isWordCharacter
  append : ∀ {text other further another}, Text text other → Same further another →
    Text (text ++ further) (other ++ another)
  last : ∀ {text other}, Text text other →
    other.getLast?.any isWordCharacter = text.getLast?.any isWordCharacter

/-- Drafts that have come equally far, and what they have written. -/
structure DraftAlike (source target : Array Char) (Offset : Nat → Nat → Prop)
    (Text : List Char → List Char → Prop) (draft other : Draft) : Prop where
  copied : Offset draft.copied other.copied
  text : Text (draft.characters source) (other.characters target)

namespace DraftAlike

variable {source target : Array Char} {Offset : Nat → Nat → Prop}
  {Same Text : List Char → List Char → Prop} {draft other : Draft}
  {offset otherOffset : Nat} (transfer : Transfer source target Offset Same Text)
  (alike : DraftAlike source target Offset Text draft other)

include transfer alike

theorem copied_max (offsets : Offset offset otherOffset) :
    Offset (max draft.copied offset) (max other.copied otherOffset) := by
  have order := transfer.order alike.copied offsets
  rcases Nat.le_total draft.copied offset with ordered | reversed
  · rwa [Nat.max_eq_right ordered, Nat.max_eq_right (order.mp ordered)]
  · have reversedImage := (transfer.order offsets alike.copied).mp reversed
    rw [Nat.max_eq_left reversed, Nat.max_eq_left reversedImage]
    exact alike.copied

theorem keepTo (offsets : Offset offset otherOffset) :
    DraftAlike source target Offset Text (draft.keepTo offset) (other.keepTo otherOffset) where
  copied := by
    rw [Draft.copied_keepTo, Draft.copied_keepTo]
    exact alike.copied_max transfer offsets
  text := by
    rw [Draft.characters_keepTo, Draft.characters_keepTo]
    exact transfer.append alike.text (transfer.slices alike.copied offsets)

theorem dropTo (offsets : Offset offset otherOffset) :
    DraftAlike source target Offset Text (draft.dropTo offset) (other.dropTo otherOffset) where
  copied := alike.copied_max transfer offsets
  text := alike.text

theorem write {text image : List Char} (same : Same text image) :
    DraftAlike source target Offset Text (draft.write text) (other.write image) where
  copied := alike.copied
  text := by
    rw [Draft.characters_write, Draft.characters_write]
    exact transfer.append alike.text same

/-- Both programs keep the same line feeds. -/
theorem lineBreaks (offsets : Offset offset otherOffset) :
    Draft.lineBreaks target other.copied otherOffset =
      Draft.lineBreaks source draft.copied offset :=
  transfer.lineFeeds (transfer.slices alike.copied offsets)

theorem gapFor (offsets : Offset offset otherOffset) :
    Draft.gapFor target other otherOffset = Draft.gapFor source draft offset := by
  refine Draft.gapFor_congr (alike.lineBreaks transfer offsets) ?_ (transfer.next offsets)
  rw [Draft.last?_eq_getLast?, Draft.last?_eq_getLast?, transfer.last alike.text]

theorem apply {edit image : Edit}
    (same : edit.StandsFor Offset (fun text other => Same text.toList other.toList) image) :
    DraftAlike source target Offset Text (draft.apply source edit) (other.apply target image) := by
  cases same with
  | insert offsets text => exact (alike.keepTo transfer offsets).write transfer text
  | @replace start stop _ _ _ _ starts stops text =>
    have before := alike.keepTo transfer starts
    have breaks : '\r' ∉ Draft.lineBreaks source (draft.keepTo start).copied stop := fun member =>
      absurd (List.mem_filter.mp member).2 (by decide)
    simp only [Draft.apply, before.lineBreaks transfer stops]
    exact ((before.write transfer text).write transfer (transfer.plain breaks)).dropTo transfer stops
  | @erase start stop _ _ starts stops =>
    have before := alike.keepTo transfer starts
    have passed := transfer.order stops before.copied
    rw [Draft.copied_keepTo, Draft.copied_keepTo] at passed
    simp only [Draft.apply, Nat.max_comm _ (Draft.copied _), passed]
    split
    case isTrue => exact alike
    case isFalse =>
      have gap : '\r' ∉ Draft.gapFor source (draft.keepTo start) stop := by
        intro member
        rcases Draft.gapFor_shape source (draft.keepTo start) stop with breaks | space
        · exact absurd (breaks _ member) (by decide)
        · rw [space] at member
          exact absurd member (by decide)
      rw [before.gapFor transfer stops]
      exact (before.write transfer (transfer.plain gap)).dropTo transfer stops

theorem applyAll {edits images : List Edit}
    (same : List.Forall₂
      (Edit.StandsFor Offset fun text other => Same text.toList other.toList) edits images) :
    DraftAlike source target Offset Text (draft.applyAll source edits)
      (other.applyAll target images) := by
  induction same generalizing draft other with
  | nil => exact alike
  | cons first _ inductionHypothesis => exact inductionHypothesis (alike.apply transfer first)

end DraftAlike

end Playground

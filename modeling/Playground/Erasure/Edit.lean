import Playground.Erasure.Token

/-!
# Edits and the text they leave

Walking a program yields a list of edits in the order they are found. Applying them
keeps everything between the edits: the result is a list of pieces, each a slice kept
from the source or generated text. Text that an earlier edit has passed is never
written again, so edits may overlap and the kept slices still come in source order.
-/

namespace Playground

/-- A change to the source, by character offsets. -/
inductive Edit where
  /-- Drops a span and keeps its line breaks. -/
  | erase (start stop : Nat)
  /-- Writes new text for a span and keeps its line breaks after it. -/
  | replace (start stop : Nat) (text : String)
  /-- Writes new text between two characters. -/
  | insert (offset : Nat) (text : String)
  deriving DecidableEq, Repr

/-- A part of the result. -/
inductive Piece where
  /-- The source between two offsets. -/
  | kept (start stop : Nat)
  | generated (text : List Char)
  deriving DecidableEq, Repr

/-- The characters of a source between two offsets. -/
def slice (source : Array Char) (start stop : Nat) : List Char :=
  (source.extract start stop).toList

/-- The characters of a piece. -/
def Piece.characters (source : Array Char) : Piece → List Char
  | .kept start stop => slice source start stop
  | .generated text => text

/-- A result under construction, its latest piece first. Source before `copied` has been
kept or dropped for good. -/
structure Draft where
  pieces : List Piece
  copied : Nat
  deriving DecidableEq, Repr

namespace Draft

/-- Nothing written yet. -/
def empty : Draft := ⟨[], 0⟩

/-- The characters written so far. -/
def characters (source : Array Char) (draft : Draft) : List Char :=
  draft.pieces.reverse.flatMap (Piece.characters source)

/-- The last character written so far. -/
def last? (source : Array Char) (draft : Draft) : Option Char :=
  draft.pieces.findSome? fun piece => (piece.characters source).getLast?

/-- Keeps the source up to an offset. -/
def keepTo (draft : Draft) (offset : Nat) : Draft :=
  if draft.copied < offset then ⟨.kept draft.copied offset :: draft.pieces, offset⟩ else draft

/-- Writes generated text. -/
def write (draft : Draft) (text : List Char) : Draft :=
  { draft with pieces := .generated text :: draft.pieces }

/-- Drops the source up to an offset. -/
def dropTo (draft : Draft) (offset : Nat) : Draft :=
  { draft with copied := max draft.copied offset }

/-- The line breaks between two offsets. -/
def lineBreaks (source : Array Char) (start stop : Nat) : List Char :=
  (slice source start stop).filter (· == '\n')

/-- What is written for a dropped span: its line breaks, or a space where two words would
otherwise run together. -/
def gapFor (source : Array Char) (draft : Draft) (stop : Nat) : List Char :=
  match lineBreaks source draft.copied stop with
  | [] =>
    if (draft.last? source).any isWordCharacter && (source[stop]?).any isWordCharacter then [' ']
    else []
  | breaks => breaks

/-- Applies one edit. -/
def apply (source : Array Char) (draft : Draft) : Edit → Draft
  | .erase start stop =>
    if stop ≤ max start draft.copied then draft
    else
      let before := draft.keepTo start
      (before.write (gapFor source before stop)).dropTo stop
  | .replace start stop text =>
    let before := draft.keepTo start
    ((before.write text.toList).write (lineBreaks source before.copied stop)).dropTo stop
  | .insert offset text => (draft.keepTo offset).write text.toList

/-- Applies edits in order. -/
def applyAll (source : Array Char) (draft : Draft) (edits : List Edit) : Draft :=
  edits.foldl (apply source) draft

end Draft

/-- The pieces of a source after its edits, in order. -/
def editedPieces (source : Array Char) (edits : List Edit) : List Piece :=
  ((Draft.empty.applyAll source edits).keepTo source.size).pieces.reverse

/-- The text of a source after its edits. -/
def editedText (source : Array Char) (edits : List Edit) : List Char :=
  (editedPieces source edits).flatMap (Piece.characters source)

end Playground

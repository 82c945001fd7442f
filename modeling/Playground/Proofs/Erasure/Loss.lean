import Playground.Proofs.Erasure.BracketFate
import Playground.Proofs.Erasure.Tiling

/-!
# What an erasure loses

A draft that only keeps and drops has no visible character that its source does not have, and
fewer if it drops one (`countP_lt_of_drops`). Every token begins with a visible character, so a
text that has lost a token is another text (`editedText_ne_of_erase`).
-/

namespace Playground

/-- Whether a character is no blank. -/
def isVisible (character : Char) : Bool :=
  !Text.isBlank character

namespace Draft

variable {source : Array Char} {draft : Draft} {offset : Nat}

/-- Nothing visible is written for a dropped span. -/
theorem countP_gapFor (stop : Nat) : (gapFor source draft stop).countP isVisible = 0 := by
  have newline : isVisible '\n' = false := by decide +kernel
  have space : isVisible ' ' = false := by decide +kernel
  rw [List.countP_eq_zero]
  intro character member
  rcases gapFor_shape source draft stop with breaks | single
  · simp [breaks character member, newline]
  · rw [single, List.mem_singleton] at member
    simp [member, space]

/-- A visible character between two offsets is counted. -/
theorem countP_slice_pos {start stop : Nat} {character : Char}
    (found : source[offset]? = some character) (visible : isVisible character = true)
    (after : start ≤ offset) (before : offset < stop) :
    0 < (slice source start stop).countP isVisible := by
  rw [List.countP_pos_iff]
  refine ⟨character, List.mem_of_getElem? (i := offset - start) ?_, visible⟩
  rw [slice_eq, List.getElem?_drop, Nat.add_sub_cancel' after, List.getElem?_take_of_lt before,
    Array.getElem?_toList, found]

namespace Woven

/-- A draft without insertions has no more visible characters than it stands for. -/
theorem countP_le (woven : Woven source (fun _ => False) draft) :
    (draft.characters source).countP isVisible ≤
      (source.toList.take draft.copied).countP isVisible := by
  induction woven with
  | empty => simp [Draft.empty, characters]
  | @keep draft stop woven later inside inductionHypothesis =>
    rw [← take_append_slice (Nat.le_of_lt later), List.countP_append]
    simpa [characters, Piece.characters] using inductionHypothesis
  | @drop draft stop woven later inside inductionHypothesis =>
    rw [← take_append_slice (Nat.le_of_lt later), List.countP_append]
    have gap := @countP_gapFor source draft stop
    simp only [characters, List.reverse_cons, List.flatMap_append, List.flatMap_singleton,
      Piece.characters, List.countP_append, gap] at inductionHypothesis ⊢
    omega
  | insert _ impossible => exact impossible.elim

/-- A draft without insertions that drops a visible character has fewer than it stands for. -/
theorem countP_lt_of_drops (woven : Woven source (fun _ => False) draft) {character : Char}
    (found : source[offset]? = some character) (visible : isVisible character = true)
    (drops : draft.Drops offset) :
    (draft.characters source).countP isVisible <
      (source.toList.take draft.copied).countP isVisible := by
  obtain ⟨passed, unkept⟩ := drops
  induction woven with
  | empty => contradiction
  | @keep draft stop woven later inside inductionHypothesis =>
    have earlier : offset < draft.copied := by
      by_contra reached
      exact unkept ⟨_, _, List.mem_cons_self, Nat.le_of_not_lt reached, passed⟩
    have before := inductionHypothesis earlier fun ⟨start, stop, member, within⟩ =>
      unkept ⟨start, stop, List.mem_cons_of_mem _ member, within⟩
    rw [← take_append_slice (Nat.le_of_lt later), List.countP_append]
    simpa [characters, Piece.characters] using before
  | @drop draft stop woven later inside inductionHypothesis =>
    rw [← take_append_slice (Nat.le_of_lt later), List.countP_append]
    have gap := @countP_gapFor source draft stop
    simp only [characters, List.reverse_cons, List.flatMap_append, List.flatMap_singleton,
      Piece.characters, List.countP_append, gap] at inductionHypothesis ⊢
    rcases Nat.lt_or_ge offset draft.copied with earlier | now
    · have before := inductionHypothesis earlier fun ⟨start, stop, member, within⟩ =>
        unkept ⟨start, stop, List.mem_cons_of_mem _ member, within⟩
      omega
    · have lost : 0 < (slice source draft.copied stop).countP isVisible :=
        countP_slice_pos found visible now passed
      have before := woven.countP_le
      simp only [characters] at before
      omega
  | insert _ impossible => exact impossible.elim

end Woven

end Draft

/-- Erasures that begin with one of a visible character leave another text. -/
theorem editedText_ne_of_erase {source : Array Char} {start finish offset : Nat}
    {edits : List Edit} {character : Char} (found : source[offset]? = some character)
    (visible : isVisible character = true) (after : start ≤ offset) (before : offset < finish)
    (fit : ∀ edit ∈ .erase start finish :: edits, edit.Fits source fun _ => False) :
    editedText source (.erase start finish :: edits) ≠ source.toList := by
  have woven := Draft.Woven.empty.applyAll fit
  have further : max start Draft.empty.copied < finish := by
    simp only [Draft.empty]
    omega
  have gone : (Draft.empty.apply source (.erase start finish)).Drops offset := by
    refine ⟨by rwa [Draft.copied_apply_erase further], ?_⟩
    rw [Draft.keeps_apply_erase further]
    rintro (⟨_, _, member, _⟩ | ⟨_, kept⟩)
    · contradiction
    · omega
  have lost : (Draft.empty.applyAll source (.erase start finish :: edits)).Drops offset :=
    (Draft.drops_applyAll gone.1 edits).mpr gone
  have complete := woven.keepTo (Nat.le_refl _)
  have fewer := complete.countP_lt_of_drops found visible (by
    obtain ⟨passed, unkept⟩ := lost
    refine ⟨by rw [Draft.copied_keepTo]; exact Nat.lt_of_lt_of_le passed (Nat.le_max_left ..), ?_⟩
    rw [Draft.keeps_keepTo]
    rintro (kept | ⟨reached, _⟩)
    · exact unkept kept
    · exact absurd passed (Nat.not_lt_of_ge reached))
  rw [Draft.copied_keepTo, Nat.max_eq_right woven.copied_le, ← Array.length_toList,
    List.take_length] at fewer
  rw [editedText_eq]
  exact fun same => Nat.lt_irrefl _ (same ▸ fewer)

/-- Every token begins with a visible character. -/
theorem TokenStream.exists_visible_startOf {source : List Char} {stream : TokenStream}
    (read : ofSource source = .ok stream) {index : Nat} (inside : index < stream.size) :
    stream.startOf index < stream.stopOf index ∧
      ∃ character, stream.source[stream.startOf index]? = some character ∧
        isVisible character = true := by
  have placed := placed_of_ofSource read
  obtain ⟨tokens, partners, tokenized, _, rfl⟩ := ofSource_eq_ok_iff.mp read
  have inside : index < tokens.length := inside
  obtain ⟨token, found⟩ : ∃ token, tokens[index]? = some token :=
    ⟨_, List.getElem?_eq_getElem inside⟩
  have atIndex : TokenStream.get? ⟨source.toArray, tokens.toArray, partners⟩ index = some token := by
    simpa [get?] using found
  have bounds := placed.bounds atIndex
  simp only [startOf, stopOf, atIndex]
  refine ⟨bounds.1, ?_⟩
  obtain ⟨earlier, later, rfl⟩ := List.append_of_mem (List.mem_of_getElem? found)
  obtain ⟨passed, rest, joined, _, tiled⟩ := (tiled_of_tokensFrom tokenized).split
  cases tiled with
  | @token _ gap _ _ behind _ _ begins start _ _ =>
    have dropped : source.drop token.start = token.text.toList ++ behind := by
      rw [joined, start, Nat.zero_add, ← List.append_assoc, ← List.length_append, List.drop_left]
    have head : source[token.start]? = (token.text.toList ++ behind).head? := by
      rw [← dropped, List.head?_drop]
    simp only [List.getElem?_toArray, head]
    cases shape : (token.text.toList ++ behind).head? with
    | none =>
      have long := bounds.2.1
      rw [List.head?_eq_none_iff, ← dropped, List.drop_eq_nil_iff] at shape
      simp only [List.size_toArray] at long
      have positive := bounds.1
      omega
    | some character =>
      refine ⟨character, rfl, ?_⟩
      simp [isVisible, (begins.notBlank character shape).1]

end Playground

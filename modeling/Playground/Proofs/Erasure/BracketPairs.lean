import Playground.Proofs.Erasure.BracketFate
import Playground.Proofs.Erasure.Pairing.Walk
import Playground.Proofs.Erasure.Provenance

/-!
# Brackets survive or vanish in pairs

In a regular program without an enumeration brackets are kept in pairs, except where a clause
that is erased is searched for beyond the block it stands in. An ambient declaration that ends
its block without a semicolon is such a clause (`eraseTypes_splits_block`): its closing brace is
erased with it.
-/

namespace Playground

namespace TokenStream

variable {stream : TokenStream}

/-- The program has nothing of the syntax that the walk takes for granted. -/
def IsPlain (stream : TokenStream) : Prop :=
  (∀ text ∈ ["import", "export", "catch", "class", "super"], ¬stream.HasWord text) ∧
    ∀ index < stream.size, stream.kind? index ≠ some .templateHead

instance (stream : TokenStream) : Decidable stream.IsPlain :=
  inferInstanceAs (Decidable (_ ∧ _))

theorem IsPlain.regular (placed : stream.Placed) (plain : stream.IsPlain) : stream.Regular := by
  have unused : ∀ {index text}, text ∈ ["import", "export", "catch", "class", "super"] →
      ¬stream.is index text = true := fun {index text} listed found =>
    plain.1 text listed (placed.hasWord_of_is found
      ((show ∀ text ∈ ["import", "export", "catch", "class", "super"],
        text.toList.head?.any startsWord = true by decide) text listed))
  exact {
    exports := fun word => absurd word.1 (unused (by simp))
    specifiers := fun list => by
      cases list with
      | imported word => exact absurd word.1 (unused (by simp))
      | exported word => exact absurd word.1 (unused (by simp))
    imports := fun word => absurd word.1 (unused (by simp))
    catches := fun word => absurd word.1 (unused (by simp))
    classes := fun word => absurd word.1 (unused (by simp))
    constructors := fun {opening close _ _} _ _ call => by
      unfold superCallEnd? at call
      extract_lets found at call
      split at call
      · rename_i before
        have super := (Bool.and_eq_true_iff.mp (found_of_seek_lt before)).1
        exact absurd super (unused (by simp))
      · cases call
    templates := fun {head _} kind => absurd kind (plain.2 head (lt_size_of_kind? kind)) }

end TokenStream

/-- The output of a regular program without an enumeration keeps or drops both brackets of
every pair, exactly if no searched clause that is erased takes the closing bracket of a pair
that opens before it. -/
theorem eraseTypes_keepsPairs_iff {source output : String} {stream : TokenStream}
    (read : TokenStream.ofSource source.toList = .ok stream) (regular : stream.Regular)
    (noEnum : ¬stream.HasWord "enum") (erased : eraseTypes source = .ok output) :
    ∃ edits, stream.edits = .ok edits ∧
      output.toList = (editedPieces stream.source edits).flatMap
        (Piece.characters stream.source) ∧
      (stream.KeepsPairs (editedPieces stream.source edits) ↔
        ∀ first stop, stream.SearchedClause first stop → stream.Erases edits first stop →
          ¬stream.TakesCloser first stop) := by
  obtain ⟨edits, found, written⟩ := (eraseTypes_eq_ok_iff read).mp erased
  have nested := TokenStream.nested_of_ofSource read
  have placed := TokenStream.placed_of_ofSource read
  refine ⟨edits, found, written, ?_⟩
  obtain ⟨whole, walked, result⟩ := bind_eq_ok_iff.mp found
  cases result
  exact TokenStream.keepsPairs_iff_of_outcome nested placed
    (TokenStream.outcome_of_walkFrom nested placed regular noEnum (TokenStream.contained_zero _)
      (.refl 0) walked)

/-- An ambient declaration that has its semicolon ends inside its block. -/
theorem eraseTypes_keepsPairs_of_semicolon :
    ∃ stream edits, TokenStream.ofSource
        "\x7b declare const x: T; f(x as T) \x7d".toList = .ok stream ∧
      stream.Regular ∧ ¬stream.HasWord "enum" ∧
      eraseTypes "\x7b declare const x: T; f(x as T) \x7d" = .ok "\x7b  f(x) \x7d" ∧
      stream.edits = .ok edits ∧ stream.KeepsPairs (editedPieces stream.source edits) ∧
      (stream.KeepsPairs (editedPieces stream.source edits) ↔
        ∀ first stop, stream.SearchedClause first stop → stream.Erases edits first stop →
          ¬stream.TakesCloser first stop) := by
  have erased : eraseTypes "\x7b declare const x: T; f(x as T) \x7d" = .ok "\x7b  f(x) \x7d" := by
    decide +kernel
  obtain ⟨stream, read, plain, noEnum, keeps⟩ := exists_ok_of_any
    (fun stream : TokenStream => stream.IsPlain ∧ ¬stream.HasWord "enum" ∧
      (stream.edits.toOption.any fun edits =>
        decide (stream.KeepsPairs (editedPieces stream.source edits))) = true)
    (show ((TokenStream.ofSource "\x7b declare const x: T; f(x as T) \x7d".toList).toOption.any
      fun stream => decide _) = true by decide +kernel)
  have regular := plain.regular (TokenStream.placed_of_ofSource read)
  obtain ⟨edits, found, _, paired⟩ := eraseTypes_keepsPairs_iff read regular noEnum erased
  obtain ⟨same, foundSame, kept⟩ := exists_ok_of_any _ keeps
  rw [found] at foundSame
  cases foundSame
  exact ⟨stream, edits, read, regular, noEnum, erased, found, kept, paired⟩

/-- An ambient declaration without a semicolon takes the closing brace of its block, and the
opening brace is kept. -/
theorem eraseTypes_splits_block :
    ∃ stream edits, TokenStream.ofSource
        "\x7b declare const x: number \x7d\nfoo();".toList = .ok stream ∧
      stream.Regular ∧ ¬stream.HasWord "enum" ∧
      eraseTypes "\x7b declare const x: number \x7d\nfoo();" = .ok "\x7b \nfoo();" ∧
      stream.edits = .ok edits ∧ ¬stream.KeepsPairs (editedPieces stream.source edits) := by
  obtain ⟨stream, read, plain, noEnum, splits⟩ := exists_ok_of_any
    (fun stream : TokenStream => stream.IsPlain ∧ ¬stream.HasWord "enum" ∧
      (stream.edits.toOption.any fun edits =>
        decide ¬stream.KeepsPairs (editedPieces stream.source edits)) = true)
    (show ((TokenStream.ofSource
      "\x7b declare const x: number \x7d\nfoo();".toList).toOption.any
      fun stream => decide _) = true by decide +kernel)
  obtain ⟨edits, found, split⟩ := exists_ok_of_any _ splits
  exact ⟨stream, edits, read, plain.regular (TokenStream.placed_of_ofSource read), noEnum,
    by decide +kernel, found, split⟩

end Playground

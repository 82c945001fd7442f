import Playground.Erasure.Program
import Playground.Proofs.Erasure.Justification.ClassBody

/-!
# Justified edits of the walk

Every edit of a program is called for by its tokens (`justified_of_edits`).
-/

namespace Playground.TokenStream

variable {stream : TokenStream}

/-! ## Expressions and statements -/

theorem allJustified_of_catchHead {keyword : Nat} {progress : Progress}
    (found : stream.catchHead keyword = .ok progress) : stream.AllJustified progress.edits := by
  simp only [catchHead, bind_eq_ok_iff] at found
  obtain ⟨close, _, target, _, annotation, annotated, result⟩ := found
  cases result
  exact allJustified_of_annotation annotated

theorem allJustified_angle (index : Nat) : stream.AllJustified (stream.angle index).edits := by
  unfold angle
  dsimp only
  split
  · unfold callArguments?
    split
    · cases arguments : (stream.typeArgumentsEnd? index).filter stream.startsCall with
      | none => simp
      | some stop =>
        have angle := angle_of_typeArguments (Option.filter_eq_some_iff.mp arguments).1
        simpa using Justified.generics angle
    · simp
  · unfold arrowParameters?
    cases parameters : (stream.typeParametersEnd? index).filter stream.opensArrowHead with
    | none => simp
    | some stop =>
      have angle := angle_of_typeParameters (Option.filter_eq_some_iff.mp parameters).1
      simpa using Justified.arrowGenerics angle

theorem allJustified_nonNullMark {index : Nat} (mark : stream.is index "!" = true) :
    stream.AllJustified (stream.nonNullMark index).edits := by
  unfold nonNullMark
  split
  · simpa using Justified.marker (.inr mark)
  · simp

theorem allJustified_typeAssertion {keyword : Nat}
    (operator : stream.is keyword "as" = true ∨ stream.is keyword "satisfies" = true) :
    stream.AllJustified (stream.typeAssertion keyword).edits := by
  unfold typeAssertion
  split
  · simpa using Justified.assertion operator
  split
  · simpa using Justified.assertion operator
  · simp

theorem allJustified_of_interfaceDeclaration {keyword : Nat} {progress : Progress}
    (declared : stream.Justified (stream.declarationErased keyword progress.next))
    (found : stream.interfaceDeclaration keyword = .ok progress) :
    stream.AllJustified progress.edits := by
  simp only [interfaceDeclaration, bind_eq_ok_iff] at found
  obtain ⟨generics, _, opening, _, rest⟩ := found
  split at rest
  · obtain ⟨close, _, result⟩ := bind_eq_ok_iff.mp rest
    cases result
    simpa using declared
  · contradiction

theorem allJustified_of_aliasDeclaration {keyword : Nat} {progress : Progress}
    (declared : stream.Justified (stream.declarationErased keyword progress.next))
    (found : stream.aliasDeclaration keyword = .ok progress) :
    stream.AllJustified progress.edits := by
  obtain ⟨generics, _, rest⟩ := bind_eq_ok_iff.mp found
  split at rest
  · obtain ⟨type, _, result⟩ := bind_eq_ok_iff.mp rest
    cases result
    simpa using declared
  · cases rest
    simp

theorem allJustified_of_enumDeclaration {first keyword : Nat} {progress : Progress}
    (mark : stream.is keyword "enum" = true)
    (found : stream.enumDeclaration first keyword = .ok progress) :
    stream.AllJustified progress.edits := by
  unfold enumDeclaration at found
  dsimp only at found
  split at found
  · simp only [bind_eq_ok_iff] at found
    obtain ⟨close, _, body, _, result⟩ := found
    cases result
    simpa using Justified.enumeration mark
  · contradiction

theorem allJustified_erasedSpecifiersFrom (index close : Nat) :
    stream.AllJustified (stream.erasedSpecifiersFrom index close) := by
  fun_induction stream.erasedSpecifiersFrom index close with
  | case1 index inside stop dropped inductionHypothesis =>
    refine allJustified_append.mpr ⟨?_, inductionHypothesis⟩
    unfold dropped
    split
    · rename_i specifier
      simp only [isTypeSpecifier, Bool.and_eq_true] at specifier
      simpa using Justified.typeSpecifier specifier.1.1
    · simp
  | case2 => simp

theorem allJustified_of_erasedSpecifiers {first stop : Nat} {edits : List Edit}
    (found : stream.erasedSpecifiers first stop = .ok edits) : stream.AllJustified edits := by
  unfold erasedSpecifiers at found
  split at found
  · cases found
    simp
  · obtain ⟨close, _, result⟩ := bind_eq_ok_iff.mp found
    cases result
    exact allJustified_erasedSpecifiersFrom _ close

theorem allJustified_of_importDeclaration {keyword : Nat} {progress : Progress}
    (found : stream.importDeclaration keyword = .ok progress) :
    stream.AllJustified progress.edits := by
  unfold importDeclaration at found
  dsimp only at found
  split at found
  · split at found
    case isTrue typeImport =>
      cases found
      simp only [isTypeImport, Bool.and_eq_true] at typeImport
      simpa using Justified.typeClause (.inl typeImport.1)
    case isFalse =>
      obtain ⟨edits, foundEdits, result⟩ := bind_eq_ok_iff.mp found
      cases result
      exact allJustified_of_erasedSpecifiers foundEdits
  · cases found
    simp

theorem allJustified_of_exportDeclaration {keyword : Nat} {progress : Progress}
    (found : stream.exportDeclaration keyword = .ok progress) :
    stream.AllJustified progress.edits := by
  unfold exportDeclaration at found
  dsimp only at found
  split at found
  case isTrue typeExport =>
    obtain ⟨stop, _, result⟩ := bind_eq_ok_iff.mp found
    cases result
    simp only [Bool.and_eq_true] at typeExport
    simpa using Justified.typeClause (.inl typeExport.1)
  split at found
  case isTrue namespaceExport =>
    cases found
    simp only [Bool.and_eq_true] at namespaceExport
    simpa using Justified.typeClause (.inr namespaceExport.1)
  split at found
  · simp only [bind_eq_ok_iff] at found
    obtain ⟨close, _, edits, foundEdits, result⟩ := found
    cases result
    exact allJustified_of_erasedSpecifiers foundEdits
  · cases found
    simp

/-! ## Steps and walks -/

section Walks

variable {walk : Walk} (justifies : walk.Justifies stream)

include justifies

theorem allJustified_of_controlHead {keyword : Nat} {progress : Progress}
    (found : stream.controlHead walk keyword = .ok progress) :
    stream.AllJustified progress.edits := by
  unfold controlHead at found
  extract_lets opening at found
  split at found
  · exact allJustified_of_walkInside justifies found
  · cases found
    simp

theorem allJustified_of_step {index : Nat} {progress : Progress} (nested : stream.Nested)
    (placed : stream.Placed) (advances : walk.Advances)
    (found : stream.step walk index = .ok progress) : stream.AllJustified progress.edits := by
  have declared : ∀ {text}, stream.kind? index = some .word → stream.IsKeyword index text →
      text ∈ ["interface", "type", "declare"] →
        ∀ stop, stream.Justified (stream.declarationErased index stop) :=
    fun kind word listed stop =>
      .declaration kind (List.contains_iff_mem.mpr ((is_iff.mp word.1).2 ▸ listed))
  cases starts_of_step found with
  | word | mark | token => exact allJustified_nil
  | interface kind word _ found =>
    exact allJustified_of_interfaceDeclaration (declared kind word (by simp) _) found
  | typeAlias kind word _ found =>
    exact allJustified_of_aliasDeclaration (declared kind word (by simp) _) found
  | ambient kind word => simpa [ambientDeclaration] using declared kind word (by simp) _
  | abstractClass _ word => simpa using Justified.abstractClass word.1
  | enumeration _ _ mark found => exact allJustified_of_enumDeclaration mark found
  | bindings _ found => exact allJustified_of_variablesFrom justifies found
  | function word found =>
    exact allJustified_of_functionDeclaration justifies nested placed word.1 found
  | classBody word found =>
    exact allJustified_of_classDeclaration justifies nested placed advances word.1 found
  | assertion _ operator => exact allJustified_typeAssertion (operator.imp And.left And.left)
  | importClause _ found => exact allJustified_of_importDeclaration found
  | exportClause _ found => exact allJustified_of_exportDeclaration found
  | catchClause _ found => exact allJustified_of_catchHead found
  | control _ found => exact allJustified_of_controlHead justifies found
  | parenthesis mark found => exact allJustified_of_parenthesis justifies nested placed mark found
  | bracket _ found => exact allJustified_of_walkInside justifies found
  | angle => exact allJustified_angle index
  | nonNullMark mark => exact allJustified_nonNullMark mark
  | @template inside _ walked => exact (justifies walked : stream.AllJustified inside.edits)

end Walks

theorem allJustified_of_walkFrom {first index : Nat} {ending : WalkEnd} {progress : Progress}
    (nested : stream.Nested) (placed : stream.Placed)
    (found : stream.walkFrom first index ending = .ok progress) :
    stream.AllJustified progress.edits := by
  replace found := walkCourse_of_walkFrom nested placed found
  induction found with
  | ended => exact allJustified_nil
  | @step _ _ index _ _ _ _ stepped _ _ partJustified restJustified =>
    have justifies : (stream.walkBehind index).Justifies stream := by
      intro next ending progress walked
      rcases walkFrom_or_still_of_walkBehind walked with ⟨later, walked⟩ | rfl
      · exact partJustified later walked
      · exact allJustified_nil
    have stepJustified := allJustified_of_step justifies nested placed
      (advances_walkBehind nested placed index) stepped
    exact allJustified_append.mpr ⟨stepJustified, restJustified⟩

/-- Every edit of a program is called for by its tokens. -/
theorem justified_of_edits {source : List Char} {edits : List Edit}
    (read : ofSource source = .ok stream) (found : stream.edits = .ok edits) :
    ∀ edit ∈ edits, stream.Justified edit := by
  obtain ⟨whole, walked, result⟩ := bind_eq_ok_iff.mp found
  cases result
  exact allJustified_of_walkFrom (nested_of_ofSource read) (placed_of_ofSource read) walked

end Playground.TokenStream

import Playground.Proofs.Erasure.Pairing.Parts

/-!
# Expressions and declarations leave brackets in pairs

Type syntax in expressions is a balanced span. So is a declaration that vanishes, unless it is
a searched clause.
-/

namespace Playground.TokenStream

variable {stream : TokenStream} {walk : Walk} (sound : walk.Sound stream)

include sound

/-! ## Expressions -/

theorem outcome_of_controlHead {keyword : Nat} {progress : Progress}
    (word : stream.kind? keyword = some .word)
    (found : stream.controlHead walk keyword = .ok progress) :
    stream.Outcome keyword progress.edits progress.next := by
  have neutral : stream.Balanced keyword (keyword + 1) :=
    .neutral sound.nested (isNeutral_of_kind? word (.inl rfl))
  unfold controlHead at found
  extract_lets opening at found
  have passed : stream.Balanced keyword opening := by
    unfold opening
    split
    · rename_i await
      exact neutral.trans
        (.neutral sound.nested (isNeutral_of_is (Bool.and_eq_true_iff.mp await).2 (by decide)))
    · exact neutral
  split at found
  · exact .after passed (outcome_of_walkInside sound found)
  · cases found
    exact .nothing neutral

/-- The walk goes on after the parentheses. Where they are empty, it passes the annotation that
was erased once more. -/
theorem outcome_of_catchHead {keyword : Nat} {progress : Progress}
    (word : stream.IsKeyword keyword "catch")
    (found : stream.catchHead keyword = .ok progress) :
    stream.Outcome keyword progress.edits progress.next := by
  simp only [catchHead, bind_eq_ok_iff] at found
  obtain ⟨close, closes, target, foundTarget, stop, annotated, result⟩ := found
  cases result
  rw [closeOf_eq_ok_iff] at closes
  have before := lt_of_closer?_eq_some closes
  have neutral : stream.Balanced keyword (keyword + 1) :=
    .neutral sound.nested (isNeutral_of_is word.1 (by decide))
  have pair : stream.Balanced keyword (close + 1) := neutral.trans (.pair sound.nested closes)
  have noted := (passes_of_annotated sound.placed annotated).balanced sound.nested
  rcases Nat.lt_or_ge target stop with later | nothing
  case inr =>
    rw [attachedIf, if_neg (Nat.not_lt_of_le nothing)]
    exact .nothing pair
  case inl =>
    have reached : (keyword + 1 < target ∧ target ≤ close) ∨
        (close = keyword + 2 ∧ target = keyword + 3) := by
      unfold catchTargetEnd at foundTarget
      split at foundTarget
      · obtain ⟨pattern, foundPattern, result⟩ := bind_eq_ok_iff.mp foundTarget
        cases result
        have binding := Balanced.pair sound.nested (closeOf_eq_ok_iff.mp foundPattern)
        have := binding.ordered
        exact .inl ⟨by omega, binding.le_close closes (Nat.lt_succ_self _) before⟩
      · cases foundTarget
        omega
    rcases reached with ⟨after, within⟩ | ⟨rfl, rfl⟩
    · have further : stop ≤ close + 1 := Nat.le_succ_of_le (noted.le_close closes after within)
      have erased := (outcome_attachedIf sound.placed noted).orderly
      exact (erased.widen (by omega) further).outcome pair
    · obtain ⟨start, shape, drops⟩ := drops_attached sound.placed later
      rw [attachedIf, if_pos later, shape]
      exact .tidy (.erase (by omega) drops noted (Nat.le_refl _)
        (sound.regular.catches word closes annotated) (.done (Nat.le_refl _))) pair

theorem outcome_angle {index : Nat} (angle : stream.is index "<" = true) :
    stream.Outcome index (stream.angle index).edits (stream.angle index).next := by
  have still : stream.Outcome index (Progress.still (index + 1)).edits (index + 1) :=
    .nothing (.neutral sound.nested (isNeutral_of_is angle (by decide)))
  unfold TokenStream.angle
  dsimp only
  split
  · unfold callArguments?
    split
    · cases arguments : (stream.typeArgumentsEnd? index).filter stream.startsCall with
      | none => exact still
      | some stop =>
        have found := (Option.filter_eq_some_iff.mp arguments).1
        exact outcome_attached sound.placed
          (lt_of_typeArgumentsEnd? sound.nested sound.placed found)
          ((passes_of_typeArgumentsEnd? sound.placed found).balanced sound.nested)
    · exact still
  · unfold arrowParameters?
    cases parameters : (stream.typeParametersEnd? index).filter stream.opensArrowHead with
    | none => exact still
    | some stop =>
      have found := (Option.filter_eq_some_iff.mp parameters).1
      exact .erase (drops_leading sound.placed
          (lt_of_typeParametersEnd? sound.nested sound.placed found))
        ((passes_of_typeParametersEnd? sound.placed found).balanced sound.nested)

theorem outcome_nonNullMark {index : Nat} (mark : stream.is index "!" = true) :
    stream.Outcome index (stream.nonNullMark index).edits (stream.nonNullMark index).next := by
  have neutral : stream.IsNeutral index := isNeutral_of_is mark (by decide)
  unfold nonNullMark
  split
  · exact outcome_single sound.nested sound.placed neutral
  · exact .nothing (.neutral sound.nested neutral)

theorem outcome_typeAssertion {keyword : Nat} (word : stream.kind? keyword = some .word) :
    stream.Outcome keyword (stream.typeAssertion keyword).edits
      (stream.typeAssertion keyword).next := by
  have neutral : stream.Balanced keyword (keyword + 1) :=
    .neutral sound.nested (isNeutral_of_kind? word (.inl rfl))
  unfold typeAssertion
  split
  · have const : stream.Balanced (keyword + 1) (keyword + 2) :=
      .neutral sound.nested (isNeutral_of_is ‹_› (by decide))
    exact outcome_attached sound.placed (by omega) (neutral.trans const)
  split
  · rename_i stop found
    have type := (passes_of_typeEnd? sound.placed found).balanced sound.nested
    exact outcome_attached sound.placed type.ordered (neutral.trans type)
  · exact .nothing neutral

/-! ## Declarations that vanish -/

theorem outcome_declarationErased {keyword stop : Nat} (ordered : keyword < stop)
    (balanced : stream.Balanced keyword stop) :
    stream.Outcome keyword [stream.declarationErased keyword stop] stop :=
  .erase (drops_declaration sound.placed ordered) balanced

theorem outcome_of_interfaceDeclaration {keyword : Nat} {progress : Progress}
    (word : stream.kind? keyword = some .word) (name : stream.isPlainWord (keyword + 1) = true)
    (found : stream.interfaceDeclaration keyword = .ok progress) :
    stream.Outcome keyword progress.edits progress.next := by
  simp only [interfaceDeclaration, bind_eq_ok_iff] at found
  obtain ⟨generics, foundGenerics, opening, foundTypes, rest⟩ := found
  have types : stream.Passes generics opening := by
    unfold extendedTypesEnd at foundTypes
    split at foundTypes
    · exact .token (isNeutral_of_is ‹_› (by decide)) (passes_of_typeListEnd sound.placed foundTypes)
    · cases foundTypes
      exact .nothing
  have head : stream.Passes (keyword + 1) opening :=
    .token (isNeutral_of_isPlainWord name)
      ((passes_of_optionalTypeParameters sound.placed foundGenerics).trans types)
  split at rest
  case isFalse => contradiction
  case isTrue =>
    obtain ⟨close, closes, result⟩ := bind_eq_ok_iff.mp rest
    cases result
    rw [closeOf_eq_ok_iff] at closes
    have whole := (head.trans (.enclosed closes)).balanced sound.nested
    exact outcome_declarationErased sound whole.ordered
      (.trans (.neutral sound.nested (isNeutral_of_kind? word (.inl rfl))) whole)

theorem outcome_of_aliasDeclaration {keyword : Nat} {progress : Progress}
    (word : stream.kind? keyword = some .word) (name : stream.isPlainWord (keyword + 1) = true)
    (found : stream.aliasDeclaration keyword = .ok progress) :
    stream.Outcome keyword progress.edits progress.next := by
  obtain ⟨generics, foundGenerics, rest⟩ := bind_eq_ok_iff.mp found
  have neutral : stream.Balanced keyword (keyword + 1) :=
    .neutral sound.nested (isNeutral_of_kind? word (.inl rfl))
  split at rest
  case isFalse =>
    cases rest
    exact .nothing neutral
  case isTrue equals =>
    obtain ⟨type, foundType, result⟩ := bind_eq_ok_iff.mp rest
    cases result
    have head : stream.Passes (keyword + 1) type :=
      .token (isNeutral_of_isPlainWord name)
        ((passes_of_optionalTypeParameters sound.placed foundGenerics).trans
          (.token (isNeutral_of_is equals (by decide)) (passes_of_expectType sound.placed foundType)))
    have whole := (head.balanced sound.nested).trans (balanced_afterSemicolon sound.nested type)
    exact outcome_declarationErased sound whole.ordered (neutral.trans whole)

theorem outcome_ambientDeclaration {keyword : Nat} (word : stream.IsKeyword keyword "declare")
    (starts : stream.startsAmbient keyword = true) :
    stream.Outcome keyword (stream.ambientDeclaration keyword).edits
      (stream.ambientDeclaration keyword).next := by
  have clause := SearchedClause.ambient word starts
  exact .clause (drops_declaration sound.placed clause.lt) clause
    (clause.balanced_or_takesCloser sound.nested sound.placed sound.regular)

/-! ## Imports and exports -/

theorem orderly_erasedSpecifiersFrom {opening close index : Nat}
    (list : stream.SpecifierList opening close) (after : opening < index)
    (within : index ≤ close + 1) :
    stream.Orderly index (stream.erasedSpecifiersFrom index close) (close + 1) := by
  fun_induction stream.erasedSpecifiersFrom index close with
  | case2 => exact .inl (.done within)
  | case1 index before stop dropped inductionHypothesis =>
    have passed : index ≤ stop := le_runEnd ..
    have bounded : stop ≤ close := runEnd_le (Nat.le_of_lt before)
    have rest := inductionHypothesis (by omega) (by omega)
    refine Orderly.append ?_ rest
    unfold dropped
    split
    · rename_i typeOnly
      have clause := SearchedClause.specifier list after before typeOnly
      have erased := Outcome.clause (drops_leading sound.placed clause.lt) clause
        (clause.balanced_or_takesCloser sound.nested sound.placed sound.regular)
      refine erased.orderly.widen (Nat.le_refl index) ?_
      unfold specifierStop
      dsimp only
      split <;> omega
    · exact .inl (.done (by omega))

/-- The specifiers of a list are erased inside its braces. -/
theorem orderly_of_erasedSpecifiers {first opening close stop : Nat} {edits : List Edit}
    (list : stream.SpecifierList opening close) (closes : stream.closer? opening = some close)
    (brace : stream.firstBrace? first stop = some opening)
    (found : stream.erasedSpecifiers first stop = .ok edits) :
    stream.Orderly (opening + 1) edits (close + 1) := by
  unfold erasedSpecifiers at found
  rw [brace] at found
  obtain ⟨other, foundOther, result⟩ := bind_eq_ok_iff.mp found
  rw [closeOf_eq_ok_iff, closes] at foundOther
  cases foundOther
  cases result
  exact orderly_erasedSpecifiersFrom sound list (Nat.lt_succ_self opening)
    (Nat.succ_le_succ (Nat.le_of_lt (lt_of_closer?_eq_some closes)))

theorem outcome_of_importDeclaration {keyword : Nat} {progress : Progress}
    (word : stream.IsKeyword keyword "import")
    (found : stream.importDeclaration keyword = .ok progress) :
    stream.Outcome keyword progress.edits progress.next := by
  have neutral : stream.Balanced keyword (keyword + 1) :=
    .neutral sound.nested (isNeutral_of_is word.1 (by decide))
  unfold importDeclaration at found
  dsimp only at found
  split at found
  case isFalse =>
    cases found
    exact .nothing neutral
  case isTrue starts =>
    split at found
    case isTrue typeOnly =>
      cases found
      have clause := SearchedClause.typeImport word typeOnly
      exact .clause (drops_whole sound.placed clause.lt) clause
        (clause.balanced_or_takesCloser sound.nested sound.placed sound.regular)
    case isFalse values =>
      obtain ⟨edits, foundEdits, result⟩ := bind_eq_ok_iff.mp found
      cases result
      have values := Bool.eq_false_iff.mpr values
      have level := sound.regular.balanced_import sound.nested word starts values
      refine .after neutral (Orderly.outcome ?_ level)
      cases brace : stream.firstBrace? (keyword + 1) (stream.moduleClauseEnd (keyword + 1)) with
      | none =>
        unfold erasedSpecifiers at foundEdits
        rw [brace] at foundEdits
        cases foundEdits
        exact .inl (.done level.ordered)
      | some opening =>
        have foundEdits' := foundEdits
        unfold erasedSpecifiers at foundEdits'
        rw [brace] at foundEdits'
        obtain ⟨close, closes, _⟩ := bind_eq_ok_iff.mp foundEdits'
        rw [closeOf_eq_ok_iff] at closes
        have list := SpecifierList.imported word starts values brace closes
        have range := List.mem_range'_1.mp (List.mem_of_find?_eq_some brace)
        have inside := level.closes opening close closes range.1 (by omega)
        exact (orderly_of_erasedSpecifiers sound list closes brace foundEdits).widen
          (by omega) inside

theorem outcome_of_exportDeclaration {keyword : Nat} {progress : Progress}
    (word : stream.IsKeyword keyword "export")
    (found : stream.exportDeclaration keyword = .ok progress) :
    stream.Outcome keyword progress.edits progress.next := by
  have neutral : stream.Balanced keyword (keyword + 1) :=
    .neutral sound.nested (isNeutral_of_is word.1 (by decide))
  unfold exportDeclaration at found
  dsimp only at found
  split at found
  case isTrue typeOnly =>
    obtain ⟨stop, foundStop, result⟩ := bind_eq_ok_iff.mp found
    cases result
    simp only [Bool.and_eq_true, Bool.or_eq_true] at typeOnly
    have clause := SearchedClause.typeExport word typeOnly.1 typeOnly.2 foundStop
    exact .clause (drops_whole sound.placed clause.lt) clause
      (clause.balanced_or_takesCloser sound.nested sound.placed sound.regular)
  split at found
  case isTrue namespaced =>
    cases found
    obtain ⟨asKeyword, namespaceKeyword⟩ := Bool.and_eq_true_iff.mp namespaced
    have clause := SearchedClause.namespaceExport word asKeyword namespaceKeyword
    exact .clause (drops_whole sound.placed clause.lt) clause
      (clause.balanced_or_takesCloser sound.nested sound.placed sound.regular)
  split at found
  case isTrue brace =>
    simp only [bind_eq_ok_iff] at found
    obtain ⟨close, closes, edits, foundEdits, result⟩ := found
    cases result
    rw [closeOf_eq_ok_iff] at closes
    have before := lt_of_closer?_eq_some closes
    have first : stream.firstBrace? (keyword + 1) (close + 1) = some (keyword + 1) := by
      obtain ⟨count, length⟩ : ∃ count, close + 1 - (keyword + 1) = count + 1 :=
        ⟨close - (keyword + 1), by omega⟩
      rw [firstBrace?, length, List.range'_succ]
      exact List.find?_cons_of_pos brace
    have list := SpecifierList.exported word brace closes
    have edited := orderly_of_erasedSpecifiers sound list closes first foundEdits
    exact .after neutral
      ((edited.widen (Nat.le_succ _) (Nat.le_refl _)).outcome (.pair sound.nested closes))
  case isFalse =>
    cases found
    exact .nothing neutral

end Playground.TokenStream

import Playground.Proofs.Erasure.TypeSpan
import Playground.Proofs.Erasure.Walkers

/-!
# Clauses that are searched for, and regular programs

The end of some clauses that are erased is found by a search that does not look at the brackets
around them. `SearchedClause` lists them. A pair that opens in such a clause closes in it, but
the clause may take the closing bracket of a pair around it. `Regular` lists the syntax that
the walk takes for granted; it does not ask that a clause ends in the block it stands in.
-/

namespace Playground.TokenStream

variable {stream : TokenStream}

/-- A word that stands as a keyword, not as the name of a property after a dot. -/
def IsKeyword (stream : TokenStream) (index : Nat) (text : String) : Prop :=
  stream.is index text = true ∧ stream.isPropertyName index = false

/-- The braces of an import or export hold a list of specifiers. -/
inductive SpecifierList (stream : TokenStream) : Nat → Nat → Prop where
  | imported {keyword opening close} (word : stream.IsKeyword keyword "import")
      (clause : stream.startsImportClause (keyword + 1) = true)
      (values : stream.isTypeImport (keyword + 1) = false)
      (brace : stream.firstBrace? (keyword + 1) (stream.moduleClauseEnd (keyword + 1)) =
        some opening)
      (closes : stream.closer? opening = some close) : SpecifierList stream opening close
  | exported {keyword close} (word : stream.IsKeyword keyword "export")
      (brace : stream.is (keyword + 1) "\x7b" = true)
      (closes : stream.closer? (keyword + 1) = some close) :
      SpecifierList stream (keyword + 1) close

/-- The index after a specifier of a list and its comma. -/
def specifierStop (stream : TokenStream) (index close : Nat) : Nat :=
  let stop := stream.specifierEnd index close
  if stream.is stop "," then stop + 1 else stop

/-- The clauses that are erased up to an end that is searched for. -/
inductive SearchedClause (stream : TokenStream) : Nat → Nat → Prop where
  | ambient {keyword} (word : stream.IsKeyword keyword "declare")
      (starts : stream.startsAmbient keyword = true) :
      SearchedClause stream keyword (stream.statementEnd (keyword + 1) stream.size)
  | namespaceExport {keyword} (word : stream.IsKeyword keyword "export")
      (clause : stream.is (keyword + 1) "as" = true)
      (namespaced : stream.is (keyword + 2) "namespace" = true) :
      SearchedClause stream keyword (stream.statementEnd (keyword + 1) stream.size)
  | typeExport {keyword stop} (word : stream.IsKeyword keyword "export")
      (clause : stream.is (keyword + 1) "type" = true)
      (names : stream.is (keyword + 2) "\x7b" = true ∨ stream.is (keyword + 2) "*" = true)
      (found : stream.exportClauseEnd (keyword + 2) = .ok stop) :
      SearchedClause stream keyword stop
  | typeImport {keyword} (word : stream.IsKeyword keyword "import")
      (clause : stream.isTypeImport (keyword + 1) = true) :
      SearchedClause stream keyword (stream.moduleClauseEnd (keyword + 1))
  | specifier {opening close index} (list : stream.SpecifierList opening close)
      (after : opening < index) (before : index < close)
      (typeOnly : stream.isTypeSpecifier index = true) :
      SearchedClause stream index (stream.specifierStop index close)
  | member {opening close first} (body : stream.closer? opening = some close)
      (level : stream.Balanced (opening + 1) first) (before : first < close)
      (vanishes : stream.isAmbientMember first (stream.modifiersEnd first close) = true ∨
        stream.startsIndexSignature (stream.modifiersEnd first close) = true) :
      SearchedClause stream first (stream.statementEnd (stream.modifiersEnd first close) close)

/-- The syntax that the walk takes for granted. -/
structure Regular (stream : TokenStream) : Prop where
  /-- A pair that opens in a re-export of types closes in it. -/
  exports : ∀ {keyword stop}, stream.IsKeyword keyword "export" →
    stream.is (keyword + 1) "type" = true → stream.exportClauseEnd (keyword + 2) = .ok stop →
      stream.Closes keyword stop
  /-- A pair that opens in a type-only specifier closes in it. -/
  specifiers : ∀ {opening close index}, stream.SpecifierList opening close → opening < index →
    index < close → stream.isTypeSpecifier index = true →
      stream.Closes index (stream.specifierStop index close)
  /-- The module name of an import of values stands inside the brackets around the import. -/
  imports : ∀ {keyword}, stream.IsKeyword keyword "import" →
    stream.startsImportClause (keyword + 1) = true → stream.isTypeImport (keyword + 1) = false →
      ¬stream.TakesCloser (keyword + 1) (stream.moduleClauseEnd (keyword + 1))
  /-- No searched clause starts in an annotation after a catch clause without a binding. -/
  catches : ∀ {keyword stop clause last}, stream.IsKeyword keyword "catch" →
    stream.closer? (keyword + 1) = some (keyword + 2) →
      stream.optionalAnnotation (keyword + 3) = .ok stop → stream.SearchedClause clause last →
        keyword + 3 ≤ clause → stop ≤ clause
  /-- A class with anything in its head has a body where the head ends. -/
  classes : ∀ {keyword walk generics base implemented}, stream.IsKeyword keyword "class" →
    stream.optionalTypeParameters (stream.classNameEnd keyword) = .ok generics →
      stream.heritage walk generics = .ok base →
        stream.implementedTypes base.next = .ok implemented →
          implemented.next = stream.classNameEnd keyword ∨
            (stream.is implemented.next "\x7b" = true ∧ stream.Balanced generics base.next)
  /-- The walk of a constructor body can stop after the call of the base constructor. -/
  constructors : ∀ {opening close anchor before}, stream.is opening "\x7b" = true →
    stream.closer? opening = some close →
      stream.superCallEnd? (opening + 1) close = .ok (some anchor) →
        stream.walkFrom (opening + 1) (opening + 1) (.upTo (anchor + 1)) = .ok before →
          stream.Balanced (opening + 1) before.next → before.next ≤ anchor + 1
  /-- The walk of the substitutions of a template ends with the template. -/
  templates : ∀ {head inside}, stream.kind? head = some .templateHead →
    stream.walkFrom (head + 1) (head + 1) (.upTo (stream.templateTail head)) = .ok inside →
      stream.Balanced (head + 1) inside.next → inside.next ≤ stream.templateTail head

/-! ## A pair that opens in a searched clause closes in it -/

section Closing

variable (nested : stream.Nested)

include nested

theorem Closes.neutral {index stop : Nat} (neutral : stream.IsNeutral index)
    (rest : stream.Closes (index + 1) stop) (ordered : index + 1 ≤ stop) :
    stream.Closes index stop :=
  (Balanced.neutral nested neutral).closes.trans rest ordered

theorem balanced_afterSemicolon (index : Nat) :
    stream.Balanced index (stream.afterSemicolon index) := by
  unfold afterSemicolon
  split
  · exact .neutral nested (isNeutral_of_is ‹_› (by decide))
  · exact .refl index

theorem closes_statementEnd {first limit : Nat} (bounded : stream.Closes first limit) :
    stream.Closes first (stream.statementEnd first limit) := by
  unfold statementEnd
  extract_lets stop
  have passed : stream.Closes first stop := closes_seek nested _ limit first
  split
  · exact bounded
  · rename_i before
    split
    · exact passed
    · rename_i goesOn
      have found := Bool.or_eq_true_iff.mp (found_of_seek_lt (Nat.lt_of_not_le before))
      have neutral : stream.IsNeutral stop :=
        isNeutral_of_is (found.resolve_left goesOn) (by decide)
      exact passed.trans (Balanced.neutral nested neutral).closes (Nat.le_succ stop)

theorem closes_moduleClauseEnd (index : Nat) :
    stream.Closes index (stream.moduleClauseEnd index) := by
  unfold moduleClauseEnd
  extract_lets name
  have passed : stream.Closes index name := closes_seek nested _ stream.size index
  split
  · rename_i before
    have neutral : stream.IsNeutral name :=
      isNeutral_of_kind? (beq_iff_eq.mp (found_of_seek_lt before)) (.inr (.inr (.inl rfl)))
    have semicolon := balanced_afterSemicolon nested (name + 1)
    have last := (Balanced.neutral nested neutral).trans semicolon
    exact passed.trans last.closes last.ordered
  · exact passed

end Closing

/-- A type-only specifier is at least one token long. -/
theorem lt_specifierStop {index close : Nat} (before : index < close)
    (typeOnly : stream.isTypeSpecifier index = true) : index < stream.specifierStop index close := by
  have word : stream.is index "type" = true := by
    simp only [isTypeSpecifier, Bool.and_eq_true] at typeOnly
    exact typeOnly.1.1
  have comma : stream.is index "," = false := by
    have spelled := (is_iff.mp word).2
    simp [Bool.eq_false_iff, is_iff, spelled]
  have advance : index < stream.specifierEnd index close := by
    unfold specifierEnd runEnd
    rw [if_pos before, if_pos (by simp [comma])]
    exact le_runEnd ..
  unfold specifierStop
  dsimp only
  split <;> omega

namespace SearchedClause

variable {first stop : Nat}

theorem lt (clause : stream.SearchedClause first stop) : first < stop := by
  cases clause with
  | ambient word _ | namespaceExport word _ _ =>
    exact le_statementEnd (lt_size_of_is word.1)
  | typeExport _ _ _ found =>
    have := lt_of_exportClauseEnd found
    omega
  | typeImport _ _ => exact le_moduleClauseEnd _
  | specifier _ _ before typeOnly => exact lt_specifierStop before typeOnly
  | @member _ close _ _ _ before _ =>
    have passed : first ≤ stream.modifiersEnd first close := le_runEnd ..
    rcases stream.statementEnd_advances (stream.modifiersEnd first close) close with later | limit
    · omega
    · omega

/-- A pair that opens in a searched clause closes in it. -/
theorem closes (nested : stream.Nested) (placed : stream.Placed) (regular : stream.Regular)
    (clause : stream.SearchedClause first stop) : stream.Closes first stop := by
  cases clause with
  | ambient word _ | namespaceExport word _ _ =>
    have bounded := closes_of_size_le nested (first + 1) (Nat.le_refl stream.size)
    exact .neutral nested (isNeutral_of_is word.1 (by decide)) (closes_statementEnd nested bounded)
      (le_statementEnd (lt_size_of_is word.1))
  | typeExport word clause _ found => exact regular.exports word clause found
  | typeImport word _ =>
    exact .neutral nested (isNeutral_of_is word.1 (by decide)) (closes_moduleClauseEnd nested _)
      (le_moduleClauseEnd _)
  | specifier list after before typeOnly => exact regular.specifiers list after before typeOnly
  | @member opening close _ body level before _ =>
    have modifiers : stream.Balanced first (stream.modifiersEnd first close) := by
      refine (phrase_runEnd fun index accepted => ?_).balanced nested
      exact isOrdinary_of_textIn placed (Bool.and_eq_true_iff.mp accepted).1 (by decide)
    have within := modifiers.le_close body level.ordered (Nat.le_of_lt before)
    have inside := ((Balanced.inside_pair nested body).rest level (Nat.le_of_lt before)).rest
      modifiers within
    exact modifiers.closes.trans (closes_statementEnd nested inside.closes) (le_statementEnd within)

/-- A searched clause is balanced or takes a closing bracket from around it. -/
theorem balanced_or_takesCloser (nested : stream.Nested) (placed : stream.Placed)
    (regular : stream.Regular) (clause : stream.SearchedClause first stop) :
    stream.Balanced first stop ∨ stream.TakesCloser first stop :=
  (clause.closes nested placed regular).balanced_or_takesCloser (Nat.le_of_lt clause.lt)

end SearchedClause

theorem Regular.balanced_import (nested : stream.Nested) (regular : stream.Regular) {keyword : Nat}
    (word : stream.IsKeyword keyword "import")
    (clause : stream.startsImportClause (keyword + 1) = true)
    (values : stream.isTypeImport (keyword + 1) = false) :
    stream.Balanced (keyword + 1) (stream.moduleClauseEnd (keyword + 1)) :=
  ((closes_moduleClauseEnd nested (keyword + 1)).balanced_or_takesCloser
    (le_moduleClauseEnd _)).resolve_right (regular.imports word clause values)

end Playground.TokenStream

import Playground.Proofs.Erasure.Pairing.ClassBody
import Playground.Proofs.Erasure.Pairing.Clauses

/-!
# The walk leaves brackets in pairs

Every step passes a balanced span or splits a pair, and so does a walk that is contained. The
recursion is closed once, over the nested walks and the rest of each walk.
-/

namespace Playground.TokenStream

variable {stream : TokenStream}

section Steps

variable {walk : Walk} {index : Nat} {progress : Progress} (sound : walk.Sound stream)

include sound

/-- The parts of a template are no brackets. -/
theorem balanced_of_kind? {kind : TokenKind} (found : stream.kind? index = some kind)
    (notMark : kind ≠ .punctuator) : stream.Balanced index (index + 1) := by
  refine .single fun opening close closes => ⟨?_, ?_⟩
  · rintro rfl
    have same := (sound.nested.text_bracket closes).1
    exact notMark (Option.some.inj (found.symm.trans same))
  · rintro rfl
    have same := (sound.nested.text_bracket closes).2.1
    exact notMark (Option.some.inj (found.symm.trans same))

theorem outcome_of_template {inside : Progress} (head : stream.kind? index = some .templateHead)
    (walked : walk (index + 1) (.upTo (stream.templateTail index)) = .ok inside) :
    stream.Outcome index inside.edits (stream.templateTail index + 1) := by
  have whole : stream.Balanced index (stream.templateTail index + 1) :=
    .of_returns sound.nested (sound.nested.templates head)
  have first := balanced_of_kind? sound head (by decide)
  have after := (sound.nested.templates head).after
  have rest := whole.rest first (Nat.le_succ_of_le after)
  have contained : stream.Contained (index + 1) (.upTo (stream.templateTail index)) :=
    contained_of_balanced rest (Nat.le_succ _)
  exact (sound.outcome contained walked).inside whole (sound.templates head walked)

/-- A mark that closes nothing is passed alone unless it opens a pair. -/
theorem balanced_of_mark (stays : ∀ opening, stream.closer? opening ≠ some index)
    (other : stream.text index ∉ ["(", "\x7b", "[", "<", "!"]) :
    stream.Balanced index (index + 1) := by
  refine .single fun opening close closes => ⟨?_, ?_⟩
  · rintro rfl
    have listed := (sound.nested.text_bracket closes).2.2
    simp only [bracketPairs, List.mem_cons, Prod.mk.injEq, List.not_mem_nil, or_false] at listed
    rcases listed with ⟨opens, _⟩ | ⟨opens, _⟩ | ⟨opens, _⟩ <;> simp [opens] at other
  · rintro rfl
    exact stays opening closes

/-- A step that meets no closing bracket passes a balanced span or splits a pair. -/
theorem outcome_of_step (advances : walk.Advances) (noEnum : ¬stream.HasWord "enum")
    (stays : ∀ opening, stream.closer? opening ≠ some index) (inRange : index < stream.size)
    (found : stream.step walk index = .ok progress) :
    stream.Outcome index progress.edits progress.next := by
  have neutral : stream.kind? index = some .word → stream.IsNeutral index :=
    fun kind => isNeutral_of_kind? kind (.inl rfl)
  cases starts_of_step found with
  | word kind => exact .nothing (.neutral sound.nested (neutral kind))
  | interface kind _ named found => exact outcome_of_interfaceDeclaration sound kind named found
  | typeAlias kind _ starts found =>
    simp only [startsAlias, Bool.and_eq_true] at starts
    exact outcome_of_aliasDeclaration sound kind starts.1.2 found
  | ambient _ word starts => exact outcome_ambientDeclaration sound word starts
  | abstractClass kind => exact outcome_leading sound.nested sound.placed (neutral kind)
  | enumeration _ _ mark => exact absurd (sound.placed.hasWord_of_is mark (by decide)) noEnum
  | bindings kind found =>
    exact .after (.neutral sound.nested (neutral kind)) (outcome_of_variablesFrom sound found)
  | function word found => exact outcome_of_functionDeclaration sound word.1 found
  | classBody word found => exact outcome_of_classDeclaration sound advances word found
  | assertion kind => exact outcome_typeAssertion sound kind
  | importClause word found => exact outcome_of_importDeclaration sound word found
  | exportClause word found => exact outcome_of_exportDeclaration sound word found
  | catchClause word found => exact outcome_of_catchHead sound word found
  | control kind found => exact outcome_of_controlHead sound kind found
  | parenthesis _ found => exact outcome_of_parenthesis sound found
  | bracket _ found => exact outcome_of_walkInside sound found
  | angle mark => exact outcome_angle sound mark
  | nonNullMark mark => exact outcome_nonNullMark sound mark
  | mark _ other => exact .nothing (balanced_of_mark sound stays other)
  | template head walked =>
    have outcome := outcome_of_template sound head walked
    exact outcome
  | token _ noMark =>
    obtain ⟨kind, known⟩ : ∃ kind, stream.kind? index = some kind := by
      simp [kind?, get?, Array.getElem?_eq_getElem inRange]
    refine .nothing (balanced_of_kind? sound known ?_)
    rintro rfl
    exact noMark known

end Steps

/-- A walk that has come to its end stays there. -/
theorem next_of_walkFrom_of_le {first index : Nat} {ending : WalkEnd} {progress : Progress}
    (reached : ending.limit ≤ index) (found : stream.walkFrom first index ending = .ok progress) :
    progress.next = index := by
  have ends : ¬stream.GoesOn first index ending :=
    fun goesOn => Nat.not_lt_of_le reached goesOn.before
  cases (walkFrom_of_not_goesOn ends).symm.trans found
  rfl

/-- The walk that a step hands to the walkers of nested constructs. -/
theorem sound_of_outcome (index : Nat) (nested : stream.Nested) (placed : stream.Placed)
    (regular : stream.Regular)
    (outcomes : ∀ {next ending progress}, index < next → stream.Contained next ending →
      stream.walkFrom next next ending = .ok progress →
        stream.Outcome next progress.edits progress.next) :
    (stream.walkBehind index).Sound stream where
  nested := nested
  placed := placed
  regular := regular
  outcome {next ending progress} contained found := by
    rcases walkFrom_or_still_of_walkBehind found with ⟨later, walked⟩ | rfl
    · exact outcomes later contained walked
    · exact .nothing (.refl next)
  constructors {opening close derived anchor before} opens closes foundAnchor found balanced := by
    rcases walkFrom_or_still_of_walkBehind found with ⟨-, walked⟩ | rfl
    case inr => exact (balanced_of_assignmentAnchor nested closes foundAnchor).ordered
    case inl =>
      unfold assignmentAnchor at foundAnchor
      split at foundAnchor
      case isFalse =>
        cases foundAnchor
        exact Nat.le_of_eq (next_of_walkFrom_of_le (Nat.le_refl _) walked)
      case isTrue =>
        obtain ⟨call?, foundCall, result⟩ := bind_eq_ok_iff.mp foundAnchor
        cases result
        cases call? with
        | none => exact Nat.le_of_eq (next_of_walkFrom_of_le (Nat.le_refl _) walked)
        | some anchor => exact regular.constructors opens closes foundCall walked balanced
  templates {head inside} kind found balanced := by
    rcases walkFrom_or_still_of_walkBehind found with ⟨-, walked⟩ | rfl
    · exact regular.templates kind walked balanced
    · exact (nested.templates kind).after

theorem outcome_of_walkFrom {first index : Nat} {ending : WalkEnd} {progress : Progress}
    (nested : stream.Nested) (placed : stream.Placed) (regular : stream.Regular)
    (noEnum : ¬stream.HasWord "enum") (contained : stream.Contained first ending)
    (passed : stream.Balanced first index)
    (found : stream.walkFrom first index ending = .ok progress) :
    stream.Outcome index progress.edits progress.next := by
  replace found := walkCourse_of_walkFrom nested placed found
  induction found with
  | @ended _ _ index _ => exact .nothing (.refl index)
  | @step _ _ index _ _ goesOn _ stepped _ _ partOutcome restOutcome =>
    have stays : ∀ opening, stream.closer? opening ≠ some index := by
      refine contained index passed goesOn.before ?_
      rintro ⟨mark, stops⟩
      have unended := goesOn.unended
      simp [endsBefore, mark, stops] at unended
    have sound := sound_of_outcome index nested placed regular
      fun later containedNext foundNext => partOutcome later foundNext containedNext (.refl _)
    exact (outcome_of_step sound (advances_walkBehind nested placed index) noEnum stays
      goesOn.inside stepped).append fun balanced => restOutcome contained (passed.trans balanced)

end Playground.TokenStream

import Playground.Proofs.Erasure.Regular

/-!
# What a step starts

A step hands the token at an index to the walker of the construct that it starts. `Starts` has one
constructor to a construct, with what the step has checked and what the walker answers, so that a
property of every step is proved by cases (`starts_of_step`). The members of a class are told apart
in the same way (`MemberShape`). A walk takes a step and goes on behind it, or it has ended
(`GoesOn.walkFrom_eq`, `walkFrom_of_not_goesOn`).
-/

namespace Playground.TokenStream

/-- The construct that the token at an index starts, by the answer of its walker. -/
inductive Starts (stream : TokenStream) (walk : Walk) (index : Nat) : Progress → Prop where
  /-- A word that starts nothing here. -/
  | word (kind : stream.kind? index = some .word) : Starts stream walk index (.still (index + 1))
  | interface {progress} (kind : stream.kind? index = some .word)
      (word : stream.IsKeyword index "interface")
      (named : stream.isPlainWord (index + 1) = true)
      (found : stream.interfaceDeclaration index = .ok progress) : Starts stream walk index progress
  | typeAlias {progress} (kind : stream.kind? index = some .word)
      (word : stream.IsKeyword index "type") (starts : stream.startsAlias index = true)
      (found : stream.aliasDeclaration index = .ok progress) : Starts stream walk index progress
  | ambient (kind : stream.kind? index = some .word)
      (word : stream.IsKeyword index "declare") (starts : stream.startsAmbient index = true) :
      Starts stream walk index (stream.ambientDeclaration index)
  | abstractClass (kind : stream.kind? index = some .word)
      (word : stream.IsKeyword index "abstract") (owner : stream.is (index + 1) "class" = true) :
      Starts stream walk index ⟨index + 1, [stream.leading index]⟩
  /-- The keyword of an enumeration stands behind `const` or alone. -/
  | enumeration {keyword progress} (kind : stream.kind? index = some .word)
      (later : index ≤ keyword) (mark : stream.is keyword "enum" = true)
      (found : stream.enumDeclaration index keyword = .ok progress) :
      Starts stream walk index progress
  | bindings {progress} (kind : stream.kind? index = some .word)
      (found : stream.variablesFrom walk (index + 1) = .ok progress) :
      Starts stream walk index progress
  | function {progress} (word : stream.IsKeyword index "function")
      (found : stream.functionDeclaration walk index = .ok progress) :
      Starts stream walk index progress
  | classBody {progress} (word : stream.IsKeyword index "class")
      (found : stream.classDeclaration walk index = .ok progress) :
      Starts stream walk index progress
  | assertion (kind : stream.kind? index = some .word)
      (operator : stream.IsKeyword index "as" ∨ stream.IsKeyword index "satisfies") :
      Starts stream walk index (stream.typeAssertion index)
  | importClause {progress} (word : stream.IsKeyword index "import")
      (found : stream.importDeclaration index = .ok progress) : Starts stream walk index progress
  | exportClause {progress} (word : stream.IsKeyword index "export")
      (found : stream.exportDeclaration index = .ok progress) : Starts stream walk index progress
  | catchClause {progress} (word : stream.IsKeyword index "catch")
      (found : stream.catchHead index = .ok progress) : Starts stream walk index progress
  | control {progress} (kind : stream.kind? index = some .word)
      (found : stream.controlHead walk index = .ok progress) : Starts stream walk index progress
  | parenthesis {progress} (mark : stream.is index "(" = true)
      (found : stream.parenthesis walk index = .ok progress) : Starts stream walk index progress
  | bracket {progress} (mark : stream.is index "\x7b" = true ∨ stream.is index "[" = true)
      (found : stream.walkInside walk index = .ok progress) : Starts stream walk index progress
  | angle (mark : stream.is index "<" = true) : Starts stream walk index (stream.angle index)
  | nonNullMark (mark : stream.is index "!" = true) :
      Starts stream walk index (stream.nonNullMark index)
  /-- A mark that opens nothing. -/
  | mark (kind : stream.kind? index = some .punctuator)
      (other : stream.text index ∉ ["(", "\x7b", "[", "<", "!"]) :
      Starts stream walk index (.still (index + 1))
  | template {inside} (head : stream.kind? index = some .templateHead)
      (found : walk (index + 1) (.upTo (stream.templateTail index)) = .ok inside) :
      Starts stream walk index ⟨stream.templateTail index + 1, inside.edits⟩
  /-- A token that is neither a word nor a mark. -/
  | token (noWord : stream.kind? index ≠ some .word)
      (noMark : stream.kind? index ≠ some .punctuator) :
      Starts stream walk index (.still (index + 1))

/-- The walk that is handed to the step at an index. -/
def walkBehind (stream : TokenStream) (index : Nat) : Walk := fun next ending =>
  if _ : index < next then stream.walkFrom next next ending else return .still next

/-- The walk that began at `first` has not ended at an index. -/
structure GoesOn (stream : TokenStream) (first index : Nat) (ending : WalkEnd) : Prop where
  before : index < ending.limit
  inside : index < stream.size
  unended : stream.endsBefore first index ending = false

/-- The name of a member that begins behind its modifiers, with a star before it and a marker
behind it. -/
structure MemberName (stream : TokenStream) (modified name nameEnd markerEnd : Nat) : Prop where
  star : name = modified ∨ name = modified + 1 ∧ stream.is modified "*" = true
  named : stream.memberNameEnd name = .ok nameEnd
  marker : markerEnd = nameEnd ∨
    markerEnd = nameEnd + 1 ∧ (stream.is nameEnd "?" = true ∨ stream.is nameEnd "!" = true)

/-- What a member of a class is, by the answer of its walker. -/
inductive MemberShape (stream : TokenStream) (walk : Walk) (first close : Nat) (derived : Bool) :
    Progress → Prop where
  | semicolon (mark : stream.is first ";" = true) :
      MemberShape stream walk first close derived (.still (first + 1))
  | staticBlock {progress} (modified : first < stream.modifiersEnd first close)
      (found : stream.walkInside walk (stream.modifiersEnd first close) = .ok progress) :
      MemberShape stream walk first close derived progress
  /-- A member that is ambient, or an index signature. -/
  | vanishing (vanishes : stream.isAmbientMember first (stream.modifiersEnd first close) = true ∨
        stream.startsIndexSignature (stream.modifiersEnd first close) = true) :
      MemberShape stream walk first close derived
        ⟨stream.statementEnd (stream.modifiersEnd first close) close,
          [stream.whole first (stream.statementEnd (stream.modifiersEnd first close) close)]⟩
  | method {name nameEnd markerEnd opening progress}
      (head : stream.MemberName (stream.modifiersEnd first close) name nameEnd markerEnd)
      (generics : stream.optionalTypeParameters markerEnd = .ok opening)
      (opens : stream.is opening "(" = true)
      (found : stream.methodMember walk first (stream.modifiersEnd first close) name nameEnd
        markerEnd opening derived = .ok progress) :
      MemberShape stream walk first close derived progress
  | field {name nameEnd markerEnd progress}
      (head : stream.MemberName (stream.modifiersEnd first close) name nameEnd markerEnd)
      (found : stream.fieldMember walk first (stream.modifiersEnd first close) name nameEnd
        markerEnd close = .ok progress) :
      MemberShape stream walk first close derived progress

variable {stream : TokenStream} {walk : Walk} {index : Nat} {progress : Progress}

theorem starts_of_wordStep (kind : stream.kind? index = some .word)
    (found : stream.wordStep walk index = .ok progress) : stream.Starts walk index progress := by
  have passes : pure (Progress.still (index + 1)) = (.ok progress : Except SyntaxError Progress) →
      stream.Starts walk index progress := by
    intro passed
    cases passed
    exact .word kind
  unfold wordStep at found
  extract_lets pass at found
  split at found
  · exact passes found
  rename_i unnamed
  have keyword : ∀ {text}, stream.text index = text → stream.IsKeyword index text :=
    fun spelled => ⟨is_of_word kind spelled, Bool.eq_false_iff.mpr unnamed⟩
  split at found
  case h_1 spelled =>
    split at found
    · exact .interface kind (keyword spelled) (Bool.and_eq_true_iff.mp ‹_›).2 found
    · exact passes found
  case h_2 spelled =>
    split at found
    · exact .typeAlias kind (keyword spelled) ‹_› found
    · exact passes found
  case h_3 spelled =>
    split at found
    · cases found
      exact .ambient kind (keyword spelled) ‹_›
    · exact passes found
  case h_4 | h_5 =>
    split at found
    · contradiction
    · exact passes found
  case h_6 spelled =>
    split at found
    · cases found
      exact .abstractClass kind (keyword spelled) ‹_›
    · exact passes found
  case h_7 spelled =>
    split at found
    · exact .enumeration kind (Nat.le_refl index) (keyword spelled).1 found
    · exact passes found
  case h_8 =>
    split at found
    · exact .enumeration kind (Nat.le_succ index) ‹_› found
    split at found
    · exact .bindings kind found
    · exact passes found
  case h_9 | h_10 =>
    split at found
    · exact .bindings kind found
    · exact passes found
  case h_11 spelled => exact .function (keyword spelled) found
  case h_12 spelled => exact .classBody (keyword spelled) found
  case h_13 spelled =>
    split at found
    · cases found
      exact .assertion kind (.inl (keyword spelled))
    · exact passes found
  case h_14 spelled =>
    split at found
    · cases found
      exact .assertion kind (.inr (keyword spelled))
    · exact passes found
  case h_15 spelled => exact .importClause (keyword spelled) found
  case h_16 spelled => exact .exportClause (keyword spelled) found
  case h_17 spelled =>
    split at found
    · exact .catchClause (keyword spelled) found
    · exact passes found
  case h_18 | h_19 | h_20 | h_21 | h_22 => exact .control kind found
  case h_23 => exact passes found

theorem starts_of_punctuatorStep (kind : stream.kind? index = some .punctuator)
    (found : stream.punctuatorStep walk index = .ok progress) :
    stream.Starts walk index progress := by
  unfold punctuatorStep at found
  split at found
  case h_1 spelled => exact .parenthesis (is_of_mark kind spelled) found
  case h_2 spelled => exact .bracket (.inl (is_of_mark kind spelled)) found
  case h_3 spelled => exact .bracket (.inr (is_of_mark kind spelled)) found
  case h_4 spelled =>
    cases found
    exact .angle (is_of_mark kind spelled)
  case h_5 spelled =>
    cases found
    exact .nonNullMark (is_of_mark kind spelled)
  case h_6 notParenthesis notBrace notBracket notAngle notMark =>
    cases found
    exact .mark kind (by simpa using ⟨notParenthesis, notBrace, notBracket, notAngle, notMark⟩)

/-- Every step starts a construct or passes a token. -/
theorem starts_of_step (found : stream.step walk index = .ok progress) :
    stream.Starts walk index progress := by
  unfold step at found
  split at found
  · exact starts_of_wordStep ‹_› found
  · exact starts_of_punctuatorStep ‹_› found
  · obtain ⟨inside, foundInside, result⟩ := bind_eq_ok_iff.mp found
    cases result
    exact .template ‹_› foundInside
  · rename_i noWord noMark _
    cases found
    exact .token noWord noMark

/-! ## Members of a class -/

section Members

variable {modified name nameEnd markerEnd first close : Nat} {derived : Bool}

theorem MemberName.ordered (head : stream.MemberName modified name nameEnd markerEnd) :
    modified ≤ name ∧ name < nameEnd ∧ nameEnd ≤ markerEnd := by
  have named := lt_of_memberNameEnd head.named
  have star := head.star
  have marker := head.marker
  omega

theorem MemberName.marked (head : stream.MemberName modified name nameEnd markerEnd)
    (later : nameEnd < markerEnd) :
    stream.is nameEnd "?" = true ∨ stream.is nameEnd "!" = true := by
  rcases head.marker with same | ⟨-, mark⟩
  · exact absurd later (Nat.not_lt_of_le (Nat.le_of_eq same))
  · exact mark

theorem memberShape_of_namedMember
    (found : stream.namedMember walk first (stream.modifiersEnd first close) close derived =
      .ok progress) : stream.MemberShape walk first close derived progress := by
  obtain ⟨nameEnd, named, rest⟩ := bind_eq_ok_iff.mp found
  obtain ⟨opening, generics, rest⟩ := bind_eq_ok_iff.mp rest
  generalize begins : (if stream.is (stream.modifiersEnd first close) "*" = true then
    stream.modifiersEnd first close + 1 else stream.modifiersEnd first close) = name at named rest
  generalize ends : (if (stream.is nameEnd "?" || stream.is nameEnd "!") = true then
    nameEnd + 1 else nameEnd) = markerEnd at generics rest
  have head : stream.MemberName (stream.modifiersEnd first close) name nameEnd markerEnd := by
    refine ⟨?_, named, ?_⟩
    · rw [← begins]
      split
      · exact .inr ⟨rfl, ‹_›⟩
      · exact .inl rfl
    · rw [← ends]
      split
      · exact .inr ⟨rfl, Bool.or_eq_true_iff.mp ‹_›⟩
      · exact .inl rfl
  split at rest
  · exact .method head generics ‹_› rest
  split at rest
  · contradiction
  · exact .field head rest

/-- Every member that is walked is one of these. -/
theorem memberShape_of_classMember
    (found : stream.classMember walk first close derived = .ok progress) :
    stream.MemberShape walk first close derived progress := by
  unfold classMember at found
  split at found
  · cases found
    exact .semicolon ‹_›
  split at found
  · contradiction
  dsimp only at found
  split at found
  · rename_i block
    simp only [Bool.and_eq_true, decide_eq_true_eq] at block
    exact .staticBlock block.1.1 found
  split at found
  · rename_i vanishes
    cases found
    exact .vanishing (Bool.or_eq_true_iff.mp vanishes)
  · exact memberShape_of_namedMember found

end Members

/-! ## Walks -/

section Walks

variable {first : Nat} {ending : WalkEnd}

theorem walkBehind_of_lt {next : Nat} (later : index < next) (ending : WalkEnd) :
    stream.walkBehind index next ending = stream.walkFrom next next ending :=
  dif_pos later

/-- A walk behind an index is a walk of the program, or it stands still. -/
theorem walkFrom_or_still_of_walkBehind {next : Nat}
    (found : stream.walkBehind index next ending = .ok progress) :
    index < next ∧ stream.walkFrom next next ending = .ok progress ∨ progress = .still next := by
  unfold walkBehind at found
  split at found
  · exact .inl ⟨‹_›, found⟩
  · cases found
    exact .inr rfl

/-- A walk that goes on takes a step. -/
theorem GoesOn.walkFrom_eq (goesOn : stream.GoesOn first index ending) :
    stream.walkFrom first index ending = (do
      let one ← stream.step (stream.walkBehind index) index
      if index < one.next then
        let rest ← stream.walkFrom first one.next ending
        return rest.preceded one.edits
      else return one) := by
  rw [walkFrom, dif_pos ⟨goesOn.before, goesOn.inside⟩, goesOn.unended, if_neg Bool.false_ne_true]
  rfl

/-- A walk that takes a step forward goes on behind it. -/
theorem GoesOn.walkFrom_of_step (goesOn : stream.GoesOn first index ending)
    (stepped : stream.step (stream.walkBehind index) index = .ok progress)
    (further : index < progress.next) :
    stream.walkFrom first index ending = (do
      let rest ← stream.walkFrom first progress.next ending
      return rest.preceded progress.edits) := by
  rw [goesOn.walkFrom_eq, stepped]
  exact if_pos further

/-- A walk that has ended stays where it is. -/
theorem walkFrom_of_not_goesOn (ends : ¬stream.GoesOn first index ending) :
    stream.walkFrom first index ending = .ok (.still index) := by
  unfold walkFrom
  split
  case isFalse => rfl
  case isTrue inside =>
    split
    · rfl
    · exact absurd ⟨inside.1, inside.2, Bool.eq_false_iff.mpr ‹_›⟩ ends

end Walks

end Playground.TokenStream

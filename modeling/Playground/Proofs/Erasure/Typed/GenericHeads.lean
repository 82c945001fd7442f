import Playground.Proofs.Erasure.Typed.Calls
import Playground.Proofs.Erasure.Typed.Parameters
import Playground.Proofs.Erasure.Visits.Behind

/-!
# Generic functions in expressions

An async arrow function and a method of an object lose the types of their parameters. They lose
their own type parameters as well exactly when these can be read as type arguments
(`eraseTypes_generic_iff`): behind a name the angle is taken for a list of arguments, which has no
constraints, defaults or modifiers.
-/

namespace Playground

namespace TokenStream

/-- A constant is declared at the start of a program. -/
structure DeclaresConstant (stream : TokenStream) : Prop where
  keyword : stream.is 0 "const" = true
  named : stream.isPlainWord 1 = true
  noEnum : stream.is 1 "enum" = false
  equals : stream.is 2 "=" = true

/-- What stands behind the parameters of a function: an arrow, or a brace on their line. -/
def OpensBody (stream : TokenStream) (index : Nat) : Prop :=
  stream.is index "=>" = true ∨ stream.is index "\x7b" = true ∧ stream.newlineBefore index = false

/-- A name, the type parameters that may stand behind it, and parameters. -/
structure TypedHead (stream : TokenStream) (name close : Nat) (generics types : List Stretch) :
    Prop where
  word : stream.kind? name = some .word
  idle : stream.IsIdleWord name
  named : stream.NamesOperand name
  parts : ∃ opening, stream.TypeParameters (name + 1) opening generics ∧
    stream.is opening "(" = true ∧ stream.closer? opening = some close ∧
      stream.AreParameters (opening + 1) close types
  body : stream.OpensBody (close + 1)

/-- A constant whose value is an async arrow function, or an object with a method. -/
inductive IsGenericFunction (stream : TokenStream) :
    Nat → Nat → List Stretch → List Stretch → Prop where
  | arrow {close generics types} (constant : stream.DeclaresConstant)
      (async : stream.is 3 "async" = true) (head : stream.TypedHead 3 close generics types)
      (arrow : stream.is (close + 1) "=>" = true) (word : stream.kind? (close + 2) = some .word)
      (idle : stream.IsIdleWord (close + 2)) (ends : stream.is (close + 3) ";" = true) :
      IsGenericFunction stream 3 (close + 4) generics types
  | method {close generics types} (constant : stream.DeclaresConstant)
      (brace : stream.is 3 "\x7b" = true) (encloses : stream.closer? 3 = some (close + 3))
      (head : stream.TypedHead 4 close generics types)
      (bodyCloses : stream.closer? (close + 1) = some (close + 2))
      (body : stream.is (close + 1) "\x7b" = true)
      (ends : stream.is (close + 4) ";" = true) :
      IsGenericFunction stream 4 (close + 5) generics types

/-- Names of types with commas between them, and the angle behind them. -/
inductive BareNames (stream : TokenStream) : Nat → Nat → Prop where
  | last {index} (name : stream.IsTypeName index) (closes : stream.is (index + 1) ">" = true) :
      BareNames stream index (index + 2)
  | more {index stop} (name : stream.IsTypeName index)
      (separator : stream.is (index + 1) "," = true) (rest : BareNames stream (index + 2) stop) :
      BareNames stream index stop

/-- A list of type parameters at an index, if there is one, is a list of type arguments as well. -/
def ReadsAsArguments (stream : TokenStream) (angle : Nat) : Prop :=
  stream.is angle "<" = true → ∃ stop, stream.typeArgumentsEnd? angle = some stop

variable {stream : TokenStream} {first index name close opening finish stop : Nat}
  {generics types : List Stretch}

theorem step_of_idle (walk : Walk) (word : stream.kind? index = some .word)
    (idle : stream.IsIdleWord index) : stream.step walk index = .ok (.still (index + 1)) := by
  rw [step, word]
  exact wordStep_of_idle walk idle

/-! ## Type parameters without constraints -/

theorem typeEnd?_of_isTypeName {source : List Char} (read : ofSource source = .ok stream)
    (name : stream.IsTypeName index) (follows : stream.Follows (index + 1)) :
    stream.typeEnd? index = some (index + 1) :=
  have spans : stream.Spans .type index (index + 1) :=
    .plain (.unheaded (.last (.subscripted (.name (.single name)) .nothing)))
  spans.recognised (placed_of_ofSource read) (nested_of_ofSource read) (isPartnered_of_ofSource read)
    follows.stops

theorem BareNames.typeArgumentsTail?_eq {source : List Char} (read : ofSource source = .ok stream)
    (names : stream.BareNames index stop) :
    stream.typeArgumentsTail? stream.typeEnd? index = some stop := by
  induction names with
  | last name closes =>
    rw [typeArgumentsTail?, typeEnd?_of_isTypeName read name (.mark (by decide) closes)]
    simp [closes]
  | @more index _ name separator _ inductionHypothesis =>
    have noAngle : stream.is (index + 1) ">" = false := is_eq_false_of_is separator (by decide)
    rw [typeArgumentsTail?, typeEnd?_of_isTypeName read name (.mark (by decide) separator)]
    simpa [noAngle, separator] using inductionHypothesis

/-- Type parameters that have names only can be read as type arguments. -/
theorem BareNames.readsAsArguments {source : List Char} (read : ofSource source = .ok stream)
    (names : stream.BareNames (index + 1) stop) : stream.ReadsAsArguments index :=
  fun angle => ⟨stop, by
    rw [typeArgumentsEnd?, typeArgumentsWith?, if_pos angle, names.typeArgumentsTail?_eq read]⟩

/-! ## The head of a function -/

/-- Type parameters end with an angle. -/
theorem angle_before_of_typeParameters (found : stream.typeParametersEnd? index = some stop) :
    ∃ angle, stop = angle + 1 ∧ stream.is angle ">" = true := by
  have tail : ∀ {inner index}, stream.typeParametersTail? inner index = some stop →
      ∃ angle, stop = angle + 1 ∧ stream.is angle ">" = true := by
    intro inner index found
    fun_induction stream.typeParametersTail? inner index with
    | case1 | case5 => contradiction
    | case2 _ item _ _ closes => exact ⟨item + 1, (Option.some.inj found).symm, closes⟩
    | case3 _ _ _ _ _ inductionHypothesis => exact inductionHypothesis found
    | case4 _ item _ _ closes => exact ⟨item, (Option.some.inj found).symm, closes⟩
  rw [typeParametersEnd?, typeParametersWith?, if_pos (angle_of_typeParameters found)] at found
  exact tail found

section Walking

variable (nested : stream.Nested) (placed : stream.Placed)

include nested placed

/-- Parentheses that head a function are read as its parameters. -/
theorem step_of_parameters {walk : Walk} (walks : stream.WalksBehind opening walk)
    (opens : stream.is opening "(" = true) (closes : stream.closer? opening = some close)
    (head : stream.parameterHeadEnd? opening close = some (close + 1))
    (parameters : stream.AreParameters (opening + 1) close types) :
    stream.step walk opening = .ok ⟨close + 1, erasures types⟩ := by
  have closing := nested.is_close closes opens (by decide : ("(", ")") ∈ bracketPairs)
  have listed := parameters.parametersFrom_eq nested placed walks (Nat.lt_succ_self opening) closing
  rw [placed.step_of_punctuator walk opens (by decide), punctuatorStep, (is_iff.mp opens).2]
  change stream.parenthesis walk opening = _
  simp [parenthesis, closeOf_eq_ok_iff.mpr closes, head, listed, bind, Except.bind, pure,
    Except.pure, attachedIf]

omit nested in
/-- A name or the angle of type parameters stands before the parameters of a method. -/
theorem TypeParameters.followsMethodName
    (parameters : stream.TypeParameters (name + 1) opening generics)
    (word : stream.kind? name = some .word) (named : stream.NamesOperand name) :
    stream.followsMethodName opening = true := by
  cases parameters with
  | absent =>
    rw [TokenStream.followsMethodName, word]
    simpa [textIn, NamesOperand] using named
  | present found =>
    obtain ⟨angle, rfl, closes⟩ := angle_before_of_typeParameters found
    rw [TokenStream.followsMethodName, placed.kind?_of_mark closes (by decide)]
    simp [textIn, (is_iff.mp closes).2]

omit nested in
theorem TypedHead.parameterHeadEnd?_eq (head : stream.TypedHead name close generics types)
    (parameters : stream.TypeParameters (name + 1) opening generics) :
    stream.parameterHeadEnd? opening close = some (close + 1) := by
  rcases head.body with arrow | ⟨brace, sameLine⟩
  · simp [parameterHeadEnd?, arrow]
  · have noArrow : stream.is (close + 1) "=>" = false := is_eq_false_of_is brace (by decide)
    have noColon : stream.is (close + 1) ":" = false := is_eq_false_of_is brace (by decide)
    have follows := parameters.followsMethodName placed head.word head.named
    simp [parameterHeadEnd?, noArrow, noColon, brace, sameLine, follows]

omit nested placed in
/-- Marks end no walk that they do not stop. -/
theorem endsBefore_of_mark {ending : WalkEnd} (mark : stream.kind? index = some .punctuator)
    (other : stream.text index ∉ ending.stops) (line : ending.lineEnd ≠ .member) :
    stream.endsBefore first index ending = false := by
  simp [endsBefore, endsAtLine, mark, textIn, other, line]

/-- The head of a function is passed up to its body, and its types are erased. -/
theorem TypedHead.walkFrom_eq {ending : WalkEnd} {rest : Progress}
    (head : stream.TypedHead name close generics types)
    (reads : stream.ReadsAsArguments (name + 1)) (within : close < ending.limit)
    (spared : ∀ text ∈ ["<", "("], text ∉ ending.stops) (line : ending.lineEnd ≠ .member)
    (following : stream.walkFrom name (close + 1) ending = .ok rest) :
    stream.walkFrom name name ending = .ok (rest.preceded (erasures (generics ++ types))) := by
  obtain ⟨opening, typeParameters, opens, closes, parameters⟩ := head.parts
  have ordered := typeParameters.le nested placed
  have inner := lt_of_closer?_eq_some closes
  have goesOn : ∀ {index text}, text ∈ ["<", "("] → stream.is index text = true →
      stream.endsBefore name index ending = false := by
    intro index text listed found
    have foreign := (by decide : ∀ text ∈ ["<", "("], hasMark text = true) text listed
    exact endsBefore_of_mark (placed.kind?_of_mark found foreign)
      ((is_iff.mp found).2 ▸ spared text listed) line
  have list := walkFrom_of_step (Nat.lt_trans inner within) (lt_size_of_is opens)
    (goesOn (by decide) opens)
    (fun walk walks => step_of_parameters nested placed walks opens closes
      (head.parameterHeadEnd?_eq placed typeParameters) parameters)
    (Nat.lt_succ_of_lt inner) following
  have typed : stream.walkFrom name (name + 1) ending =
      .ok (rest.preceded (erasures (generics ++ types))) := by
    cases typeParameters with
    | absent => exact list
    | present found =>
      have angle := angle_of_typeParameters found
      have forward := lt_of_typeParametersEnd? nested placed found
      obtain ⟨stop, arguments⟩ := reads angle
      obtain rfl := eq_of_typeArgumentsEnd? placed arguments found
      rw [walkFrom_of_step (by omega) (lt_size_of_is angle) (goesOn (by decide) angle)
        (fun walk _ => step_of_arguments nested placed head.word head.named arguments opens walk)
        forward list]
      simp
  have nameGoesOn : stream.endsBefore name name ending = false := by
    simp [endsBefore, head.word]
  exact walkFrom_of_step (by omega) (lt_size_of_kind? head.word) nameGoesOn
    (fun walk _ => step_of_idle walk head.word head.idle) (Nat.lt_succ_self name) typed

/-! ## The value of a constant -/

/-- The walk of the value of a variable. -/
def valueEnd (stream : TokenStream) : WalkEnd :=
  ⟨stream.size, [",", ";", ")", "]", "\x7d"], .statement⟩

omit nested in
/-- A semicolon ends the value. -/
theorem walkFrom_of_valueEnd (ends : stream.is index ";" = true) :
    stream.walkFrom first index stream.valueEnd = .ok (.still index) :=
  walkFrom_of_endsBefore (endsBefore_of_stop (placed.kind?_of_mark ends (by decide))
    (by simp [valueEnd, (is_iff.mp ends).2]))

/-- The value of the constant is walked up to its semicolon. -/
theorem IsGenericFunction.walkFrom_value
    (function : stream.IsGenericFunction name finish generics types)
    (reads : stream.ReadsAsArguments (name + 1)) : ∃ semicolon, finish = semicolon + 1 ∧
      stream.is semicolon ";" = true ∧
        stream.walkFrom 3 3 stream.valueEnd = .ok ⟨semicolon, erasures (generics ++ types)⟩ := by
  cases function with
  | @arrow close _ _ _ _ head arrow word idle ends =>
    refine ⟨close + 3, rfl, ends, ?_⟩
    have inside := lt_size_of_kind? word
    have arrowKind := placed.kind?_of_mark arrow (by decide)
    have arrowGoesOn : stream.endsBefore 3 (close + 1) stream.valueEnd = false :=
      endsBefore_of_mark arrowKind (by simp [valueEnd, (is_iff.mp arrow).2]) (by simp [valueEnd])
    have unended : stream.endsExpression (close + 1) = false := by
      rw [Bool.eq_false_iff]
      intro ended
      exact absurd ((is_iff.mp arrow).2 ▸ text_of_endsExpression ended arrowKind) (by decide)
    have wordGoesOn : stream.endsBefore 3 (close + 2) stream.valueEnd = false := by
      simp [endsBefore, word, endsAtLine, unended]
    have result := walkFrom_of_step inside inside wordGoesOn
      (fun walk _ => step_of_idle walk word idle) (Nat.lt_succ_self (close + 2))
      (walkFrom_of_valueEnd placed ends)
    have body := walkFrom_of_step (lt_size_of_is arrow) (lt_size_of_is arrow) arrowGoesOn
      (fun walk _ => step_of_mark walk arrowKind (is_iff.mp arrow).2 (by decide))
      (Nat.lt_succ_self (close + 1)) result
    have whole := head.walkFrom_eq nested placed reads (Nat.lt_of_succ_lt (lt_size_of_is arrow))
      (by simp [valueEnd]) (by simp [valueEnd]) body
    rw [whole]
    simp [Progress.still, Progress.preceded]
  | @method close _ _ _ brace encloses head bodyCloses body ends =>
    refine ⟨close + 4, rfl, ends, ?_⟩
    have emptyBody : stream.walkFrom (close + 2) (close + 2) (.upTo (close + 2)) =
        .ok (.still (close + 2)) := walkFrom_of_le (Nat.le_refl _)
    have braceKind := placed.kind?_of_mark brace (by decide)
    have finished : stream.walkFrom 4 (close + 3) (.upTo (close + 3)) = .ok (.still (close + 3)) :=
      walkFrom_of_le (Nat.le_refl _)
    have bodyStep : ∀ walk, stream.WalksBehind (close + 1) walk →
        stream.step walk (close + 1) = .ok (.still (close + 3)) := by
      intro walk walks
      rw [placed.step_of_brace walk body]
      exact walkInside_of_walkFrom walks bodyCloses emptyBody
    have bodyWalked := walkFrom_of_step (Nat.lt_add_of_pos_right (Nat.succ_pos 1))
      (lt_size_of_is body) (endsBefore_upTo ..) bodyStep
      (Nat.lt_add_of_pos_right (Nat.succ_pos 1)) finished
    have inside := head.walkFrom_eq nested placed reads (by simp [WalkEnd.upTo])
      (by simp [WalkEnd.upTo]) (by simp [WalkEnd.upTo]) bodyWalked
    have braceGoesOn : stream.endsBefore 3 3 stream.valueEnd = false :=
      endsBefore_of_mark braceKind (by simp [valueEnd, (is_iff.mp brace).2]) (by simp [valueEnd])
    have objectStep : ∀ walk, stream.WalksBehind 3 walk →
        stream.step walk 3 = .ok ⟨close + 4, erasures (generics ++ types)⟩ := by
      intro walk walks
      rw [placed.step_of_brace walk brace]
      simpa [Progress.preceded, Progress.still] using walkInside_of_walkFrom walks encloses inside
    have forward := lt_of_closer?_eq_some encloses
    have whole := walkFrom_of_step (lt_size_of_is brace) (lt_size_of_is brace) braceGoesOn
      objectStep (Nat.lt_succ_of_lt forward) (walkFrom_of_valueEnd placed ends)
    rw [whole]
    simp

/-! ## The declaration of the constant -/

omit nested in
theorem DeclaresConstant.step_eq (constant : stream.DeclaresConstant) (walk : Walk) :
    stream.step walk 0 = stream.variablesFrom walk 1 := by
  have binding : stream.startsBinding 1 = true := by
    simp [startsBinding, constant.named]
  have starts : stream.isPropertyName 0 = false := rfl
  rw [placed.step_of_keyword walk constant.keyword (by decide), wordStep, starts,
    if_neg Bool.false_ne_true, (is_iff.mp constant.keyword).2]
  simp [binding, constant.noEnum]

omit nested in
/-- The constant is its value, and what a comma behind that declares. -/
theorem DeclaresConstant.variablesFrom_eq (constant : stream.DeclaresConstant) (walk : Walk) :
    stream.variablesFrom walk 1 = (do
      let one ← walk 3 stream.valueEnd
      if 1 ≤ one.next ∧ stream.is one.next "," = true then
        let rest ← stream.variablesFrom walk (one.next + 1)
        return rest.preceded one.edits
      else return one) := by
  have word := kind?_of_isPlainWord constant.named
  have noBrace : stream.is 1 "\x7b" = false := placed.is_eq_false_of_word word (by decide)
  have noBracket : stream.is 1 "[" = false := placed.is_eq_false_of_word word (by decide)
  have target : stream.variableTarget walk 1 = .ok (some (.still 2)) := by
    simp [variableTarget, noBrace, noBracket, constant.named, pure, Except.pure]
  have noMark : stream.is 2 "!" = false := is_eq_false_of_is constant.equals (by decide)
  have noColon : stream.is 2 ":" = false := is_eq_false_of_is constant.equals (by decide)
  have value : stream.variableFrom walk (.still 2) = walk 3 stream.valueEnd := by
    have unmarked : stream.definiteMark 2 = .still 2 := by
      simp [definiteMark, erasedMarker, noMark]
    have untyped : stream.erasedAnnotation 2 = .ok (.still 2) := by
      simp [ erasedAnnotation, optionalAnnotation, noColon, attachedIf, bind, Except.bind, pure,
        Except.pure, Progress.still]
    unfold variableFrom
    dsimp only [Progress.still]
    rw [unmarked]
    dsimp only [Progress.still]
    rw [untyped]
    simp only [bind, Except.bind, Progress.still, initializer, constant.equals, if_true]
    change _ = walk (2 + 1) ⟨stream.size, [",", ";", ")", "]", "\x7d"], .statement⟩
    cases walk (2 + 1) ⟨stream.size, [",", ";", ")", "]", "\x7d"], .statement⟩ with
    | error fault => rfl
    | ok progress => rfl
  rw [variablesFrom, target]
  change (stream.variableFrom walk (.still 2) >>= _) = _
  rw [value]
  rfl

/-- The edits of the program are those of the value, and others behind it. -/
theorem DeclaresConstant.exists_value (constant : stream.DeclaresConstant) {progress : Progress}
    (walked : stream.walkFrom 0 0 (.upTo stream.size) = .ok progress) : ∃ value others,
      stream.walkFrom 3 3 stream.valueEnd = .ok value ∧ progress.edits = value.edits ++ others ∧
        ∀ barrier, stream.IsBarrier barrier → barrier < value.next →
          stream.AllBehind barrier others := by
  have inside := lt_size_of_is constant.keyword
  obtain ⟨one, rest, stepped, -, following, rfl⟩ :=
    GoesOn.exists_step nested placed ⟨inside, inside, endsBefore_upTo ..⟩ walked
  rw [constant.step_eq placed, constant.variablesFrom_eq placed] at stepped
  obtain ⟨value, found, declared⟩ := bind_eq_ok_iff.mp stepped
  rw [walkBehind_of_lt (by decide)] at found
  have ahead := le_of_walkFrom nested placed found
  -- what the declaration goes on with lies behind its value
  obtain ⟨more, together, reached, behind⟩ : ∃ more,
      one.edits = value.edits ++ more ∧ value.next ≤ one.next ∧
        ∀ barrier, stream.IsBarrier barrier → barrier < value.next →
          stream.AllBehind barrier more := by
    split at declared
    case isFalse =>
      cases declared
      exact ⟨[], (List.append_nil _).symm, Nat.le_refl _, by simp⟩
    case isTrue comma =>
      obtain ⟨others, foundOthers, result⟩ := bind_eq_ok_iff.mp declared
      cases result
      have same : (stream.walkBehind 0).AgreesBehind (stream.walkBehind value.next) value.next :=
        fun next ending beyond => by rw [walkBehind_of_lt (by omega), walkBehind_of_lt beyond]
      rw [variablesFrom_congr nested placed same (Nat.le_succ _)] at foundOthers
      have further : value.next + 1 ≤ others.next :=
        le_of_variablesFrom nested placed (advances_walkBehind nested placed _) foundOthers
      refine ⟨others.edits, rfl, Nat.le_of_succ_le further, fun barrier solid before => ?_⟩
      exact allBehind_of_variablesFrom placed
        (spares_walkBehind nested placed solid (Nat.le_of_lt before)) (Nat.lt_succ_of_lt before)
        foundOthers
  refine ⟨value, more ++ rest.edits, found, ?_, fun barrier solid before => ?_⟩
  · rw [edits_preceded, together, List.append_assoc]
  · exact allBehind_append.mpr ⟨behind barrier solid before,
      allBehind_of_walkFrom nested placed solid (Nat.lt_of_lt_of_le before reached) following⟩

/-- The declaration of the constant is its value. -/
theorem DeclaresConstant.walkFrom_eq (constant : stream.DeclaresConstant) {semicolon : Nat}
    {edits : List Edit} (value : stream.walkFrom 3 3 stream.valueEnd = .ok ⟨semicolon, edits⟩)
    (ends : stream.is semicolon ";" = true) (whole : stream.size = semicolon + 1) :
    stream.walkFrom 0 0 (.upTo stream.size) = .ok ⟨stream.size, edits⟩ := by
  have inside := lt_size_of_is constant.keyword
  have ahead : 3 ≤ semicolon := le_of_walkFrom nested placed value
  have noComma : stream.is semicolon "," = false := is_eq_false_of_is ends (by decide)
  have following : stream.walkFrom 0 semicolon (.upTo stream.size) = .ok (.still stream.size) :=
    walkFrom_of_semicolon placed ends (lt_size_of_is ends)
      (whole ▸ walkFrom_of_le (Nat.le_refl _))
  have stepped : ∀ walk, stream.WalksBehind 0 walk →
      stream.step walk 0 = .ok ⟨semicolon, edits⟩ := by
    intro walk walks
    rw [constant.step_eq placed, constant.variablesFrom_eq placed, walks 3 _ (by decide), value]
    simp [bind, Except.bind, noComma, pure, Except.pure]
  rw [walkFrom_of_step inside inside (endsBefore_upTo ..) stepped (Nat.zero_lt_of_lt ahead)
    following]
  simp

/-! ## Type parameters that stay -/

/-- Nothing is erased up to an angle that begins no type arguments. -/
theorem TypedHead.allBehind {ending : WalkEnd} {progress : Progress}
    (head : stream.TypedHead name close generics types)
    (angle : stream.is (name + 1) "<" = true)
    (unread : stream.typeArgumentsEnd? (name + 1) = none) (within : name + 1 < ending.limit)
    (spared : "<" ∉ ending.stops) (line : ending.lineEnd ≠ .member)
    (walked : stream.walkFrom name name ending = .ok progress) :
    stream.AllBehind (name + 1) progress.edits ∧ name + 1 < progress.next := by
  have mark := placed.kind?_of_mark angle (by decide)
  have ends : stream.endsExpression name = true := (endsExpression_of_word head.word).mpr head.named
  have nameGoesOn : stream.endsBefore name name ending = false := by
    simp [endsBefore, head.word]
  have angleGoesOn : stream.endsBefore name (name + 1) ending = false :=
    endsBefore_of_mark mark ((is_iff.mp angle).2 ▸ spared) line
  have solid : stream.IsBarrier (name + 1) := isBarrier_of_text (by simp [(is_iff.mp angle).2])
  have angleStep : ∀ walk, stream.WalksBehind (name + 1) walk →
      stream.step walk (name + 1) = .ok (.still (name + 2)) := by
    intro walk _
    rw [step_of_angle placed angle]
    simp [TokenStream.angle, ends, callArguments?, unread]
  obtain ⟨behindName, walkedAngle, rfl⟩ := exists_rest_of_walkFrom (Nat.lt_of_succ_lt within)
    (lt_size_of_kind? head.word) nameGoesOn (fun walk _ => step_of_idle walk head.word head.idle)
    (Nat.lt_succ_self name) walked
  obtain ⟨behindAngle, walkedList, rfl⟩ := exists_rest_of_walkFrom within (lt_size_of_is angle)
    angleGoesOn angleStep (Nat.lt_succ_self (name + 1)) walkedAngle
  exact ⟨allBehind_of_walkFrom nested placed solid (Nat.lt_succ_self (name + 1)) walkedList,
    le_of_walkFrom nested placed walkedList⟩

theorem TypedHead.lt (head : stream.TypedHead name close generics types) : name + 1 < close := by
  obtain ⟨opening, typeParameters, -, closes, -⟩ := head.parts
  exact Nat.lt_of_le_of_lt (typeParameters.le nested placed) (lt_of_closer?_eq_some closes)

/-- Nothing in the program is erased up to an angle that begins no type arguments. -/
theorem IsGenericFunction.allBehind {progress : Progress}
    (function : stream.IsGenericFunction name finish generics types)
    (angle : stream.is (name + 1) "<" = true)
    (unread : stream.typeArgumentsEnd? (name + 1) = none)
    (walked : stream.walkFrom 0 0 (.upTo stream.size) = .ok progress) :
    stream.AllBehind (name + 1) progress.edits := by
  have solid : stream.IsBarrier (name + 1) := isBarrier_of_text (by simp [(is_iff.mp angle).2])
  cases function with
  | @arrow close _ _ constant _ head =>
    obtain ⟨value, others, found, together, behind⟩ :=
      constant.exists_value nested placed walked
    obtain ⟨inValue, reached⟩ := head.allBehind nested placed angle unread (lt_size_of_is angle)
      (by simp [valueEnd]) (by simp [valueEnd]) found
    rw [together]
    exact allBehind_append.mpr ⟨inValue, behind 4 solid reached⟩
  | @method close _ _ constant brace encloses head =>
    obtain ⟨value, others, found, together, behind⟩ :=
      constant.exists_value nested placed walked
    have braceKind := placed.kind?_of_mark brace (by decide)
    have inner := head.lt nested placed
    have begins := lt_size_of_is brace
    obtain ⟨one, rest, stepped, -, following, rfl⟩ := GoesOn.exists_step nested placed
      ⟨begins, begins, endsBefore_of_mark braceKind (by simp [valueEnd, (is_iff.mp brace).2])
        (by simp [valueEnd])⟩ found
    rw [placed.step_of_brace _ brace] at stepped
    obtain ⟨_, closes, stepped⟩ := bind_eq_ok_iff.mp stepped
    obtain rfl := Option.some.inj ((closeOf_eq_ok_iff.mp closes).symm.trans encloses)
    obtain ⟨inside, foundInside, result⟩ := bind_eq_ok_iff.mp stepped
    cases result
    rw [walkBehind_of_lt (by decide)] at foundInside
    have inObject := (head.allBehind nested placed angle unread
      (by simp only [WalkEnd.upTo]; omega) (by simp [WalkEnd.upTo]) (by simp [WalkEnd.upTo])
      foundInside).1
    have after := le_of_walkFrom nested placed following
    dsimp only at after
    rw [together, edits_preceded]
    refine allBehind_append.mpr ⟨allBehind_append.mpr ⟨inObject, ?_⟩,
      behind 5 solid (show 5 < rest.next by omega)⟩
    exact allBehind_of_walkFrom nested placed solid (by dsimp only; omega) following

/-! ## The stretches of a function -/

theorem TypedHead.laid (head : stream.TypedHead name close generics types) :
    Laid (stream.passed (name + 1)) (generics ++ types) (stream.passed close) := by
  obtain ⟨opening, typeParameters, -, -, parameters⟩ := head.parts
  exact (typeParameters.laid nested placed).append ((parameters.laid nested placed).from_lower
    (placed.passed_mono (Nat.le_succ opening)))

end Walking

theorem TypedHead.beforeNoWord {source : List Char} (read : ofSource source = .ok stream)
    (head : stream.TypedHead name close generics types) :
    ∀ stretch ∈ generics ++ types, stretch.BeforeNoWord stream.source := by
  obtain ⟨opening, typeParameters, opens, closes, parameters⟩ := head.parts
  have closing := (nested_of_ofSource read).is_close closes opens
    (by decide : ("(", ")") ∈ bracketPairs)
  exact List.forall_mem_append.mpr
    ⟨typeParameters.beforeNoWord read (markAt_of_is opens (by decide +kernel)),
      parameters.beforeNoWord read closing⟩

theorem IsGenericFunction.exists_head
    (function : stream.IsGenericFunction name finish generics types) :
    ∃ close, stream.TypedHead name close generics types := by
  cases function with
  | arrow _ _ head | method _ _ _ head => exact ⟨_, head⟩

theorem IsGenericFunction.declaresConstant
    (function : stream.IsGenericFunction name finish generics types) : stream.DeclaresConstant := by
  cases function with
  | arrow constant | method constant => exact constant

/-- Type parameters that are no type arguments stay in the text. -/
theorem IsGenericFunction.readsAsArguments {source : List Char}
    (read : ofSource source = .ok stream)
    (function : stream.IsGenericFunction name finish generics types) {progress : Progress}
    (walked : stream.walkFrom 0 0 (.upTo stream.size) = .ok progress)
    (written : editedText stream.source progress.edits =
      textWithout stream.source [] 0 (generics ++ types)) :
    stream.ReadsAsArguments (name + 1) := by
  have nested := nested_of_ofSource read
  have placed := placed_of_ofSource read
  intro angle
  by_contra unread
  have none : stream.typeArgumentsEnd? (name + 1) = none := by
    cases found : stream.typeArgumentsEnd? (name + 1) with
    | none => rfl
    | some stop => exact absurd ⟨stop, found⟩ unread
  have behind := function.allBehind nested placed angle none walked
  obtain ⟨close, head⟩ := function.exists_head
  obtain ⟨opening, typeParameters, opens, -, parameters⟩ := head.parts
  cases typeParameters with
  | absent missing =>
    rw [missing] at angle
    contradiction
  | present =>
    let stretch := stream.attachedStretch (name + 1) opening
    have vanishes : ∃ blanks, (∀ character ∈ blanks, Text.isBlank character = true) ∧
        textWithout stream.source (Draft.empty.characters stream.source) Draft.empty.copied
          (stretch :: types) = textWithout stream.source (Draft.empty.characters stream.source ++
            slice stream.source Draft.empty.copied (stream.passed (name + 1)) ++ blanks)
            (stream.passed opening) types :=
      ⟨_, fun _ left => Stretch.isBlank_of_mem_trace left, rfl⟩
    refine ne_textWithout_of_kept read angle rfl (by constructor <;> decide +kernel) opens rfl
      (by constructor <;> decide +kernel) (by decide) (parameters.laid nested placed)
      (Nat.zero_le _) behind vanishes ?_
    rw [← editedText_eq]
    exact written

end TokenStream

open TokenStream

/-- The function loses the types of its parameters, and its own type parameters exactly when these
can be read as type arguments. -/
theorem eraseTypes_generic_iff {source : String} {stream : TokenStream} {name : Nat}
    {generics types : List Stretch} (read : ofSource source.toList = .ok stream)
    (function : stream.IsGenericFunction name stream.size generics types) :
    eraseTypes source = .ok (String.ofList (linesWithout stream.source 0 (generics ++ types))) ↔
      stream.ReadsAsArguments (name + 1) := by
  have nested := nested_of_ofSource read
  have placed := placed_of_ofSource read
  obtain ⟨close, head⟩ := function.exists_head
  have lines : linesWithout stream.source 0 (generics ++ types) =
      textWithout stream.source [] 0 (generics ++ types) := by
    rw [textWithout_eq_linesWithout (head.beforeNoWord read), List.nil_append]
  rw [lines]
  constructor
  · intro erased
    obtain ⟨edits, found, written⟩ := (eraseTypes_eq_ok_iff read).mp erased
    obtain ⟨progress, walked, result⟩ := bind_eq_ok_iff.mp found
    cases result
    rw [String.toList_ofList] at written
    exact function.readsAsArguments read walked written.symm
  · intro reads
    obtain ⟨semicolon, whole, ends, value⟩ := function.walkFrom_value nested placed reads
    have laid := (head.laid nested placed).from_lower (Nat.zero_le _)
    exact eraseTypes_of_erasures read
      (function.declaresConstant.walkFrom_eq nested placed value ends whole) laid

/-- A method with two type parameters on two lines. -/
theorem eraseTypes_of_genericMethod : ∃ stream generics types,
    ofSource "const o = \x7b name <T,\nU>(x: T, y?: U[]) \x7b \x7d \x7d;".toList = .ok stream ∧
      stream.IsGenericFunction 4 stream.size generics types ∧ stream.ReadsAsArguments 5 ∧
      eraseTypes "const o = \x7b name <T,\nU>(x: T, y?: U[]) \x7b \x7d \x7d;" =
        .ok "const o = \x7b name\n(x, y) \x7b \x7d \x7d;" := by
  have facts : ((ofSource
      "const o = \x7b name <T,\nU>(x: T, y?: U[]) \x7b \x7d \x7d;".toList).toOption.any
      fun stream => decide
        ((∀ token : Nat × String, token ∈ [(0, "const"), (2, "="), (3, "\x7b"), (7, ","), (9, ">"),
            (10, "("), (12, ":"), (14, ","), (16, "?"), (17, ":"), (22, "\x7b"), (25, ";")] →
              stream.is token.1 token.2 = true) ∧
          (∀ token : Nat × String, token ∈ [(1, "enum"), (12, "?"), (14, "="), (21, "=")] →
            stream.is token.1 token.2 = false) ∧
          (∀ index : Nat, index ∈ [1, 11, 15] → stream.isPlainWord index = true ∧
            stream.text index ≠ "this") ∧
          (∀ pair : Nat × Nat, pair ∈ [(3, 24), (10, 21), (22, 23)] →
            stream.closer? pair.1 = some pair.2) ∧
          (∀ pair : Nat × Nat, pair ∈ [(13, 14), (18, 21)] → stream.typeEnd? pair.1 = some pair.2) ∧
          (stream.kind? 4 = some .word ∧ stream.text 4 ∉ constructWords ∧
            stream.text 4 ∉ expressionKeywords) ∧
          stream.typeParametersEnd? 5 = some 10 ∧ stream.IsTypeName 6 ∧ stream.IsTypeName 8 ∧
          stream.newlineBefore 22 = false ∧ stream.size = 26 ∧
          String.ofList (linesWithout stream.source 0 [stream.attachedStretch 5 10,
              stream.attachedStretch 12 14, stream.tokenStretch 16, stream.attachedStretch 17 21]) =
            "const o = \x7b name\n(x, y) \x7b \x7d \x7d;")) = true := by
    decide +kernel
  obtain ⟨stream, read, tokens, missing, names, closes, typed, ⟨word, idle, named⟩, generics,
    one, other, sameLine, size, text⟩ := exists_ok_of_any _ facts
  have written : ∀ {index text}, (index, text) ∈ [(0, "const"), (2, "="), (3, "\x7b"), (7, ","),
      (9, ">"), (10, "("), (12, ":"), (14, ","), (16, "?"), (17, ":"), (22, "\x7b"), (25, ";")] →
      stream.is index text = true :=
    fun listed => tokens _ listed
  have first : stream.IsParameter 11 14 ([] ++ [stream.attachedStretch 12 14]) :=
    .one (.named (names 11 (by decide)).1 (names 11 (by decide)).2
      (.absent (missing (12, "?") (by decide)))
      (.present (written (by decide)) (typed (13, 14) (by decide)))
      (.absent (missing (14, "=") (by decide))))
  have second : stream.IsParameter 15 21
      ([stream.tokenStretch 16] ++ [stream.attachedStretch 17 21]) :=
    .one (.named (names 15 (by decide)).1 (names 15 (by decide)).2 (.present (written (by decide)))
      (.present (written (by decide)) (typed (18, 21) (by decide)))
      (.absent (missing (21, "=") (by decide))))
  have head : stream.TypedHead 4 21 [stream.attachedStretch 5 10]
      ([] ++ [stream.attachedStretch 12 14] ++
        ([stream.tokenStretch 16] ++ [stream.attachedStretch 17 21])) :=
    ⟨word, .free idle, named,
      ⟨10, .present generics, written (by decide), closes (10, 21) (by decide),
        .more first (written (by decide)) (.last second)⟩, .inr ⟨written (by decide), sameLine⟩⟩
  have constant : stream.DeclaresConstant :=
    ⟨written (by decide), (names 1 (by decide)).1, missing (1, "enum") (by decide),
      written (by decide)⟩
  have function : stream.IsGenericFunction 4 stream.size [stream.attachedStretch 5 10]
      ([] ++ [stream.attachedStretch 12 14] ++
        ([stream.tokenStretch 16] ++ [stream.attachedStretch 17 21])) := by
    rw [size]
    exact .method constant (written (by decide)) (closes (3, 24) (by decide)) head
      (closes (22, 23) (by decide)) (written (by decide)) (written (by decide))
  have bare : stream.BareNames 6 10 :=
    .more one (written (by decide)) (.last other (written (by decide)))
  have reads : stream.ReadsAsArguments 5 := bare.readsAsArguments read
  refine ⟨stream, _, _, read, function, reads, ?_⟩
  exact text ▸ (eraseTypes_generic_iff read function).mpr reads

/-- A type parameter with a constraint stays, although its function without it is erased. -/
theorem eraseTypes_of_boundedHead : ∃ stream,
    ofSource "const f = async <T extends U>(x: T) => x;".toList = .ok stream ∧
      stream.IsGenericFunction 3 stream.size [stream.attachedStretch 4 9]
        [stream.attachedStretch 11 13] ∧
      eraseTypes "const f = async <T extends U>(x: T) => x;" =
        .ok "const f = async <T extends U>(x) => x;" ∧
      eraseTypes "const f = async (x: T) => x;" = .ok "const f = async (x) => x;" ∧
      linesWithout stream.source 0 [stream.attachedStretch 4 9, stream.attachedStretch 11 13] =
        "const f = async(x) => x;".toList := by
  have facts : ((ofSource "const f = async <T extends U>(x: T) => x;".toList).toOption.any
      fun stream => decide
        ((∀ token : Nat × String, token ∈ [(0, "const"), (2, "="), (3, "async"), (9, "("), (11, ":"),
            (14, "=>"), (16, ";")] → stream.is token.1 token.2 = true) ∧
          (∀ token : Nat × String, token ∈ [(1, "enum"), (11, "?"), (13, "=")] →
            stream.is token.1 token.2 = false) ∧
          (∀ index : Nat, index ∈ [1, 10] → stream.isPlainWord index = true ∧
            stream.text index ≠ "this") ∧
          stream.closer? 9 = some 13 ∧ stream.typeEnd? 12 = some 13 ∧
          (∀ index : Nat, index ∈ [3, 15] → stream.kind? index = some .word ∧
            stream.text index ∉ constructWords) ∧
          stream.text 3 ∉ expressionKeywords ∧ stream.typeParametersEnd? 4 = some 9 ∧
          stream.size = 17 ∧
          linesWithout stream.source 0 [stream.attachedStretch 4 9, stream.attachedStretch 11 13] =
            "const f = async(x) => x;".toList)) = true := by
    decide +kernel
  obtain ⟨stream, read, tokens, missing, names, closes, typed, words, named, generics, size, text⟩ :=
    exists_ok_of_any _ facts
  have written : ∀ {index text}, (index, text) ∈ [(0, "const"), (2, "="), (3, "async"), (9, "("),
      (11, ":"), (14, "=>"), (16, ";")] → stream.is index text = true :=
    fun listed => tokens _ listed
  have parameter : stream.IsParameter 10 13 ([] ++ [stream.attachedStretch 11 13]) :=
    .one (.named (names 10 (by decide)).1 (names 10 (by decide)).2
      (.absent (missing (11, "?") (by decide))) (.present (written (by decide)) typed)
      (.absent (missing (13, "=") (by decide))))
  have head : stream.TypedHead 3 13 [stream.attachedStretch 4 9] [stream.attachedStretch 11 13] :=
    ⟨(words 3 (by decide)).1, .free (words 3 (by decide)).2, named,
      ⟨9, .present generics, written (by decide), closes, .last parameter⟩,
      .inl (written (by decide))⟩
  have constant : stream.DeclaresConstant :=
    ⟨written (by decide), (names 1 (by decide)).1, missing (1, "enum") (by decide),
      written (by decide)⟩
  have function : stream.IsGenericFunction 3 stream.size [stream.attachedStretch 4 9]
      [stream.attachedStretch 11 13] := by
    rw [size]
    exact .arrow constant (written (by decide)) head (written (by decide))
      (words 15 (by decide)).1 (.free (words 15 (by decide)).2) (written (by decide))
  exact ⟨stream, read, function, by decide +kernel, by decide +kernel, text⟩

end Playground

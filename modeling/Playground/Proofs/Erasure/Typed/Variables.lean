import Playground.Proofs.Erasure.Typed.Parts

/-!
# Typed variables

A program of variable declarations whose values are plain loses the types of its variables, with
the exclamation marks before them, and nothing else (`eraseTypes_of_declarations`).
-/

namespace Playground

namespace TokenStream

/-- Plain code on one line; its first token may begin the line. -/
structure LineExpression (stream : TokenStream) (first stop : Nat) : Prop where
  nonempty : first < stop
  plain : stream.Plain false first stop
  oneLine : ∀ index, first < index → index < stop → stream.newlineBefore index = false

/-- The type of a variable, which an exclamation mark may precede. -/
inductive VariableType (stream : TokenStream) : Nat → Nat → List Stretch → Prop where
  | annotated {index stop types} (unmarked : stream.is index "!" = false)
      (ascription : stream.Annotation index stop types) : VariableType stream index stop types
  | definite {mark stop types} (found : stream.is mark "!" = true)
      (colon : stream.is (mark + 1) ":" = true)
      (ascription : stream.Annotation (mark + 1) stop types) :
      VariableType stream mark stop (stream.tokenStretch mark :: types)

/-- A variable: its name, its type and its value. -/
structure IsVariable (stream : TokenStream) (name stop : Nat) (types : List Stretch) : Prop where
  named : stream.isPlainWord name = true
  free : stream.text name ∉ constructWords
  parts : ∃ typed, stream.VariableType (name + 1) typed types ∧
    stream.Initializer stream.LineExpression typed stop

/-- Variables with commas between them. -/
inductive AreVariables (stream : TokenStream) : Nat → Nat → List Stretch → Prop where
  | last {name stop types} (one : stream.IsVariable name stop types) :
      AreVariables stream name stop types
  | more {name comma stop types others} (one : stream.IsVariable name comma types)
      (separator : stream.is comma "," = true) (rest : AreVariables stream (comma + 1) stop others) :
      AreVariables stream name stop (types ++ others)

/-- Declarations of variables, each ended by a semicolon. -/
inductive AreDeclarations (stream : TokenStream) : Nat → Nat → List Stretch → Prop where
  | nothing {index} : AreDeclarations stream index index []
  | declaration {keyword semicolon stop text types others} (listed : text ∈ ["let", "const", "var"])
      (begins : stream.is keyword text = true)
      (declared : stream.AreVariables (keyword + 1) semicolon types)
      (ends : stream.is semicolon ";" = true)
      (rest : AreDeclarations stream (semicolon + 1) stop others) :
      AreDeclarations stream keyword stop (types ++ others)

variable {stream : TokenStream} {index name keyword stop : Nat} {types : List Stretch}

/-! ## Walking -/

theorem AreVariables.first (declared : stream.AreVariables name stop types) :
    stream.isPlainWord name = true ∧ stream.text name ∉ constructWords := by
  cases declared with
  | last one | more one => exact ⟨one.named, one.free⟩

/-- A keyword of a declaration reads the variables behind it. -/
theorem step_of_declared (placed : stream.Placed) (walk : Walk) {text : String}
    (listed : text ∈ ["let", "const", "var"]) (begins : stream.is keyword text = true)
    (named : stream.isPlainWord (keyword + 1) = true)
    (free : stream.text (keyword + 1) ∉ constructWords)
    (starts : stream.isPropertyName keyword = false) :
    stream.step walk keyword = stream.variablesFrom walk (keyword + 1) := by
  have words : ∀ text ∈ ["let", "const", "var"], text.toList.head?.any startsWord = true := by
    decide
  have binding : stream.startsBinding (keyword + 1) = true := by
    simp [startsBinding, named]
  have noEnum : stream.is (keyword + 1) "enum" = false := by
    rw [Bool.eq_false_iff]
    intro found
    exact free ((is_iff.mp found).2 ▸ by decide)
  rw [placed.step_of_keyword walk begins (words text listed), wordStep, if_neg (by simp [starts]),
    (is_iff.mp begins).2]
  simp only [List.mem_cons, List.not_mem_nil, or_false] at listed
  rcases listed with rfl | rfl | rfl
  · simp [binding]
  · simp [binding, noEnum]
  · simp [binding]

section Walking

variable (nested : stream.Nested) (placed : stream.Placed)

include nested placed

theorem VariableType.parts (type : stream.VariableType index stop types) (later : 0 < index) :
    ∃ ascription, stream.erasedAnnotation (stream.definiteMark index).next = .ok ascription ∧
      ascription.next = stop ∧
        (stream.definiteMark index).edits ++ ascription.edits = erasures types := by
  cases type with
  | annotated unmarked ascription =>
    have still : stream.definiteMark index = .still index := by
      simp [definiteMark, erasedMarker, unmarked]
    rw [still]
    exact ⟨_, ascription.erasedAnnotation_eq nested placed later, rfl, rfl⟩
  | definite found colon ascription =>
    have marked : stream.definiteMark index = ⟨index + 1, erasures [stream.tokenStretch index]⟩ := by
      rw [definiteMark, if_pos colon, (OptionalMark.present found).erasedMarker_eq]
    rw [marked]
    exact ⟨_, ascription.erasedAnnotation_eq nested placed (Nat.succ_pos index), rfl, rfl⟩

theorem VariableType.le (type : stream.VariableType index stop types) : index ≤ stop := by
  cases type with
  | annotated _ ascription => exact ascription.le nested placed
  | definite _ _ ascription => exact Nat.le_of_succ_le (ascription.le nested placed)

theorem IsVariable.lt (one : stream.IsVariable name stop types) : name < stop := by
  obtain ⟨-, -, typed, type, value⟩ := one
  exact Nat.lt_of_lt_of_le (type.le nested placed) (value.le fun value => Nat.le_of_lt value.nonempty)

theorem AreVariables.lt (declared : stream.AreVariables name stop types) : name < stop := by
  induction declared with
  | last one => exact one.lt nested placed
  | more one _ _ inductionHypothesis =>
    have := one.lt nested placed
    omega

/-- The value of a variable is passed up to the comma or semicolon behind it. -/
theorem LineExpression.walkFrom_eq {first : Nat} {mark : String}
    (value : stream.LineExpression first stop) (listed : mark ∈ [",", ";"])
    (behind : stream.is stop mark = true) :
    stream.walkFrom first first ⟨stream.size, [",", ";", ")", "]", "\x7d"], .statement⟩ =
      .ok (.still stop) := by
  have marks : ∀ mark ∈ [",", ";"], (mark ∉ ["=>", ":", "\x7b"] ∧
      mark ∈ [",", ";", ")", "]", "\x7d"]) ∧ hasMark mark = true := by
    decide
  obtain ⟨⟨noHead, stops⟩, foreign⟩ := marks mark listed
  refine walkFrom_plain_value nested placed value.plain (headFree_of_is behind noHead) ?_ (.inr ?_)
  · refine ⟨Nat.le_of_lt (lt_size_of_is behind), ?_, fun between after before => ?_⟩
    · simp
    · simp [endsAtLine, value.oneLine between after before]
  · exact endsBefore_of_stop (placed.kind?_of_mark behind foreign) ((is_iff.mp behind).2 ▸ stops)

variable {walk : Walk} (walks : stream.WalksBehind keyword walk)

include walks

theorem IsVariable.variableFrom_eq {mark : String} (one : stream.IsVariable name stop types)
    (after : keyword < name) (listed : mark ∈ [",", ";"]) (behind : stream.is stop mark = true) :
    stream.variableTarget walk name = .ok (some (.still (name + 1))) ∧
      stream.variableFrom walk (.still (name + 1)) = .ok ⟨stop, erasures types⟩ := by
  obtain ⟨named, -, typed, type, value⟩ := one
  have word := kind?_of_isPlainWord named
  have noBrace : stream.is name "\x7b" = false := placed.is_eq_false_of_word word (by decide)
  have noBracket : stream.is name "[" = false := placed.is_eq_false_of_word word (by decide)
  constructor
  · simp [variableTarget, noBrace, noBracket, named, pure, Except.pure]
  · obtain ⟨ascription, annotated, rfl, edits⟩ := type.parts nested placed (Nat.succ_pos name)
    have typedBehind : name + 1 ≤ ascription.next := type.le nested placed
    have initialized : stream.initializer walk ascription.next
        ⟨stream.size, [",", ";", ")", "]", "\x7d"], .statement⟩ = .ok (.still stop) :=
      value.initializer_eq fun _ expression => by
        rw [walks _ _ (by omega)]
        exact expression.walkFrom_eq nested placed listed behind
    unfold variableFrom
    dsimp only [Progress.still]
    rw [annotated]
    change (stream.initializer walk ascription.next _ >>= _) = _
    rw [initialized, ← edits]
    simp [bind, Except.bind, pure, Except.pure]

/-- The variables of a declaration are passed up to its semicolon. -/
theorem AreVariables.variablesFrom_eq (declared : stream.AreVariables name stop types)
    (after : keyword < name) (behind : stream.is stop ";" = true) :
    stream.variablesFrom walk name = .ok ⟨stop, erasures types⟩ := by
  induction declared with
  | @last name stop types one =>
    obtain ⟨target, found⟩ := one.variableFrom_eq nested placed walks after
      (by decide : ";" ∈ [",", ";"]) behind
    have noComma : stream.is stop "," = false := is_eq_false_of_is behind (by decide)
    rw [variablesFrom, target]
    change (stream.variableFrom walk _ >>= _) = _
    rw [found]
    simp [bind, Except.bind, pure, Except.pure, noComma]
  | @more name comma stop types others one separator rest inductionHypothesis =>
    obtain ⟨target, found⟩ := one.variableFrom_eq nested placed walks after
      (by decide : "," ∈ [",", ";"]) separator
    have ordered := one.lt nested placed
    rw [variablesFrom, target]
    change (stream.variableFrom walk _ >>= _) = _
    rw [found]
    simp [bind, Except.bind, pure, Except.pure, separator, Nat.le_of_lt ordered,
      inductionHypothesis (by omega) behind, Progress.preceded]

omit walks in
/-- A walk passes declarations and erases their types. -/
theorem walkFrom_of_declarations {first : Nat} {ending : WalkEnd} {rest : Progress}
    (declarations : stream.AreDeclarations index stop types)
    (starts : index = 0 ∨ stream.is (index - 1) ";" = true) (limit : ending = .upTo stream.size)
    (following : stream.walkFrom first stop ending = .ok rest) :
    stream.walkFrom first index ending = .ok (rest.preceded (erasures types)) := by
  subst limit
  induction declarations with
  | nothing => exact following
  | @declaration keyword semicolon stop text types others listed begins declared ends _
      inductionHypothesis =>
    have behind := inductionHypothesis (.inr ends) following
    have afterVariables := walkFrom_of_semicolon placed ends (lt_size_of_is ends) behind
    have stepped : ∀ walk, stream.WalksBehind keyword walk →
        stream.step walk keyword = .ok ⟨semicolon, erasures types⟩ := by
      intro walk walks
      rw [← declared.variablesFrom_eq nested placed walks (Nat.lt_succ_self keyword) ends]
      exact step_of_declared placed walk listed begins declared.first.1 declared.first.2
        (isPropertyName_eq_false (starts.imp_right fun found => ⟨";", found, by decide⟩))
    have whole := walkFrom_of_step (lt_size_of_is begins) (lt_size_of_is begins)
      (endsBefore_upTo ..) stepped (Nat.lt_of_succ_lt (declared.lt nested placed)) afterVariables
    rw [whole, erasures_append, preceded_preceded]

end Walking

/-! ## The stretches of a program -/

section Laid

variable (nested : stream.Nested) (placed : stream.Placed)

include nested placed

theorem VariableType.laid (type : stream.VariableType index stop types) :
    Laid (stream.passed index) types (stream.passed stop) := by
  cases type with
  | annotated _ ascription => exact ascription.laid nested placed
  | definite found _ ascription =>
    exact (placed.laid_token (lt_size_of_is found)).append (ascription.laid nested placed)

theorem IsVariable.laid (one : stream.IsVariable name stop types) :
    Laid (stream.passed name) types (stream.passed stop) := by
  obtain ⟨-, -, typed, type, value⟩ := one
  have ordered := value.le fun value => Nat.le_of_lt value.nonempty
  exact ((type.laid nested placed).from_lower (placed.passed_mono (Nat.le_succ name))).to_upper
    (placed.passed_mono ordered)

theorem AreVariables.laid (declared : stream.AreVariables name stop types) :
    Laid (stream.passed name) types (stream.passed stop) := by
  induction declared with
  | last one => exact one.laid nested placed
  | @more _ comma _ _ _ one _ _ inductionHypothesis =>
    exact (one.laid nested placed).append
      (inductionHypothesis.from_lower (placed.passed_mono (Nat.le_succ comma)))

theorem AreDeclarations.laid (declarations : stream.AreDeclarations index stop types) :
    Laid (stream.passed index) types (stream.passed stop) := by
  induction declarations with
  | nothing => exact .nothing (Nat.le_refl _)
  | @declaration keyword semicolon _ _ _ _ _ _ declared _ _ inductionHypothesis =>
    exact ((declared.laid nested placed).from_lower (placed.passed_mono (Nat.le_succ keyword))).append
      (inductionHypothesis.from_lower (placed.passed_mono (Nat.le_succ semicolon)))

end Laid

section Behind

variable {source : List Char} (read : ofSource source = .ok stream)

include read

theorem VariableType.beforeNoWord (type : stream.VariableType index stop types)
    (behind : stream.MarkAt stop) : ∀ stretch ∈ types, stretch.BeforeNoWord stream.source := by
  cases type with
  | annotated _ ascription => exact ascription.beforeNoWord read behind
  | definite found colon ascription =>
    have marked := (OptionalMark.present found).beforeNoWord read
      (markAt_of_is colon (by decide +kernel))
    exact List.forall_mem_cons.mpr
      ⟨marked _ List.mem_cons_self, ascription.beforeNoWord read behind⟩

theorem AreVariables.beforeNoWord (declared : stream.AreVariables name stop types)
    (behind : stream.MarkAt stop) : ∀ stretch ∈ types, stretch.BeforeNoWord stream.source := by
  induction declared with
  | last one =>
    obtain ⟨-, -, typed, type, value⟩ := one
    exact type.beforeNoWord read (value.markAt behind)
  | more one separator _ inductionHypothesis =>
    obtain ⟨-, -, typed, type, value⟩ := one
    exact List.forall_mem_append.mpr ⟨type.beforeNoWord read
      (value.markAt (markAt_of_is separator (by decide +kernel))), inductionHypothesis behind⟩

theorem AreDeclarations.beforeNoWord (declarations : stream.AreDeclarations index stop types) :
    ∀ stretch ∈ types, stretch.BeforeNoWord stream.source := by
  induction declarations with
  | nothing => nofun
  | declaration _ _ declared ends _ inductionHypothesis =>
    exact List.forall_mem_append.mpr
      ⟨declared.beforeNoWord read (markAt_of_is ends (by decide +kernel)), inductionHypothesis⟩

end Behind

end TokenStream

open TokenStream

/-- A program of declarations loses the types of its variables with the exclamation marks before
them, up to their line breaks, and nothing else. -/
theorem eraseTypes_of_declarations {source : String} {stream : TokenStream} {types : List Stretch}
    (read : ofSource source.toList = .ok stream)
    (declarations : stream.AreDeclarations 0 stream.size types) :
    eraseTypes source = .ok (String.ofList (linesWithout stream.source 0 types)) := by
  have nested := nested_of_ofSource read
  have placed := placed_of_ofSource read
  have walked : stream.walkFrom 0 0 (.upTo stream.size) = _ :=
    walkFrom_of_declarations nested placed declarations (.inl rfl) rfl
      (walkFrom_of_le (Nat.le_refl stream.size))
  rw [preceded_still] at walked
  rw [eraseTypes_of_erasures read walked (declarations.laid nested placed),
    textWithout_eq_linesWithout (declarations.beforeNoWord read), List.nil_append]

/-- Types on several lines, brackets and a property with the name of a construct. -/
theorem eraseTypes_of_twoDeclarations : ∃ stream,
    ofSource "let a!: Map<K,\n V>, b = f(a, 1);\nconst c: T[] = a.type * 2;".toList = .ok stream ∧
      stream.AreDeclarations 0 stream.size [stream.tokenStretch 2, stream.attachedStretch 3 10,
        stream.attachedStretch 22 26] ∧
      eraseTypes "let a!: Map<K,\n V>, b = f(a, 1);\nconst c: T[] = a.type * 2;" =
        .ok "let a\n, b = f(a, 1);\nconst c = a.type * 2;" := by
  have facts : ((ofSource
      "let a!: Map<K,\n V>, b = f(a, 1);\nconst c: T[] = a.type * 2;".toList).toOption.any
      fun stream => decide
        ((∀ name : Nat, name ∈ [1, 11, 21] →
            stream.isPlainWord name = true ∧ stream.text name ∉ constructWords) ∧
          (∀ token : Nat × String, token ∈ [(0, "let"), (2, "!"), (3, ":"), (10, ","), (12, "="),
            (14, "("), (16, ","), (19, ";"), (20, "const"), (22, ":"), (26, "="), (32, ";")] →
              stream.is token.1 token.2 = true) ∧
          (∀ index : Nat, index ∈ [13, 15, 17, 27, 28, 29, 30, 31] → stream.IsPlainToken index) ∧
          (stream.closer? 14 = some 18 ∧ stream.typeEnd? 4 = some 10 ∧
            stream.typeEnd? 23 = some 26 ∧ stream.size = 33) ∧
          (∀ index : Nat, index ∈ [14, 15, 16, 17, 18, 28, 29, 30, 31] →
            stream.newlineBefore index = false) ∧
          (∀ token : Nat × String, token ∈ [(12, "!"), (12, ":"), (22, "!"), (10, "=")] →
            stream.is token.1 token.2 = false) ∧
          String.ofList (linesWithout stream.source 0 [stream.tokenStretch 2,
            stream.attachedStretch 3 10, stream.attachedStretch 22 26]) =
              "let a\n, b = f(a, 1);\nconst c = a.type * 2;")) = true := by
    decide +kernel
  obtain ⟨stream, read, names, tokens, plain, ⟨closes, map, array, size⟩, lines, missing, result⟩ :=
    exists_ok_of_any _ facts
  have written : ∀ {index text}, (index, text) ∈ [(0, "let"), (2, "!"), (3, ":"), (10, ","),
      (12, "="), (14, "("), (16, ","), (19, ";"), (20, "const"), (22, ":"), (26, "="), (32, ";")] →
      stream.is index text = true :=
    fun listed => tokens _ listed
  have first : stream.IsVariable 1 10 [stream.tokenStretch 2, stream.attachedStretch 3 10] :=
    ⟨(names 1 (by decide)).1, (names 1 (by decide)).2, 10,
      .definite (written (by decide)) (written (by decide)) (.present (written (by decide)) map),
      .absent (missing (10, "=") (by decide))⟩
  have call : stream.LineExpression 13 19 :=
    ⟨by decide, .token (plain 13 (by decide)) (.pair (.inl (written (by decide))) closes
        (.token (plain 15 (by decide)) (.comma (written (by decide))
          (.token (plain 17 (by decide)) .nothing))) .nothing),
      fun index after before => lines index (by simp; omega)⟩
  have second : stream.IsVariable 11 19 [] :=
    ⟨(names 11 (by decide)).1, (names 11 (by decide)).2, 12,
      .annotated (missing (12, "!") (by decide)) (.absent (missing (12, ":") (by decide))),
      .present (written (by decide)) call⟩
  have product : stream.LineExpression 27 32 :=
    ⟨by decide, .token (plain 27 (by decide)) (.token (plain 28 (by decide))
        (.token (plain 29 (by decide)) (.token (plain 30 (by decide))
          (.token (plain 31 (by decide)) .nothing)))),
      fun index after before => lines index (by simp; omega)⟩
  have third : stream.IsVariable 21 32 [stream.attachedStretch 22 26] :=
    ⟨(names 21 (by decide)).1, (names 21 (by decide)).2, 26,
      .annotated (missing (22, "!") (by decide)) (.present (written (by decide)) array),
      .present (written (by decide)) product⟩
  have declarations : stream.AreDeclarations 0 stream.size [stream.tokenStretch 2,
      stream.attachedStretch 3 10, stream.attachedStretch 22 26] := by
    rw [size]
    exact .declaration (by decide : "let" ∈ ["let", "const", "var"]) (written (by decide))
      (.more first (written (by decide)) (.last second)) (written (by decide))
      (.declaration (by decide : "const" ∈ ["let", "const", "var"]) (written (by decide))
        (.last third) (written (by decide)) .nothing)
  exact ⟨stream, read, declarations, result ▸ eraseTypes_of_declarations read declarations⟩

end Playground

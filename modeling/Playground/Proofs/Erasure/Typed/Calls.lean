import Playground.Proofs.Erasure.TypeGrammar.Angles
import Playground.Proofs.Erasure.Typed.Chains
import Playground.Proofs.Erasure.Typed.Classes

/-!
# Calls with type arguments

Statements that call a method lose the type arguments of their calls, and nothing else, exactly when
no method has the name of a keyword that expects an operand (`eraseTypes_calls_iff`). Behind a point
such a keyword is a name like any other, but an angle behind it is taken for the head of an arrow
function.
-/

namespace Playground

namespace TokenStream

/-- A call of a method as a statement: an object, the name of its method, type arguments, and
arguments in which a walk finds nothing to erase. -/
structure IsMethodCall (stream : TokenStream) (object angle close : Nat) : Prop where
  owner : stream.kind? object = some .word
  point : stream.is (object + 1) "." = true
  method : stream.kind? (object + 2) = some .word
  opens : stream.is (object + 3) "<" = true
  types : stream.AreTypes (object + 4) angle
  angled : stream.is angle ">" = true
  parenthesis : stream.is (angle + 1) "(" = true
  closes : stream.closer? (angle + 1) = some close
  inside : stream.IsUntouched (angle + 2) close
  ends : stream.is (close + 1) ";" = true

/-- Calls of methods one behind the other; the names of the methods are as `Named` says. -/
inductive MethodCalls (stream : TokenStream) (Named : Nat → Prop) :
    Nat → Nat → List Stretch → Prop where
  | nothing {index} : MethodCalls stream Named index index []
  | call {object angle close stop types} (named : Named (object + 2))
      (one : stream.IsMethodCall object angle close)
      (rest : MethodCalls stream Named (close + 2) stop types) :
      MethodCalls stream Named object stop
        (stream.attachedStretch (object + 3) (angle + 1) :: types)

/-- A word that is no keyword behind which an operand is expected. -/
def NamesOperand (stream : TokenStream) (index : Nat) : Prop :=
  stream.text index ∉ expressionKeywords

variable {stream : TokenStream} {Named Further : Nat → Prop}
  {first index object angle close stop : Nat} {types : List Stretch}

theorem MethodCalls.mono (calls : stream.MethodCalls Named first stop types)
    (weaker : ∀ index, Named index → Further index) :
    stream.MethodCalls Further first stop types := by
  induction calls with
  | nothing => exact .nothing
  | call named one _ inductionHypothesis => exact .call (weaker _ named) one inductionHypothesis

/-- A word ends an expression unless it is such a keyword. -/
theorem endsExpression_of_word (word : stream.kind? index = some .word) :
    stream.endsExpression index = true ↔ stream.NamesOperand index := by
  unfold kind? at word
  unfold endsExpression NamesOperand text
  cases found : stream.get? index with
  | none =>
    rw [found] at word
    contradiction
  | some token =>
    simp only [found, Option.map_some, Option.some.injEq] at word
    simp [Token.endsExpression, word]

/-! ## The object of a call -/

section Owner

variable (placed : stream.Placed)

include placed

/-- No construct goes on with a point. -/
theorem wordStep_of_point {walk : Walk} (point : stream.is (index + 1) "." = true)
    (starts : 0 < index → stream.endsExpression (index - 1) = false) :
    stream.wordStep walk index = .ok (.still (index + 1)) := by
  have noWord : stream.isPlainWord (index + 1) = false :=
    placed.isPlainWord_eq_false point (by decide)
  have other : ∀ text, text ≠ "." → stream.is (index + 1) text = false :=
    fun text different => is_eq_false_of_is point different.symm
  have noBinding : stream.startsBinding (index + 1) = false := by
    simp [startsBinding, noWord, other]
  have noOperand : (decide (0 < index) && stream.endsExpression (index - 1)) = false := by
    simpa using starts
  unfold wordStep
  split
  · rfl
  dsimp only
  split
  case h_1 | h_2 | h_3 | h_4 | h_5 | h_6 | h_7 =>
    simp [startsAlias, startsAmbient, startsNamespace, noWord, other, pure, Except.pure]
  case h_8 => simp [other, noBinding, pure, Except.pure]
  case h_9 | h_10 => simp [noBinding, pure, Except.pure]
  case h_11 =>
    simp [functionDeclaration, functionNameEnd, optionalTypeParameters, noWord, other, pure,
      Except.pure, bind, Except.bind]
  case h_12 =>
    simp [classDeclaration, classNameEnd, optionalTypeParameters, heritage, implementedTypes,
      noWord, other, attachedIf, Progress.still, pure, Except.pure, bind, Except.bind]
  case h_13 | h_14 => simp only [noOperand, Bool.false_eq_true, if_false, pure, Except.pure]
  case h_15 =>
    simp [importDeclaration, startsImportClause, noWord, other,
      placed.kind?_of_mark point (by decide), pure, Except.pure]
  case h_16 => simp [exportDeclaration, other, pure, Except.pure]
  case h_17 => simp [other, pure, Except.pure]
  case h_18 | h_19 | h_20 | h_21 | h_22 => simp [controlHead, other, pure, Except.pure]
  case h_23 => rfl

end Owner

/-! ## The steps of a call -/

section Call

variable (nested : stream.Nested) (placed : stream.Placed)

include nested placed

/-- Types with commas between them are read as type arguments. -/
theorem AreTypes.typeArgumentsTail?_eq (types : stream.AreTypes index angle)
    (closes : stream.is angle ">" = true) :
    stream.typeArgumentsTail? stream.typeEnd? index = some (angle + 1) := by
  induction types with
  | last type =>
    unfold typeArgumentsTail?
    simp [type, closes]
  | @more index comma stop type separator _ inductionHypothesis =>
    have ordered := ((passes_of_typeEnd? placed type).balanced nested).ordered
    have unclosed : stream.is comma ">" = false := is_eq_false_of_is separator (by decide)
    unfold typeArgumentsTail?
    simp [type, unclosed, separator, ordered, inductionHypothesis closes]

theorem IsMethodCall.typeArgumentsEnd?_eq (one : stream.IsMethodCall object angle close) :
    stream.typeArgumentsEnd? (object + 3) = some (angle + 1) := by
  rw [typeArgumentsEnd?, typeArgumentsWith?, if_pos one.opens]
  exact one.types.typeArgumentsTail?_eq nested placed one.angled

theorem IsMethodCall.lt (one : stream.IsMethodCall object angle close) :
    object + 3 < angle ∧ angle + 1 < close :=
  ⟨one.types.le nested placed, lt_of_closer?_eq_some one.closes⟩

omit nested in
/-- The name of the method is reached without an edit. -/
theorem IsMethodCall.step_callee (one : stream.IsMethodCall object angle close)
    (starts : 0 < object → stream.endsExpression (object - 1) = false) (walk : Walk)
    (reached : object ≤ index) (before : index < object + 3) :
    stream.step walk index = .ok (.still (index + 1)) := by
  obtain rfl | rfl | rfl : index = object ∨ index = object + 1 ∨ index = object + 2 := by omega
  · rw [step, one.owner]
    exact wordStep_of_point placed one.point starts
  · exact step_of_mark walk (placed.kind?_of_mark one.point (by decide)) (is_iff.mp one.point).2
      (by decide)
  · have property : stream.isPropertyName (object + 2) = true := by
      simp [isPropertyName, one.point]
    exact (IsPlainToken.word ⟨one.method, .inl property⟩).step_eq walk

omit nested in
/-- An angle is a mark with a construct of its own. -/
theorem step_of_angle (opens : stream.is index "<" = true) (walk : Walk) :
    stream.step walk index = .ok (stream.angle index) := by
  rw [placed.step_of_punctuator walk opens (by decide), punctuatorStep, (is_iff.mp opens).2]
  rfl

/-- Behind a name that may be an operand, type arguments in front of a list are erased. -/
theorem step_of_arguments (word : stream.kind? index = some .word)
    (named : stream.NamesOperand index)
    (found : stream.typeArgumentsEnd? (index + 1) = some stop)
    (parenthesis : stream.is stop "(" = true) (walk : Walk) :
    stream.step walk (index + 1) =
      .ok ⟨stop, erasures [stream.attachedStretch (index + 1) stop]⟩ := by
  have ends : stream.endsExpression index = true := (endsExpression_of_word word).mpr named
  have starts : stream.startsCall stop = true := by
    simp [startsCall, parenthesis]
  have whole : stream.attached (index + 1) stop = _ :=
    attached_eq (Nat.succ_pos index) (lt_of_typeArgumentsEnd? nested placed found)
  rw [step_of_angle placed (angle_of_typeArguments found)]
  simp [TokenStream.angle, callArguments?, ends, word, found, Option.filter, starts, whole]

theorem IsMethodCall.step_arguments (one : stream.IsMethodCall object angle close)
    (named : stream.NamesOperand (object + 2)) (walk : Walk) :
    stream.step walk (object + 3) =
      .ok ⟨angle + 1, erasures [stream.attachedStretch (object + 3) (angle + 1)]⟩ :=
  step_of_arguments nested placed one.method named (one.typeArgumentsEnd?_eq nested placed)
    one.parenthesis walk

/-- Behind another name they are taken for the head of an arrow function, which has no arrow. -/
theorem IsMethodCall.step_arguments_of_keyword (one : stream.IsMethodCall object angle close)
    (keyword : ¬stream.NamesOperand (object + 2)) (walk : Walk) :
    stream.step walk (object + 3) = .ok (.still (object + 4)) := by
  have ends : stream.endsExpression (object + 2) = false := by
    rw [Bool.eq_false_iff]
    exact fun ends => keyword ((endsExpression_of_word one.method).mp ends)
  have noHead : stream.arrowParameters? (object + 3) = none := by
    cases found : stream.typeParametersEnd? (object + 3) with
    | none => simp [arrowParameters?, found]
    | some stop =>
      obtain rfl := eq_of_typeArgumentsEnd? placed (one.typeArgumentsEnd?_eq nested placed) found
      have partner := (Option.filter_eq_some_iff.mp one.closes).1
      have noArrow : stream.is (close + 1) "=>" = false := is_eq_false_of_is one.ends (by decide)
      have noColon : stream.is (close + 1) ":" = false := is_eq_false_of_is one.ends (by decide)
      simp [arrowParameters?, found, Option.filter, opensArrowHead, partner, noArrow, noColon]
  rw [step_of_angle placed one.opens]
  simp [TokenStream.angle, ends, noHead]

/-- The arguments and the semicolon behind them are passed. -/
theorem IsMethodCall.walkFrom_list (one : stream.IsMethodCall object angle close) {rest : Progress}
    (following : stream.walkFrom first (close + 2) (.upTo stream.size) = .ok rest) :
    stream.walkFrom first (angle + 1) (.upTo stream.size) = .ok rest := by
  have inside := lt_size_of_is one.parenthesis
  have ordered := (one.lt nested placed).2
  exact walkFrom_of_step inside inside (endsBefore_upTo ..)
    (fun walk walks => step_of_closer? nested walks one.closes (headFree_of_is one.ends (by decide))
      one.inside) (Nat.lt_succ_of_lt ordered)
    (walkFrom_of_semicolon placed one.ends (lt_size_of_is one.ends) following)

/-- What ends no expression stands before a call. -/
def StartsCalls (stream : TokenStream) (index : Nat) : Prop :=
  0 < index → stream.endsExpression (index - 1) = false

omit nested in
theorem startsCalls_of_semicolon (found : stream.is index ";" = true) :
    stream.StartsCalls (index + 1) :=
  fun _ => endsExpression_of_semicolon (placed.kind?_of_mark found (by decide)) (is_iff.mp found).2

theorem MethodCalls.walkFrom_eq {finish : Nat}
    (calls : stream.MethodCalls stream.NamesOperand index finish types)
    (whole : finish = stream.size) (starts : stream.StartsCalls index) :
    stream.walkFrom first index (.upTo stream.size) = .ok ⟨finish, erasures types⟩ := by
  induction calls with
  | nothing => exact walkFrom_of_le (Nat.le_of_eq whole.symm)
  | @call object angle close finish types named one _ inductionHypothesis =>
    have following : stream.walkFrom first (angle + 1) (.upTo stream.size) = _ :=
      one.walkFrom_list nested placed
        (inductionHypothesis whole (startsCalls_of_semicolon placed one.ends))
    have inside := lt_size_of_is one.opens
    have arguments := walkFrom_of_step inside inside (endsBefore_upTo ..)
      (fun walk _ => one.step_arguments nested placed named walk)
      (Nat.lt_succ_of_lt (one.lt nested placed).1) following
    have callee : ∀ index, object ≤ index → index < object + 3 → ∀ rest,
        stream.walkFrom first (index + 1) (.upTo stream.size) = .ok rest →
          stream.walkFrom first index (.upTo stream.size) = .ok rest :=
      fun index reached before rest later =>
        have inRange : index < stream.size := by omega
        walkFrom_of_step inRange inRange (endsBefore_upTo ..)
          (fun walk _ => one.step_callee placed starts walk reached before) (Nat.lt_succ_self index)
          later
    exact callee object (by omega) (by omega) _ (callee (object + 1) (by omega) (by omega) _
      (callee (object + 2) (by omega) (by omega) _ arguments))

theorem MethodCalls.laid (calls : stream.MethodCalls Named index stop types) :
    Laid (stream.passed index) types (stream.passed stop) := by
  induction calls with
  | nothing => exact .nothing (Nat.le_refl _)
  | @call object angle close _ _ _ one _ inductionHypothesis =>
    have ordered := one.lt nested placed
    exact ((placed.laid_attached (Nat.lt_succ_of_lt ordered.1) (lt_size_of_is one.opens)).from_lower
      (placed.passed_mono (Nat.le_add_right object 3))).append
        (inductionHypothesis.from_lower (placed.passed_mono (by omega)))

end Call

theorem MethodCalls.beforeNoWord {source : List Char} (read : ofSource source = .ok stream)
    (calls : stream.MethodCalls Named index stop types) :
    ∀ stretch ∈ types, stretch.BeforeNoWord stream.source := by
  induction calls with
  | nothing => nofun
  | call _ one _ inductionHypothesis =>
    have behind := markAt_of_is one.parenthesis (by decide +kernel)
    exact List.forall_mem_cons.mpr ⟨behind.beforeNoWord read _, inductionHypothesis⟩

/-! ## What the text shows -/

section Showing

variable {source : List Char} (read : ofSource source = .ok stream)

include read

/-- Type arguments that are not erased stay in the text. -/
theorem IsMethodCall.namesOperand (one : stream.IsMethodCall object angle close) {upper : Nat}
    (laid : Laid (stream.passed (close + 2)) types upper)
    (walks : stream.WalksWithout first (object + 3)
      (stream.attachedStretch (object + 3) (angle + 1) :: types)) :
    stream.NamesOperand (object + 2) := by
  have nested := nested_of_ofSource read
  have placed := placed_of_ofSource read
  by_contra keyword
  have ordered := one.lt nested placed
  have inside := lt_size_of_is one.opens
  obtain ⟨draft, progress, reached, walked, same⟩ := walks
  obtain ⟨rest, following, rfl⟩ := exists_rest_of_walkFrom inside inside (endsBefore_upTo ..)
    (fun walk _ => one.step_arguments_of_keyword nested placed keyword walk)
    (Nat.lt_succ_self (object + 3)) walked
  have solid : stream.IsBarrier (object + 3) :=
    isBarrier_of_text (by simp [(is_iff.mp one.opens).2])
  refine ne_textWithout_of_kept read one.opens rfl (by constructor <;> decide +kernel)
    one.parenthesis rfl (by constructor <;> decide +kernel) (by decide)
    (laid.from_lower (placed.passed_mono (by omega))) reached
    (allBehind_of_walkFrom nested placed solid (Nat.lt_succ_self _) following)
    ⟨_, fun _ left => Stretch.isBlank_of_mem_trace left, rfl⟩ same

theorem MethodCalls.of_walksWithout {finish : Nat}
    (calls : stream.MethodCalls Named index finish types) (starts : stream.StartsCalls index)
    (walks : stream.WalksWithout first index types) :
    stream.MethodCalls stream.NamesOperand index finish types := by
  have nested := nested_of_ofSource read
  have placed := placed_of_ofSource read
  induction calls with
  | nothing => exact .nothing
  | @call object angle close finish types _ one calls inductionHypothesis =>
    have ordered := one.lt nested placed
    have inside := lt_size_of_is one.opens
    have callee : ∀ index, object ≤ index → index < object + 3 →
        stream.WalksWithout first index (stream.attachedStretch (object + 3) (angle + 1) :: types) →
          stream.WalksWithout first (index + 1)
            (stream.attachedStretch (object + 3) (angle + 1) :: types) :=
      fun index reached before walks => walks.of_still placed (by omega)
        (fun walk _ => one.step_callee placed starts walk reached before) (Nat.lt_succ_self index)
    have reached := callee (object + 2) (by omega) (by omega)
      (callee (object + 1) (by omega) (by omega) (callee object (by omega) (by omega) walks))
    have named := one.namesOperand read (calls.laid nested placed) reached
    have list := reached.of_erasure placed inside
      (fun walk _ => one.step_arguments nested placed named walk) (Nat.lt_succ_of_lt ordered.1)
    have semicolon := list.of_still placed (lt_size_of_is one.parenthesis)
      (fun walk walks => step_of_closer? nested walks one.closes
        (headFree_of_is one.ends (by decide)) one.inside) (Nat.lt_succ_of_lt ordered.2)
    have goesOn := semicolon.of_still placed (lt_size_of_is one.ends)
      (fun walk _ => step_of_mark walk (placed.kind?_of_mark one.ends (by decide))
        (is_iff.mp one.ends).2 (by decide)) (Nat.lt_succ_self (close + 1))
    exact .call named one (inductionHypothesis (startsCalls_of_semicolon placed one.ends) goesOn)

end Showing

end TokenStream

open TokenStream

/-- Calls of methods lose their type arguments, up to the line breaks in them, and nothing else
exactly when no method has the name of a keyword that expects an operand. -/
theorem eraseTypes_calls_iff {source : String} {stream : TokenStream} {types : List Stretch}
    (read : ofSource source.toList = .ok stream)
    (calls : stream.MethodCalls (fun _ => True) 0 stream.size types) :
    eraseTypes source = .ok (String.ofList (linesWithout stream.source 0 types)) ↔
      stream.MethodCalls stream.NamesOperand 0 stream.size types := by
  have nested := nested_of_ofSource read
  have placed := placed_of_ofSource read
  have starts : stream.StartsCalls 0 := nofun
  have lines : linesWithout stream.source 0 types = textWithout stream.source [] 0 types := by
    rw [textWithout_eq_linesWithout (calls.beforeNoWord read), List.nil_append]
  rw [lines]
  constructor
  · intro erased
    obtain ⟨edits, found, written⟩ := (eraseTypes_eq_ok_iff read).mp erased
    obtain ⟨progress, walked, result⟩ := bind_eq_ok_iff.mp found
    cases result
    rw [String.toList_ofList] at written
    exact calls.of_walksWithout read starts
      ⟨.empty, progress, Nat.zero_le _, walked, written.symm⟩
  · intro named
    exact eraseTypes_of_erasures read (named.walkFrom_eq nested placed rfl starts)
      (calls.laid nested placed)

/-- Arguments with lists, brackets, functions and line breaks in them, and a method with the name of
a word that begins aliases elsewhere. -/
theorem eraseTypes_of_twoCalls : ∃ stream types,
    ofSource "this.get<A, Map<B, C>[]>(f(x), [1]);\no.type<(x: D) => E,\n\"f\">();".toList =
        .ok stream ∧
      stream.MethodCalls (fun _ => True) 0 stream.size types ∧
      stream.MethodCalls stream.NamesOperand 0 stream.size types ∧
      eraseTypes "this.get<A, Map<B, C>[]>(f(x), [1]);\no.type<(x: D) => E,\n\"f\">();" =
        .ok "this.get(f(x), [1]);\no.type\n();" := by
  have facts : ((ofSource
      "this.get<A, Map<B, C>[]>(f(x), [1]);\no.type<(x: D) => E,\n\"f\">();".toList).toOption.any
      fun stream => decide
        ((∀ token : Nat × String, token ∈ [(1, "."), (3, "<"), (5, ","), (14, ">"), (15, "("),
            (17, "("), (20, ","), (21, "["), (24, ")"), (25, ";"), (27, "."), (29, "<"), (37, ","),
            (39, ">"), (40, "("), (42, ";")] → stream.is token.1 token.2 = true) ∧
          (∀ index : Nat, index ∈ [0, 2, 26, 28] → stream.kind? index = some .word) ∧
          (∀ index : Nat, index ∈ [2, 28] → stream.text index ∉ expressionKeywords) ∧
          (∀ pair : Nat × Nat, pair ∈ [(4, 5), (6, 14), (30, 37), (38, 39)] →
            stream.typeEnd? pair.1 = some pair.2) ∧
          (∀ pair : Nat × Nat, pair ∈ [(15, 24), (17, 19), (21, 23), (40, 41)] →
            stream.closer? pair.1 = some pair.2) ∧
          (∀ index : Nat, index ∈ [16, 18, 22] → stream.IsPlainToken index) ∧ stream.size = 43 ∧
          String.ofList (linesWithout stream.source 0
            [stream.attachedStretch 3 15, stream.attachedStretch 29 40]) =
              "this.get(f(x), [1]);\no.type\n();")) = true := by
    decide +kernel
  obtain ⟨stream, read, tokens, words, free, types, closes, plain, size, text⟩ :=
    exists_ok_of_any _ facts
  have nested := nested_of_ofSource read
  have placed := placed_of_ofSource read
  have written : ∀ {index text}, (index, text) ∈ [(1, "."), (3, "<"), (5, ","), (14, ">"), (15, "("),
      (17, "("), (20, ","), (21, "["), (24, ")"), (25, ";"), (27, "."), (29, "<"), (37, ","),
      (39, ">"), (40, "("), (42, ";")] → stream.is index text = true :=
    fun listed => tokens _ listed
  have arguments : stream.IsUntouched 16 24 :=
    isUntouched_of_plain nested placed
      (.token (plain 16 (by decide)) (.pair (.inl (written (by decide))) (closes (17, 19) (by decide))
        (.token (plain 18 (by decide)) .nothing) (.comma (written (by decide))
          (.pair (.inr (written (by decide))) (closes (21, 23) (by decide))
            (.token (plain 22 (by decide)) .nothing) .nothing))))
      (headFree_of_is (written (by decide)) (by decide : ")" ∉ ["=>", ":", "\x7b"]))
  have one : stream.IsMethodCall 0 14 24 :=
    ⟨words 0 (by decide), written (by decide), words 2 (by decide), written (by decide),
      .more (types (4, 5) (by decide)) (written (by decide)) (.last (types (6, 14) (by decide))),
      written (by decide), written (by decide), closes (15, 24) (by decide), arguments,
      written (by decide)⟩
  have other : stream.IsMethodCall 26 39 41 :=
    ⟨words 26 (by decide), written (by decide), words 28 (by decide), written (by decide),
      .more (types (30, 37) (by decide)) (written (by decide)) (.last (types (38, 39) (by decide))),
      written (by decide), written (by decide), closes (40, 41) (by decide),
      walkFrom_of_le (Nat.le_refl 41), written (by decide)⟩
  have calls : stream.MethodCalls stream.NamesOperand 0 stream.size
      [stream.attachedStretch 3 15, stream.attachedStretch 29 40] := by
    rw [size]
    exact .call (free 2 (by decide)) one (.call (free 28 (by decide)) other .nothing)
  have all : stream.MethodCalls (fun _ => True) 0 stream.size _ := calls.mono fun _ _ => trivial
  refine ⟨stream, _, read, all, calls, ?_⟩
  rw [(eraseTypes_calls_iff read all).mpr calls, text]

/-- The name of a method that is a keyword elsewhere keeps the type arguments behind it. -/
theorem eraseTypes_of_keywordMethod : ∃ stream,
    ofSource "o.delete<T>(x);".toList = .ok stream ∧
      stream.MethodCalls (fun _ => True) 0 stream.size [stream.attachedStretch 3 6] ∧
      eraseTypes "o.delete<T>(x);" = .ok "o.delete<T>(x);" ∧
      linesWithout stream.source 0 [stream.attachedStretch 3 6] = "o.delete(x);".toList := by
  have facts : ((ofSource "o.delete<T>(x);".toList).toOption.any fun stream => decide
      ((∀ token : Nat × String, token ∈ [(1, "."), (3, "<"), (5, ">"), (6, "("), (8, ")"),
          (9, ";")] → stream.is token.1 token.2 = true) ∧
        (stream.kind? 0 = some .word ∧ stream.kind? 2 = some .word) ∧
        stream.typeEnd? 4 = some 5 ∧ stream.closer? 6 = some 8 ∧ stream.IsPlainToken 7 ∧
        stream.size = 10 ∧
        linesWithout stream.source 0 [stream.attachedStretch 3 6] = "o.delete(x);".toList)) = true := by
    decide +kernel
  obtain ⟨stream, read, tokens, ⟨owner, method⟩, type, closes, plain, size, text⟩ :=
    exists_ok_of_any _ facts
  have written : ∀ {index text}, (index, text) ∈ [(1, "."), (3, "<"), (5, ">"), (6, "("), (8, ")"),
      (9, ";")] → stream.is index text = true :=
    fun listed => tokens _ listed
  have arguments : stream.IsUntouched 7 8 :=
    isUntouched_of_plain (nested_of_ofSource read) (placed_of_ofSource read) (.token plain .nothing)
      (headFree_of_is (written (by decide)) (by decide : ")" ∉ ["=>", ":", "\x7b"]))
  have one : stream.IsMethodCall 0 5 8 :=
    ⟨owner, written (by decide), method, written (by decide), .last type, written (by decide),
      written (by decide), closes, arguments, written (by decide)⟩
  have calls : stream.MethodCalls (fun _ => True) 0 stream.size [stream.attachedStretch 3 6] := by
    rw [size]
    exact .call trivial one .nothing
  exact ⟨stream, read, calls, by decide +kernel, text⟩

end Playground

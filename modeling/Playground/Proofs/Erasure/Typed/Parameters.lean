import Playground.Proofs.Erasure.Typed.Parts

/-!
# Typed parameters and plain bodies

Functions and methods share their parameters and their bodies. Parameters lose their question
marks and their types, and none of them becomes a property; a body of plain statements is passed
as it is.
-/

namespace Playground

namespace TokenStream

/-- A parameter without dots before it: its name, a question mark, its type and its default. -/
inductive BareParameter (stream : TokenStream) : Nat → Nat → List Stretch → Prop where
  | named {name marked typed stop marks types} (named : stream.isPlainWord name = true)
      (other : stream.text name ≠ "this")
      (optional : stream.OptionalMark "?" (name + 1) marked marks)
      (ascription : stream.Annotation marked typed types)
      (value : stream.Initializer (stream.Plain false) typed stop) :
      BareParameter stream name stop (marks ++ types)

/-- A parameter, which dots may precede. -/
inductive IsParameter (stream : TokenStream) : Nat → Nat → List Stretch → Prop where
  | one {name stop types} (bare : stream.BareParameter name stop types) :
      IsParameter stream name stop types
  | rest {dots stop types} (found : stream.is dots "..." = true)
      (bare : stream.BareParameter (dots + 1) stop types) : IsParameter stream dots stop types

/-- Parameters with commas between them, the last of which a comma may follow. -/
inductive AreParameters (stream : TokenStream) : Nat → Nat → List Stretch → Prop where
  | nothing {index} : AreParameters stream index index []
  | last {index stop types} (one : stream.IsParameter index stop types) :
      AreParameters stream index stop types
  | more {index comma stop types others} (one : stream.IsParameter index comma types)
      (separator : stream.is comma "," = true) (rest : AreParameters stream (comma + 1) stop others) :
      AreParameters stream index stop (types ++ others)

/-- A parameter ends at a comma or at the end of its list. -/
def EndsParameter (stream : TokenStream) (close stop : Nat) : Prop :=
  stream.is stop "," = true ∨ stop = close

/-- Plain code in statements, each ended by a semicolon. -/
inductive PlainStatements (stream : TokenStream) : Nat → Nat → Prop where
  | nothing {index} : PlainStatements stream index index
  | statement {index semicolon stop} (run : stream.Plain false index semicolon)
      (ends : stream.is semicolon ";" = true) (rest : PlainStatements stream (semicolon + 1) stop) :
      PlainStatements stream index stop

variable {stream : TokenStream} {index name stop close keyword : Nat} {types : List Stretch}

/-! ## Parameters -/

section Parameters

variable (nested : stream.Nested) (placed : stream.Placed)

include nested placed

theorem BareParameter.lt (bare : stream.BareParameter name stop types) : name < stop := by
  cases bare with
  | named _ _ optional ascription value =>
    exact Nat.lt_of_lt_of_le optional.le
      (Nat.le_trans (ascription.le nested placed) (value.le fun plain => plain.le))

theorem IsParameter.lt (one : stream.IsParameter index stop types) : index < stop := by
  cases one with
  | one bare => exact bare.lt nested placed
  | rest _ bare => exact Nat.lt_of_succ_lt (bare.lt nested placed)

theorem AreParameters.le (parameters : stream.AreParameters index stop types) : index ≤ stop := by
  induction parameters with
  | nothing => exact Nat.le_refl _
  | last one => exact Nat.le_of_lt (one.lt nested placed)
  | more one _ _ inductionHypothesis =>
    have ordered := one.lt nested placed
    omega

theorem BareParameter.laid (bare : stream.BareParameter name stop types) :
    Laid (stream.passed name) types (stream.passed stop) := by
  cases bare with
  | named _ _ optional ascription value =>
    have ordered := value.le fun plain => plain.le
    exact (((optional.laid placed).append (ascription.laid nested placed)).from_lower
      (placed.passed_mono (Nat.le_succ name))).to_upper (placed.passed_mono ordered)

theorem AreParameters.laid (parameters : stream.AreParameters index stop types) :
    Laid (stream.passed index) types (stream.passed stop) := by
  have one : ∀ {index stop types}, stream.IsParameter index stop types →
      Laid (stream.passed index) types (stream.passed stop) := by
    intro index stop types one
    cases one with
    | one bare => exact bare.laid nested placed
    | rest _ bare => exact (bare.laid nested placed).from_lower (placed.passed_mono (Nat.le_succ index))
  induction parameters with
  | nothing => exact .nothing (Nat.le_refl _)
  | last parameter => exact one parameter
  | @more _ comma _ _ _ parameter _ _ inductionHypothesis =>
    exact (one parameter).append
      (inductionHypothesis.from_lower (placed.passed_mono (Nat.le_succ comma)))

/-- The default of a parameter is passed up to the end of the parameter. -/
theorem walkFrom_of_default {first : Nat} (value : stream.Plain false first stop)
    (closes : stream.is close ")" = true) (within : stop ≤ close)
    (ends : stream.EndsParameter close stop) :
    stream.walkFrom first first ⟨close, [","], .never⟩ = .ok (.still stop) := by
  have headFree : stream.HeadFree stop := by
    rcases ends with comma | rfl
    · exact headFree_of_is comma (by decide)
    · exact headFree_of_is closes (by decide)
  have spares : stream.Spares ⟨close, [","], .never⟩ false first stop :=
    ⟨within, by simp, fun _ _ _ => rfl⟩
  refine walkFrom_plain_value nested placed value headFree spares ?_
  rcases ends with comma | rfl
  · exact .inr (endsBefore_of_stop (placed.kind?_of_mark comma (by decide))
      (by simp [(is_iff.mp comma).2]))
  · exact .inl rfl

omit nested in
theorem BareParameter.is_dots (bare : stream.BareParameter name stop types) :
    stream.is name "..." = false := by
  cases bare with
  | named named => exact placed.is_eq_false_of_word (kind?_of_isPlainWord named) (by decide)

omit nested placed in
/-- No parameter is the receiver. -/
theorem IsParameter.isReceiver_eq (one : stream.IsParameter index stop types) (close : Nat) :
    stream.isReceiver index close = false := by
  have noReceiver : stream.is index "this" = false := by
    cases one with
    | one bare =>
      cases bare with
      | named _ other =>
        rw [Bool.eq_false_iff]
        exact fun found => other (is_iff.mp found).2
    | rest found => exact is_eq_false_of_is found (by decide)
  rw [isReceiver, noReceiver]
  rfl

omit nested in
/-- Nothing that can be bound stands behind the name of a parameter. -/
theorem BareParameter.startsBinding_eq (bare : stream.BareParameter name stop types)
    (closes : stream.is close ")" = true) (ends : stream.EndsParameter close stop) :
    stream.startsBinding (name + 1) = false := by
  have marks : ∀ mark ∈ ["?", ":", "=", ",", ")"], (mark ≠ "\x7b" ∧ mark ≠ "[") ∧
      hasMark mark = true := by
    decide
  have behind : ∃ mark ∈ ["?", ":", "=", ",", ")"], stream.is (name + 1) mark = true := by
    cases bare with
    | named _ _ optional ascription value =>
      cases optional with
      | present found => exact ⟨"?", by decide, found⟩
      | absent =>
        cases ascription with
        | present found => exact ⟨":", by decide, found⟩
        | absent =>
          cases value with
          | present found => exact ⟨"=", by decide, found⟩
          | absent =>
            rcases ends with comma | rfl
            · exact ⟨",", by decide, comma⟩
            · exact ⟨")", by decide, closes⟩
  obtain ⟨mark, listed, found⟩ := behind
  obtain ⟨⟨noBrace, noBracket⟩, foreign⟩ := marks mark listed
  have noWord : stream.isPlainWord (name + 1) = false := placed.isPlainWord_eq_false found foreign
  rw [startsBinding, noWord, is_eq_false_of_is found noBrace, is_eq_false_of_is found noBracket]
  rfl

variable {walk : Walk} (walks : stream.WalksBehind keyword walk)

include walks

/-- What the walkers of its parts find at a parameter. -/
theorem BareParameter.parts_eq (bare : stream.BareParameter name stop types)
    (after : keyword < name) (closes : stream.is close ")" = true) (within : stop ≤ close)
    (ends : stream.EndsParameter close stop) :
    stream.parameterTarget walk name close = .ok (.still (name + 1)) ∧ ∃ ascription,
      stream.erasedAnnotation (stream.erasedMarker "?" (name + 1)).next = .ok ascription ∧
        stream.initializer walk ascription.next ⟨close, [","], .never⟩ = .ok (.still stop) ∧
          (stream.erasedMarker "?" (name + 1)).edits ++ ascription.edits = erasures types := by
  cases bare with
  | @named marked typed _ _ type named other optional ascription value =>
    have word := kind?_of_isPlainWord named
    have noBrace : stream.is name "\x7b" = false := placed.is_eq_false_of_word word (by decide)
    have noBracket : stream.is name "[" = false := placed.is_eq_false_of_word word (by decide)
    have positive : 0 < marked := Nat.lt_of_lt_of_le (Nat.succ_pos name) optional.le
    have later : keyword < typed := Nat.lt_of_lt_of_le (Nat.lt_succ_of_lt after)
      (Nat.le_trans optional.le (ascription.le nested placed))
    refine ⟨by simp [parameterTarget, noBrace, noBracket, named, pure, Except.pure],
      ⟨typed, erasures type⟩, ?_, ?_, ?_⟩
    · rw [optional.erasedMarker_eq]
      exact ascription.erasedAnnotation_eq nested placed positive
    · refine value.initializer_eq fun _ plain => ?_
      rw [walks _ _ (Nat.lt_succ_of_lt later)]
      exact walkFrom_of_default nested placed plain closes within ends
    · rw [optional.erasedMarker_eq, erasures_append]

/-- A parameter without modifiers is read up to its comma or to the end of its list. -/
theorem BareParameter.parameter_eq (bare : stream.BareParameter name stop types)
    (unmodified : stream.parameterModifiersEnd index = index)
    (starts : (if stream.is index "..." then index + 1 else index) = name)
    (after : keyword < name) (closes : stream.is close ")" = true) (within : stop ≤ close)
    (ends : stream.EndsParameter close stop) :
    stream.parameter walk index close = .ok ⟨none, ⟨stop, erasures types⟩⟩ := by
  obtain ⟨target, ascription, annotated, initialized, edits⟩ :=
    bare.parts_eq nested placed walks after closes within ends
  unfold parameter
  simp only [unmodified, starts, target, bind, Except.bind]
  dsimp only [Progress.still]
  rw [annotated]
  dsimp only
  rw [initialized, ← edits]
  simp [pure, Except.pure, Progress.still]

theorem IsParameter.parameter_eq (one : stream.IsParameter index stop types)
    (after : keyword < index) (closes : stream.is close ")" = true) (within : stop ≤ close)
    (ends : stream.EndsParameter close stop) :
    stream.parameter walk index close = .ok ⟨none, ⟨stop, erasures types⟩⟩ := by
  cases one with
  | one bare =>
    have unmodified : stream.parameterModifiersEnd index = index := by
      unfold parameterModifiersEnd runEnd
      simp [bare.startsBinding_eq placed closes ends]
    exact bare.parameter_eq nested placed walks unmodified
      (if_neg (Bool.eq_false_iff.mp (bare.is_dots placed))) after closes within ends
  | rest found bare =>
    have unmodified : stream.parameterModifiersEnd index = index := by
      unfold parameterModifiersEnd runEnd
      simp [textIn, (is_iff.mp found).2, parameterModifiers]
    exact bare.parameter_eq nested placed walks unmodified (if_pos found)
      (Nat.lt_succ_of_lt after) closes within ends

/-- Parameters are read up to the end of their list. None of them becomes a property. -/
theorem AreParameters.parametersFrom_eq (parameters : stream.AreParameters index close types)
    (after : keyword < index) (closes : stream.is close ")" = true) :
    stream.parametersFrom walk index close = .ok ⟨[], erasures types⟩ := by
  induction parameters with
  | nothing =>
    rw [parametersFrom, dif_neg (Nat.lt_irrefl _)]
    rfl
  | @last index stop types one =>
    have found := one.parameter_eq nested placed walks after closes (Nat.le_refl _) (.inr rfl)
    have noComma : stream.is stop "," = false := is_eq_false_of_is closes (by decide)
    rw [parametersFrom, dif_pos (one.lt nested placed), one.isReceiver_eq, found]
    simp [bind, Except.bind, pure, Except.pure, noComma, ParameterList.cons]
  | @more index comma stop types others one separator rest inductionHypothesis =>
    have ordered := one.lt nested placed
    have within := rest.le nested placed
    have found := one.parameter_eq nested placed walks after closes (by omega) (.inl separator)
    have others := inductionHypothesis (by omega) closes
    rw [parametersFrom, dif_pos (by omega), one.isReceiver_eq, found]
    simp [bind, Except.bind, pure, Except.pure, separator, Nat.le_of_lt ordered, others,
      ParameterList.cons]

end Parameters

section Behind

variable {source : List Char} (read : ofSource source = .ok stream)

include read

theorem IsParameter.beforeNoWord (one : stream.IsParameter index stop types)
    (behind : stream.MarkAt stop) : ∀ stretch ∈ types, stretch.BeforeNoWord stream.source := by
  have bare : ∀ {name}, stream.BareParameter name stop types →
      ∀ stretch ∈ types, stretch.BeforeNoWord stream.source := by
    intro name bare
    cases bare with
    | named _ _ optional ascription value =>
      have typed := value.markAt behind
      exact List.forall_mem_append.mpr ⟨optional.beforeNoWord read (ascription.markAt typed),
        ascription.beforeNoWord read typed⟩
  cases one with
  | one parameter | rest _ parameter => exact bare parameter

theorem AreParameters.beforeNoWord (parameters : stream.AreParameters index close types)
    (closes : stream.is close ")" = true) :
    ∀ stretch ∈ types, stretch.BeforeNoWord stream.source := by
  induction parameters with
  | nothing => nofun
  | last one => exact one.beforeNoWord read (markAt_of_is closes (by decide +kernel))
  | more one separator _ inductionHypothesis =>
    exact List.forall_mem_append.mpr
      ⟨one.beforeNoWord read (markAt_of_is separator (by decide +kernel)), inductionHypothesis closes⟩

end Behind

/-! ## Bodies -/

theorem PlainStatements.le (statements : stream.PlainStatements index stop) : index ≤ stop := by
  induction statements with
  | nothing => exact Nat.le_refl _
  | statement run _ _ inductionHypothesis =>
    exact Nat.le_trans run.le (Nat.le_of_succ_le inductionHypothesis)

/-- A walk passes plain statements without an edit. -/
theorem walkFrom_of_statements (nested : stream.Nested) (placed : stream.Placed) {first : Nat}
    {rest : Progress} {limit : Nat} (statements : stream.PlainStatements index stop)
    (within : stop ≤ limit) (following : stream.walkFrom first stop (.upTo limit) = .ok rest) :
    stream.walkFrom first index (.upTo limit) = .ok rest := by
  induction statements with
  | nothing => exact following
  | @statement index semicolon stop run ends statements inductionHypothesis =>
    have ordered := statements.le
    have before : semicolon < limit := by omega
    exact walkFrom_of_plain nested placed run (headFree_of_is ends (by decide))
      (spares_upTo (Nat.le_of_lt before))
      (walkFrom_of_semicolon placed ends before (inductionHypothesis within following))

/-- A body of plain statements is passed. -/
theorem walkInside_of_statements (nested : stream.Nested) (placed : stream.Placed)
    {walk : Walk} {opening close : Nat}
    (walks : stream.WalksBehind opening walk) (closes : stream.closer? opening = some close)
    (statements : stream.PlainStatements (opening + 1) close) :
    stream.walkInside walk opening = .ok ⟨close + 1, []⟩ :=
  walkInside_of_walkFrom walks closes (walkFrom_of_statements nested placed statements
    (Nat.le_refl close) (walkFrom_of_le (Nat.le_refl close)))

end TokenStream

end Playground

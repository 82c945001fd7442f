import Playground.Proofs.Erasure.Typed.Parameters

/-!
# Typed members

A class has fields, methods, signatures and ambient members. Fields and methods lose their access
modifiers, their marks and their types; signatures and ambient members vanish. A field may end at a
line break. What its last token is then decides whether the walk of its value ends there, so members
are described with a condition on that token.
-/

namespace Playground

/-- Modifiers of a member that are erased. -/
def accessModifiers : List String :=
  ["public", "private", "protected", "readonly", "override"]

/-- Words that go on with the expression on the line before. -/
def continuationWords : List String :=
  ["in", "instanceof", "as", "satisfies", "of"]

namespace TokenStream

/-- A word that is the name of a member and nothing else. -/
structure IsMemberName (stream : TokenStream) (index : Nat) : Prop where
  word : stream.kind? index = some .word
  unmodified : stream.text index ∉ memberModifiers
  starts : stream.text index ∉ continuationWords

/-- The modifiers before the name of a member, on one line with it. -/
inductive AccessModifiers (stream : TokenStream) : Nat → Nat → List Stretch → Prop where
  | nothing {name} : AccessModifiers stream name name []
  | erased {first name stretches} (listed : stream.text first ∈ accessModifiers)
      (sameLine : stream.newlineBefore (first + 1) = false)
      (rest : AccessModifiers stream (first + 1) name stretches) :
      AccessModifiers stream first name (stream.leadingStretch first :: stretches)
  | kept {first name stretches} (spelled : stream.text first = "static")
      (sameLine : stream.newlineBefore (first + 1) = false)
      (rest : AccessModifiers stream (first + 1) name stretches) :
      AccessModifiers stream first name stretches

/-- The mark that may stand behind the name of a member. -/
inductive MemberMark (stream : TokenStream) : Nat → Nat → List Stretch → Prop where
  | absent {index} (notOptional : stream.is index "?" = false)
      (notDefinite : stream.is index "!" = false) : MemberMark stream index index []
  | present {index mark} (listed : mark ∈ ["?", "!"]) (found : stream.is index mark = true) :
      MemberMark stream index (index + 1) [stream.tokenStretch index]

/-- What members begin with: modifiers, a name and a mark. -/
inductive MemberHead (stream : TokenStream) : Nat → Nat → Nat → List Stretch → Prop where
  | head {first name marked erased marks} (modifiers : stream.AccessModifiers first name erased)
      (named : stream.IsMemberName name) (mark : stream.MemberMark (name + 1) marked marks) :
      MemberHead stream first name marked (erased ++ marks)

/-- Modifiers on one line with the name behind them, one of which makes the member ambient. -/
structure AmbientModifiers (stream : TokenStream) (first name : Nat) : Prop where
  modifiers : ∀ index, first ≤ index → index < name →
    stream.text index ∈ memberModifiers ∧ stream.newlineBefore (index + 1) = false
  ambient : ∃ index, first ≤ index ∧ index < name ∧ stream.text index ∈ ambientModifiers

/-- The tokens up to a semicolon, with no line break before any but the first outside of their
brackets. -/
inductive LineToSemicolon (stream : TokenStream) : Nat → Nat → Prop where
  | semicolon {index} (found : stream.is index ";" = true) : LineToSemicolon stream index (index + 1)
  | token {index stop} (other : stream.is index ";" = false) (unopened : stream.closer? index = none)
      (sameLine : stream.newlineBefore (index + 1) = false)
      (rest : LineToSemicolon stream (index + 1) stop) : LineToSemicolon stream index stop
  | pair {opening close stop} (closes : stream.closer? opening = some close)
      (sameLine : stream.newlineBefore (close + 1) = false)
      (rest : LineToSemicolon stream (close + 1) stop) : LineToSemicolon stream opening stop

/-- Plain code without line breaks. -/
structure OneLine (stream : TokenStream) (first stop : Nat) : Prop where
  plain : stream.Plain false first stop
  sameLine : ∀ index, first < index → index < stop → stream.newlineBefore index = false

/-- A field ends with a semicolon or at a line break; the last token of a value that ends at a line
break is as `Ends` says. -/
inductive FieldEnd (stream : TokenStream) (Ends : Nat → Prop) (typed : Nat) : Nat → Nat → Prop where
  | semicolon {index} (found : stream.is index ";" = true) :
      FieldEnd stream Ends typed index (index + 1)
  | line {index} (newline : stream.newlineBefore index = true)
      (ends : typed < index → Ends (index - 1)) : FieldEnd stream Ends typed index index

/-- A member of a class. -/
inductive IsMember (stream : TokenStream) (Ends : Nat → Prop) : Nat → Nat → List Stretch → Prop where
  | field {first name marked typed valued stop heads type}
      (head : stream.MemberHead first name marked heads)
      (ascription : stream.Annotation marked typed type)
      (value : stream.Initializer stream.OneLine typed valued)
      (ends : stream.FieldEnd Ends typed valued stop) : IsMember stream Ends first stop (heads ++ type)
  | method {first name marked opening close body last heads generics parameters result}
      (head : stream.MemberHead first name marked heads)
      (typeParameters : stream.TypeParameters marked opening generics)
      (opens : stream.is opening "(" = true) (closes : stream.closer? opening = some close)
      (listed : stream.AreParameters (opening + 1) close parameters)
      (ascription : stream.Annotation (close + 1) body result)
      (bodyOpens : stream.is body "\x7b" = true) (bodyCloses : stream.closer? body = some last)
      (statements : stream.PlainStatements (body + 1) last) :
      IsMember stream Ends first (last + 1) (heads ++ generics ++ parameters ++ result)
  | signature {first name marked opening close semicolon heads generics result}
      (head : stream.MemberHead first name marked heads)
      (typeParameters : stream.TypeParameters marked opening generics)
      (opens : stream.is opening "(" = true) (closes : stream.closer? opening = some close)
      (ascription : stream.Annotation (close + 1) semicolon result)
      (ends : stream.is semicolon ";" = true) :
      IsMember stream Ends first (semicolon + 1) [stream.wholeStretch first (semicolon + 1)]
  | ambient {first name stop} (modifiers : stream.AmbientModifiers first name)
      (named : stream.IsMemberName name) (rest : stream.LineToSemicolon name stop) :
      IsMember stream Ends first stop [stream.wholeStretch first stop]

/-- Members one after another. -/
inductive AreMembers (stream : TokenStream) (Ends : Nat → Prop) : Nat → Nat → List Stretch → Prop where
  | nothing {index} : AreMembers stream Ends index index []
  | member {first middle stop types others} (one : stream.IsMember Ends first middle types)
      (rest : AreMembers stream Ends middle stop others) :
      AreMembers stream Ends first stop (types ++ others)

variable {stream : TokenStream} {Ends : Nat → Prop}
  {first index name marked stop close keyword : Nat} {types erased marks heads : List Stretch}

/-! ## Modifiers and names -/

theorem AccessModifiers.le (modifiers : stream.AccessModifiers first name erased) : first ≤ name := by
  induction modifiers with
  | nothing => exact Nat.le_refl _
  | erased _ _ _ inductionHypothesis | kept _ _ _ inductionHypothesis => omega

/-- The modifiers of a member are modifiers on one line with the name. -/
theorem AccessModifiers.at_index (modifiers : stream.AccessModifiers first name erased)
    (after : first ≤ index) (before : index < name) :
    stream.text index ∈ "static" :: accessModifiers ∧ stream.newlineBefore (index + 1) = false := by
  induction modifiers with
  | nothing => omega
  | erased listed sameLine _ inductionHypothesis =>
    rcases Nat.eq_or_lt_of_le after with rfl | later
    · exact ⟨List.mem_cons_of_mem _ listed, sameLine⟩
    · exact inductionHypothesis later before
  | kept spelled sameLine _ inductionHypothesis =>
    rcases Nat.eq_or_lt_of_le after with rfl | later
    · exact ⟨spelled ▸ List.mem_cons_self, sameLine⟩
    · exact inductionHypothesis later before

/-- What is written as a word is no mark. -/
theorem Placed.text_ne_of_word (placed : stream.Placed) (word : stream.kind? index = some .word)
    {text : String} (mark : hasMark text = true) : stream.text index ≠ text := by
  intro spelled
  have found := is_of_word word spelled
  rw [placed.is_eq_false_of_word word mark] at found
  contradiction

theorem word_of_modifier (placed : stream.Placed) (listed : stream.text index ∈ memberModifiers) :
    stream.kind? index = some .word := by
  have words : ∀ text ∈ memberModifiers, text.toList.head?.any startsWord = true := by
    decide
  exact placed.kind?_of_start (words _ listed)

/-- A modifier before a word on its line modifies. -/
theorem modifiesMember_of_word (placed : stream.Placed)
    (word : stream.kind? (index + 1) = some .word)
    (sameLine : stream.newlineBefore (index + 1) = false) : stream.modifiesMember index = true := by
  have marks : ∀ text ∈ ["(", "=", ";", ":", "?", "!", "<", "\x7d", ",", "."], hasMark text = true := by
    decide
  have other : stream.textIn (index + 1) ["(", "=", ";", ":", "?", "!", "<", "\x7d", ",", "."] =
      false := by
    rw [textIn, List.contains_eq_mem, decide_eq_false_iff_not]
    exact fun listed => placed.text_ne_of_word word (marks _ listed) rfl
  rw [modifiesMember, other, sameLine]
  rfl

/-- The modifiers of a member end at its name. -/
theorem modifiersEnd_eq (placed : stream.Placed) (named : stream.IsMemberName name)
    (ordered : first ≤ name) (before : name < close)
    (modifiers : ∀ index, first ≤ index → index < name →
      stream.text index ∈ memberModifiers ∧ stream.newlineBefore (index + 1) = false) :
    stream.modifiersEnd first close = name := by
  unfold modifiersEnd
  induction length : name - first generalizing first with
  | zero =>
    obtain rfl : first = name := by omega
    have other : stream.textIn first memberModifiers = false := by
      simpa [textIn] using named.unmodified
    rw [runEnd, if_pos before, if_neg (by simp [other])]
  | succ length inductionHypothesis =>
    obtain ⟨listed, sameLine⟩ := modifiers first (Nat.le_refl _) (by omega)
    have word : stream.kind? (first + 1) = some .word := by
      rcases Nat.eq_or_lt_of_le (by omega : first + 1 ≤ name) with same | earlier
      · exact same ▸ named.word
      · exact word_of_modifier placed (modifiers _ (Nat.le_succ _) earlier).1
    have accepted : (stream.textIn first memberModifiers && stream.modifiesMember first) = true := by
      rw [modifiesMember_of_word placed word sameLine, Bool.and_true]
      simpa [textIn] using listed
    rw [runEnd, if_pos (by omega), if_pos accepted]
    exact inductionHypothesis (by omega)
      (fun index after before => modifiers index (by omega) before) (by omega)

theorem AccessModifiers.modifiers (modifiers : stream.AccessModifiers first name erased) :
    ∀ index, first ≤ index → index < name →
      stream.text index ∈ memberModifiers ∧ stream.newlineBefore (index + 1) = false := by
  have known : ∀ text ∈ "static" :: accessModifiers, text ∈ memberModifiers := by
    decide
  intro index after before
  obtain ⟨listed, sameLine⟩ := modifiers.at_index after before
  exact ⟨known _ listed, sameLine⟩

theorem AccessModifiers.isAmbientMember_eq (modifiers : stream.AccessModifiers first name erased) :
    stream.isAmbientMember first name = false := by
  have apart : ∀ text ∈ "static" :: accessModifiers, text ∉ ambientModifiers := by
    decide
  rw [isAmbientMember, List.any_eq_false]
  intro index within
  obtain ⟨after, before⟩ := List.mem_range'_1.mp within
  have listed := (modifiers.at_index after (by omega)).1
  simpa [textIn] using apart _ listed

theorem AmbientModifiers.isAmbientMember_eq (modifiers : stream.AmbientModifiers first name) :
    stream.isAmbientMember first name = true := by
  obtain ⟨index, after, before, listed⟩ := modifiers.ambient
  rw [isAmbientMember, List.any_eq_true]
  exact ⟨index, List.mem_range'_1.mpr (by omega), by simpa [textIn] using listed⟩

/-- Access modifiers are erased, and nothing else before a name. -/
theorem AccessModifiers.erasedModifiers_eq (modifiers : stream.AccessModifiers first name erased) :
    stream.erasedModifiers first name = erasures erased := by
  have apart : ∀ text ∈ accessModifiers, text ∉ keptModifiers ∧ text ∉ ambientModifiers := by
    decide
  unfold erasedModifiers
  induction modifiers with
  | nothing => simp
  | @erased first name stretches listed _ rest inductionHypothesis =>
    have ordered := rest.le
    have count : name - first = name - (first + 1) + 1 := by omega
    obtain ⟨notKept, notAmbient⟩ := apart _ listed
    have chosen : (stream.textIn first keptModifiers || stream.textIn first ambientModifiers) =
        false := by
      simp [textIn, notKept, notAmbient]
    rw [count, List.range'_succ, List.filterMap_cons, chosen, inductionHypothesis]
    rfl
  | @kept first name stretches spelled _ rest inductionHypothesis =>
    have ordered := rest.le
    have count : name - first = name - (first + 1) + 1 := by omega
    have kept : (stream.textIn first keptModifiers || stream.textIn first ambientModifiers) = true := by
      simp [textIn, spelled, keptModifiers]
    rw [count, List.range'_succ, List.filterMap_cons, kept, inductionHypothesis]
    rfl

section Heads

variable (placed : stream.Placed)

include placed

/-- What members begin with is erased as far as it has no meaning at run time. -/
theorem MemberHead.memberHead_eq (head : stream.MemberHead first name marked heads) (walk : Walk) :
    stream.memberHead walk first name name (name + 1) marked = .ok (erasures heads) := by
  cases head with
  | head modifiers named mark =>
    have noBracket : stream.is name "[" = false := placed.is_eq_false_of_word named.word (by decide)
    rw [memberHead, noBracket, modifiers.erasedModifiers_eq, erasures_append]
    cases mark with
    | absent => simp [bind, Except.bind, pure, Except.pure]
    | present => simp [bind, Except.bind, pure, Except.pure, single, tokenStretch]

/-- A member with a name is read from its name on. -/
theorem MemberHead.namedMember_eq (head : stream.MemberHead first name marked heads) (walk : Walk)
    {generics : Nat} (found : stream.optionalTypeParameters marked = .ok generics)
    (close : Nat) (derived : Bool) :
    stream.namedMember walk first name close derived =
      if stream.is generics "(" then
        stream.methodMember walk first name name (name + 1) marked generics derived
      else if marked < generics then stream.fail generics .expectedParenthesis
      else stream.fieldMember walk first name name (name + 1) marked close := by
  cases head with
  | head _ named mark =>
    have noStar : stream.is name "*" = false := placed.is_eq_false_of_word named.word (by decide)
    have noBracket : stream.is name "[" = false := placed.is_eq_false_of_word named.word (by decide)
    have nameEnd : stream.memberNameEnd name = .ok (name + 1) := by
      simp [memberNameEnd, noBracket, named.word, pure, Except.pure]
    unfold namedMember
    simp only [noStar, Bool.false_eq_true, if_false, nameEnd, bind, Except.bind]
    cases mark with
    | absent notOptional notDefinite =>
      simp only [notOptional, notDefinite, Bool.or_self, Bool.false_eq_true, if_false, found]
    | present listed mark =>
      have marked : (stream.is (name + 1) "?" || stream.is (name + 1) "!") = true := by
        simp only [List.mem_cons, List.not_mem_nil, or_false] at listed
        rcases listed with rfl | rfl <;> simp [mark]
      simp only [marked, if_true, found]

/-- A member begins with a word. -/
theorem word_of_modifiers (named : stream.IsMemberName name) (ordered : first ≤ name)
    (modifiers : ∀ index, first ≤ index → index < name →
      stream.text index ∈ memberModifiers ∧ stream.newlineBefore (index + 1) = false) :
    stream.kind? first = some .word ∧ stream.text first ∉ continuationWords := by
  have apart : ∀ text ∈ memberModifiers, text ∉ continuationWords := by
    decide
  rcases Nat.eq_or_lt_of_le ordered with rfl | earlier
  · exact ⟨named.word, named.starts⟩
  · have listed := (modifiers first (Nat.le_refl _) earlier).1
    exact ⟨word_of_modifier placed listed, apart _ listed⟩

/-- Which kind of member it is, is seen at its modifiers. -/
theorem classMember_eq (named : stream.IsMemberName name) (ordered : first ≤ name)
    (before : name < close)
    (modifiers : ∀ index, first ≤ index → index < name →
      stream.text index ∈ memberModifiers ∧ stream.newlineBefore (index + 1) = false)
    (walk : Walk) (derived : Bool) :
    stream.classMember walk first close derived =
      if stream.isAmbientMember first name then
        .ok ⟨stream.statementEnd name close, [stream.whole first (stream.statementEnd name close)]⟩
      else stream.namedMember walk first name close derived := by
  have word := (word_of_modifiers placed named ordered modifiers).1
  have noSemicolon : stream.is first ";" = false := placed.is_eq_false_of_word word (by decide)
  have noDecorator : stream.is first "@" = false := placed.is_eq_false_of_word word (by decide)
  have noBrace : stream.is name "\x7b" = false := placed.is_eq_false_of_word named.word (by decide)
  have noBracket : stream.is name "[" = false := placed.is_eq_false_of_word named.word (by decide)
  unfold classMember
  simp only [noSemicolon, noDecorator, Bool.false_eq_true, if_false,
    modifiersEnd_eq placed named ordered before modifiers, noBrace, Bool.and_false, Bool.false_and,
    startsIndexSignature, noBracket, Bool.or_false]
  rfl

end Heads

/-! ## Fields -/

/-- Behind a member the next begins, or the class ends. -/
def MemberEndsAt (stream : TokenStream) (close stop : Nat) : Prop :=
  stop = close ∨ stream.kind? stop = some .word ∧ stream.text stop ∉ continuationWords

section Fields

variable (nested : stream.Nested) (placed : stream.Placed)

include placed

/-- No mark but a semicolon or a closing brace stands behind a field. -/
theorem MemberEndsAt.is_eq_false (behind : stream.MemberEndsAt close stop)
    (closes : stream.is close "\x7d" = true) {text : String} (other : text ≠ "\x7d")
    (mark : hasMark text = true) : stream.is stop text = false := by
  rcases behind with rfl | ⟨word, _⟩
  · exact is_eq_false_of_is closes (Ne.symm other)
  · exact placed.is_eq_false_of_word word mark

theorem FieldEnd.is_eq_false {typed valued : Nat} (ends : stream.FieldEnd Ends typed valued stop)
    (behind : stream.MemberEndsAt close stop) (closes : stream.is close "\x7d" = true)
    {text : String} (other : text ∉ [";", "\x7d"]) (mark : hasMark text = true) :
    stream.is valued text = false := by
  cases ends with
  | semicolon found =>
    exact is_eq_false_of_is found fun same => other (same ▸ List.mem_cons_self)
  | line => exact behind.is_eq_false placed closes (fun same => other (same ▸ by simp)) mark

theorem FieldEnd.afterSemicolon_eq {typed valued : Nat}
    (ends : stream.FieldEnd Ends typed valued stop) (behind : stream.MemberEndsAt close stop)
    (closes : stream.is close "\x7d" = true) : stream.afterSemicolon valued = stop := by
  cases ends with
  | semicolon found => simp [afterSemicolon, found]
  | line =>
    have noSemicolon := behind.is_eq_false placed closes (by decide : ";" ≠ "\x7d") (by decide)
    simp [afterSemicolon, noSemicolon]

/-- The walk of a value ends where its field does. -/
theorem FieldEnd.endsBefore {equals valued : Nat} (begins : stream.is equals "=" = true)
    (ordered : equals < valued) (ends : stream.FieldEnd stream.EndsExpression equals valued stop)
    (behind : stream.MemberEndsAt close stop) :
    valued = close ∨
      stream.endsBefore (equals + 1) valued ⟨close, [";"], .member⟩ = true := by
  cases ends with
  | semicolon found =>
    exact .inr (endsBefore_of_stop (placed.kind?_of_mark found (by decide))
      (by simp [(is_iff.mp found).2]))
  | line newline ends =>
    refine behind.imp_right fun ⟨word, starts⟩ => ?_
    have ended := ends ordered
    have nonempty : equals + 1 < stop := by
      -- no expression ends with an equals sign
      refine Nat.lt_of_le_of_ne ordered ?_
      rintro rfl
      have mark := text_of_endsExpression ended (placed.kind?_of_mark begins (by decide))
      rw [Nat.add_sub_cancel, (is_iff.mp begins).2] at mark
      exact absurd mark (by decide)
    have goesOn : stream.textIn stop continuationWords = false := by
      simpa [textIn] using starts
    have line : stream.endsAtLine stop .member = true := by
      rw [endsAtLine, newline, ended, word]
      simpa [continuationWords] using goesOn
    simp [TokenStream.endsBefore, nonempty, line]

include nested

/-- The value of a field is passed. -/
theorem OneLine.walkFrom_eq {equals valued : Nat} (value : stream.OneLine (equals + 1) valued)
    (begins : stream.is equals "=" = true)
    (ends : stream.FieldEnd stream.EndsExpression equals valued stop) (within : valued ≤ close)
    (behind : stream.MemberEndsAt close stop) (closes : stream.is close "\x7d" = true) :
    stream.walkFrom (equals + 1) (equals + 1) ⟨close, [";"], .member⟩ = .ok (.still valued) := by
  have marks : ∀ text ∈ ["=>", ":", "\x7b"], text ∉ [";", "\x7d"] ∧ hasMark text = true := by
    decide
  have headFree : stream.HeadFree valued := fun text listed =>
    ends.is_eq_false placed behind closes (marks text listed).1 (marks text listed).2
  refine walkFrom_plain_value nested placed value.plain headFree ⟨within, by simp, ?_⟩
    (ends.endsBefore placed begins value.plain.le behind)
  intro between after before
  simp [endsAtLine, value.sameLine between after before]

variable {walk : Walk} (walks : stream.WalksBehind keyword walk)

include walks

theorem fieldMember_eq {typed valued : Nat} {type : List Stretch}
    (head : stream.MemberHead first name marked heads)
    (ascription : stream.Annotation marked typed type)
    (value : stream.Initializer stream.OneLine typed valued)
    (ends : stream.FieldEnd stream.EndsExpression typed valued stop) (after : keyword < marked)
    (within : valued ≤ close) (behind : stream.MemberEndsAt close stop)
    (closes : stream.is close "\x7d" = true) :
    stream.fieldMember walk first name name (name + 1) marked close =
      .ok ⟨stop, erasures (heads ++ type)⟩ := by
  have typedBehind := ascription.le nested placed
  have initialized : stream.initializer walk typed ⟨close, [";"], .member⟩ = .ok (.still valued) :=
    value.initializer_eq fun begins value => by
      rw [walks _ _ (by omega)]
      exact value.walkFrom_eq nested placed begins ends within behind closes
  unfold fieldMember
  simp only [head.memberHead_eq placed, bind, Except.bind,
    ascription.erasedAnnotation_eq nested placed (by omega), initialized]
  simp [pure, Except.pure, Progress.still, ends.afterSemicolon_eq placed behind closes]

end Fields

/-! ## Members -/

section Members

variable (nested : stream.Nested) (placed : stream.Placed)

theorem MemberHead.lt (head : stream.MemberHead first name marked heads) :
    first ≤ name ∧ name < marked := by
  cases head with
  | head modifiers _ mark =>
    refine ⟨modifiers.le, ?_⟩
    cases mark with
    | absent | present => omega

theorem LineToSemicolon.lt (line : stream.LineToSemicolon index stop) : index < stop := by
  induction line with
  | semicolon => exact Nat.lt_succ_self _
  | token _ _ _ _ inductionHypothesis => omega
  | pair closes _ _ inductionHypothesis =>
    have ordered := lt_of_closer?_eq_some closes
    omega

/-- On its first line no declaration ends. -/
theorem endsDeclaration_eq_false (sameLine : first < index → stream.newlineBefore index = false) :
    stream.endsDeclaration first index = false := by
  rw [endsDeclaration]
  by_cases after : first < index
  · simp [sameLine after]
  · simp [after]

/-- The search for the end of a declaration finds its semicolon. -/
theorem LineToSemicolon.seek_eq (nested : stream.Nested) (line : stream.LineToSemicolon index stop)
    (sameLine : first < index → stream.newlineBefore index = false) (within : stop ≤ close) :
    stream.seek (fun index => stream.endsDeclaration first index || stream.is index ";") close index =
        stop - 1 ∧ stream.is (stop - 1) ";" = true ∧
      (first < stop - 1 → stream.newlineBefore (stop - 1) = false) := by
  induction line with
  | @semicolon index found =>
    rw [seek_eq_self (by simp [found])]
    exact ⟨rfl, found, sameLine⟩
  | @token index stop other unopened following rest inductionHypothesis =>
    have ordered := rest.lt
    rw [seek_eq_seek_skip (by omega) (by simp [endsDeclaration_eq_false sameLine, other]), skip,
      unopened]
    exact inductionHypothesis (fun _ => following) within
  | @pair opening inner stop closes following rest inductionHypothesis =>
    have brackets : ∀ pair ∈ bracketPairs, pair.1 ≠ ";" := by
      decide
    have ordered := rest.lt
    have forward := lt_of_closer?_eq_some closes
    obtain ⟨mark, _, listed⟩ := nested.text_bracket closes
    have other : stream.is opening ";" = false :=
      is_eq_false_of_is (is_of_mark mark rfl) (brackets _ listed)
    rw [seek_eq_seek_skip (by omega) (by simp [endsDeclaration_eq_false sameLine, other]),
      skip_eq_of_closer? closes]
    exact inductionHypothesis (fun _ => following) within

/-- A declaration without a body goes up to its semicolon. -/
theorem LineToSemicolon.statementEnd_eq (nested : stream.Nested)
    (line : stream.LineToSemicolon index stop) (within : stop ≤ close) :
    stream.statementEnd index close = stop := by
  have ordered := line.lt
  obtain ⟨found, -, sameLine⟩ :=
    line.seek_eq nested (fun after => absurd after (Nat.lt_irrefl index)) within
  unfold statementEnd
  simp only [found, endsDeclaration_eq_false sameLine]
  rw [if_neg (by omega), if_neg (by simp)]
  omega

theorem AmbientModifiers.le (modifiers : stream.AmbientModifiers first name) : first ≤ name := by
  obtain ⟨index, after, before, _⟩ := modifiers.ambient
  omega

section Walking

variable {walk : Walk} (walks : stream.WalksBehind keyword walk)

include placed in
/-- A member begins with a word that goes on with nothing. -/
theorem IsMember.starts (one : stream.IsMember Ends first stop types) :
    stream.kind? first = some .word ∧ stream.text first ∉ continuationWords := by
  have starts : ∀ {name marked heads}, stream.MemberHead first name marked heads →
      stream.kind? first = some .word ∧ stream.text first ∉ continuationWords := by
    intro name marked heads head
    cases head with
    | head modifiers named => exact word_of_modifiers placed named modifiers.le modifiers.modifiers
  cases one with
  | field head | method head | signature head => exact starts head
  | ambient modifiers named =>
    exact word_of_modifiers placed named modifiers.le modifiers.modifiers

include nested placed in
theorem IsMember.lt (one : stream.IsMember Ends first stop types) : first < stop := by
  cases one with
  | field head ascription value ends =>
    have := head.lt
    have := ascription.le nested placed
    have := value.le fun value => value.plain.le
    cases ends with
    | semicolon | line => omega
  | method head typeParameters _ closes _ ascription _ bodyCloses =>
    have := head.lt
    have := typeParameters.le nested placed
    have := lt_of_closer?_eq_some closes
    have := ascription.le nested placed
    have := lt_of_closer?_eq_some bodyCloses
    omega
  | signature head typeParameters _ closes ascription =>
    have := head.lt
    have := typeParameters.le nested placed
    have := lt_of_closer?_eq_some closes
    have := ascription.le nested placed
    omega
  | ambient modifiers _ rest =>
    have := modifiers.le
    have := rest.lt
    omega

include placed in
/-- A member with a head is read from its name on. -/
theorem MemberHead.classMember_eq (head : stream.MemberHead first name marked heads)
    (before : name < close) {generics : Nat}
    (found : stream.optionalTypeParameters marked = .ok generics) (derived : Bool) :
    stream.classMember walk first close derived =
      if stream.is generics "(" then
        stream.methodMember walk first name name (name + 1) marked generics derived
      else if marked < generics then stream.fail generics .expectedParenthesis
      else stream.fieldMember walk first name name (name + 1) marked close := by
  have named := head.namedMember_eq placed walk found close derived
  cases head with
  | head modifiers name =>
    rw [TokenStream.classMember_eq placed name modifiers.le before modifiers.modifiers,
      modifiers.isAmbientMember_eq, if_neg Bool.false_ne_true, named]

include placed in
/-- A field has no list behind its name. -/
theorem Annotation.is_eq_false_of_field {typed valued : Nat} {type : List Stretch}
    (ascription : stream.Annotation marked typed type)
    (value : stream.Initializer stream.OneLine typed valued)
    (ends : stream.FieldEnd Ends typed valued stop) (behind : stream.MemberEndsAt close stop)
    (closes : stream.is close "\x7d" = true) {text : String} (listed : text ∈ ["<", "("]) :
    stream.is marked text = false := by
  have marks : ∀ text ∈ ["<", "("], (text ≠ ":" ∧ text ≠ "=" ∧ text ∉ [";", "\x7d"]) ∧
      hasMark text = true := by
    decide
  obtain ⟨⟨noColon, noEquals, noEnd⟩, foreign⟩ := marks text listed
  cases ascription with
  | present found => exact is_eq_false_of_is found (Ne.symm noColon)
  | absent =>
    cases value with
    | present found => exact is_eq_false_of_is found (Ne.symm noEquals)
    | absent => exact ends.is_eq_false placed behind closes noEnd foreign

include nested placed walks in
theorem methodMember_eq {opening inner body last : Nat} {generics parameters result : List Stretch}
    (head : stream.MemberHead first name marked heads)
    (typeParameters : stream.TypeParameters marked opening generics)
    (opens : stream.is opening "(" = true) (closes : stream.closer? opening = some inner)
    (listed : stream.AreParameters (opening + 1) inner parameters)
    (ascription : stream.Annotation (inner + 1) body result)
    (bodyOpens : stream.is body "\x7b" = true) (bodyCloses : stream.closer? body = some last)
    (statements : stream.PlainStatements (body + 1) last) (after : keyword < marked)
    (derived : Bool) :
    stream.methodMember walk first name name (name + 1) marked opening derived =
      .ok ⟨last + 1, erasures (heads ++ generics ++ parameters ++ result)⟩ := by
  have afterGenerics := typeParameters.le nested placed
  have ordered := lt_of_closer?_eq_some closes
  have afterResult := ascription.le nested placed
  have closesList : stream.is inner ")" = true := nested.is_close closes opens (by decide)
  have foundParameters := listed.parametersFrom_eq nested placed walks (by omega) closesList
  have foundBody : stream.methodBody walk body name derived [] = .ok ⟨last + 1, []⟩ := by
    rw [methodBody, if_neg (by simp)]
    exact walkInside_of_statements nested placed (walks.later (by omega)) bodyCloses statements
  unfold methodMember
  simp only [closeOf_eq_ok_iff.mpr closes, bind, Except.bind, ascription.optionalAnnotation_eq,
    bodyOpens, if_true, head.memberHead_eq placed, foundParameters, foundBody,
    typeParameters.attachedIf_eq nested placed (by omega),
    ascription.attachedIf_eq nested placed (Nat.succ_pos inner), ← erasures_append]
  simp [pure, Except.pure, Progress.preceded]

include nested placed walks in
/-- A member is read up to its end. -/
theorem IsMember.classMember_eq (one : stream.IsMember stream.EndsExpression first stop types)
    (after : keyword < first) (within : stop ≤ close) (behind : stream.MemberEndsAt close stop)
    (closes : stream.is close "\x7d" = true) (derived : Bool) :
    stream.classMember walk first close derived = .ok ⟨stop, erasures types⟩ := by
  have whole : ∀ {last}, first < last + 1 →
      [stream.whole first (last + 1)] = erasures [stream.wholeStretch first (last + 1)] := by
    intro last ordered
    rw [whole_eq ordered]
    rfl
  cases one with
  | @field name marked typed valued _ heads type head ascription value ends =>
    have ordered := head.lt
    have afterName := ascription.le nested placed
    have afterType := value.le fun value => value.plain.le
    have upTo : valued ≤ stop := by
      cases ends with
      | semicolon | line => omega
    have noAngle := ascription.is_eq_false_of_field placed value ends behind closes
      (by decide : "<" ∈ ["<", "("])
    have noList := ascription.is_eq_false_of_field placed value ends behind closes
      (by decide : "(" ∈ ["<", "("])
    rw [head.classMember_eq placed (by omega) (TypeParameters.absent noAngle).optionalTypeParameters_eq,
      noList, if_neg Bool.false_ne_true, if_neg (Nat.lt_irrefl marked)]
    exact fieldMember_eq nested placed walks head ascription value ends (by omega) (by omega) behind
      closes
  | @method name marked opening inner body last heads generics parameters result head typeParameters
      opens closesList listed ascription bodyOpens bodyCloses statements =>
    have ordered := head.lt
    have afterGenerics := typeParameters.le nested placed
    have forward := lt_of_closer?_eq_some closesList
    have afterResult := ascription.le nested placed
    have bodyForward := lt_of_closer?_eq_some bodyCloses
    rw [head.classMember_eq placed (by omega) typeParameters.optionalTypeParameters_eq, if_pos opens]
    exact methodMember_eq nested placed walks head typeParameters opens closesList listed ascription
      bodyOpens bodyCloses statements (by omega) derived
  | @signature name marked opening inner semicolon heads generics result head typeParameters opens
      closesList ascription ends =>
    have ordered := head.lt
    have afterGenerics := typeParameters.le nested placed
    have forward := lt_of_closer?_eq_some closesList
    have afterResult := ascription.le nested placed
    have noBody : stream.is semicolon "\x7b" = false := is_eq_false_of_is ends (by decide)
    rw [head.classMember_eq placed (by omega) typeParameters.optionalTypeParameters_eq, if_pos opens,
      ← whole (by omega)]
    unfold methodMember
    simp [closeOf_eq_ok_iff.mpr closesList, bind, Except.bind, ascription.optionalAnnotation_eq,
      noBody, afterSemicolon, ends, pure, Except.pure]
  | @ambient name _ modifiers named rest =>
    have forward := rest.lt
    have ordered := modifiers.le
    obtain ⟨last, rfl⟩ := Nat.exists_eq_succ_of_ne_zero (by omega : stop ≠ 0)
    rw [TokenStream.classMember_eq placed named modifiers.le (by omega) modifiers.modifiers,
      modifiers.isAmbientMember_eq, if_pos rfl, rest.statementEnd_eq nested within, ← whole (by omega)]

end Walking

end Members

end TokenStream

end Playground

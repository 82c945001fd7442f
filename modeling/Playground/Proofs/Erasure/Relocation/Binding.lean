import Playground.Proofs.Erasure.Relocation.Parts

/-!
# Expressions, bindings and functions in streams that stand for one another

The walkers of these constructs answer alike when the walker of nested programs does. Only the
initializer of a variable is walked without a limit, and a semicolon ends it.
-/

namespace Playground

/-- Parameters that stand for one another declare the same property. -/
structure Relocation.ParameterAlike {source target : TokenStream}
    (reloc : Relocation source target) (parameter other : Parameter) : Prop where
  property : other.property = parameter.property
  same : ∀ name ∈ parameter.property, reloc.Same name name
  progress : reloc.ProgressAlike parameter.progress other.progress

/-- Parameter lists that stand for one another declare the same properties. -/
structure Relocation.ParametersAlike {source target : TokenStream}
    (reloc : Relocation source target) (list other : ParameterList) : Prop where
  properties : other.properties = list.properties
  same : ∀ name ∈ list.properties, reloc.Same name name
  edits : reloc.EditsAlike list.edits other.edits

namespace Relocation

open TokenStream

variable {source target : TokenStream} {reloc : Relocation source target}
variable {index other first otherFirst stop otherStop close otherClose : Nat}
variable {keyword otherKeyword opening otherOpening : Nat}

/-! ## Type syntax inside expressions -/

/-- The binding and its annotation stand inside the parentheses of a catch clause. -/
theorem catchHead (next : reloc.Past (keyword + 1) (otherKeyword + 1)) :
    reloc.Alike reloc.ProgressAlike (source.catchHead keyword) (target.catchHead otherKeyword) := by
  refine (closeOf next.toAt).bind fun closes => ?_
  have binding := closes.inside next.toAt
  have named := binding.succ_of_lt closes.next.toAt (Nat.succ_lt_succ closes.later)
  have target : reloc.Alike reloc.Past (source.catchTargetEnd (keyword + 2))
      (target.catchTargetEnd (otherKeyword + 2)) :=
    choose (by rw [binding.is, binding.is])
      (fun _ => (closeOf binding.toAt).bind fun pattern => .ok pattern.next)
      (fun _ => .ok named)
  exact target.bind fun ends => (annotationEnd ends).bind fun annotation =>
    .ok ⟨closes.next, attachedIf ends annotation⟩

theorem opensArrowHead (at_ : reloc.At index other) :
    target.opensArrowHead other = source.opensArrowHead index := by
  refine both (at_.is "(") fun opens => ?_
  have next := at_.succ_of_is opens (by decide)
  rw [at_.partner?]
  cases partner : source.partner? index with
  | none => rfl
  | some close =>
    have after : reloc.Past (close + 1) (close + reloc.shift + 1) := by
      by_cases later : index < close
      · have closed : source.closer? index = some close :=
          Option.filter_eq_some_iff.mpr ⟨partner, by simpa using later⟩
        obtain ⟨here, -⟩ | ⟨_, _, here, -, closes⟩ := lookup_cases at_.closer?
        · simp [here] at closed
        · obtain rfl := Option.some.inj (here.symm.trans closed)
          rw [← closes.here.shifted]
          exact closes.next
      · have earlier : reloc.At (close + 1) (close + 1 + reloc.shift) :=
          next.before (Nat.succ_le_succ (Nat.not_lt.mp later))
        rw [Nat.add_right_comm] at earlier
        exact ⟨earlier, .inl (Nat.succ_pos close)⟩
    simp only [Option.map_some]
    rw [after.is, after.is]

theorem startsCall (at_ : reloc.At index other) :
    target.startsCall other = source.startsCall index := by
  unfold TokenStream.startsCall
  rw [at_.is, at_.kind?]

/-- What a filter keeps is used alike. -/
theorem filter_map {found otherFound : Option Nat} {accepts otherAccepts : Nat → Bool}
    {next otherNext : Nat → Progress} (alike : Option.Rel reloc.Past found otherFound)
    (same : ∀ {index other}, reloc.Past index other → otherAccepts other = accepts index)
    (rest : ∀ {index other}, reloc.Past index other →
      reloc.ProgressAlike (next index) (otherNext other)) :
    Option.Rel reloc.ProgressAlike ((found.filter accepts).map next)
      ((otherFound.filter otherAccepts).map otherNext) := by
  obtain ⟨rfl, rfl⟩ | ⟨stop, otherStop, rfl, rfl, ends⟩ := lookup_cases alike
  · exact .none
  · simp only [Option.filter_some]
    rw [same ends]
    cases accepts stop with
    | true => exact .some (rest ends)
    | false => exact .none

theorem callArguments? (past : reloc.Past index other) :
    Option.Rel reloc.ProgressAlike (source.callArguments? index) (target.callArguments? other) :=
  choose (by rw [past.pred.kind?])
    (fun _ => filter_map (typeArgumentsEnd? past.toAt) (fun ends => startsCall ends.toAt)
      fun ends => ⟨ends, .single (attached past ends)⟩)
    (fun _ => .none)

theorem arrowParameters? (at_ : reloc.At index other) :
    Option.Rel reloc.ProgressAlike (source.arrowParameters? index)
      (target.arrowParameters? other) :=
  filter_map (typeParametersEnd? at_) (fun ends => opensArrowHead ends.toAt)
    fun ends => ⟨ends, .single (.erase at_.startOf ends.startOf)⟩

theorem angle (at_ : reloc.At index other) (next : reloc.Past (index + 1) (other + 1)) :
    reloc.ProgressAlike (source.angle index) (target.angle other) := by
  have erased : Option.Rel reloc.ProgressAlike
      (if 0 < index && source.endsExpression (index - 1) then source.callArguments? index
        else source.arrowParameters? index)
      (if 0 < other && target.endsExpression (other - 1) then target.callArguments? other
        else target.arrowParameters? other) := by
    obtain past | ⟨rfl, positive, mark, semicolon⟩ := at_.past_or_first
    · have first : 0 < index ↔ 0 < other := by
        have := past.shifted
        have := past.later
        omega
      exact choose (by rw [past.pred.endsExpression, decide_eq_decide.mpr first])
        (fun _ => callArguments? past) (fun _ => arrowParameters? at_)
    · rw [if_neg (by simp), if_neg]
      · exact arrowParameters? at_
      · rw [endsExpression_of_semicolon mark semicolon]
        simp
  unfold TokenStream.angle
  obtain ⟨here, there⟩ | ⟨_, _, here, there, alike⟩ := lookup_cases erased
  · simp only [here, there]
    exact .still next
  · simp only [here, there]
    exact alike

theorem takesNonNullMark (at_ : reloc.At index other) :
    target.takesNonNullMark other = source.takesNonNullMark index := by
  unfold TokenStream.takesNonNullMark
  rw [at_.kind?, at_.textIn (by decide), at_.textIn (by decide)]

theorem followsNonNullMark (past : reloc.Past index other) :
    target.followsNonNullMark other = source.followsNonNullMark index := by
  have ends : (target.size ≤ other) ↔ source.size ≤ index := by
    rw [← Nat.not_lt, ← Nat.not_lt, past.lt_size_iff]
  unfold TokenStream.followsNonNullMark
  rw [past.newlineBefore, past.textIn (by decide), decide_eq_decide.mpr ends]

theorem nonNullMark (at_ : reloc.At index other) (next : reloc.Past (index + 1) (other + 1)) :
    reloc.ProgressAlike (source.nonNullMark index) (target.nonNullMark other) := by
  obtain past | ⟨rfl, positive, mark, semicolon⟩ := at_.past_or_first
  · have first : 0 < index ↔ 0 < other := by
      have := past.shifted
      have := past.later
      omega
    refine choose ?_ (fun _ => ⟨next, .single (single at_)⟩) (fun _ => .still next)
    rw [past.newlineBefore, takesNonNullMark past.pred, followsNonNullMark next,
      decide_eq_decide.mpr first]
  · have refused : target.takesNonNullMark (other - 1) = false := by
      simp [TokenStream.takesNonNullMark, mark, TokenStream.textIn, semicolon]
    unfold TokenStream.nonNullMark
    rw [if_neg (by simp), if_neg (by simp [refused])]
    exact .still next

theorem typeAssertion (past : reloc.Past keyword otherKeyword)
    (next : reloc.Past (keyword + 1) (otherKeyword + 1)) :
    reloc.ProgressAlike (source.typeAssertion keyword) (target.typeAssertion otherKeyword) := by
  refine choose (by rw [next.is]) (fun const => ?_) (fun _ => ?_)
  · have stops := next.succ_of_is const (by decide)
    exact ⟨stops, .single (attached past stops)⟩
  · obtain ⟨here, there⟩ | ⟨_, _, here, there, ends⟩ := lookup_cases (typeEnd? next)
    · rw [here, there]
      exact .still next
    · rw [here, there]
      exact ⟨ends, .single (attached past ends)⟩

/-! ## Parts of bindings -/

theorem startsBinding (at_ : reloc.At index other) :
    target.startsBinding other = source.startsBinding index := by
  unfold TokenStream.startsBinding
  rw [at_.isPlainWord, at_.is, at_.is]

theorem parameterModifiersEnd (past : reloc.Past index other) :
    reloc.Past (source.parameterModifiersEnd index) (target.parameterModifiersEnd other) := by
  have next : ∀ {index other}, reloc.Past index other →
      source.textIn index parameterModifiers = true → reloc.Past (index + 1) (other + 1) :=
    fun past listed => past.succ_of_textIn listed (by decide)
  refine runEnd past (·.lt_size_iff) (fun past => ?_) (fun past _ accepted => ?_)
  · exact both (past.textIn (by decide)) fun listed => startsBinding (next past listed).toAt
  · exact next past (Bool.and_eq_true_iff.mp accepted).1

theorem erasedMarker (past : reloc.Past index other) (text : String) (plain : text ≠ ";") :
    reloc.ProgressAlike (source.erasedMarker text index) (target.erasedMarker text other) :=
  choose (by rw [past.is])
    (fun marked => ⟨past.succ_of_is marked plain, .single (single past.toAt)⟩)
    (fun _ => .still past)

theorem annotationErased (past : reloc.Past index other) :
    reloc.Alike reloc.ProgressAlike ( source.erasedAnnotation index)
      ( target.erasedAnnotation other) :=
  (annotationEnd past).bind fun stops => .ok ⟨stops, attachedIf past stops⟩

/-- The token after a name is looked at only if the name is followed by a mark. -/
theorem definiteMark (past : reloc.Past index other) :
    reloc.ProgressAlike (source.definiteMark index) (target.definiteMark other) := by
  cases marked : source.is index "!" with
  | true =>
    have next := past.succ_of_is marked (by decide)
    exact choose (by rw [next.is]) (fun _ => erasedMarker past "!" (by decide))
      (fun _ => .still past)
  | false =>
    have unmarked : ∀ {stream : TokenStream} {index : Nat}, stream.is index "!" = false →
        stream.definiteMark index = .still index := by
      intro stream index plain
      simp [TokenStream.definiteMark, TokenStream.erasedMarker, plain]
    rw [unmarked marked, unmarked (by rw [past.is, marked])]
    exact .still past

theorem isReceiver (closes : reloc.At close otherClose) (past : reloc.Past index other) :
    target.isReceiver other otherClose = source.isReceiver index close := by
  refine both (past.is "this") fun receiver => ?_
  have next := past.succ_of_is receiver (by decide)
  have last : (other + 1 == otherClose) = (index + 1 == close) := by
    rw [Bool.eq_iff_iff, beq_iff_eq, beq_iff_eq, next.eq_iff closes]
  rw [next.is, next.is, last]

theorem receiverParameter (past : reloc.Past index other)
    (receiver : source.is index "this" = true) :
    reloc.Alike reloc.ProgressAlike (source.receiverParameter index)
      (target.receiverParameter other) := by
  refine (annotationEnd (past.succ_of_is receiver (by decide))).bind fun type => .ok ?_
  have stops := type.optional "," (by decide)
  exact ⟨stops, .single (.erase past.startOf stops.startOf)⟩

theorem leadings {indices otherIndices : List Nat}
    (alike : List.Forall₂
      (fun index other => reloc.Past index other ∧ reloc.Past (index + 1) (other + 1))
      indices otherIndices) :
    reloc.EditsAlike (indices.map source.leading) (otherIndices.map target.leading) := by
  induction alike with
  | nil => exact .nil
  | cons one _ inductionHypothesis =>
    exact .cons (leading one.1.toAt one.2.toAt) inductionHypothesis

section Walks

variable {walk otherWalk : Walk} (walks : reloc.WalksAlike walk otherWalk)

include walks

theorem controlHead (at_ : reloc.At keyword otherKeyword)
    (next : reloc.Past (keyword + 1) (otherKeyword + 1)) :
    reloc.Alike reloc.ProgressAlike (source.controlHead walk keyword)
      (target.controlHead otherWalk otherKeyword) := by
  have opening : reloc.Past
      (if source.text keyword == "for" && source.is (keyword + 1) "await" then keyword + 2
        else keyword + 1)
      (if target.text otherKeyword == "for" && target.is (otherKeyword + 1) "await"
        then otherKeyword + 2 else otherKeyword + 1) :=
    choose (by rw [at_.text_beq (by decide), next.is])
      (fun awaits => next.succ_of_is (Bool.and_eq_true_iff.mp awaits).2 (by decide))
      (fun _ => next)
  exact choose (by rw [opening.is]) (fun _ => walkInside walks opening.toAt)
    (fun _ => .ok (.still next))

theorem initializer {ending otherEnding : WalkEnd} (past : reloc.Past index other)
    (endings : reloc.EndsAlike ending otherEnding) :
    reloc.Alike reloc.ProgressAlike (source.initializer walk index ending)
      (target.initializer otherWalk other otherEnding) :=
  choose (by rw [past.is]) (fun equals => walks (past.succ_of_is equals (by decide)) endings)
    (fun _ => .ok (.still past))

/-! ## Parameters -/

theorem parameterTarget (closes : reloc.At close otherClose) (past : reloc.Past index other) :
    reloc.Alike reloc.ProgressAlike (source.parameterTarget walk index close)
      (target.parameterTarget otherWalk other otherClose) := by
  refine choose (by rw [past.is, past.is]) (fun _ => walkInside walks past.toAt) (fun _ => ?_)
  exact choose (by rw [past.isPlainWord])
    (fun named => .ok (.still (past.succ_of_isPlainWord named)))
    (fun _ => walks past (.before closes (by decide) .never))

theorem parameter (closes : reloc.At close otherClose) (past : reloc.Past index other) :
    reloc.Alike reloc.ParameterAlike (source.parameter walk index close)
      (target.parameter otherWalk other otherClose) := by
  have modified := parameterModifiersEnd past
  have name := modified.optional "..." (by decide)
  refine (parameterTarget walks closes name).bind fun binding => ?_
  have marker := erasedMarker binding.next "?" (by decide)
  refine (annotationErased marker.next).bind fun annotation => ?_
  refine (initializer walks annotation.next (.before closes (by decide) .never)).bind
    fun value => .ok ⟨?_, ?_, value.next, ?_⟩
  · have changed : (target.parameterModifiersEnd other != other) =
        (source.parameterModifiersEnd index != index) := by
      rw [bne, bne, Bool.eq_iff_iff, Bool.not_eq_true', Bool.not_eq_true', beq_eq_false_iff_ne,
        beq_eq_false_iff_ne, ne_eq, ne_eq, modified.eq_iff past.toAt]
    refine Eq.symm (choose ?_ (fun isProperty => ?_) (fun _ => rfl))
    · rw [changed, name.isPlainWord]
    · exact congrArg some (name.text_of_isPlainWord (Bool.and_eq_true_iff.mp isProperty).2).symm
  · intro text declared
    obtain ⟨isProperty, written⟩ := Option.mem_ite_none_right.mp declared
    obtain rfl := Option.some.inj written
    have same := name.same_text
    rwa [name.text_of_isPlainWord (Bool.and_eq_true_iff.mp isProperty).2] at same
  · exact ((((leadings (range past modified.toAt)).append binding.edits).append
      marker.edits).append annotation.edits).append value.edits

theorem parametersFrom {index other : Nat} (closes : reloc.At close otherClose)
    (past : reloc.Past index other) :
    reloc.Alike reloc.ParametersAlike (source.parametersFrom walk index close)
      (target.parametersFrom otherWalk other otherClose) := by
  unfold TokenStream.parametersFrom
  split
  case isFalse outside =>
    rw [dif_neg (mt (past.lt_iff closes).mpr outside)]
    exact .ok ⟨rfl, by simp, .nil⟩
  case isTrue inside =>
    rw [dif_pos ((past.lt_iff closes).mp inside)]
    refine choose (by rw [isReceiver closes past]) (fun receiver => ?_) (fun _ => ?_)
    · refine (receiverParameter past (Bool.and_eq_true_iff.mp receiver).1).bind
        fun {receiver otherReceiver} ends => ?_
      split
      case isFalse back =>
        rw [dif_neg (mt (past.lt_iff ends.next.toAt).mpr back)]
        exact .ok ⟨rfl, by simp, ends.edits⟩
      case isTrue forward =>
        rw [dif_pos ((past.lt_iff ends.next.toAt).mp forward)]
        exact (parametersFrom closes ends.next).bind fun rest =>
          .ok ⟨rest.properties, rest.same, ends.edits.append rest.edits⟩
    · refine (parameter walks closes past).bind fun {one otherOne} ends => ?_
      have next := ends.progress.next
      have cons : ∀ {rest otherRest}, reloc.ParametersAlike rest otherRest →
          reloc.ParametersAlike (.cons one rest) (.cons otherOne otherRest) := fun rest =>
        ⟨by rw [ParameterList.cons, ParameterList.cons, ends.property, rest.properties],
          fun name declared => (List.mem_append.mp declared).elim
            (fun here => ends.same name (Option.mem_toList.mp here)) (rest.same name),
          ends.progress.edits.append rest.edits⟩
      split
      case isFalse plain =>
        rw [dif_neg (by rwa [← past.le_iff next.toAt, next.is])]
        exact choose (next.lt_iff closes) (fun _ => fail next.toAt _)
          (fun _ => .ok (cons ⟨rfl, by simp, .nil⟩))
      case isTrue comma =>
        rw [dif_pos (by rwa [← past.le_iff next.toAt, next.is])]
        exact (parametersFrom closes (next.succ_of_is comma.2 (by decide))).bind fun rest =>
          .ok (cons rest)
termination_by close - index

/-! ## Variables -/

theorem variableTarget (past : reloc.Past index other) :
    reloc.Alike (Option.Rel reloc.ProgressAlike) (source.variableTarget walk index)
      (target.variableTarget otherWalk other) := by
  refine choose (by rw [past.is, past.is])
    (fun _ => (walkInside walks past.toAt).bind fun pattern => .ok (.some pattern))
    (fun _ => ?_)
  exact choose (by rw [past.isPlainWord])
    (fun named => .ok (.some (.still (past.succ_of_isPlainWord named)))) (fun _ => .ok .none)

/-- The value of a variable ends with its statement. -/
theorem variableFrom {name otherName : Progress} (alike : reloc.ProgressAlike name otherName) :
    reloc.Alike reloc.ProgressAlike (source.variableFrom walk name)
      (target.variableFrom otherWalk otherName) := by
  have mark := definiteMark alike.next
  refine (annotationErased mark.next).bind fun annotation => ?_
  have endings : reloc.EndsAlike ⟨source.size, [",", ";", ")", "]", "\x7d"], .statement⟩
      ⟨target.size, [",", ";", ")", "]", "\x7d"], .statement⟩ :=
    ⟨rfl, by simp, rfl, .inr ⟨rfl, rfl, by simp⟩⟩
  exact (initializer walks annotation.next endings).bind fun value =>
    .ok (value.preceded ((alike.edits.append mark.edits).append annotation.edits))

theorem variablesFrom {index other : Nat} (past : reloc.Past index other) :
    reloc.Alike reloc.ProgressAlike (source.variablesFrom walk index)
      (target.variablesFrom otherWalk other) := by
  unfold TokenStream.variablesFrom
  refine (variableTarget walks past).bind fun {name otherName} names => ?_
  cases names with
  | none => exact .ok (.still past)
  | some name =>
    refine (variableFrom walks name).bind fun {one otherOne} ends => ?_
    split
    case isFalse plain =>
      rw [dif_neg (by rwa [← past.le_iff ends.next.toAt, ends.next.is])]
      exact .ok ends
    case isTrue comma =>
      rw [dif_pos (by rwa [← past.le_iff ends.next.toAt, ends.next.is])]
      have := lt_size_of_is comma.2
      exact (variablesFrom (ends.next.succ_of_is comma.2 (by decide))).bind fun rest =>
        .ok (rest.preceded ends.edits)
termination_by source.size - index

end Walks

/-! ## Functions -/

theorem followsMethodName (at_ : reloc.At index other) :
    target.followsMethodName other = source.followsMethodName index := by
  obtain past | ⟨rfl, positive, mark, semicolon⟩ := at_.past_or_first
  · match index, other, past.pred with
    | 0, other, _ =>
      obtain rfl : other = 0 := by
        have := past.shifted
        have := past.later
        omega
      rfl
    | index + 1, 0, _ =>
      have := at_.shifted
      omega
    | index + 1, other + 1, earlier =>
      have before : reloc.At index other := earlier
      have keywords : target.textIn other expressionKeywords =
          source.textIn index expressionKeywords := before.textIn (by decide)
      have brackets : target.textIn other ["]", ">"] = source.textIn index ["]", ">"] :=
        before.textIn (by decide)
      simp only [TokenStream.followsMethodName, before.kind?, keywords, brackets]
  · obtain ⟨previous, rfl⟩ := Nat.exists_eq_succ_of_ne_zero (Nat.ne_of_gt positive)
    rw [Nat.succ_sub_one] at mark semicolon
    simp [TokenStream.followsMethodName, mark, TokenStream.textIn, semicolon]

theorem parameterHeadEnd? (at_ : reloc.At opening otherOpening)
    (closes : reloc.Closes opening close otherClose) :
    Option.Rel reloc.Past (source.parameterHeadEnd? opening close)
      (target.parameterHeadEnd? otherOpening otherClose) := by
  have after := closes.next
  have method := followsMethodName at_
  refine choose (by rw [after.is]) (fun _ => .some after) (fun _ => ?_)
  refine choose (by rw [after.is]) (fun colon => ?_) (fun _ => ?_)
  · obtain ⟨here, there⟩ | ⟨stop, otherStop, here, there, ends⟩ :=
      lookup_cases (typeEnd? (after.succ_of_is colon (by decide)))
    · rw [here, there]
      exact .none
    · rw [here, there, Option.filter_some, Option.filter_some, ends.is, ends.is, method]
      exact choose Iff.rfl (fun _ => .some ends) (fun _ => .none)
  · exact choose (by rw [after.is, after.newlineBefore, method]) (fun _ => .some after)
      (fun _ => .none)

theorem parenthesis {walk otherWalk : Walk} (walks : reloc.WalksAlike walk otherWalk)
    (at_ : reloc.At opening otherOpening) :
    reloc.Alike reloc.ProgressAlike (source.parenthesis walk opening)
      (target.parenthesis otherWalk otherOpening) := by
  refine (closeOf at_).bind fun closes => ?_
  obtain ⟨here, there⟩ | ⟨head, otherHead, here, there, ends⟩ :=
    lookup_cases (parameterHeadEnd? at_ closes)
  · simp only [here, there]
    exact walkInside walks at_
  · simp only [here, there]
    exact (parametersFrom walks closes.here.toAt (closes.inside at_)).bind fun parameters =>
      .ok ⟨ends, parameters.edits.append (attachedIf closes.next ends)⟩

theorem functionDeclaration {walk otherWalk : Walk} (walks : reloc.WalksAlike walk otherWalk)
    (entire : reloc.Whole) (at_ : reloc.At keyword otherKeyword) :
    reloc.Alike reloc.ProgressAlike (source.functionDeclaration walk keyword)
      (target.functionDeclaration otherWalk otherKeyword) := by
  have next := at_.succ_of_whole entire
  have star := next.optional "*" (by decide)
  have name : reloc.Past (source.functionNameEnd keyword)
      (target.functionNameEnd otherKeyword) :=
    choose (by rw [star.isPlainWord]) (fun named => star.succ_of_isPlainWord named)
      (fun _ => star)
  refine (optionalTypeParameters name).bind fun opening => ?_
  refine choose (by rw [opening.is]) (fun _ => ?_) (fun _ => .ok (.still opening))
  refine (closeOf opening.toAt).bind fun closes => ?_
  refine (annotationEnd closes.next).bind fun body => ?_
  refine choose (by rw [body.is]) (fun _ => ?_) (fun _ => .ok ?_)
  · refine (parametersFrom walks closes.here.toAt (closes.inside opening.toAt)).bind
      fun parameters => (walkInside walks body.toAt).bind fun inside => .ok (inside.preceded ?_)
    exact ((attachedIf name opening).append parameters.edits).append
      (attachedIf closes.next body)
  · have stops := afterSemicolon entire body
    exact ⟨stops, .single (declarationErased at_ stops)⟩

end Relocation

end Playground

import Playground.Proofs.Erasure.Walkers

/-!
# Walkers that are handed another walk

What a walker finds comes from the walks that it is handed. Another walk that finds the same
wherever that is among the edits that are found in the end (`Walk.AgreesOn`) leads to the same
result.
-/

namespace Playground

/-- Another walk finds what a walk finds, wherever that is among some edits. -/
def Walk.AgreesOn (walk other : Walk) (edits : List Edit) : Prop :=
  ∀ {next ending progress}, walk next ending = .ok progress → progress.edits ⊆ edits →
    other next ending = .ok progress

namespace TokenStream

variable {stream : TokenStream} {walk other : Walk} {edits : List Edit}
  (agrees : walk.AgreesOn other edits) {index : Nat} {progress : Progress}

include agrees

/-! ## Brackets and values -/

theorem walkInside_of_agrees (found : stream.walkInside walk index = .ok progress)
    (within : progress.edits ⊆ edits) : stream.walkInside other index = .ok progress := by
  simp only [walkInside, bind_eq_ok_iff] at found ⊢
  obtain ⟨close, closes, inside, foundInside, result⟩ := found
  cases result
  exact ⟨close, closes, inside, agrees foundInside within, rfl⟩

theorem initializer_of_agrees {ending : WalkEnd}
    (found : stream.initializer walk index ending = .ok progress)
    (within : progress.edits ⊆ edits) : stream.initializer other index ending = .ok progress := by
  revert found
  unfold initializer
  split
  · exact fun found => agrees found within
  · exact id

/-! ## Bindings -/

theorem parameterTarget_of_agrees {close : Nat}
    (found : stream.parameterTarget walk index close = .ok progress)
    (within : progress.edits ⊆ edits) :
    stream.parameterTarget other index close = .ok progress := by
  revert found
  unfold parameterTarget
  split
  · exact fun found => walkInside_of_agrees agrees found within
  split
  · exact id
  · exact fun found => agrees found within

theorem parameter_of_agrees {close : Nat} {parameter : Parameter}
    (found : stream.parameter walk index close = .ok parameter)
    (within : parameter.progress.edits ⊆ edits) :
    stream.parameter other index close = .ok parameter := by
  simp only [TokenStream.parameter, bind_eq_ok_iff] at found ⊢
  obtain ⟨target, foundTarget, noted, foundNoted, value, foundValue, result⟩ := found
  cases result
  simp only [List.append_subset] at within
  obtain ⟨⟨⟨⟨_, targets⟩, _⟩, _⟩, values⟩ := within
  exact ⟨target, parameterTarget_of_agrees agrees foundTarget targets, noted, foundNoted, value,
    initializer_of_agrees agrees foundValue values, rfl⟩

theorem parametersFrom_of_agrees {index close : Nat} {list : ParameterList}
    (found : stream.parametersFrom walk index close = .ok list) (within : list.edits ⊆ edits) :
    stream.parametersFrom other index close = .ok list := by
  unfold parametersFrom at found ⊢
  split at found
  case isFalse outside => rwa [dif_neg outside]
  case isTrue inside =>
    rw [dif_pos inside]
    split at found
    case isTrue this =>
      rw [if_pos this]
      obtain ⟨receiver, foundReceiver, continued⟩ := bind_eq_ok_iff.mp found
      refine bind_eq_ok_iff.mpr ⟨receiver, foundReceiver, ?_⟩
      split at continued
      case isFalse stuck => rwa [dif_neg stuck]
      case isTrue further =>
        rw [dif_pos further]
        obtain ⟨rest, foundRest, result⟩ := bind_eq_ok_iff.mp continued
        cases result
        exact bind_eq_ok_iff.mpr
          ⟨rest, parametersFrom_of_agrees foundRest (List.append_subset.mp within).2, rfl⟩
    case isFalse other =>
      rw [if_neg other]
      obtain ⟨one, foundOne, continued⟩ := bind_eq_ok_iff.mp found
      have first : one.progress.edits ⊆ edits := by
        split at continued
        · obtain ⟨rest, _, result⟩ := bind_eq_ok_iff.mp continued
          cases result
          exact (List.append_subset.mp within).1
        split at continued
        · contradiction
        · cases continued
          exact (List.append_subset.mp within).1
      refine bind_eq_ok_iff.mpr ⟨one, parameter_of_agrees agrees foundOne first, ?_⟩
      split at continued
      case isTrue comma =>
        rw [dif_pos comma]
        obtain ⟨rest, foundRest, result⟩ := bind_eq_ok_iff.mp continued
        cases result
        exact bind_eq_ok_iff.mpr
          ⟨rest, parametersFrom_of_agrees foundRest (List.append_subset.mp within).2, rfl⟩
      case isFalse last => rwa [dif_neg last]
termination_by close - index

theorem variableTarget_of_agrees {target? : Option Progress}
    (found : stream.variableTarget walk index = .ok target?)
    (within : ∀ target ∈ target?, target.edits ⊆ edits) :
    stream.variableTarget other index = .ok target? := by
  revert found
  unfold variableTarget
  split
  · intro found
    obtain ⟨pattern, foundPattern, result⟩ := bind_eq_ok_iff.mp found
    cases result
    exact bind_eq_ok_iff.mpr
      ⟨pattern, walkInside_of_agrees agrees foundPattern (within pattern rfl), rfl⟩
  · exact id

theorem variableFrom_of_agrees {target : Progress}
    (found : stream.variableFrom walk target = .ok progress) (within : progress.edits ⊆ edits) :
    target.edits ⊆ edits ∧ stream.variableFrom other target = .ok progress := by
  simp only [variableFrom, bind_eq_ok_iff] at found ⊢
  obtain ⟨noted, foundNoted, value, foundValue, result⟩ := found
  cases result
  simp only [edits_preceded, List.append_subset] at within
  obtain ⟨⟨⟨targets, _⟩, _⟩, values⟩ := within
  exact ⟨targets, noted, foundNoted, value, initializer_of_agrees agrees foundValue values, rfl⟩

theorem variablesFrom_of_agrees {index : Nat} {progress : Progress}
    (found : stream.variablesFrom walk index = .ok progress) (within : progress.edits ⊆ edits) :
    stream.variablesFrom other index = .ok progress := by
  unfold variablesFrom at found ⊢
  obtain ⟨target?, foundTarget, rest⟩ := bind_eq_ok_iff.mp found
  cases target? with
  | none =>
    exact bind_eq_ok_iff.mpr
      ⟨none, variableTarget_of_agrees agrees foundTarget (by simp), rest⟩
  | some target =>
    obtain ⟨one, foundOne, continued⟩ := bind_eq_ok_iff.mp rest
    have first : one.edits ⊆ edits := by
      split at continued
      · obtain ⟨following, _, result⟩ := bind_eq_ok_iff.mp continued
        cases result
        exact (List.append_subset.mp within).1
      · cases continued
        exact within
    obtain ⟨targets, sameOne⟩ := variableFrom_of_agrees agrees foundOne first
    refine bind_eq_ok_iff.mpr ⟨some target,
      variableTarget_of_agrees agrees foundTarget (by simpa using targets),
      bind_eq_ok_iff.mpr ⟨one, sameOne, ?_⟩⟩
    split at continued
    case isTrue comma =>
      rw [dif_pos comma]
      obtain ⟨following, foundFollowing, result⟩ := bind_eq_ok_iff.mp continued
      cases result
      have inside := lt_size_of_is comma.2
      have advance : stream.size - (one.next + 1) < stream.size - index := by omega
      exact bind_eq_ok_iff.mpr
        ⟨following, variablesFrom_of_agrees foundFollowing (List.append_subset.mp within).2, rfl⟩
    case isFalse last => rwa [dif_neg last]
termination_by stream.size - index

/-! ## Functions and heads -/

theorem functionDeclaration_of_agrees
    (found : stream.functionDeclaration walk index = .ok progress)
    (within : progress.edits ⊆ edits) :
    stream.functionDeclaration other index = .ok progress := by
  obtain ⟨opening, generics, rest⟩ := bind_eq_ok_iff.mp found
  refine bind_eq_ok_iff.mpr ⟨opening, generics, ?_⟩
  split at rest
  case isFalse noList => rwa [if_neg noList]
  case isTrue opens =>
    rw [if_pos opens]
    obtain ⟨close, closes, rest⟩ := bind_eq_ok_iff.mp rest
    obtain ⟨body, annotated, rest⟩ := bind_eq_ok_iff.mp rest
    refine bind_eq_ok_iff.mpr ⟨close, closes, bind_eq_ok_iff.mpr ⟨body, annotated, ?_⟩⟩
    split at rest
    case isFalse noBody => rwa [if_neg noBody]
    case isTrue brace =>
      simp only [if_pos brace, bind_eq_ok_iff] at rest ⊢
      obtain ⟨parameters, foundParameters, inside, foundInside, result⟩ := rest
      cases result
      simp only [edits_preceded, List.append_subset] at within
      obtain ⟨⟨⟨_, listed⟩, _⟩, walked⟩ := within
      exact ⟨parameters, parametersFrom_of_agrees agrees foundParameters listed, inside,
        walkInside_of_agrees agrees foundInside walked, rfl⟩

theorem parenthesis_of_agrees (found : stream.parenthesis walk index = .ok progress)
    (within : progress.edits ⊆ edits) : stream.parenthesis other index = .ok progress := by
  obtain ⟨close, closes, rest⟩ := bind_eq_ok_iff.mp found
  refine bind_eq_ok_iff.mpr ⟨close, closes, ?_⟩
  revert rest
  split
  · exact fun rest => walkInside_of_agrees agrees rest within
  · intro rest
    obtain ⟨parameters, foundParameters, result⟩ := bind_eq_ok_iff.mp rest
    cases result
    exact bind_eq_ok_iff.mpr ⟨parameters,
      parametersFrom_of_agrees agrees foundParameters (List.append_subset.mp within).1, rfl⟩

theorem controlHead_of_agrees (found : stream.controlHead walk index = .ok progress)
    (within : progress.edits ⊆ edits) : stream.controlHead other index = .ok progress := by
  revert found
  unfold controlHead
  extract_lets opening
  split
  · exact fun found => walkInside_of_agrees agrees found within
  · exact id

/-! ## Class members -/

theorem memberHead_of_agrees {first modified name nameEnd markerEnd : Nat} {head : List Edit}
    (found : stream.memberHead walk first modified name nameEnd markerEnd = .ok head)
    (within : head ⊆ edits) :
    stream.memberHead other first modified name nameEnd markerEnd = .ok head := by
  revert found
  unfold memberHead
  dsimp only
  split
  · intro found
    obtain ⟨inside, foundInside, result⟩ := bind_eq_ok_iff.mp found
    cases result
    simp only [List.append_subset] at within
    exact bind_eq_ok_iff.mpr
      ⟨inside, walkInside_of_agrees agrees foundInside within.1.2, rfl⟩
  · exact id

theorem constructorBody_of_agrees {derived : Bool} {names : List String}
    (found : stream.constructorBody walk index derived names = .ok progress)
    (within : progress.edits ⊆ edits) :
    stream.constructorBody other index derived names = .ok progress := by
  simp only [constructorBody, bind_eq_ok_iff] at found ⊢
  obtain ⟨close, closes, anchor, foundAnchor, before, foundBefore, after, foundAfter, result⟩ :=
    found
  cases result
  simp only [List.append_subset] at within
  exact ⟨close, closes, anchor, foundAnchor, before, agrees foundBefore within.1.1, after,
    agrees foundAfter within.2, rfl⟩

theorem methodBody_of_agrees {name : Nat} {derived : Bool} {names : List String}
    (found : stream.methodBody walk index name derived names = .ok progress)
    (within : progress.edits ⊆ edits) :
    stream.methodBody other index name derived names = .ok progress := by
  revert found
  unfold methodBody
  split
  · exact fun found => constructorBody_of_agrees agrees found within
  · exact fun found => walkInside_of_agrees agrees found within

theorem methodMember_of_agrees {first modified name nameEnd markerEnd opening : Nat}
    {derived : Bool}
    (found : stream.methodMember walk first modified name nameEnd markerEnd opening derived =
      .ok progress) (within : progress.edits ⊆ edits) :
    stream.methodMember other first modified name nameEnd markerEnd opening derived =
      .ok progress := by
  obtain ⟨close, closes, rest⟩ := bind_eq_ok_iff.mp found
  obtain ⟨body, annotated, rest⟩ := bind_eq_ok_iff.mp rest
  refine bind_eq_ok_iff.mpr ⟨close, closes, bind_eq_ok_iff.mpr ⟨body, annotated, ?_⟩⟩
  split at rest
  case isFalse noBody => rwa [if_neg noBody]
  case isTrue brace =>
    simp only [if_pos brace, bind_eq_ok_iff] at rest ⊢
    obtain ⟨head, foundHead, parameters, foundParameters, inside, foundInside, result⟩ := rest
    cases result
    simp only [edits_preceded, List.append_subset] at within
    obtain ⟨⟨⟨⟨heads, _⟩, listed⟩, _⟩, walked⟩ := within
    exact ⟨head, memberHead_of_agrees agrees foundHead heads, parameters,
      parametersFrom_of_agrees agrees foundParameters listed, inside,
      methodBody_of_agrees agrees foundInside walked, rfl⟩

theorem fieldMember_of_agrees {first modified name nameEnd headEnd close : Nat}
    (found : stream.fieldMember walk first modified name nameEnd headEnd close = .ok progress)
    (within : progress.edits ⊆ edits) :
    stream.fieldMember other first modified name nameEnd headEnd close = .ok progress := by
  simp only [fieldMember, bind_eq_ok_iff] at found ⊢
  obtain ⟨head, foundHead, noted, foundNoted, value, foundValue, result⟩ := found
  cases result
  simp only [List.append_subset] at within
  exact ⟨head, memberHead_of_agrees agrees foundHead within.1.1, noted, foundNoted, value,
    initializer_of_agrees agrees foundValue within.2, rfl⟩

theorem namedMember_of_agrees {first modified close : Nat} {derived : Bool}
    (found : stream.namedMember walk first modified close derived = .ok progress)
    (within : progress.edits ⊆ edits) :
    stream.namedMember other first modified close derived = .ok progress := by
  obtain ⟨nameEnd, foundName, rest⟩ := bind_eq_ok_iff.mp found
  obtain ⟨opening, generics, rest⟩ := bind_eq_ok_iff.mp rest
  refine bind_eq_ok_iff.mpr ⟨nameEnd, foundName, bind_eq_ok_iff.mpr ⟨opening, generics, ?_⟩⟩
  generalize (if (stream.is nameEnd "?" || stream.is nameEnd "!") = true then
    nameEnd + 1 else nameEnd) = markerEnd at rest ⊢
  split at rest
  case isTrue opens =>
    rw [if_pos opens]
    exact methodMember_of_agrees agrees rest within
  case isFalse noList =>
    rw [if_neg noList]
    split at rest
    case isTrue typed => rwa [if_pos typed]
    case isFalse untyped =>
      rw [if_neg untyped]
      exact fieldMember_of_agrees agrees rest within

theorem classMember_of_agrees {close : Nat} {derived : Bool}
    (found : stream.classMember walk index close derived = .ok progress)
    (within : progress.edits ⊆ edits) :
    stream.classMember other index close derived = .ok progress := by
  revert found
  unfold classMember
  split
  · exact id
  split
  · exact id
  dsimp only
  split
  · exact fun found => walkInside_of_agrees agrees found within
  split
  · exact id
  · exact fun found => namedMember_of_agrees agrees found within

theorem classMembersFrom_of_agrees {index close : Nat} {derived : Bool} {members : List Edit}
    (found : stream.classMembersFrom walk index close derived = .ok members)
    (within : members ⊆ edits) :
    stream.classMembersFrom other index close derived = .ok members := by
  unfold classMembersFrom at found ⊢
  split at found
  case isFalse outside => rwa [dif_neg outside]
  case isTrue inside =>
    rw [dif_pos inside]
    obtain ⟨member, foundMember, rest⟩ := bind_eq_ok_iff.mp found
    have first : member.edits ⊆ edits := by
      split at rest
      · obtain ⟨following, _, result⟩ := bind_eq_ok_iff.mp rest
        cases result
        exact (List.append_subset.mp within).1
      · cases rest
        exact within
    refine bind_eq_ok_iff.mpr ⟨member, classMember_of_agrees agrees foundMember first, ?_⟩
    split at rest
    case isFalse stuck => rwa [dif_neg stuck]
    case isTrue further =>
      rw [dif_pos further]
      obtain ⟨following, foundFollowing, result⟩ := bind_eq_ok_iff.mp rest
      cases result
      exact bind_eq_ok_iff.mpr ⟨following,
        classMembersFrom_of_agrees foundFollowing (List.append_subset.mp within).2, rfl⟩
termination_by close - index

/-! ## Class heads -/

theorem heritagePart_of_agrees (found : stream.heritagePart walk index = .ok progress)
    (within : progress.edits ⊆ edits) : stream.heritagePart other index = .ok progress := by
  revert found
  unfold heritagePart
  split
  · exact id
  split
  · exact fun found => walkInside_of_agrees agrees found within
  · exact id

theorem heritageFrom_of_agrees {index : Nat} {progress : Progress}
    (found : stream.heritageFrom walk index = .ok progress) (within : progress.edits ⊆ edits) :
    stream.heritageFrom other index = .ok progress := by
  unfold heritageFrom at found ⊢
  split at found
  case isFalse outside => rwa [dif_neg outside]
  case isTrue inside =>
    rw [dif_pos inside]
    split at found
    case isTrue ends => rwa [if_pos ends]
    case isFalse goesOn =>
      rw [if_neg goesOn]
      obtain ⟨part, foundPart, rest⟩ := bind_eq_ok_iff.mp found
      have first : part.edits ⊆ edits := by
        split at rest
        · obtain ⟨following, _, result⟩ := bind_eq_ok_iff.mp rest
          cases result
          exact (List.append_subset.mp within).1
        · cases rest
          exact within
      refine bind_eq_ok_iff.mpr ⟨part, heritagePart_of_agrees agrees foundPart first, ?_⟩
      split at rest
      case isFalse stuck => rwa [dif_neg stuck]
      case isTrue further =>
        rw [dif_pos further]
        obtain ⟨following, foundFollowing, result⟩ := bind_eq_ok_iff.mp rest
        cases result
        exact bind_eq_ok_iff.mpr ⟨following,
          heritageFrom_of_agrees foundFollowing (List.append_subset.mp within).2, rfl⟩
termination_by stream.size - index

theorem heritage_of_agrees (found : stream.heritage walk index = .ok progress)
    (within : progress.edits ⊆ edits) : stream.heritage other index = .ok progress := by
  revert found
  unfold heritage
  split
  · exact fun found => heritageFrom_of_agrees agrees found within
  · exact id

theorem classDeclaration_of_agrees (found : stream.classDeclaration walk index = .ok progress)
    (within : progress.edits ⊆ edits) : stream.classDeclaration other index = .ok progress := by
  simp only [classDeclaration, bind_eq_ok_iff] at found ⊢
  obtain ⟨generics, foundGenerics, base, foundBase, implemented, foundImplemented, rest⟩ := found
  have bases : base.edits ⊆ edits := by
    split at rest
    · simp only [bind_eq_ok_iff] at rest
      obtain ⟨close, _, members, _, result⟩ := rest
      cases result
      simp only [List.append_subset] at within
      exact within.1.1.2
    · cases rest
      simp only [List.append_subset] at within
      exact within.1.2
  refine ⟨generics, foundGenerics, base, heritage_of_agrees agrees foundBase bases, implemented,
    foundImplemented, ?_⟩
  split at rest
  case isFalse noBody => rwa [if_neg noBody]
  case isTrue brace =>
    simp only [if_pos brace, bind_eq_ok_iff] at rest ⊢
    obtain ⟨close, closes, members, foundMembers, result⟩ := rest
    cases result
    exact ⟨close, closes, members,
      classMembersFrom_of_agrees agrees foundMembers (List.append_subset.mp within).2, rfl⟩

/-! ## Steps -/

theorem wordStep_of_agrees (found : stream.wordStep walk index = .ok progress)
    (within : progress.edits ⊆ edits) : stream.wordStep other index = .ok progress := by
  revert found
  unfold wordStep
  dsimp only
  split
  · exact id
  generalize stream.text index = text
  split
  case h_8 =>
    split
    · exact id
    split
    · exact fun found => variablesFrom_of_agrees agrees found within
    · exact id
  case h_9 | h_10 =>
    split
    · exact fun found => variablesFrom_of_agrees agrees found within
    · exact id
  case h_11 => exact fun found => functionDeclaration_of_agrees agrees found within
  case h_12 => exact fun found => classDeclaration_of_agrees agrees found within
  case h_18 | h_19 | h_20 | h_21 | h_22 =>
    exact fun found => controlHead_of_agrees agrees found within
  -- the other words are not followed by a nested walk
  all_goals exact id

theorem punctuatorStep_of_agrees (found : stream.punctuatorStep walk index = .ok progress)
    (within : progress.edits ⊆ edits) : stream.punctuatorStep other index = .ok progress := by
  revert found
  unfold punctuatorStep
  generalize stream.text index = text
  split
  case h_1 => exact fun found => parenthesis_of_agrees agrees found within
  case h_2 | h_3 => exact fun found => walkInside_of_agrees agrees found within
  all_goals exact id

theorem step_of_agrees (found : stream.step walk index = .ok progress)
    (within : progress.edits ⊆ edits) : stream.step other index = .ok progress := by
  revert found
  unfold step
  split
  · exact fun found => wordStep_of_agrees agrees found within
  · exact fun found => punctuatorStep_of_agrees agrees found within
  · intro found
    obtain ⟨inside, foundInside, result⟩ := bind_eq_ok_iff.mp found
    cases result
    exact bind_eq_ok_iff.mpr ⟨inside, agrees foundInside within, rfl⟩
  · exact id

end TokenStream

end Playground

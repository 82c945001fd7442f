import Playground.Proofs.Erasure.Advance

/-!
# The course of a walk

A walk and the lists that its steps go through repeat one turn until they end. The course of each
is what has been found turn by turn, with what the turn has checked before it went on: `WalkCourse`,
and `ParameterCourse`, `VariableCourse`, `MemberCourse` and `HeritageCourse` for the lists. Since a
turn always moves forward, a course has no turn that stands still, and a property of the whole is
proved by induction on it.
-/

namespace Playground.TokenStream

/-! ## Lists -/

/-- The parameters from an index on. -/
inductive ParameterCourse (stream : TokenStream) (walk : Walk) (close : Nat) :
    Nat → ParameterList → Prop where
  | ended {index} (past : close ≤ index) : ParameterCourse stream walk close index ⟨[], []⟩
  | receiver {index one rest} (inside : index < close)
      (receives : stream.isReceiver index close = true)
      (found : stream.receiverParameter index = .ok one) (further : index < one.next)
      (following : ParameterCourse stream walk close one.next rest) :
      ParameterCourse stream walk close index (rest.preceded one.edits)
  | more {index one rest} (inside : index < close) (plain : stream.isReceiver index close = false)
      (found : stream.parameter walk index close = .ok one) (ordered : index ≤ one.progress.next)
      (comma : stream.is one.progress.next "," = true)
      (following : ParameterCourse stream walk close (one.progress.next + 1) rest) :
      ParameterCourse stream walk close index (.cons one rest)
  | last {index one} (inside : index < close) (plain : stream.isReceiver index close = false)
      (found : stream.parameter walk index close = .ok one)
      (alone : index ≤ one.progress.next → stream.is one.progress.next "," = false)
      (reached : close ≤ one.progress.next) :
      ParameterCourse stream walk close index (.cons one ⟨[], []⟩)

/-- The variables of a declaration from an index on. -/
inductive VariableCourse (stream : TokenStream) (walk : Walk) : Nat → Progress → Prop where
  | ended {index} (unnamed : stream.variableTarget walk index = .ok none) :
      VariableCourse stream walk index (.still index)
  | more {index target one rest} (named : stream.variableTarget walk index = .ok (some target))
      (found : stream.variableFrom walk target = .ok one) (ordered : index ≤ one.next)
      (comma : stream.is one.next "," = true)
      (following : VariableCourse stream walk (one.next + 1) rest) :
      VariableCourse stream walk index (rest.preceded one.edits)
  | last {index target one} (named : stream.variableTarget walk index = .ok (some target))
      (found : stream.variableFrom walk target = .ok one)
      (alone : index ≤ one.next → stream.is one.next "," = false) :
      VariableCourse stream walk index one

/-- The members of a class from an index on. -/
inductive MemberCourse (stream : TokenStream) (walk : Walk) (close : Nat) (derived : Bool) :
    Nat → List Edit → Prop where
  | ended {index} (past : close ≤ index) : MemberCourse stream walk close derived index []
  | member {index one rest} (inside : index < close)
      (found : stream.classMember walk index close derived = .ok one) (further : index < one.next)
      (following : MemberCourse stream walk close derived one.next rest) :
      MemberCourse stream walk close derived index (one.edits ++ rest)

/-- The parts of a base class from an index on. -/
inductive HeritageCourse (stream : TokenStream) (walk : Walk) : Nat → Progress → Prop where
  | ended {index} (ends : index < stream.size →
        stream.is index "\x7b" = true ∨ stream.is index "implements" = true) :
      HeritageCourse stream walk index (.still index)
  | part {index one rest} (inside : index < stream.size) (noBody : stream.is index "\x7b" = false)
      (noTypes : stream.is index "implements" = false)
      (found : stream.heritagePart walk index = .ok one) (further : index < one.next)
      (following : HeritageCourse stream walk one.next rest) :
      HeritageCourse stream walk index (rest.preceded one.edits)

/-! ## Walks -/

/-- The walk that began at `first`, from an index on. The walks that a step may ask for begin
behind it and have a course as well. -/
inductive WalkCourse (stream : TokenStream) : Nat → WalkEnd → Nat → Progress → Prop where
  | ended {first ending index} (ends : ¬stream.GoesOn first index ending) :
      WalkCourse stream first ending index (.still index)
  | step {first ending index one rest} (goesOn : stream.GoesOn first index ending)
      (parts : ∀ {next inner part}, index < next → stream.walkFrom next next inner = .ok part →
        WalkCourse stream next inner next part)
      (stepped : stream.step (stream.walkBehind index) index = .ok one) (further : index < one.next)
      (following : WalkCourse stream first ending one.next rest) :
      WalkCourse stream first ending index (rest.preceded one.edits)

variable {stream : TokenStream} {walk : Walk} {first index close : Nat} {ending : WalkEnd}
  {progress : Progress}

/-- A walk ends only where its end says so. -/
theorem WalkCourse.not_goesOn (course : stream.WalkCourse first ending index progress) :
    ¬stream.GoesOn first progress.next ending := by
  induction course with
  | ended ends => exact ends
  | step _ _ _ _ _ _ inductionHypothesis => exact inductionHypothesis

theorem variableCourse_of_variablesFrom {index : Nat} {progress : Progress}
    (found : stream.variablesFrom walk index = .ok progress) :
    stream.VariableCourse walk index progress := by
  unfold variablesFrom at found
  obtain ⟨target?, named, rest⟩ := bind_eq_ok_iff.mp found
  cases target? with
  | none =>
    cases rest
    exact .ended named
  | some target =>
    obtain ⟨one, foundOne, continued⟩ := bind_eq_ok_iff.mp rest
    split at continued
    case isTrue comma =>
      have inside := lt_size_of_is comma.2
      have advance : stream.size - (one.next + 1) < stream.size - index := by omega
      obtain ⟨following, foundFollowing, result⟩ := bind_eq_ok_iff.mp continued
      cases result
      exact .more named foundOne comma.1 comma.2
        (variableCourse_of_variablesFrom foundFollowing)
    case isFalse alone =>
      cases continued
      exact .last named foundOne fun ordered => Bool.eq_false_iff.mpr fun comma =>
        alone ⟨ordered, comma⟩
termination_by stream.size - index

section

variable (nested : stream.Nested) (placed : stream.Placed)

include nested placed

theorem parameterCourse_of_parametersFrom {index : Nat} {list : ParameterList}
    (found : stream.parametersFrom walk index close = .ok list) :
    stream.ParameterCourse walk close index list := by
  unfold parametersFrom at found
  split at found
  case isFalse past =>
    cases found
    exact .ended (Nat.le_of_not_lt past)
  case isTrue inside =>
    split at found
    case isTrue receives =>
      obtain ⟨receiver, foundReceiver, continued⟩ := bind_eq_ok_iff.mp found
      have further := lt_of_receiverParameter nested placed foundReceiver
      rw [dif_pos further] at continued
      obtain ⟨rest, foundRest, result⟩ := bind_eq_ok_iff.mp continued
      cases result
      exact .receiver inside receives foundReceiver further
        (parameterCourse_of_parametersFrom foundRest)
    case isFalse plain =>
      rw [Bool.not_eq_true] at plain
      obtain ⟨one, foundOne, continued⟩ := bind_eq_ok_iff.mp found
      split at continued
      case isTrue comma =>
        obtain ⟨rest, foundRest, result⟩ := bind_eq_ok_iff.mp continued
        cases result
        exact .more inside plain foundOne comma.1 comma.2
          (parameterCourse_of_parametersFrom foundRest)
      case isFalse alone =>
        split at continued
        case isTrue => contradiction
        case isFalse reached =>
          cases continued
          exact .last inside plain foundOne
            (fun ordered => Bool.eq_false_iff.mpr fun comma => alone ⟨ordered, comma⟩)
            (Nat.le_of_not_lt reached)
termination_by close - index

theorem memberCourse_of_classMembersFrom (advances : walk.Advances) {index : Nat} {derived : Bool}
    {edits : List Edit} (found : stream.classMembersFrom walk index close derived = .ok edits) :
    stream.MemberCourse walk close derived index edits := by
  unfold classMembersFrom at found
  split at found
  case isFalse past =>
    cases found
    exact .ended (Nat.le_of_not_lt past)
  case isTrue inside =>
    obtain ⟨member, foundMember, continued⟩ := bind_eq_ok_iff.mp found
    have further := lt_of_classMember nested placed advances inside foundMember
    rw [dif_pos further] at continued
    obtain ⟨rest, foundRest, result⟩ := bind_eq_ok_iff.mp continued
    cases result
    exact .member inside foundMember further (memberCourse_of_classMembersFrom advances foundRest)
termination_by close - index

theorem heritageCourse_of_heritageFrom {index : Nat} {progress : Progress}
    (found : stream.heritageFrom walk index = .ok progress) :
    stream.HeritageCourse walk index progress := by
  unfold heritageFrom at found
  split at found
  case isFalse outside =>
    cases found
    exact .ended fun inside => absurd inside outside
  case isTrue inside =>
    split at found
    case isTrue ends =>
      cases found
      exact .ended fun _ => Bool.or_eq_true_iff.mp ends
    case isFalse goesOn =>
      simp only [Bool.or_eq_true, not_or, Bool.not_eq_true] at goesOn
      obtain ⟨part, foundPart, continued⟩ := bind_eq_ok_iff.mp found
      have further := lt_of_heritagePart nested placed foundPart
      rw [dif_pos further] at continued
      obtain ⟨rest, foundRest, result⟩ := bind_eq_ok_iff.mp continued
      cases result
      exact .part inside goesOn.1 goesOn.2 foundPart further
        (heritageCourse_of_heritageFrom foundRest)
termination_by stream.size - index

theorem advances_walkBehind (index : Nat) : (stream.walkBehind index).Advances :=
  advances_nested index fun _ found => le_of_walkFrom nested placed found

/-- A walk that goes on is a step and the walk from where it has led. -/
theorem GoesOn.exists_step (goesOn : stream.GoesOn first index ending)
    (walked : stream.walkFrom first index ending = .ok progress) :
    ∃ one rest, stream.step (stream.walkBehind index) index = .ok one ∧ index < one.next ∧
      stream.walkFrom first one.next ending = .ok rest ∧ progress = rest.preceded one.edits := by
  rw [goesOn.walkFrom_eq] at walked
  obtain ⟨one, stepped, rest⟩ := bind_eq_ok_iff.mp walked
  have further :=
    lt_of_step nested placed (advances_walkBehind nested placed index) goesOn.inside stepped
  rw [if_pos further] at rest
  obtain ⟨following, found, result⟩ := bind_eq_ok_iff.mp rest
  cases result
  exact ⟨one, following, stepped, further, found, rfl⟩

/-- A walk that succeeds has a course. -/
theorem walkCourse_of_walkFrom {first index : Nat} {ending : WalkEnd} {progress : Progress}
    (found : stream.walkFrom first index ending = .ok progress) :
    stream.WalkCourse first ending index progress := by
  by_cases goesOn : stream.GoesOn first index ending
  · have inside := goesOn.inside
    obtain ⟨one, rest, stepped, further, following, rfl⟩ := goesOn.exists_step nested placed found
    exact .step goesOn (fun later foundPart => walkCourse_of_walkFrom foundPart) stepped further
      (walkCourse_of_walkFrom following)
  · cases (walkFrom_of_not_goesOn goesOn).symm.trans found
    exact .ended goesOn
termination_by stream.size - index

end

end Playground.TokenStream

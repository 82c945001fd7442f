import Mathlib.Logic.Relation
import Playground.Proofs.Erasure.Coverage.ClassBody
import Playground.Proofs.Erasure.Frame.Binding
import Playground.Proofs.Erasure.Justification.Binding
import Playground.Proofs.Erasure.Typed.Members
import Playground.Proofs.Erasure.Visits.Basic

/-!
# Constructors and their parameter properties

A class has a head and members, a constructor has parameters and a body, and each of them is where
the one before it ends. The parameters with a modifier are the properties that a constructor
assigns (`listsProperties_of_parametersFrom`); where its body does so depends on the call of the
base constructor (`AssignmentPlace`).
-/

namespace Playground.TokenStream

open Relation

/-! ## Heads and members -/

/-- The head of a class ends before its body; whether the class is derived is known by then. -/
inductive ClassHead (stream : TokenStream) (keyword : Nat) : Bool → Nat → Prop where
  | plain {generics implemented}
      (parameters : stream.optionalTypeParameters (stream.classNameEnd keyword) = .ok generics)
      (plain : stream.is generics "extends" = false)
      (types : stream.implementedTypes generics = .ok implemented) :
      ClassHead stream keyword false implemented.next
  | derived {generics base implemented}
      (parameters : stream.optionalTypeParameters (stream.classNameEnd keyword) = .ok generics)
      (extending : stream.is generics "extends" = true)
      (reaches : stream.BaseReaches (generics + 1) base)
      (ends : stream.is base "\x7b" = true ∨ stream.is base "implements" = true)
      (types : stream.implementedTypes base = .ok implemented) :
      ClassHead stream keyword true implemented.next

/-- A member of a class ends where the next one begins. -/
inductive NextMember (stream : TokenStream) (keyword close : Nat) (derived : Bool) :
    Nat → Nat → Prop where
  | member {index progress} (inside : index < close)
      (found : stream.classMember (stream.walkBehind keyword) index close derived = .ok progress) :
      NextMember stream keyword close derived index progress.next

/-- The member at an index is a constructor that is not ambient, with a body: its name, the ends
of its parameters and of its body. -/
structure IsConstructor (stream : TokenStream) (first close name finish stop : Nat) : Prop where
  inside : first < close
  modifiers : stream.modifiersEnd first close = name
  present : stream.isAmbientMember first name = false
  named : stream.is name "constructor" = true
  list : stream.is (name + 1) "(" = true
  listEnds : stream.closer? (name + 1) = some finish
  body : stream.is (finish + 1) "\x7b" = true
  bodyEnds : stream.closer? (finish + 1) = some stop

instance (stream : TokenStream) (first close name finish stop : Nat) :
    Decidable (stream.IsConstructor first close name finish stop) :=
  decidable_of_iff
    (first < close ∧ stream.modifiersEnd first close = name ∧
      stream.isAmbientMember first name = false ∧ stream.is name "constructor" = true ∧
      stream.is (name + 1) "(" = true ∧ stream.closer? (name + 1) = some finish ∧
      stream.is (finish + 1) "\x7b" = true ∧ stream.closer? (finish + 1) = some stop)
    ⟨fun ⟨inside, modifiers, present, named, list, listEnds, body, bodyEnds⟩ =>
        ⟨inside, modifiers, present, named, list, listEnds, body, bodyEnds⟩,
      fun ⟨inside, modifiers, present, named, list, listEnds, body, bodyEnds⟩ =>
        ⟨inside, modifiers, present, named, list, listEnds, body, bodyEnds⟩⟩

/-- A class that the walk steps on has a constructor with a body: its name, the ends of its
parameters and of its body. -/
inductive HasConstructor (stream : TokenStream) (keyword : Nat) (derived : Bool)
    (name finish stop : Nat) : Prop where
  | member {brace close first} (word : stream.IsKeyword keyword "class")
      (steps : stream.StepsOn keyword) (head : stream.ClassHead keyword derived brace)
      (opens : stream.is brace "\x7b" = true) (closes : stream.closer? brace = some close)
      (reaches : ReflTransGen (stream.NextMember keyword close derived) (brace + 1) first)
      (constructs : stream.IsConstructor first close name finish stop) :
      HasConstructor stream keyword derived name finish stop

/-! ## Parameters -/

/-- A parameter and the comma behind it end where the next parameter begins. -/
inductive NextParameter (stream : TokenStream) (walk : Walk) (close : Nat) : Nat → Nat → Prop where
  | receiver {index progress} (inside : index < close)
      (this : stream.isReceiver index close = true)
      (found : stream.receiverParameter index = .ok progress) :
      NextParameter stream walk close index progress.next
  | parameter {index parameter} (inside : index < close)
      (plain : stream.isReceiver index close = false)
      (found : stream.parameter walk index close = .ok parameter)
      (comma : stream.is parameter.progress.next "," = true) :
      NextParameter stream walk close index (parameter.progress.next + 1)

/-- A word names a parameter from `first` on that has modifiers before it. -/
def DeclaresProperty (stream : TokenStream) (walk : Walk) (first close name : Nat) : Prop :=
  ∃ index, ReflTransGen (stream.NextParameter walk close) first index ∧ index < close ∧
    stream.parameterModifiersEnd index = name ∧ index < name ∧ stream.isPlainWord name = true

/-- Texts are the names of the parameters from `first` on that have modifiers, in their order. -/
def ListsProperties (stream : TokenStream) (walk : Walk) (first close : Nat) (texts : List String) :
    Prop :=
  ∃ names : List Nat, (first :: names).Pairwise (· < ·) ∧
    (∀ name, name ∈ names ↔ stream.DeclaresProperty walk first close name) ∧
      texts = names.map stream.text

/-! ## The call of the base constructor -/

/-- The base constructor is called outside of the brackets in a body. -/
structure IsSuperCall (stream : TokenStream) (opening close call : Nat) : Prop where
  before : call < close
  level : stream.Balanced (opening + 1) call
  word : stream.is call "super" = true
  list : stream.is (call + 1) "(" = true

/-- The token behind which a body from brace to brace assigns the properties. -/
inductive AssignmentPlace (stream : TokenStream) (opening close : Nat) (derived : Bool) :
    Nat → Prop where
  /-- The opening brace, where the base constructor is not called. -/
  | brace (uncalled : derived = true → ∀ call, ¬stream.IsSuperCall opening close call) :
      AssignmentPlace stream opening close derived opening
  /-- The semicolon behind the call. -/
  | semicolon {call finish} (base : derived = true) (called : stream.IsSuperCall opening close call)
      (first : ∀ other, stream.IsSuperCall opening close other → call ≤ other)
      (closes : stream.closer? (call + 1) = some finish)
      (ended : stream.is (finish + 1) ";" = true) :
      AssignmentPlace stream opening close derived (finish + 1)
  /-- The closing parenthesis of a call without a semicolon. -/
  | parenthesis {call finish} (base : derived = true)
      (called : stream.IsSuperCall opening close call)
      (first : ∀ other, stream.IsSuperCall opening close other → call ≤ other)
      (closes : stream.closer? (call + 1) = some finish)
      (unended : stream.is (finish + 1) ";" = false) :
      AssignmentPlace stream opening close derived finish

variable {stream : TokenStream} {walk : Walk} {keyword first close index : Nat}

section Classes

variable (nested : stream.Nested) (placed : stream.Placed)

include nested placed

theorem lt_basePartEnd (index : Nat) : index < stream.basePartEnd index := by
  unfold basePartEnd
  split
  · exact lt_of_typeArgumentsEnd? nested placed (Option.filter_eq_some_iff.mp ‹_›).1
  split
  · exact stream.lt_skip index
  · exact Nat.lt_succ_self index

/-- The course of a base ends where that of its last parts does. -/
theorem BaseReaches.exists_course {base : Progress} (reaches : stream.BaseReaches first index)
    (inside : index < stream.size) (course : stream.HeritageCourse walk first base) :
    ∃ rest, stream.HeritageCourse walk index rest ∧ rest.next = base.next := by
  induction reaches with
  | here => exact ⟨base, course, rfl⟩
  | @part index _ noBody noTypes inductionHypothesis =>
    have further := lt_basePartEnd nested placed index
    obtain ⟨rest, courseRest, same⟩ := inductionHypothesis (Nat.lt_trans further inside)
    cases courseRest with
    | ended ends => simp [noBody, noTypes, Nat.lt_trans further inside] at ends
    | @part _ _ rest _ _ _ found _ following =>
      exact ⟨rest, next_of_heritagePart found ▸ following, same⟩

/-- The members of a class are walked from the end of its head on. -/
theorem ClassHead.exists_members {derived : Bool} {brace : Nat} {progress : Progress}
    (head : stream.ClassHead keyword derived brace) (opens : stream.is brace "\x7b" = true)
    (closes : stream.closer? brace = some close)
    (found : stream.classDeclaration walk keyword = .ok progress) :
    ∃ members, stream.classMembersFrom walk (brace + 1) close derived = .ok members ∧
      members ⊆ progress.edits := by
  simp only [classDeclaration, bind_eq_ok_iff] at found
  obtain ⟨generics, foundGenerics, base, foundBase, implemented, foundImplemented, rest⟩ := found
  have ends : implemented.next = brace ∧ stream.is generics "extends" = derived := by
    cases head with
    | plain parameters plain types =>
      cases foundGenerics.symm.trans parameters
      rw [heritage, plain] at foundBase
      cases foundBase
      cases foundImplemented.symm.trans types
      exact ⟨rfl, plain⟩
    | derived parameters extending reaches ends types =>
      cases foundGenerics.symm.trans parameters
      rw [heritage, if_pos extending] at foundBase
      have inside := ends.elim lt_size_of_is lt_size_of_is
      obtain ⟨last, courseLast, same⟩ := reaches.exists_course nested placed inside
        (heritageCourse_of_heritageFrom nested placed foundBase)
      cases courseLast with
      | part _ noBody noTypes => simp [noBody, noTypes] at ends
      | ended =>
        simp only [Progress.still] at same
        rw [← same] at foundImplemented
        cases foundImplemented.symm.trans types
        exact ⟨rfl, extending⟩
  obtain ⟨rfl, rfl⟩ := ends
  rw [if_pos opens] at rest
  simp only [bind_eq_ok_iff] at rest
  obtain ⟨other, foundClose, members, foundMembers, result⟩ := rest
  cases result
  cases (closeOf_eq_ok_iff.mp foundClose).symm.trans closes
  exact ⟨members, foundMembers, List.subset_append_right _ _⟩

omit nested placed in
/-- What is found from a member on is found in the class. -/
theorem exists_course_of_member {derived : Bool} {members : List Edit}
    (reaches : ReflTransGen (stream.NextMember keyword close derived) first index)
    (course : stream.MemberCourse (stream.walkBehind keyword) close derived first members) :
    ∃ rest, stream.MemberCourse (stream.walkBehind keyword) close derived index rest ∧
      rest ⊆ members := by
  induction reaches with
  | refl => exact ⟨members, course, List.Subset.refl _⟩
  | @tail index _ _ next inductionHypothesis =>
    obtain ⟨rest, courseRest, within⟩ := inductionHypothesis
    cases next with
    | member inside foundMember =>
      cases courseRest with
      | ended past => exact absurd inside (Nat.not_lt_of_le past)
      | member _ found _ following =>
        cases foundMember.symm.trans found
        exact ⟨_, following, List.Subset.trans (List.subset_append_right _ _) within⟩

end Classes

/-! ## Properties in their order -/

section Properties

/-- The receiver is no property. -/
theorem not_modified_of_isReceiver (this : stream.isReceiver index close = true) :
    stream.parameterModifiersEnd index = index := by
  refine Nat.le_antisymm (Nat.le_of_not_lt fun modified => ?_) (le_runEnd ..)
  have modifier := (parameterModifier_of_lt (Nat.le_refl index) modified).1
  simp only [isReceiver, Bool.and_eq_true] at this
  rw [textIn, (is_iff.mp this.1).2] at modifier
  exact absurd modifier (by decide)

/-- A property is declared by the parameter at an index or by one behind it. -/
theorem declaresProperty_iff {name : Nat} :
    stream.DeclaresProperty walk index close name ↔
      (index < close ∧ stream.parameterModifiersEnd index = name ∧ index < name ∧
        stream.isPlainWord name = true) ∨
      ∃ next, stream.NextParameter walk close index next ∧
        stream.DeclaresProperty walk next close name := by
  constructor
  · rintro ⟨last, reaches, declares⟩
    rcases reaches.cases_head with rfl | ⟨next, one, rest⟩
    · exact .inl declares
    · exact .inr ⟨next, one, last, rest, declares⟩
  · rintro (declares | ⟨next, one, last, rest, declares⟩)
    · exact ⟨index, .refl, declares⟩
    · exact ⟨last, .head one rest, declares⟩

theorem not_declaresProperty_of_le {name : Nat} (past : close ≤ index) :
    ¬stream.DeclaresProperty walk index close name := by
  rw [declaresProperty_iff]
  rintro (⟨inside, _⟩ | ⟨next, one, _⟩)
  · omega
  · cases one <;> omega

variable (nested : stream.Nested) (placed : stream.Placed) (advances : walk.Advances)

include placed

/-- What a parameter declares is its name, if it has modifiers. -/
theorem property_of_parameter {parameter : Parameter}
    (found : stream.parameter walk index close = .ok parameter) :
    parameter.property = if index < stream.parameterModifiersEnd index ∧
      stream.isPlainWord (stream.parameterModifiersEnd index) = true then
        some (stream.text (stream.parameterModifiersEnd index)) else none := by
  simp only [TokenStream.parameter, bind_eq_ok_iff] at found
  obtain ⟨_, _, _, _, _, _, result⟩ := found
  cases result
  have ordered : index ≤ stream.parameterModifiersEnd index := le_runEnd ..
  rcases Nat.eq_or_lt_of_le ordered with same | modified
  · simp [← same]
  · have noSpread := not_spread_of_modified placed (Nat.ne_of_gt modified)
    simp [noSpread, modified, Nat.ne_of_gt modified]

include nested advances

theorem lt_of_parameter {parameter : Parameter}
    (found : stream.parameter walk index close = .ok parameter)
    (word : stream.isPlainWord (stream.parameterModifiersEnd index) = true) :
    stream.parameterModifiersEnd index < parameter.progress.next := by
  obtain ⟨target, foundTarget, ends⟩ := exists_target_of_parameter nested placed advances found
  have kind := kind?_of_isPlainWord word
  have noSpread : stream.is (stream.parameterModifiersEnd index) "..." = false :=
    placed.is_eq_false_of_word kind (by decide)
  have noBrace : stream.is (stream.parameterModifiersEnd index) "\x7b" = false :=
    placed.is_eq_false_of_word kind (by decide)
  have noBracket : stream.is (stream.parameterModifiersEnd index) "[" = false :=
    placed.is_eq_false_of_word kind (by decide)
  simp only [noSpread, Bool.false_eq_true, if_false, parameterTarget, noBrace, noBracket,
    Bool.or_self, word, if_true] at foundTarget
  cases foundTarget
  exact ends

/-- A parameter comes before those behind it. -/
theorem ListsProperties.cons {parameter : Parameter} {names : List Nat} (inside : index < close)
    (found : stream.parameter walk index close = .ok parameter)
    (ordered : (parameter.progress.next :: names).Pairwise (· < ·))
    (listed : ∀ name, name ∈ names ↔ ∃ next, stream.NextParameter walk close index next ∧
      stream.DeclaresProperty walk next close name) :
    stream.ListsProperties walk index close
      (parameter.property.toList ++ names.map stream.text) := by
  have property := property_of_parameter placed found
  have passed := le_of_parameter nested placed advances found
  obtain ⟨behind, sorted⟩ := List.pairwise_cons.mp ordered
  split at property
  case isTrue declares =>
    have named := lt_of_parameter nested placed advances found declares.2
    refine ⟨stream.parameterModifiersEnd index :: names, ?_, fun name => ?_, by simp [property]⟩
    · refine .cons ?_ (.cons (fun name member => Nat.lt_trans named (behind name member)) sorted)
      rintro name (_ | ⟨_, member⟩)
      · exact declares.1
      · exact Nat.lt_trans declares.1 (Nat.lt_trans named (behind name member))
    · rw [List.mem_cons, listed, declaresProperty_iff]
      refine or_congr_left ⟨?_, fun declared => declared.2.1.symm⟩
      rintro rfl
      exact ⟨inside, rfl, declares⟩
  case isFalse undeclared =>
    refine ⟨names, .cons (fun name member => Nat.lt_of_le_of_lt passed (behind name member)) sorted,
      fun name => ?_, by simp [property]⟩
    rw [listed, declaresProperty_iff, or_iff_right]
    rintro ⟨_, rfl, declares⟩
    exact undeclared declares

/-- A parameter list declares the parameters with modifiers, in their order. -/
theorem listsProperties_of_parametersFrom {list : ParameterList}
    (found : stream.parametersFrom walk index close = .ok list) :
    stream.ListsProperties walk index close list.properties := by
  replace found := parameterCourse_of_parametersFrom nested placed found
  induction found with
  | ended past =>
    exact ⟨[], List.pairwise_singleton _ _, by simp [not_declaresProperty_of_le past], rfl⟩
  | @receiver index _ _ inside this found further _ inductionHypothesis =>
    obtain ⟨names, ordered, listed, same⟩ := inductionHypothesis
    obtain ⟨behind, sorted⟩ := List.pairwise_cons.mp ordered
    refine ⟨names, .cons (fun name member => Nat.lt_trans further (behind name member)) sorted,
      fun name => ?_, same⟩
    rw [listed, @declaresProperty_iff _ _ _ index, not_modified_of_isReceiver this]
    refine ⟨fun declares => .inr ⟨_, .receiver inside this found, declares⟩, ?_⟩
    rintro (⟨_, rfl, modified, _⟩ | ⟨next, one, declares⟩)
    · exact absurd modified (Nat.lt_irrefl _)
    · cases one with
      | receiver _ _ other =>
        cases found.symm.trans other
        exact declares
      | parameter _ plain =>
        rw [this] at plain
        contradiction
  | more inside plain found _ comma _ inductionHypothesis =>
    obtain ⟨names, ordered, listed, same⟩ := inductionHypothesis
    obtain ⟨behind, sorted⟩ := List.pairwise_cons.mp ordered
    rw [ParameterList.cons, same]
    refine .cons nested placed advances inside found
      (.cons (fun name member => Nat.lt_of_succ_lt (behind name member)) sorted)
      fun name => (listed name).trans ⟨fun declares =>
        ⟨_, .parameter inside plain found comma, declares⟩, ?_⟩
    rintro ⟨next, further, declares⟩
    cases further with
    | receiver _ this => exact absurd this (Bool.eq_false_iff.mp plain)
    | parameter _ _ other =>
      cases found.symm.trans other
      exact declares
  | @last _ one inside plain found alone _ =>
    have sorted : (one.progress.next :: ([] : List Nat)).Pairwise (· < ·) :=
      List.pairwise_singleton _ _
    refine .cons nested placed advances inside found sorted fun name =>
      iff_of_false List.not_mem_nil ?_
    rintro ⟨next, further, _⟩
    cases further with
    | receiver _ this => exact absurd this (Bool.eq_false_iff.mp plain)
    | parameter _ _ other comma =>
      cases found.symm.trans other
      exact Bool.eq_false_iff.mp (alone (le_of_parameter nested placed advances found)) comma

end Properties

/-! ## Where the properties are assigned -/

section Places

variable (nested : stream.Nested)

include nested

/-- A search at one nesting level does not miss what is found at it. -/
theorem seek_le {found : Nat → Bool} {limit target : Nat} (level : stream.Balanced index target)
    (before : target < limit) (accepted : found target = true) :
    stream.seek found limit index ≤ target := by
  fun_induction stream.seek found limit index with
  | case1 => exact level.ordered
  | case3 => exact level.ordered
  | case2 index _ rejected inductionHypothesis =>
    refine inductionHypothesis ?_
    have further : index < target := by
      refine Nat.lt_of_le_of_ne level.ordered ?_
      rintro rfl
      exact rejected accepted
    unfold skip
    split
    case h_1 close closes =>
      have inside := (level.paired closes).mp ⟨Nat.le_refl index, further⟩
      exact level.rest (.pair nested closes) inside.2
    case h_2 unopened =>
      refine level.rest (.single fun opening close closes => ⟨?_, ?_⟩) further
      · rintro rfl
        rw [unopened] at closes
        contradiction
      · rintro rfl
        have opened := (level.paired closes).mpr ⟨Nat.le_refl _, further⟩
        have ordered := lt_of_closer?_eq_some closes
        omega

theorem assignmentPlace_of_assignmentAnchor {opening close anchor : Nat} {derived : Bool}
    (closes : stream.closer? opening = some close)
    (found : stream.assignmentAnchor opening close derived = .ok anchor) :
    stream.AssignmentPlace opening close derived anchor := by
  unfold assignmentAnchor at found
  cases derived with
  | false =>
    cases found
    exact .brace fun base => absurd base (by decide)
  | true =>
    obtain ⟨call?, foundCall, result⟩ := bind_eq_ok_iff.mp found
    cases result
    unfold superCallEnd? at foundCall
    extract_lets call at foundCall
    have first : ∀ other, stream.IsSuperCall opening close other → call ≤ other :=
      fun other called =>
        seek_le nested called.level called.before (by simp [called.word, called.list])
    split at foundCall
    case isFalse past =>
      cases foundCall
      exact .brace fun _ other called =>
        past (Nat.lt_of_le_of_lt (first other called) called.before)
    case isTrue before =>
      obtain ⟨finish, foundFinish, result⟩ := bind_eq_ok_iff.mp foundCall
      have accepted := Bool.and_eq_true_iff.mp (found_of_seek_lt before)
      have called : stream.IsSuperCall opening close call :=
        { before := before
          level := (Balanced.inside_pair nested closes).of_closes (closes_seek nested _ close _)
            (stream.le_seek ..) (Nat.le_of_lt before)
          word := accepted.1
          list := accepted.2 }
      have listEnds := closeOf_eq_ok_iff.mp foundFinish
      cases result
      rw [Option.getD_some]
      split
      · exact .semicolon rfl called first listEnds ‹_›
      · exact .parenthesis rfl called first listEnds (Bool.eq_false_iff.mpr ‹_›)

end Places

/-! ## What a constructor assigns -/

namespace IsConstructor

variable {name finish stop : Nat} {derived : Bool}

/-- A constructor is read as a method without markers and generics. -/
theorem classMember_eq (constructs : stream.IsConstructor first close name finish stop)
    (placed : stream.Placed) (walk : Walk) (derived : Bool) :
    stream.classMember walk first close derived =
      stream.methodMember walk first name name (name + 1) (name + 1) (name + 1) derived := by
  have differs : ∀ {text}, "constructor" ≠ text → stream.is name text = false :=
    fun other => is_eq_false_of_is constructs.named other
  have opens : ∀ {text}, "(" ≠ text → stream.is (name + 1) text = false :=
    fun other => is_eq_false_of_is constructs.list other
  have kind : stream.kind? name = some .word :=
    placed.kind?_of_start (by rw [(is_iff.mp constructs.named).2]; decide)
  have begins : stream.kind? first = some .word := by
    have ordered : first ≤ name := constructs.modifiers ▸ le_runEnd ..
    rcases Nat.eq_or_lt_of_le ordered with rfl | earlier
    · exact kind
    · have accepted :=
        accepts_of_lt_runEnd (Nat.le_refl first) (constructs.modifiers.symm ▸ earlier)
      exact word_of_modifier placed (List.contains_iff_mem.mp (Bool.and_eq_true_iff.mp accepted).1)
  have noSemicolon : stream.is first ";" = false := placed.is_eq_false_of_word begins (by decide)
  have noDecorator : stream.is first "@" = false := placed.is_eq_false_of_word begins (by decide)
  have nameEnd : stream.memberNameEnd name = .ok (name + 1) := by
    rw [memberNameEnd, differs (by decide), kind]
    rfl
  have noGenerics : stream.optionalTypeParameters (name + 1) = .ok (name + 1) := by
    rw [optionalTypeParameters, opens (by decide)]
    rfl
  unfold classMember namedMember
  simp only [noSemicolon, noDecorator, constructs.modifiers, constructs.present,
    startsIndexSignature, differs (by decide : "constructor" ≠ "\x7b"),
    differs (by decide : "constructor" ≠ "["), differs (by decide : "constructor" ≠ "*"), nameEnd,
    opens (by decide : "(" ≠ "?"), opens (by decide : "(" ≠ "!"), noGenerics, constructs.list,
    Bool.and_false, Bool.false_and, Bool.or_self, Bool.false_eq_true, if_false, if_true, bind,
    Except.bind]

/-- Where a constructor has parameter properties, its body assigns them. -/
theorem exists_assignments (constructs : stream.IsConstructor first close name finish stop)
    (nested : stream.Nested) (placed : stream.Placed) (advances : walk.Advances)
    {progress : Progress} {property : Nat}
    (declares : stream.DeclaresProperty walk (name + 2) finish property)
    (found : stream.classMember walk first close derived = .ok progress) : ∃ names anchor,
      stream.ListsProperties walk (name + 2) finish names ∧
        stream.AssignmentPlace (finish + 1) stop derived anchor ∧
          .insert (stream.stopOf anchor) (propertyAssignments names) ∈ progress.edits := by
  rw [constructs.classMember_eq placed] at found
  obtain ⟨close, closes, rest⟩ := bind_eq_ok_iff.mp found
  cases (closeOf_eq_ok_iff.mp closes).symm.trans constructs.listEnds
  have noResult : stream.optionalAnnotation (finish + 1) = .ok (finish + 1) := by
    rw [ optionalAnnotation, is_eq_false_of_is constructs.body (by decide)]
    rfl
  obtain ⟨body, annotated, rest⟩ := bind_eq_ok_iff.mp rest
  cases noResult.symm.trans annotated
  rw [if_pos constructs.body] at rest
  simp only [bind_eq_ok_iff] at rest
  obtain ⟨head, _, list, foundList, inside, foundInside, result⟩ := rest
  cases result
  have listed := listsProperties_of_parametersFrom nested placed advances foundList
  have present : list.properties.isEmpty = false := by
    obtain ⟨names, _, complete, same⟩ := listed
    rw [same, List.isEmpty_eq_false_iff]
    exact List.ne_nil_of_mem (List.mem_map_of_mem ((complete property).mpr declares))
  rw [methodBody, if_pos (by simp [(is_iff.mp constructs.named).2, present])] at foundInside
  simp only [constructorBody, bind_eq_ok_iff] at foundInside
  obtain ⟨end_, foundEnd, anchor, foundAnchor, before, _, after, _, result⟩ := foundInside
  cases result
  cases (closeOf_eq_ok_iff.mp foundEnd).symm.trans constructs.bodyEnds
  exact ⟨_, anchor, listed,
    assignmentPlace_of_assignmentAnchor nested constructs.bodyEnds foundAnchor, by simp⟩

end IsConstructor

/-- The assignments of a constructor's properties are among the edits of the program. -/
theorem HasConstructor.exists_assignments {derived : Bool} {name finish stop property : Nat}
    (constructs : stream.HasConstructor keyword derived name finish stop)
    (nested : stream.Nested) (placed : stream.Placed) {whole : Progress}
    (walked : stream.walkFrom 0 0 (.upTo stream.size) = .ok whole)
    (declares : stream.DeclaresProperty (stream.walkBehind keyword) (name + 2) finish property) :
    ∃ names anchor, stream.ListsProperties (stream.walkBehind keyword) (name + 2) finish names ∧
      stream.AssignmentPlace (finish + 1) stop derived anchor ∧
        .insert (stream.stopOf anchor) (propertyAssignments names) ∈ whole.edits := by
  obtain ⟨word, steps, head, opens, closes, reaches, member⟩ := constructs
  have advances : (stream.walkBehind keyword).Advances := advances_walkBehind nested placed keyword
  obtain ⟨one, stepped, among⟩ := steps.exists_step nested placed walked
  rw [placed.step_of_keyword _ word.1 (by decide), wordStep, if_neg (by simp [word.2]),
    (is_iff.mp word.1).2] at stepped
  obtain ⟨members, foundMembers, within⟩ := head.exists_members nested placed opens closes stepped
  obtain ⟨rest, course, inside⟩ := exists_course_of_member reaches
    (memberCourse_of_classMembersFrom nested placed advances foundMembers)
  cases course with
  | ended past => exact absurd member.inside (Nat.not_lt_of_le past)
  | member _ foundMember =>
    obtain ⟨names, anchor, listed, place, found⟩ :=
      member.exists_assignments nested placed advances declares foundMember
    exact ⟨names, anchor, listed, place,
      among (within (inside (List.mem_append_left _ found)))⟩

end Playground.TokenStream

import Playground.Erasure.Walk
import Playground.Proofs.Erasure.Tokens

/-!
# Parts of walkers

Facts about the parts that several walkers share: the brackets, annotations and type
parameters they look for, and how far their searches go.
-/

namespace Playground.TokenStream

variable {stream : TokenStream}

@[simp] theorem edits_still (index : Nat) : (Progress.still index).edits = [] := rfl

@[simp] theorem edits_preceded (progress : Progress) (edits : List Edit) :
    (progress.preceded edits).edits = edits ++ progress.edits := rfl

theorem closeOf_eq_ok_iff {index close : Nat} :
    stream.closeOf index = .ok close ↔ stream.closer? index = some close := by
  unfold closeOf
  cases stream.closer? index with
  | none => simp [fail]
  | some found => simp

/-- A mark is read as a punctuator. -/
theorem Placed.step_of_punctuator (placed : stream.Placed) (walk : Walk) {index : Nat}
    {text : String} (found : stream.is index text = true) (mark : hasMark text = true) :
    stream.step walk index = stream.punctuatorStep walk index := by
  rw [step, placed.kind?_of_mark found mark]

/-- A walk up to an index ends before no token. -/
theorem endsBefore_upTo (first index limit : Nat) :
    stream.endsBefore first index (.upTo limit) = false := by
  simp [endsBefore, endsAtLine, WalkEnd.upTo, textIn]

/-- A keyword is read as a word. -/
theorem Placed.step_of_keyword (placed : stream.Placed) (walk : Walk) {index : Nat} {text : String}
    (found : stream.is index text = true) (begins : text.toList.head?.any startsWord = true) :
    stream.step walk index = stream.wordStep walk index := by
  have word := placed.kind?_of_start ((is_iff.mp found).2 ▸ begins)
  rw [step, word]

/-- What stands in braces is walked. -/
theorem Placed.step_of_brace (placed : stream.Placed) (walk : Walk) {index : Nat}
    (opens : stream.is index "\x7b" = true) :
    stream.step walk index = stream.walkInside walk index := by
  rw [placed.step_of_punctuator walk opens (by decide), punctuatorStep, (is_iff.mp opens).2]
  rfl

theorem angle_of_typeArguments {index stop : Nat}
    (found : stream.typeArgumentsEnd? index = some stop) : stream.is index "<" = true := by
  unfold typeArgumentsEnd? typeArgumentsWith? at found
  split at found
  · assumption
  · contradiction

theorem angle_of_typeParameters {index stop : Nat}
    (found : stream.typeParametersEnd? index = some stop) : stream.is index "<" = true := by
  unfold typeParametersEnd? typeParametersWith? at found
  split at found
  · assumption
  · contradiction

/-- Optional type parameters take up tokens only after an angle. -/
theorem angle_of_optionalTypeParameters {index stop : Nat}
    (found : stream.optionalTypeParameters index = .ok stop) (later : index < stop) :
    stream.is index "<" = true := by
  unfold optionalTypeParameters at found
  split at found
  · assumption
  · cases found
    exact absurd later (Nat.lt_irrefl index)

/-- An optional annotation takes up tokens only after a colon. -/
theorem colon_of_annotated {index stop : Nat}
    (found : stream.optionalAnnotation index = .ok stop) (later : index < stop) :
    stream.is index ":" = true := by
  unfold optionalAnnotation at found
  split at found
  · assumption
  · cases found
    exact absurd later (Nat.lt_irrefl index)

theorem lt_of_memberNameEnd {name stop : Nat} (found : stream.memberNameEnd name = .ok stop) :
    name < stop := by
  unfold memberNameEnd at found
  split at found
  · obtain ⟨close, closes, result⟩ := bind_eq_ok_iff.mp found
    cases result
    exact Nat.lt_succ_of_lt (lt_of_closer?_eq_some (closeOf_eq_ok_iff.mp closes))
  · split at found
    all_goals first
      | (cases found; exact Nat.lt_succ_self name)
      | contradiction

/-- Everything that a run passes is accepted. -/
theorem accepts_of_lt_runEnd {accepts : Nat → Bool} {limit index between : Nat}
    (lower : index ≤ between) (upper : between < runEnd accepts limit index) :
    accepts between = true := by
  fun_induction runEnd accepts limit index with
  | case1 index _ accepted inductionHypothesis =>
    rcases Nat.eq_or_lt_of_le lower with rfl | later
    · exact accepted
    · exact inductionHypothesis later upper
  | case2 | case3 => omega

theorem runEnd_le {accepts : Nat → Bool} {limit index : Nat} (ordered : index ≤ limit) :
    runEnd accepts limit index ≤ limit := by
  fun_induction runEnd accepts limit index with
  | case1 _ before _ inductionHypothesis => exact inductionHypothesis before
  | case2 | case3 => exact ordered

/-- A run goes up to its limit or to the first index that is not accepted. -/
theorem runEnd_eq {accepts : Nat → Bool} {limit index stop : Nat} (ordered : index ≤ stop)
    (passes : ∀ between, index ≤ between → between < stop → accepts between = true)
    (within : stop ≤ limit) (ends : stop = limit ∨ accepts stop = false) :
    runEnd accepts limit index = stop := by
  fun_induction runEnd accepts limit index with
  | case1 index before accepted inductionHypothesis =>
    refine inductionHypothesis ?_ fun between later => passes between (Nat.le_of_succ_le later)
    refine Nat.lt_of_le_of_ne ordered ?_
    rintro rfl
    rcases ends with rfl | refused
    · exact Nat.lt_irrefl _ before
    · simp [accepted] at refused
  | case2 index before refused =>
    refine (Nat.eq_or_lt_of_le ordered).resolve_right fun later => refused ?_
    exact passes index (Nat.le_refl index) later
  | case3 => omega

theorem parameterModifier_of_lt {index between : Nat} (lower : index ≤ between)
    (upper : between < stream.parameterModifiersEnd index) :
    stream.textIn between parameterModifiers = true ∧ stream.startsBinding (between + 1) = true :=
  Bool.and_eq_true_iff.mp (accepts_of_lt_runEnd lower upper)

theorem le_statementEnd {first limit : Nat} (ordered : first ≤ limit) :
    first ≤ stream.statementEnd first limit := by
  rcases stream.statementEnd_advances first limit with later | atLimit
  · exact Nat.le_of_lt later
  · omega

theorem le_afterSemicolon (index : Nat) : index ≤ stream.afterSemicolon index := by
  unfold afterSemicolon
  split <;> omega

theorem le_moduleClauseEnd (index : Nat) : index ≤ stream.moduleClauseEnd index := by
  unfold moduleClauseEnd
  extract_lets name
  have passed : index ≤ name := stream.le_seek ..
  have semicolon := stream.le_afterSemicolon (name + 1)
  split <;> omega

theorem lt_of_exportClauseEnd {index stop : Nat} (found : stream.exportClauseEnd index = .ok stop) :
    index < stop := by
  have advance : ∀ names, index < names →
      index < stream.afterSemicolon (if stream.is names "from" then names + 2 else names) := by
    intro names later
    refine Nat.lt_of_lt_of_le ?_ (le_afterSemicolon _)
    split <;> omega
  unfold exportClauseEnd at found
  split at found
  · obtain ⟨close, closes, result⟩ := bind_eq_ok_iff.mp found
    cases result
    exact advance _ (Nat.lt_succ_of_lt (lt_of_closer?_eq_some (closeOf_eq_ok_iff.mp closes)))
  · split at found
    all_goals
      cases found
      exact advance _ (by omega)

end Playground.TokenStream

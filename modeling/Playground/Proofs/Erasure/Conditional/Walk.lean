import Playground.Proofs.Erasure.Conditional.Simple
import Playground.Proofs.Erasure.Steps

/-!
# Walking simple tokens

A walk over simple tokens finds nothing to erase exactly if no closing parenthesis on its way
reads as the end of a parameter list with a return type (`walkFrom_unchanged_iff`).
-/

namespace Playground.TokenStream

variable {stream : TokenStream} {index : Nat}

/-- A walk succeeds and finds nothing to change. -/
def Unchanged (result : Except SyntaxError Progress) : Prop :=
  ∃ next, result = .ok ⟨next, []⟩

theorem unchanged_of_error {error : SyntaxError} : ¬Unchanged (.error error) := nofun

theorem unchanged_ok_iff {progress : Progress} :
    Unchanged (.ok progress) ↔ progress.edits = [] := by
  constructor
  · rintro ⟨next, same⟩
    cases same
    rfl
  · intro none
    exact ⟨progress.next, by rw [← none]⟩

/-- A walk in two parts finds nothing if neither part does. -/
theorem unchanged_preceded_iff {result : Except SyntaxError Progress} {edits : List Edit} :
    Unchanged (result >>= fun rest => pure (rest.preceded edits)) ↔
      edits = [] ∧ Unchanged result := by
  cases result with
  | error error => exact iff_of_false nofun fun both => unchanged_of_error both.2
  | ok rest =>
    obtain ⟨next, found⟩ := rest
    constructor
    · rintro ⟨last, same⟩
      cases edits <;> cases found <;> simp_all [Progress.preceded, bind, Except.bind, pure, Except.pure, Unchanged]
    · rintro ⟨rfl, last, same⟩
      cases same
      exact ⟨next, rfl⟩

namespace Simple

variable (simple : stream.Simple)

include simple

/-- Only parentheses have a partner. -/
theorem is_of_closer? {opening close : Nat} (found : stream.closer? opening = some close) :
    stream.is opening "(" = true := by
  have parenthesis : ∀ pair ∈ bracketPairs, pair.1 ∈ simpleMarks → pair.1 = "(" := by
    decide
  obtain ⟨mark, _, listed⟩ := simple.nested.text_bracket found
  exact is_of_mark mark (parenthesis _ listed (simple.text_of_mark mark))

/-! ## Steps -/

/-- No word means anything. -/
theorem wordStep_eq (walk : Walk) : stream.wordStep walk index = .ok (.still (index + 1)) := by
  have free := simple.text_free index
  unfold wordStep
  split
  · rfl
  · split <;> first | rfl | (rename_i same; exact absurd (same ▸ (by decide)) free)

theorem punctuatorStep_eq (walk : Walk) (mark : stream.kind? index = some .punctuator)
    (other : stream.is index "(" = false) :
    stream.punctuatorStep walk index = .ok (.still (index + 1)) := by
  have listed := simple.text_of_mark mark
  unfold punctuatorStep
  split
  · rw [is_of_mark mark ‹_›] at other
    contradiction
  all_goals first | rfl | (rename_i same; exact absurd (same ▸ listed) (by decide))

theorem step_eq (walk : Walk) (other : stream.is index "(" = false) :
    stream.step walk index = .ok (.still (index + 1)) := by
  unfold step
  rcases simple.kind?_cases index with kind | kind | kind | kind | kind <;>
    rw [kind] <;> dsimp only
  · rfl
  · exact simple.wordStep_eq walk
  · rfl
  · rfl
  · exact simple.punctuatorStep_eq walk kind other

/-! ## Parentheses -/

variable {opening close : Nat} (found : stream.closer? opening = some close)

include found

theorem parameterHeadEnd?_of_annotated (annotated : stream.IsAnnotatedAt close) :
    stream.parameterHeadEnd? opening close = some (close + 3) := by
  obtain ⟨colon, word, arrow⟩ := annotated
  have type := (simple.typeEnd?_before_arrow arrow).mpr ⟨word, rfl⟩
  unfold parameterHeadEnd?
  simp [simple.not_arrow_of_closer? found, colon, type, arrow]

theorem parameterHeadEnd?_of_not (plain : ¬stream.IsAnnotatedAt close) :
    stream.parameterHeadEnd? opening close = none := by
  have noBody : ∀ index, stream.is index "\x7b" = false := fun _ =>
    simple.not_mark _ (by decide) (by decide)
  unfold parameterHeadEnd?
  simp only [simple.not_arrow_of_closer? found, noBody, Bool.false_eq_true, if_false,
    Bool.false_and, Bool.or_false]
  split
  · rename_i colon
    rw [Option.filter_eq_none_iff]
    intro stop type arrow
    obtain ⟨word, rfl⟩ := (simple.typeEnd?_before_arrow arrow).mp type
    exact plain ⟨colon, word, arrow⟩
  · rfl

/-- A parenthesis that reads as a parameter list is not left as it is. -/
theorem not_unchanged_of_annotated (walk : Walk) (annotated : stream.IsAnnotatedAt close)
    {progress : Progress} (walked : stream.parenthesis walk opening = .ok progress) :
    progress.edits ≠ [] := by
  obtain ⟨same, closes, rest⟩ := bind_eq_ok_iff.mp walked
  rw [closeOf_eq_ok_iff, found] at closes
  cases closes
  rw [simple.parameterHeadEnd?_of_annotated found annotated] at rest
  obtain ⟨parameters, _, result⟩ := bind_eq_ok_iff.mp rest
  cases result
  simp [attachedIf]

/-- Any other parenthesis is walked. -/
theorem parenthesis_of_not (walk : Walk) (plain : ¬stream.IsAnnotatedAt close) :
    stream.parenthesis walk opening =
      (walk (opening + 1) (.upTo close) >>= fun inside => pure ⟨close + 1, inside.edits⟩) := by
  have closes := closeOf_eq_ok_iff.mpr found
  have walked : stream.walkInside walk opening =
      (walk (opening + 1) (.upTo close) >>= fun inside => pure ⟨close + 1, inside.edits⟩) := by
    unfold walkInside
    rw [closes]
    rfl
  rw [← walked]
  unfold parenthesis
  rw [closes]
  simp only [bind, Except.bind, simple.parameterHeadEnd?_of_not found plain]

end Simple

/-- No parenthesis between two indices reads as a parameter list. -/
def UnannotatedFrom (stream : TokenStream) (first limit : Nat) : Prop :=
  ∀ opening close, stream.closer? opening = some close → first ≤ opening → opening < limit →
    ¬stream.IsAnnotatedAt close

theorem unannotatedFrom_of_le (nested : stream.Nested) {limit : Nat}
    (past : ¬(index < limit ∧ index < stream.size)) : stream.UnannotatedFrom index limit := by
  intro opening close found after before
  have inside := lt_size_of_kind? (nested.text_bracket found).1
  omega

/-- Before a token that opens nothing there is nothing to see. -/
theorem unannotatedFrom_succ_iff {limit : Nat} (unopened : stream.closer? index = none) :
    stream.UnannotatedFrom index limit ↔ stream.UnannotatedFrom (index + 1) limit := by
  constructor
  · exact fun whole opening close found after => whole opening close found (by omega)
  · intro rest opening close found after
    rcases Nat.eq_or_lt_of_le after with rfl | later
    · rw [unopened] at found
      contradiction
    · exact rest opening close found later

/-- Before a pair there are the pair, its inside and what stands behind it. -/
theorem unannotatedFrom_pair_iff (nested : stream.Nested) {close limit : Nat}
    (found : stream.closer? index = some close) (before : close < limit) :
    stream.UnannotatedFrom index limit ↔ ¬stream.IsAnnotatedAt close ∧
      stream.UnannotatedFrom (index + 1) close ∧ stream.UnannotatedFrom (close + 1) limit := by
  have ordered := lt_of_closer?_eq_some found
  constructor
  · intro whole
    refine ⟨whole index close found (Nat.le_refl index) (by omega), ?_, ?_⟩
    · exact fun opening other closes after within =>
        whole opening other closes (by omega) (by omega)
    · exact fun opening other closes after within =>
        whole opening other closes (by omega) within
  · rintro ⟨plain, inside, behind⟩ opening other closes after within
    rcases Nat.eq_or_lt_of_le after with rfl | later
    · rw [found] at closes
      cases closes
      exact plain
    rcases Nat.lt_trichotomy opening close with inner | rfl | outer
    · exact inside opening other closes later inner
    · have apart := @Encloses.disjoint _ (opening, other) (index, opening)
        (nested.pairs closes) (nested.pairs found) (.inr (.inl rfl))
      cases apart
      exact absurd ordered (Nat.lt_irrefl _)
    · exact behind opening other closes outer within

/-- A walk over simple tokens finds nothing to change exactly if no parenthesis reads as a
parameter list. -/
theorem Simple.walkFrom_unchanged_iff (simple : stream.Simple) {first index limit : Nat}
    (balanced : stream.Balanced index limit) :
    Unchanged (stream.walkFrom first index (.upTo limit)) ↔
      stream.UnannotatedFrom index limit := by
  by_cases inside : index < limit ∧ index < stream.size
  case neg =>
    rw [walkFrom_of_not_goesOn fun goesOn => inside ⟨goesOn.before, goesOn.inside⟩]
    exact iff_of_true ⟨index, rfl⟩ (unannotatedFrom_of_le simple.nested inside)
  have goesOn : stream.GoesOn first index (.upTo limit) :=
    ⟨inside.1, inside.2, endsBefore_upTo ..⟩
  by_cases parenthesis : stream.is index "(" = true
  case neg =>
    have unopened : stream.closer? index = none := by
      rw [Option.eq_none_iff_forall_ne_some]
      exact fun close found => parenthesis (simple.is_of_closer? found)
    have rest : stream.Balanced (index + 1) limit := by
      refine ⟨inside.1, fun {opening close} found => ?_⟩
      have ordered := lt_of_closer?_eq_some found
      have whole := balanced.paired found
      have other : opening ≠ index := by
        rintro rfl
        rw [unopened] at found
        contradiction
      omega
    rw [goesOn.walkFrom_of_step (simple.step_eq _ (Bool.eq_false_iff.mpr parenthesis))
      (Nat.lt_succ_self index), unannotatedFrom_succ_iff unopened,
      ← @Simple.walkFrom_unchanged_iff simple first _ _ rest]
    exact unchanged_preceded_iff.trans (and_iff_right rfl)
  obtain ⟨close, found⟩ := simple.opened parenthesis
  have ordered := lt_of_closer?_eq_some found
  have before : close < limit :=
    ((balanced.paired found).mp ⟨Nat.le_refl index, inside.1⟩).2
  have rest : stream.Balanced (close + 1) limit :=
    balanced.rest (.pair simple.nested found) before
  rw [unannotatedFrom_pair_iff simple.nested found before]
  have step : ∀ walk : Walk, stream.step walk index = stream.parenthesis walk index := by
    intro walk
    obtain ⟨_, spelled⟩ := is_iff.mp parenthesis
    unfold step punctuatorStep
    rw [(simple.nested.text_bracket found).1, spelled]
    rfl
  rw [goesOn.walkFrom_eq, step]
  by_cases annotated : stream.IsAnnotatedAt close
  · refine iff_of_false ?_ fun all => all.1 annotated
    rintro ⟨next, walked⟩
    obtain ⟨one, foundOne, walkedRest⟩ := bind_eq_ok_iff.mp walked
    have changed := simple.not_unchanged_of_annotated found _ annotated foundOne
    split at walkedRest
    · exact changed (unchanged_preceded_iff.mp ⟨next, walkedRest⟩).1
    · cases walkedRest
      exact changed rfl
  rw [simple.parenthesis_of_not found _ annotated, and_iff_right annotated,
    ← @Simple.walkFrom_unchanged_iff simple (index + 1) _ _ (.inside_pair simple.nested found),
    ← @Simple.walkFrom_unchanged_iff simple first _ _ rest,
    walkBehind_of_lt (Nat.lt_succ_self index)]
  cases stream.walkFrom (index + 1) (index + 1) (.upTo close) with
  | error error => exact iff_of_false unchanged_of_error fun both => unchanged_of_error both.1
  | ok within =>
    change Unchanged (if index < close + 1 then _ else _) ↔ _
    rw [if_pos (by omega)]
    exact unchanged_preceded_iff.trans (and_congr_left' (@unchanged_ok_iff within).symm)
termination_by stream.size - index

end Playground.TokenStream

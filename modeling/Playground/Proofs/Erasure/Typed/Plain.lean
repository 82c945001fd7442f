import Playground.Proofs.Erasure.Steps
import Playground.Proofs.Erasure.TypeGrammar

/-!
# Plain code

Runs of literals, free words and arithmetic marks, with parentheses and square brackets around
parts of them, hold no type syntax. A walk passes such a run without an edit wherever nothing
behind it makes its last parenthesis a list of parameters (`walkFrom_of_plain`), and so it passes
statements that are such runs.
-/

namespace Playground

/-- Words with a construct of their own. -/
def constructWords : List String :=
  ["interface", "type", "declare", "namespace", "module", "abstract", "enum", "const", "let", "var",
    "function", "class", "as", "satisfies", "import", "export", "catch", "if", "while", "for",
    "switch", "with"]

/-- Marks that plain code has at any place. -/
def plainMarks : List String :=
  [".", "+", "-", "*", "/", "%", "="]

namespace TokenStream

/-- A word that starts no construct: it means nothing of its own, or names a property. -/
structure IsFreeWord (stream : TokenStream) (index : Nat) : Prop where
  kind : stream.kind? index = some .word
  free : stream.isPropertyName index = true ∨ stream.text index ∉ constructWords

/-- A token that plain code has at any place. -/
inductive IsPlainToken (stream : TokenStream) (index : Nat) : Prop where
  | literal {kind} (listed : kind ∈ [TokenKind.number, .string, .regex, .template])
      (found : stream.kind? index = some kind)
  | word (word : stream.IsFreeWord index)
  | mark (found : stream.kind? index = some .punctuator) (listed : stream.text index ∈ plainMarks)

instance (stream : TokenStream) (index : Nat) : Decidable (stream.IsFreeWord index) :=
  decidable_of_iff (stream.kind? index = some .word ∧
      (stream.isPropertyName index = true ∨ stream.text index ∉ constructWords))
    ⟨fun ⟨kind, free⟩ => ⟨kind, free⟩, fun word => ⟨word.kind, word.free⟩⟩

instance (stream : TokenStream) (index : Nat) : Decidable (stream.IsPlainToken index) :=
  decidable_of_iff
    ((∃ kind ∈ [TokenKind.number, .string, .regex, .template], stream.kind? index = some kind) ∨
      stream.IsFreeWord index ∨
      stream.kind? index = some .punctuator ∧ stream.text index ∈ plainMarks)
    ⟨fun
      | .inl ⟨_, listed, found⟩ => .literal listed found
      | .inr (.inl word) => .word word
      | .inr (.inr ⟨found, listed⟩) => .mark found listed,
    fun
      | .literal listed found => .inl ⟨_, listed, found⟩
      | .word word => .inr (.inl word)
      | .mark found listed => .inr (.inr ⟨found, listed⟩)⟩

/-- The tokens from an index up to another are plain and their brackets match among them. Commas
stand only in brackets, that is in a run that is `enclosed`. -/
inductive Plain (stream : TokenStream) : Bool → Nat → Nat → Prop where
  | nothing {enclosed index} : Plain stream enclosed index index
  | token {enclosed index stop} (here : stream.IsPlainToken index)
      (rest : Plain stream enclosed (index + 1) stop) : Plain stream enclosed index stop
  | comma {index stop} (here : stream.is index "," = true)
      (rest : Plain stream true (index + 1) stop) : Plain stream true index stop
  | pair {enclosed opening close stop}
      (opens : stream.is opening "(" = true ∨ stream.is opening "[" = true)
      (closes : stream.closer? opening = some close)
      (inside : Plain stream true (opening + 1) close)
      (rest : Plain stream enclosed (close + 1) stop) : Plain stream enclosed opening stop

/-- Nothing at an index makes a parenthesis before it a list of parameters. -/
def HeadFree (stream : TokenStream) (index : Nat) : Prop :=
  ∀ text ∈ ["=>", ":", "\x7b"], stream.is index text = false

variable {stream : TokenStream} {first index stop : Nat} {enclosed : Bool}

/-! ## Walking on -/

@[simp] theorem preceded_still (index : Nat) (edits : List Edit) :
    (Progress.still index).preceded edits = ⟨index, edits⟩ := by
  rw [Progress.preceded, Progress.still, List.append_nil]

@[simp] theorem preceded_preceded (progress : Progress) (first second : List Edit) :
    (progress.preceded second).preceded first = progress.preceded (first ++ second) := by
  rw [Progress.preceded, Progress.preceded, Progress.preceded, List.append_assoc]

/-- A walk of nested constructs walks a program from behind an index on. -/
def WalksBehind (stream : TokenStream) (index : Nat) (walk : Walk) : Prop :=
  ∀ next ending, index < next → walk next ending = stream.walkFrom next next ending

theorem WalksBehind.later {walk : Walk} (walks : stream.WalksBehind index walk) {further : Nat}
    (after : index ≤ further) : stream.WalksBehind further walk :=
  fun next ending beyond => walks next ending (Nat.lt_of_le_of_lt after beyond)

theorem walkFrom_of_le {ending : WalkEnd} (past : ending.limit ≤ index) :
    stream.walkFrom first index ending = .ok (.still index) :=
  walkFrom_of_not_goesOn fun goesOn => Nat.not_lt_of_le past goesOn.before

theorem walkFrom_of_endsBefore {ending : WalkEnd}
    (ends : stream.endsBefore first index ending = true) :
    stream.walkFrom first index ending = .ok (.still index) :=
  walkFrom_of_not_goesOn fun goesOn => Bool.false_ne_true (goesOn.unended.symm.trans ends)

/-- A walk takes a step and goes on behind it. -/
theorem walkFrom_of_step {ending : WalkEnd} {one rest : Progress} (before : index < ending.limit)
    (inside : index < stream.size) (goesOn : stream.endsBefore first index ending = false)
    (stepped : ∀ walk, stream.WalksBehind index walk → stream.step walk index = .ok one)
    (later : index < one.next) (following : stream.walkFrom first one.next ending = .ok rest) :
    stream.walkFrom first index ending = .ok (rest.preceded one.edits) := by
  rw [GoesOn.walkFrom_of_step ⟨before, inside, goesOn⟩
    (stepped _ fun _ ending beyond => walkBehind_of_lt beyond ending) later, following]
  rfl

/-- A walk that takes a step has gone on behind it. -/
theorem exists_rest_of_walkFrom {ending : WalkEnd} {one progress : Progress}
    (before : index < ending.limit) (inside : index < stream.size)
    (goesOn : stream.endsBefore first index ending = false)
    (stepped : ∀ walk, stream.WalksBehind index walk → stream.step walk index = .ok one)
    (later : index < one.next) (walked : stream.walkFrom first index ending = .ok progress) :
    ∃ rest, stream.walkFrom first one.next ending = .ok rest ∧
      progress = rest.preceded one.edits := by
  rw [GoesOn.walkFrom_of_step ⟨before, inside, goesOn⟩
    (stepped _ fun _ ending beyond => walkBehind_of_lt beyond ending) later] at walked
  obtain ⟨rest, following, result⟩ := bind_eq_ok_iff.mp walked
  cases result
  exact ⟨rest, following, rfl⟩

theorem walkInside_of_walkFrom {walk : Walk} {opening close : Nat} {inside : Progress}
    (walks : stream.WalksBehind opening walk) (closes : stream.closer? opening = some close)
    (walked : stream.walkFrom (opening + 1) (opening + 1) (.upTo close) = .ok inside) :
    stream.walkInside walk opening = .ok ⟨close + 1, inside.edits⟩ := by
  have nested := walks (opening + 1) (.upTo close) (Nat.lt_succ_self opening)
  unfold walkInside
  rw [closeOf_eq_ok_iff.mpr closes]
  change (walk (opening + 1) (.upTo close) >>= _) = _
  rw [nested, walked]
  rfl

/-! ## Tokens without a construct -/

theorem wordStep_of_free (walk : Walk) (word : stream.IsFreeWord index) :
    stream.wordStep walk index = .ok (.still (index + 1)) := by
  unfold wordStep
  split
  · rfl
  · rename_i named
    have free := word.free.resolve_left named
    split <;> first | rfl | (rename_i same; exact absurd (same ▸ (by decide)) free)

theorem IsPlainToken.lt_size (here : stream.IsPlainToken index) : index < stream.size := by
  cases here with
  | literal _ found => exact lt_size_of_kind? found
  | word word => exact lt_size_of_kind? word.kind
  | mark found => exact lt_size_of_kind? found

/-- A mark of plain code stands for nothing else. -/
theorem IsPlainToken.text_of_mark (here : stream.IsPlainToken index)
    (mark : stream.kind? index = some .punctuator) : stream.text index ∈ plainMarks := by
  cases here with
  | literal listed found => exact absurd (Option.some.inj (found.symm.trans mark) ▸ listed) (by decide)
  | word word => exact absurd (word.kind.symm.trans mark) (by decide)
  | mark _ listed => exact listed

theorem IsPlainToken.step_eq (here : stream.IsPlainToken index) (walk : Walk) :
    stream.step walk index = .ok (.still (index + 1)) := by
  unfold step
  cases here with
  | literal listed found =>
    simp only [List.mem_cons, List.not_mem_nil, or_false] at listed
    rcases listed with rfl | rfl | rfl | rfl <;> rw [found] <;> rfl
  | word word =>
    rw [word.kind]
    exact wordStep_of_free walk word
  | mark found listed =>
    rw [found]
    dsimp only
    unfold punctuatorStep
    split <;> first | rfl | (rename_i same; exact absurd (same ▸ listed) (by decide))

/-- A mark that opens nothing is passed. -/
theorem step_of_mark {text : String} (walk : Walk) (found : stream.kind? index = some .punctuator)
    (spelled : stream.text index = text) (idle : text ∉ ["(", "\x7b", "[", "<", "!"]) :
    stream.step walk index = .ok (.still (index + 1)) := by
  unfold step
  rw [found]
  dsimp only
  have other := spelled.symm ▸ idle
  unfold punctuatorStep
  split <;> first | rfl | (rename_i same; rw [same] at other; exact absurd (by decide) other)

theorem walkFrom_of_semicolon (placed : stream.Placed) {limit : Nat} {rest : Progress}
    (found : stream.is index ";" = true) (before : index < limit)
    (following : stream.walkFrom first (index + 1) (.upTo limit) = .ok rest) :
    stream.walkFrom first index (.upTo limit) = .ok rest :=
  walkFrom_of_step before (lt_size_of_is found) (endsBefore_upTo ..)
    (fun walk _ => step_of_mark walk (placed.kind?_of_mark found (by decide)) (is_iff.mp found).2
      (by decide)) (Nat.lt_succ_self index) following

/-! ## Brackets without a construct -/

theorem headFree_of_is {text : String} (found : stream.is index text = true)
    (other : text ∉ ["=>", ":", "\x7b"]) : stream.HeadFree index := by
  intro head listed
  exact is_eq_false_of_is found fun same => other (same ▸ listed)

theorem parameterHeadEnd?_eq_none {opening close : Nat} (headFree : stream.HeadFree (close + 1)) :
    stream.parameterHeadEnd? opening close = none := by
  have noArrow := headFree "=>" (by decide)
  have noColon := headFree ":" (by decide)
  have noBrace := headFree "\x7b" (by decide)
  simp [parameterHeadEnd?, noArrow, noColon, noBrace]

/-- A bracket pair that is no list of parameters is walked. -/
theorem step_of_closer? {walk : Walk} {opening close : Nat} {inside : Progress}
    (nested : stream.Nested) (walks : stream.WalksBehind opening walk)
    (closes : stream.closer? opening = some close) (headFree : stream.HeadFree (close + 1))
    (walked : stream.walkFrom (opening + 1) (opening + 1) (.upTo close) = .ok inside) :
    stream.step walk opening = .ok ⟨close + 1, inside.edits⟩ := by
  have within := walkInside_of_walkFrom walks closes walked
  have openings : ∀ pair ∈ bracketPairs, pair.1 = "(" ∨ pair.1 = "[" ∨ pair.1 = "\x7b" := by
    decide
  obtain ⟨mark, _, listed⟩ := nested.text_bracket closes
  unfold step
  rw [mark]
  dsimp only
  unfold punctuatorStep
  rcases openings _ listed with spelled | spelled | spelled
  · simp only at spelled
    rw [spelled]
    change stream.parenthesis walk opening = _
    simp only [parenthesis, closeOf_eq_ok_iff.mpr closes, bind, Except.bind,
      parameterHeadEnd?_eq_none headFree]
    exact within
  all_goals
    simp only at spelled
    rw [spelled]
    exact within

/-! ## Runs -/

theorem Plain.le (plain : stream.Plain enclosed index stop) : index ≤ stop := by
  induction plain with
  | nothing => exact Nat.le_refl _
  | token _ _ inductionHypothesis | comma _ _ inductionHypothesis =>
    exact Nat.le_of_succ_le inductionHypothesis
  | pair _ closes _ _ _ inductionHypothesis =>
    have := lt_of_closer?_eq_some closes
    omega

theorem IsPlainToken.headFree (placed : stream.Placed) (here : stream.IsPlainToken index) :
    stream.HeadFree index := by
  have marks : ∀ text ∈ ["=>", ":", "\x7b"], text ∉ plainMarks ∧ hasMark text = true := by
    decide
  intro text listed
  rw [Bool.eq_false_iff]
  intro found
  have listedMark := here.text_of_mark (placed.kind?_of_mark found (marks text listed).2)
  rw [(is_iff.mp found).2] at listedMark
  exact (marks text listed).1 listedMark

/-- What begins with plain code does not make a parenthesis before it a list of parameters. -/
theorem Plain.headFree (placed : stream.Placed) (plain : stream.Plain enclosed index stop)
    (behind : stream.HeadFree stop) : stream.HeadFree index := by
  cases plain with
  | nothing => exact behind
  | token here => exact here.headFree placed
  | comma here => exact headFree_of_is here (by decide)
  | pair opens =>
    rcases opens with parenthesis | bracket
    · exact headFree_of_is parenthesis (by decide)
    · exact headFree_of_is bracket (by decide)

/-- A walk that began at `first` does not end within a plain run up to `stop`. -/
structure Spares (stream : TokenStream) (ending : WalkEnd) (enclosed : Bool) (first stop : Nat) :
    Prop where
  within : stop ≤ ending.limit
  marks : ∀ text ∈ ending.stops, text ∈ [";", ")", "]", "\x7d"] ∨ text = "," ∧ enclosed = false
  lines : ∀ between, first < between → between < stop →
    stream.endsAtLine between ending.lineEnd = false

theorem spares_upTo {limit : Nat} (within : stop ≤ limit) :
    stream.Spares (.upTo limit) enclosed first stop where
  within := within
  marks := nofun
  lines _ _ _ := rfl

theorem Spares.endsBefore_eq {ending : WalkEnd} (spares : stream.Spares ending enclosed first stop)
    (before : index < stop)
    (spared : stream.kind? index = some .punctuator →
      stream.text index ∉ [";", ")", "]", "\x7d"] ∧ (stream.text index = "," → enclosed = true)) :
    stream.endsBefore first index ending = false := by
  have noMark : (stream.kind? index == some .punctuator && stream.textIn index ending.stops) =
      false := by
    rw [Bool.and_eq_false_imp]
    intro mark
    obtain ⟨other, comma⟩ := spared (beq_iff_eq.mp mark)
    rw [Bool.eq_false_iff]
    intro listed
    rcases spares.marks _ (List.contains_iff_mem.mp listed) with closer | ⟨separator, top⟩
    · exact other closer
    · exact absurd (comma separator) (by simp [top])
  have noLine : (decide (first < index) && stream.endsAtLine index ending.lineEnd) = false := by
    rw [Bool.and_eq_false_imp]
    exact fun after => spares.lines index (of_decide_eq_true after) before
  rw [endsBefore, noMark, noLine]
  rfl

/-- A walk passes plain code without an edit. -/
theorem walkFrom_of_plain (nested : stream.Nested) (placed : stream.Placed) {ending : WalkEnd}
    {rest : Progress} (plain : stream.Plain enclosed index stop) (headFree : stream.HeadFree stop)
    (spares : stream.Spares ending enclosed first stop)
    (following : stream.walkFrom first stop ending = .ok rest) :
    stream.walkFrom first index ending = .ok rest := by
  have apart : ∀ text ∈ plainMarks, text ∉ [";", ")", "]", "\x7d"] ∧ text ≠ "," := by
    decide
  have brackets : ∀ pair ∈ bracketPairs,
      (pair.1 ∉ [";", ")", "]", "\x7d"] ∧ pair.1 ≠ ",") ∧ pair.2 ∉ ["=>", ":", "\x7b"] := by
    decide
  induction plain generalizing first ending rest with
  | nothing => exact following
  | @token enclosed index stop here run inductionHypothesis =>
    have before : index < stop := run.le
    have goesOn := spares.endsBefore_eq before fun mark =>
      let listed := apart _ (here.text_of_mark mark)
      ⟨listed.1, fun comma => absurd comma listed.2⟩
    exact walkFrom_of_step (Nat.lt_of_lt_of_le before spares.within) here.lt_size goesOn
      (fun walk _ => here.step_eq walk) (Nat.lt_succ_self index)
      (inductionHypothesis headFree spares following)
  | @comma index stop here run inductionHypothesis =>
    have before : index < stop := run.le
    have spelled := (is_iff.mp here).2
    have goesOn := spares.endsBefore_eq before fun _ => ⟨spelled ▸ (by decide), fun _ => rfl⟩
    exact walkFrom_of_step (Nat.lt_of_lt_of_le before spares.within) (lt_size_of_is here) goesOn
      (fun walk _ => step_of_mark walk (placed.kind?_of_mark here (by decide)) spelled (by decide))
      (Nat.lt_succ_self index) (inductionHypothesis headFree spares following)
  | @pair enclosed opening close stop opens closes inside run walkedInside walkedRest =>
    have ordered := lt_of_closer?_eq_some closes
    have before : opening < stop := Nat.lt_of_lt_of_le (Nat.lt_succ_of_lt ordered) run.le
    obtain ⟨mark, closeMark, listed⟩ := nested.text_bracket closes
    have inner : stream.walkFrom (opening + 1) (opening + 1) (.upTo close) = .ok (.still close) :=
      walkedInside (headFree_of_is (is_of_mark closeMark rfl) (brackets _ listed).2)
        (spares_upTo (Nat.le_refl close)) (walkFrom_of_le (Nat.le_refl close))
    have goesOn := spares.endsBefore_eq before fun _ =>
      ⟨(brackets _ listed).1.1, fun comma => absurd comma (brackets _ listed).1.2⟩
    exact walkFrom_of_step (Nat.lt_of_lt_of_le before spares.within) (lt_size_of_kind? mark) goesOn
      (fun walk walks => step_of_closer? nested walks closes (run.headFree placed headFree) inner)
      (Nat.lt_succ_of_lt ordered) (walkedRest headFree spares following)

end TokenStream

end Playground

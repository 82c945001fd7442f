import Playground.Proofs.Erasure.Courses
import Playground.Proofs.Erasure.Juxtaposition

/-!
# What becomes of a mark

A mark that a walk passes is caught by one of its edits, and the edits found before that one begin
where the mark does or earlier (`Settles`). A few constructs are passed without a look at their
tokens; `StandsAside` lists these. Every walker of a construct is judged under the assumption that
the walk it is handed settles the mark (`Walk.Settles`).
-/

namespace Playground

/-- A token lies in the span that an edit drops or replaces. -/
def Edit.Covers (edit : Edit) (stream : TokenStream) (token : Nat) : Prop :=
  match edit with
  | .erase start stop | .replace start stop _ =>
    start ≤ stream.startOf token ∧ stream.stopOf token ≤ stop
  | .insert _ _ => False

namespace TokenStream

/-! ## Tokens that are not looked at -/

/-- The index after a part of a base class: type arguments, a bracket pair or a token. -/
def basePartEnd (stream : TokenStream) (index : Nat) : Nat :=
  match stream.baseArgumentsEnd? index with
  | some stop => stop
  | none => if stream.is index "(" || stream.is index "[" then stream.skip index else index + 1

/-- The parts of a base class that begins at `first` lead to an index. -/
inductive BaseReaches (stream : TokenStream) (first : Nat) : Nat → Prop where
  | here : BaseReaches stream first first
  | part {index} (reached : BaseReaches stream first index)
      (noBody : stream.is index "\x7b" = false) (noTypes : stream.is index "implements" = false) :
      BaseReaches stream first (stream.basePartEnd index)

/-- The constructs with tokens that a walk passes without a look. -/
inductive StandsAside (stream : TokenStream) (token : Nat) : Prop where
  /-- Outside of brackets in the base of a class. -/
  | base {keyword generics} (word : stream.IsKeyword keyword "class")
      (head : stream.optionalTypeParameters (stream.classNameEnd keyword) = .ok generics)
      (derived : stream.is generics "extends" = true)
      (reaches : stream.BaseReaches (generics + 1) token)
  /-- In the type parameters of a function without a parameter list. -/
  | generics {keyword opening} (word : stream.IsKeyword keyword "function")
      (head : stream.optionalTypeParameters (stream.functionNameEnd keyword) = .ok opening)
      (noList : stream.is opening "(" = false) (after : stream.functionNameEnd keyword ≤ token)
      (before : token < opening)
  /-- In the head of a catch clause. -/
  | binding {keyword close} (word : stream.IsKeyword keyword "catch")
      (closes : stream.closer? (keyword + 1) = some close) (after : keyword + 1 < token)
      (before : token < close)
  /-- In the clause of an import. -/
  | imported {keyword} (word : stream.IsKeyword keyword "import")
      (clause : stream.startsImportClause (keyword + 1) = true)
      (values : stream.isTypeImport (keyword + 1) = false) (after : keyword < token)
      (before : token < stream.moduleClauseEnd (keyword + 1))
  /-- Among the specifiers of an export. -/
  | exported {keyword close} (word : stream.IsKeyword keyword "export")
      (brace : stream.is (keyword + 1) "\x7b" = true)
      (closes : stream.closer? (keyword + 1) = some close) (after : keyword + 1 < token)
      (before : token < close)
  /-- In the body of an enumeration, whose initializers are written again. -/
  | initializer {keyword close} (word : stream.is keyword "enum" = true)
      (named : stream.isPlainWord (keyword + 1) = true)
      (closes : stream.closer? (keyword + 2) = some close) (after : keyword + 2 < token)
      (before : token < close)

/-- An exclamation mark behind a name on its line. -/
structure IsNonNullMark (stream : TokenStream) (mark : Nat) : Prop where
  positive : 0 < mark
  spelled : stream.is mark "!" = true
  sameLine : stream.newlineBefore mark = false
  operand : stream.kind? (mark - 1) = some .word
  named : stream.text (mark - 1) ∉ expressionKeywords

instance (stream : TokenStream) (mark : Nat) : Decidable (stream.IsNonNullMark mark) :=
  decidable_of_iff
    (0 < mark ∧ stream.is mark "!" = true ∧ stream.newlineBefore mark = false ∧
      stream.kind? (mark - 1) = some .word ∧ stream.text (mark - 1) ∉ expressionKeywords)
    ⟨fun ⟨positive, spelled, sameLine, operand, named⟩ =>
        ⟨positive, spelled, sameLine, operand, named⟩,
      fun ⟨positive, spelled, sameLine, operand, named⟩ =>
        ⟨positive, spelled, sameLine, operand, named⟩⟩

/-- A mark behind a name that the walk looks for. -/
structure Sought (stream : TokenStream) (mark : Nat) : Prop where
  nonNull : stream.IsNonNullMark mark
  follows : stream.followsNonNullMark (mark + 1) = true
  attended : ¬stream.StandsAside mark

/-! ## Edits that catch a mark -/

/-- Edits begin where a mark does or earlier. -/
def Early (stream : TokenStream) (mark : Nat) (edits : List Edit) : Prop :=
  ∀ edit ∈ edits, edit.start ≤ stream.startOf mark

/-- One of the edits covers the mark, and those before it begin where the mark does or earlier. -/
def Catches (stream : TokenStream) (mark : Nat) (edits : List Edit) : Prop :=
  ∃ before edit after, edits = before ++ edit :: after ∧ stream.Early mark before ∧
    edit.Covers stream mark

/-- What edits found between two indices do about a mark. -/
structure Settles (stream : TokenStream) (mark lower : Nat) (edits : List Edit) (upper : Nat) :
    Prop where
  clear : lower ≤ mark → stream.Catches mark edits ∨ stream.Early mark edits
  caught : lower ≤ mark → mark < upper → stream.Catches mark edits

end TokenStream

/-- A walk from an index behind `floor` settles a mark and comes to its limit. -/
structure Walk.Settles (walk : Walk) (stream : TokenStream) (mark floor : Nat) : Prop where
  settles : ∀ {next ending progress}, floor < next → walk next ending = .ok progress →
    stream.Settles mark next progress.edits progress.next
  reaches : ∀ {next limit progress}, floor < next → limit ≤ stream.size →
    walk next (.upTo limit) = .ok progress → limit ≤ progress.next
  advances : walk.Advances

namespace TokenStream

variable {stream : TokenStream} {mark index lower middle upper keyword floor : Nat}
  {edits first second : List Edit} {progress : Progress}

theorem early_nil : stream.Early mark [] := by
  simp [Early]

theorem early_single {edit : Edit} (begins : edit.start ≤ stream.startOf mark) :
    stream.Early mark [edit] := by
  simpa [Early] using begins

theorem Early.append (one : stream.Early mark first) (other : stream.Early mark second) :
    stream.Early mark (first ++ second) := by
  intro edit member
  exact (List.mem_append.mp member).elim (one edit) (other edit)

theorem Catches.append_right (catches : stream.Catches mark first) (second : List Edit) :
    stream.Catches mark (first ++ second) := by
  obtain ⟨before, edit, after, rfl, early, covers⟩ := catches
  exact ⟨before, edit, after ++ second, by simp, early, covers⟩

theorem Catches.append_left (early : stream.Early mark first)
    (catches : stream.Catches mark second) : stream.Catches mark (first ++ second) := by
  obtain ⟨before, edit, after, rfl, earlyBefore, covers⟩ := catches
  exact ⟨first ++ before, edit, after, by simp, early.append earlyBefore, covers⟩

theorem catches_single {edit : Edit} (covers : edit.Covers stream mark) :
    stream.Catches mark [edit] :=
  ⟨[], edit, [], rfl, early_nil, covers⟩

namespace Settles

/-- Nothing is found about tokens that are not the mark. -/
theorem nothing (other : lower ≤ mark → ¬mark < upper) : stream.Settles mark lower [] upper where
  clear _ := .inr early_nil
  caught after before := absurd before (other after)

theorem still (index : Nat) : stream.Settles mark index [] index :=
  nothing fun after before => Nat.not_lt_of_le after before

theorem append (one : stream.Settles mark lower first middle)
    (other : stream.Settles mark middle second upper) :
    stream.Settles mark lower (first ++ second) upper where
  clear after := by
    rcases one.clear after with caught | early
    · exact .inl (caught.append_right second)
    rcases Nat.lt_or_ge mark middle with inside | beyond
    · exact .inl ((one.caught after inside).append_right second)
    · exact (other.clear beyond).imp (.append_left early) early.append
  caught after before := by
    rcases Nat.lt_or_ge mark middle with inside | beyond
    · exact (one.caught after inside).append_right second
    · rcases one.clear after with caught | early
      · exact caught.append_right second
      · exact (other.caught beyond before).append_left early

/-- A token that is not the mark is passed. -/
theorem other (different : mark ≠ index) : stream.Settles mark index [] (index + 1) :=
  nothing fun after before => different (by omega)

/-- A token at which nothing is found is not the mark. -/
theorem mark_ne (one : stream.Settles mark index [] (index + 1)) : mark ≠ index := by
  rintro rfl
  obtain ⟨before, edit, after, shape, _⟩ := one.caught (Nat.le_refl mark) (Nat.lt_succ_self mark)
  simp at shape

/-- Fewer tokens are passed. -/
theorem to_upper {shorter : Nat} (one : stream.Settles mark lower edits upper)
    (within : shorter ≤ upper) : stream.Settles mark lower edits shorter where
  clear := one.clear
  caught after before := one.caught after (Nat.lt_of_lt_of_le before within)

/-- Other tokens are passed before the edits. -/
theorem after (passed : stream.Settles mark lower [] middle)
    (one : stream.Settles mark middle edits upper) : stream.Settles mark lower edits upper :=
  passed.append one

/-- Other tokens are passed behind the edits. -/
theorem before (one : stream.Settles mark lower edits middle)
    (passed : stream.Settles mark middle [] upper) : stream.Settles mark lower edits upper := by
  simpa using one.append passed

/-- One edit covers all that is passed. -/
theorem single {edit : Edit} (begins : lower ≤ mark → edit.start ≤ stream.startOf mark)
    (covers : lower ≤ mark → mark < upper → edit.Covers stream mark) :
    stream.Settles mark lower [edit] upper where
  clear after := .inr (early_single (begins after))
  caught after before := catches_single (covers after before)

end Settles

/-! ## Tokens that are not the mark -/

section Tokens

variable (sought : stream.Sought mark)

include sought

theorem Sought.kind? (placed : stream.Placed) : stream.kind? mark = some .punctuator :=
  placed.kind?_of_mark sought.nonNull.spelled (by decide)

/-- A token that is written in another way is not the mark. -/
theorem Sought.settles_token {text : String} (found : stream.is index text = true)
    (other : text ≠ "!") : stream.Settles mark index [] (index + 1) :=
  .other <| by
    rintro rfl
    exact other ((is_iff.mp found).2.symm.trans (is_iff.mp sought.nonNull.spelled).2)

/-- A token of another kind is not the mark. -/
theorem Sought.settles_kind (placed : stream.Placed) {kind : TokenKind}
    (found : stream.kind? index = some kind) (other : kind ≠ .punctuator) :
    stream.Settles mark index [] (index + 1) :=
  .other <| by
    rintro rfl
    exact other (Option.some.inj (found.symm.trans (sought.kind? placed)))

theorem Sought.settles_word (placed : stream.Placed) (found : stream.isPlainWord index = true) :
    stream.Settles mark index [] (index + 1) :=
  sought.settles_kind placed (kind?_of_isPlainWord found) (by decide)

theorem Sought.settles_textIn {texts : List String} (found : stream.textIn index texts = true)
    (other : "!" ∉ texts) : stream.Settles mark index [] (index + 1) :=
  .other <| by
    rintro rfl
    rw [textIn, (is_iff.mp sought.nonNull.spelled).2] at found
    exact other (List.contains_iff_mem.mp found)

/-- Both brackets of a pair are other tokens. -/
theorem Sought.settles_bracket (nested : stream.Nested) {opening close : Nat}
    (found : stream.closer? opening = some close) (bracket : index = opening ∨ index = close) :
    stream.Settles mark index [] (index + 1) :=
  .other <| by
    rintro rfl
    have spelled := (is_iff.mp sought.nonNull.spelled).2
    obtain ⟨_, _, listed⟩ := nested.text_bracket found
    have foreign : ∀ pair ∈ bracketPairs, pair.1 ≠ "!" ∧ pair.2 ≠ "!" := by
      decide
    rcases bracket with rfl | rfl
    · exact (foreign _ listed).1 spelled
    · exact (foreign _ listed).2 spelled

/-- Where the inside of brackets is settled, the whole of it is. -/
theorem Sought.settles_pair (nested : stream.Nested) {opening close : Nat}
    (closes : stream.closer? opening = some close)
    (inside : stream.Settles mark (opening + 1) edits close) :
    stream.Settles mark opening edits (close + 1) :=
  (sought.settles_bracket nested closes (.inl rfl)).after
    (inside.before (sought.settles_bracket nested closes (.inr rfl)))

/-- A mark that would stand aside within brackets is not within them. -/
theorem Sought.lt_of_aside (nested : stream.Nested) {opening close : Nat}
    (closes : stream.closer? opening = some close)
    (aside : opening < mark → mark < close → stream.StandsAside mark) (after : opening ≤ mark) :
    close < mark := by
  have notOpening := (sought.settles_bracket nested closes (.inl rfl)).mark_ne
  have notClose := (sought.settles_bracket nested closes (.inr rfl)).mark_ne
  by_contra before
  exact sought.attended (aside (by omega) (by omega))

end Tokens

/-! ## Single edits -/

section Erasures

variable (placed : stream.Placed)

include placed

theorem settles_attached (first stop : Nat) :
    stream.Settles mark first [stream.attached first stop] stop := by
  have begins : first ≤ mark → (stream.attached first stop).start ≤ stream.startOf mark := by
    intro after
    simp only [attached, Edit.start]
    split
    · exact placed.startOf_mono after
    · exact placed.stopOf_le_startOf (by omega)
  exact .single begins fun after before => ⟨begins after, placed.stopOf_mono (by omega)⟩

theorem settles_attachedIf (first stop : Nat) :
    stream.Settles mark first (stream.attachedIf first stop) stop := by
  unfold attachedIf
  split
  · exact settles_attached placed first stop
  · exact .nothing fun after before => by omega

theorem settles_whole (first stop : Nat) :
    stream.Settles mark first [stream.whole first stop] stop :=
  .single (fun after => placed.startOf_mono after) fun after before =>
    ⟨placed.startOf_mono after, placed.stopOf_mono (by omega)⟩

/-- An erasure up to the start of a token. -/
theorem settles_upTo (first stop : Nat) :
    stream.Settles mark first [.erase (stream.startOf first) (stream.startOf stop)] stop :=
  .single (fun after => placed.startOf_mono after) fun after before =>
    ⟨placed.startOf_mono after, placed.stopOf_le_startOf before⟩

theorem settles_single (index : Nat) :
    stream.Settles mark index [stream.single index] (index + 1) :=
  settles_whole placed index (index + 1)

theorem settles_declarationErased (keyword stop : Nat) :
    stream.Settles mark keyword [stream.declarationErased keyword stop] stop := by
  have earlier := stream.declarationStart_le keyword
  exact .single (fun after => placed.startOf_mono (Nat.le_trans earlier after))
    fun after before =>
      ⟨placed.startOf_mono (Nat.le_trans earlier after), placed.stopOf_mono (by omega)⟩

/-- Modifiers that are erased stand before the mark or behind it. -/
theorem settles_modifiers {first stop : Nat} (others : first ≤ mark → ¬mark < stop)
    (erased : ∀ edit ∈ edits, ∃ index < stop, edit = stream.leading index) :
    stream.Settles mark first edits stop where
  clear after := .inr fun edit member => by
    obtain ⟨index, before, rfl⟩ := erased edit member
    have beyond := others after
    exact placed.startOf_mono (by omega)
  caught after before := absurd before (others after)

end Erasures

end TokenStream

end Playground

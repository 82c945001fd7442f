import Playground.Proofs.Erasure.Typed.Parts

/-!
# Specifiers of types

A module of imports, exports and plain statements loses the specifiers that name types only, each up
to the specifier behind it or to the closing brace, and nothing else (`eraseTypes_of_module`). The
word `type` marks such a specifier only where another name than `as` follows it.
-/

namespace Playground

namespace TokenStream

/-- A specifier up to an index, and whether it names a type only. -/
inductive IsSpecifier (stream : TokenStream) (first : Nat) : Bool → Nat → Prop where
  | name (named : stream.isPlainWord first = true) : IsSpecifier stream first false (first + 1)
  | renamed (named : stream.isPlainWord first = true) (preposition : stream.is (first + 1) "as" = true)
      (other : stream.isPlainWord (first + 2) = true) : IsSpecifier stream first false (first + 3)
  | typeName (marked : stream.is first "type" = true)
      (named : stream.isPlainWord (first + 1) = true) (proper : stream.is (first + 1) "as" = false) :
      IsSpecifier stream first true (first + 2)
  | typeRenamed (marked : stream.is first "type" = true)
      (named : stream.isPlainWord (first + 1) = true) (proper : stream.is (first + 1) "as" = false)
      (preposition : stream.is (first + 2) "as" = true)
      (other : stream.isPlainWord (first + 3) = true) : IsSpecifier stream first true (first + 4)

/-- What is lost of a specifier: all of it, up to the start of what follows, if it names a type
only. -/
def specifierStretches (stream : TokenStream) (typeOnly : Bool) (first after : Nat) : List Stretch :=
  if typeOnly then [⟨stream.startOf first, stream.startOf after⟩] else []

/-- Specifiers with commas between them up to a closing brace; another comma may follow them. -/
inductive AreSpecifiers (stream : TokenStream) (close : Nat) : Nat → List Stretch → Prop where
  | nothing : AreSpecifiers stream close close []
  | comma {index} (found : stream.is index "," = true) (ends : index + 1 = close) :
      AreSpecifiers stream close index []
  | last {first typeOnly} (one : stream.IsSpecifier first typeOnly close) :
      AreSpecifiers stream close first (stream.specifierStretches typeOnly first close)
  | more {first typeOnly comma others} (one : stream.IsSpecifier first typeOnly comma)
      (separator : stream.is comma "," = true) (rest : AreSpecifiers stream close (comma + 1) others) :
      AreSpecifiers stream close first (stream.specifierStretches typeOnly first (comma + 1) ++ others)

/-- Specifiers in braces. -/
structure BracedSpecifiers (stream : TokenStream) (opening close : Nat) (dropped : List Stretch) :
    Prop where
  opens : stream.is opening "\x7b" = true
  closes : stream.closer? opening = some close
  specifiers : stream.AreSpecifiers close (opening + 1) dropped

/-- What stands between the keyword of an import and its braces: a default name, or nothing. -/
inductive ImportHead (stream : TokenStream) (keyword : Nat) : Nat → Prop where
  | bare : ImportHead stream keyword (keyword + 1)
  | default (named : stream.isPlainWord (keyword + 1) = true)
      (comma : stream.is (keyword + 2) "," = true) : ImportHead stream keyword (keyword + 3)

/-- An import or an export of names, from its keyword up to behind its semicolon. -/
inductive ModuleClause (stream : TokenStream) (keyword : Nat) : Nat → List Stretch → Prop where
  | imported {opening close dropped} (begins : stream.is keyword "import" = true)
      (head : stream.ImportHead keyword opening) (list : stream.BracedSpecifiers opening close dropped)
      (preposition : stream.is (close + 1) "from" = true)
      (source : stream.kind? (close + 2) = some .string) (ends : stream.is (close + 3) ";" = true) :
      ModuleClause stream keyword (close + 4) dropped
  | exported {close dropped} (begins : stream.is keyword "export" = true)
      (list : stream.BracedSpecifiers (keyword + 1) close dropped)
      (ends : stream.is (close + 1) ";" = true) : ModuleClause stream keyword (close + 2) dropped

/-- Imports, exports and plain statements, each ended by a semicolon. -/
inductive IsModule (stream : TokenStream) : Nat → Nat → List Stretch → Prop where
  | nothing {index} : IsModule stream index index []
  | clause {keyword next stop dropped others} (one : stream.ModuleClause keyword next dropped)
      (rest : IsModule stream next stop others) : IsModule stream keyword stop (dropped ++ others)
  | statement {first semicolon stop dropped} (plain : stream.Plain false first semicolon)
      (ends : stream.is semicolon ";" = true) (rest : IsModule stream (semicolon + 1) stop dropped) :
      IsModule stream first stop dropped

variable {stream : TokenStream} {first index stop opening close keyword : Nat} {typeOnly : Bool}
  {dropped : List Stretch}

/-! ## One specifier -/

theorem IsSpecifier.lt (one : stream.IsSpecifier first typeOnly stop) : first < stop := by
  cases one <;> omega

/-- A specifier is made of words. -/
theorem IsSpecifier.kind?_eq (placed : stream.Placed)
    (one : stream.IsSpecifier first typeOnly stop) {between : Nat} (after : first ≤ between)
    (before : between < stop) : stream.kind? between = some .word := by
  have word : ∀ {index text}, stream.is index text = true → text ∈ ["as", "type"] →
      stream.kind? index = some .word := by
    have begin : ∀ text ∈ ["as", "type"], text.toList.head?.any startsWord = true := by
      decide
    intro index text found listed
    exact placed.kind?_of_start ((is_iff.mp found).2 ▸ begin text listed)
  obtain ⟨distance, rfl⟩ := Nat.exists_eq_add_of_le after
  cases one with
  | name named =>
    obtain rfl : distance = 0 := by omega
    exact kind?_of_isPlainWord named
  | renamed named preposition other =>
    obtain rfl | rfl | rfl : distance = 0 ∨ distance = 1 ∨ distance = 2 := by omega
    · exact kind?_of_isPlainWord named
    · exact word preposition (by decide)
    · exact kind?_of_isPlainWord other
  | typeName marked named =>
    obtain rfl | rfl : distance = 0 ∨ distance = 1 := by omega
    · exact word marked (by decide)
    · exact kind?_of_isPlainWord named
  | typeRenamed marked named _ preposition other =>
    obtain rfl | rfl | rfl | rfl : distance = 0 ∨ distance = 1 ∨ distance = 2 ∨ distance = 3 := by
      omega
    · exact word marked (by decide)
    · exact kind?_of_isPlainWord named
    · exact word preposition (by decide)
    · exact kind?_of_isPlainWord other

/-- A specifier is seen to name a type only exactly when it does: behind the word `type` alone no
word follows. -/
theorem IsSpecifier.isTypeSpecifier_eq (placed : stream.Placed)
    (one : stream.IsSpecifier first typeOnly stop) {mark : String}
    (behind : stream.is stop mark = true) (foreign : hasMark mark = true) :
    stream.isTypeSpecifier first = typeOnly := by
  cases one with
  | name =>
    have noWord := placed.isPlainWord_eq_false behind foreign
    simp [isTypeSpecifier, noWord]
  | renamed _ preposition => simp [isTypeSpecifier, preposition]
  | typeName marked named proper | typeRenamed marked named proper =>
    simp [isTypeSpecifier, marked, named, proper]

/-- A specifier ends at its comma or at the closing brace. -/
theorem IsSpecifier.specifierEnd_eq (placed : stream.Placed)
    (one : stream.IsSpecifier first typeOnly stop) (within : stop ≤ close)
    (ended : stop = close ∨ stream.is stop "," = true) : stream.specifierEnd first close = stop := by
  refine runEnd_eq (Nat.le_of_lt one.lt) (fun between after before => ?_) within (ended.imp_right ?_)
  · have noComma := placed.is_eq_false_of_word (one.kind?_eq placed after before)
      (by decide : hasMark "," = true)
    simp [noComma]
  · intro comma
    simp [comma]

/-! ## Lists of specifiers -/

theorem AreSpecifiers.le (specifiers : stream.AreSpecifiers close index dropped) : index ≤ close := by
  induction specifiers with
  | nothing => exact Nat.le_refl close
  | comma _ ends => exact ends ▸ Nat.le_succ _
  | last one => exact Nat.le_of_lt one.lt
  | more one _ _ inductionHypothesis =>
    have := one.lt
    omega

/-- A specifier is dropped with the comma behind it, if it names a type only. -/
theorem IsSpecifier.erasedSpecifiersFrom_eq (placed : stream.Placed)
    (one : stream.IsSpecifier first typeOnly stop) (within : stop ≤ close)
    (closes : stream.is close "\x7d" = true)
    (ended : stop = close ∨ stream.is stop "," = true) :
    stream.erasedSpecifiersFrom first close =
      erasures (stream.specifierStretches typeOnly first
          (if stream.is stop "," then stop + 1 else stop)) ++
        stream.erasedSpecifiersFrom (stop + 1) close := by
  have seen : stream.isTypeSpecifier first = typeOnly := by
    rcases ended with rfl | comma
    · exact one.isTypeSpecifier_eq placed closes (by decide)
    · exact one.isTypeSpecifier_eq placed comma (by decide)
  rw [erasedSpecifiersFrom, dif_pos (Nat.lt_of_lt_of_le one.lt within)]
  simp only [one.specifierEnd_eq placed within ended, seen, specifierStretches]
  cases typeOnly <;> rfl

/-- From a list of specifiers exactly those are dropped that name types only. -/
theorem AreSpecifiers.erasedSpecifiersFrom_eq (placed : stream.Placed)
    (specifiers : stream.AreSpecifiers close index dropped)
    (closes : stream.is close "\x7d" = true) :
    stream.erasedSpecifiersFrom index close = erasures dropped := by
  have past : ∀ {index}, close ≤ index → stream.erasedSpecifiersFrom index close = [] := by
    intro index behind
    rw [erasedSpecifiersFrom, dif_neg (Nat.not_lt_of_le behind)]
  induction specifiers with
  | nothing => exact past (Nat.le_refl close)
  | @comma index found ends =>
    have unnamed : stream.isTypeSpecifier index = false := by
      have noType : stream.is index "type" = false := is_eq_false_of_is found (by decide)
      simp [isTypeSpecifier, noType]
    have ended : stream.specifierEnd index close = index :=
      runEnd_eq (Nat.le_refl index) (fun _ after before => absurd before (Nat.not_lt_of_le after))
        (by omega) (.inr (by simp [found]))
    rw [erasedSpecifiersFrom, dif_pos (by omega)]
    simp [ended, unnamed, past (Nat.le_of_eq ends.symm)]
  | last one =>
    have noComma : stream.is close "," = false := is_eq_false_of_is closes (by decide)
    rw [one.erasedSpecifiersFrom_eq placed (Nat.le_refl close) closes (.inl rfl), noComma,
      if_neg Bool.false_ne_true, past (Nat.le_succ close), List.append_nil]
  | more one separator rest inductionHypothesis =>
    rw [one.erasedSpecifiersFrom_eq placed (Nat.le_of_succ_le rest.le) closes (.inr separator),
      if_pos separator, inductionHypothesis, erasures_append]

theorem AreSpecifiers.laid (placed : stream.Placed)
    (specifiers : stream.AreSpecifiers close index dropped) (inside : close ≤ stream.size) :
    Laid (stream.startOf index) dropped (stream.startOf close) := by
  have stretch : ∀ {first stop after typeOnly}, stream.IsSpecifier first typeOnly stop →
      stop ≤ after → after ≤ close →
        Laid (stream.startOf first) (stream.specifierStretches typeOnly first after)
          (stream.startOf after) := by
    intro first stop after typeOnly one passes within
    have forward := Nat.lt_of_lt_of_le one.lt passes
    have nonempty : stream.startOf first < stream.startOf after :=
      Nat.lt_of_lt_of_le (placed.startOf_lt_stopOf (by omega)) (placed.stopOf_le_startOf forward)
    cases typeOnly with
    | false => exact .nothing (Nat.le_of_lt nonempty)
    | true => exact .single (Nat.le_refl _) nonempty (Nat.le_refl _)
  induction specifiers with
  | nothing => exact .nothing (Nat.le_refl _)
  | comma _ ends => exact .nothing (placed.startOf_mono (by omega))
  | last one => exact stretch one (Nat.le_refl close) (Nat.le_refl close)
  | @more _ _ comma _ one _ rest inductionHypothesis =>
    exact (stretch one (Nat.le_succ comma) rest.le).append inductionHypothesis

/-- Each of the dropped specifiers stands behind a brace or a comma. -/
theorem AreSpecifiers.afterNoWord {source : List Char} (read : ofSource source = .ok stream)
    (specifiers : stream.AreSpecifiers close (index + 1) dropped) {mark : String}
    (listed : mark ∈ ["\x7b", ","]) (before : stream.is index mark = true) :
    ∀ stretch ∈ dropped, stretch.AfterNoWord stream.source := by
  have marks : ∀ mark ∈ ["\x7b", ","], mark.toList.getLast?.any isWordCharacter = false := by
    decide +kernel
  have apart : ∀ {first stop after typeOnly mark}, stream.IsSpecifier (first + 1) typeOnly stop →
      mark ∈ ["\x7b", ","] → stream.is first mark = true →
        ∀ stretch ∈ stream.specifierStretches typeOnly (first + 1) after,
          stretch.AfterNoWord stream.source := by
    intro first stop after typeOnly mark one listed before
    cases one with
    | name | renamed => exact nofun
    | typeName marked | typeRenamed marked =>
      exact List.forall_mem_singleton.mpr
        (afterNoWord_of_mark read before (marks mark listed) marked (by decide) _)
  generalize behind : index + 1 = start at specifiers
  induction specifiers generalizing index mark with
  | nothing | comma => exact nofun
  | last one =>
    subst behind
    exact apart one listed before
  | more one separator _ inductionHypothesis =>
    subst behind
    exact List.forall_mem_append.mpr
      ⟨apart one listed before, inductionHypothesis (by decide) separator rfl⟩

/-! ## Clauses -/

section Clauses

variable (nested : stream.Nested) (placed : stream.Placed)

include nested

theorem BracedSpecifiers.isClose (list : stream.BracedSpecifiers opening close dropped) :
    stream.is close "\x7d" = true :=
  nested.is_close list.closes list.opens (by decide)

include placed

/-- The first braces of a clause are those of its specifiers. -/
theorem BracedSpecifiers.erasedSpecifiers_eq (list : stream.BracedSpecifiers opening close dropped)
    (after : first ≤ opening) (before : opening < stop)
    (others : ∀ between, first ≤ between → between < opening → stream.is between "\x7b" = false) :
    stream.erasedSpecifiers first stop = .ok (erasures dropped) := by
  have braces : stream.firstBrace? first stop = some opening := by
    rw [firstBrace?, List.find?_range'_eq_some]
    refine ⟨list.opens, List.mem_range'_1.mpr (by omega), fun between after before => ?_⟩
    simp [others between after before]
  rw [erasedSpecifiers, braces]
  dsimp only
  rw [closeOf_eq_ok_iff.mpr list.closes]
  exact congrArg Except.ok (list.specifiers.erasedSpecifiersFrom_eq placed (list.isClose nested))

omit nested in
/-- What stands in front of the braces of an import is no brace and no string. -/
theorem ImportHead.neutral (head : stream.ImportHead keyword opening) {between : Nat}
    (after : keyword < between) (before : between < opening) :
    stream.IsNeutral between ∧ stream.is between "\x7b" = false ∧
      (stream.kind? between == some .string) = false := by
  cases head with
  | bare => omega
  | default named comma =>
    obtain rfl | rfl : between = keyword + 1 ∨ between = keyword + 2 := by omega
    · have word := kind?_of_isPlainWord named
      exact ⟨isNeutral_of_isPlainWord named, placed.is_eq_false_of_word word (by decide),
        by simp [word]⟩
    · have mark := placed.kind?_of_mark comma (by decide)
      exact ⟨isNeutral_of_is comma (by decide), is_eq_false_of_is comma (by decide), by simp [mark]⟩

omit nested placed in
theorem ImportHead.lt (head : stream.ImportHead keyword opening) : keyword < opening := by
  cases head <;> omega

/-- An import goes up to the semicolon behind its module. -/
theorem ImportHead.moduleClauseEnd_eq (head : stream.ImportHead keyword opening)
    (list : stream.BracedSpecifiers opening close dropped)
    (preposition : stream.is (close + 1) "from" = true)
    (source : stream.kind? (close + 2) = some .string) (ends : stream.is (close + 3) ";" = true) :
    stream.moduleClauseEnd (keyword + 1) = close + 4 := by
  let isModule := fun index => stream.kind? index == some .string
  have inside := lt_size_of_is ends
  have ordered := lt_of_closer?_eq_some list.closes
  have brace : isModule opening = false := by
    simp [isModule, (nested.text_bracket list.closes).1]
  have word : isModule (close + 1) = false := by
    have kind : stream.kind? (close + 1) = some .word :=
      placed.kind?_of_start ((is_iff.mp preposition).2 ▸ by decide)
    simp [isModule, kind]
  have fromBraces : stream.seek isModule stream.size opening = close + 2 := by
    rw [seek_eq_seek_skip (lt_size_of_is list.opens) brace, skip_eq_of_closer? list.closes,
      seek_eq_seek_skip (by omega) word,
      skip_eq_of_isNeutral nested (isNeutral_of_is preposition (by decide)),
      seek_eq_self (by simp [isModule, source])]
  have found : stream.seek isModule stream.size (keyword + 1) = close + 2 := by
    have passes : ∀ between, keyword < between → between < opening →
        stream.seek isModule stream.size between =
          stream.seek isModule stream.size (between + 1) := by
      intro between after before
      obtain ⟨neutral, -, other⟩ := head.neutral placed after before
      rw [seek_eq_seek_skip (by omega) other, skip_eq_of_isNeutral nested neutral]
    cases head with
    | bare => exact fromBraces
    | default => rw [passes _ (by omega) (by omega), passes _ (by omega) (by omega), fromBraces]
  unfold moduleClauseEnd
  simp only [isModule] at found
  simp only [found]
  rw [if_pos (by omega), afterSemicolon, if_pos ends]

/-- A step on an import drops its specifiers of types. -/
theorem ImportHead.importDeclaration_eq (head : stream.ImportHead keyword opening)
    (list : stream.BracedSpecifiers opening close dropped)
    (preposition : stream.is (close + 1) "from" = true)
    (source : stream.kind? (close + 2) = some .string) (ends : stream.is (close + 3) ";" = true) :
    stream.importDeclaration keyword = .ok ⟨close + 4, erasures dropped⟩ := by
  have starts : stream.startsImportClause (keyword + 1) = true := by
    cases head with
    | bare => simp [startsImportClause, list.opens]
    | default named => simp [startsImportClause, named]
  have notWhole : stream.isTypeImport (keyword + 1) = false := by
    cases head with
    | bare =>
      have noType : stream.is (keyword + 1) "type" = false :=
        is_eq_false_of_is list.opens (by decide)
      simp [isTypeImport, noType]
    | default named comma =>
      have noBrace : stream.is (keyword + 2) "\x7b" = false := is_eq_false_of_is comma (by decide)
      have noStar : stream.is (keyword + 2) "*" = false := is_eq_false_of_is comma (by decide)
      have noWord := placed.isPlainWord_eq_false comma (by decide)
      simp [isTypeImport, noBrace, noStar, noWord]
  have reached := head.moduleClauseEnd_eq nested placed list preposition source ends
  have ordered := lt_of_closer?_eq_some list.closes
  have erased : stream.erasedSpecifiers (keyword + 1) (close + 4) = .ok (erasures dropped) :=
    list.erasedSpecifiers_eq nested placed head.lt (by omega)
      fun between after before => (head.neutral placed after before).2.1
  unfold importDeclaration
  simp only [starts, if_true, notWhole, reached, erased]
  rfl

/-- A step on an export drops its specifiers of types. -/
theorem BracedSpecifiers.exportDeclaration_eq
    (list : stream.BracedSpecifiers (keyword + 1) close dropped) :
    stream.exportDeclaration keyword = .ok ⟨close + 1, erasures dropped⟩ := by
  have noType : stream.is (keyword + 1) "type" = false := is_eq_false_of_is list.opens (by decide)
  have noAlias : stream.is (keyword + 1) "as" = false := is_eq_false_of_is list.opens (by decide)
  have erased : stream.erasedSpecifiers (keyword + 1) (close + 1) = .ok (erasures dropped) :=
    list.erasedSpecifiers_eq nested placed (Nat.le_refl (keyword + 1))
      (Nat.lt_succ_of_lt (lt_of_closer?_eq_some list.closes))
      fun between after before => absurd before (Nat.not_lt_of_le after)
  unfold exportDeclaration
  simp only [noType, noAlias, list.opens, Bool.false_and, if_true,
    closeOf_eq_ok_iff.mpr list.closes]
  change (stream.erasedSpecifiers (keyword + 1) (close + 1) >>= _) = _
  rw [erased]
  rfl

/-- A walk passes a clause and erases its specifiers of types. -/
theorem ModuleClause.walkFrom_eq (clause : stream.ModuleClause keyword stop dropped)
    (starts : keyword = 0 ∨ stream.is (keyword - 1) ";" = true) {rest : Progress}
    (following : stream.walkFrom first stop (.upTo stream.size) = .ok rest) :
    stream.walkFrom first keyword (.upTo stream.size) = .ok (rest.preceded (erasures dropped)) := by
  have notProperty : stream.isPropertyName keyword = false :=
    isPropertyName_eq_false (starts.imp_right fun found => ⟨";", found, by decide⟩)
  cases clause with
  | @imported opening close _ begins head list preposition source ends =>
    have stepped (walk : Walk) : stream.step walk keyword = .ok ⟨close + 4, erasures dropped⟩ := by
      rw [placed.step_of_keyword walk begins (by decide), wordStep, notProperty,
        if_neg Bool.false_ne_true, (is_iff.mp begins).2]
      exact head.importDeclaration_eq nested placed list preposition source ends
    have forward := head.lt
    have ordered := lt_of_closer?_eq_some list.closes
    exact walkFrom_of_step (lt_size_of_is begins) (lt_size_of_is begins) (endsBefore_upTo ..)
      (fun walk _ => stepped walk) (by dsimp only; omega) following
  | @exported close _ begins list ends =>
    have stepped (walk : Walk) : stream.step walk keyword = .ok ⟨close + 1, erasures dropped⟩ := by
      rw [placed.step_of_keyword walk begins (by decide), wordStep, notProperty,
        if_neg Bool.false_ne_true, (is_iff.mp begins).2]
      exact list.exportDeclaration_eq nested placed
    have ordered := lt_of_closer?_eq_some list.closes
    exact walkFrom_of_step (lt_size_of_is begins) (lt_size_of_is begins) (endsBefore_upTo ..)
      (fun walk _ => stepped walk) (by dsimp only; omega)
      (walkFrom_of_semicolon placed ends (lt_size_of_is ends) following)

omit nested in
theorem ModuleClause.laid (clause : stream.ModuleClause keyword stop dropped) :
    Laid (stream.startOf keyword) dropped (stream.startOf stop) := by
  have within : ∀ {opening close}, stream.BracedSpecifiers opening close dropped →
      keyword < opening → close < stop → stop ≤ stream.size →
        Laid (stream.startOf keyword) dropped (stream.startOf stop) := by
    intro opening close list after before inside
    exact ((list.specifiers.laid placed (by omega)).from_lower (placed.startOf_mono (by omega))).to_upper
      (placed.startOf_mono (Nat.le_of_lt before))
  cases clause with
  | imported _ head list _ _ ends => exact within list head.lt (by omega) (lt_size_of_is ends)
  | exported _ list ends =>
    exact within list (Nat.lt_succ_self keyword) (by omega) (lt_size_of_is ends)

end Clauses

theorem ModuleClause.afterNoWord {source : List Char} (read : ofSource source = .ok stream)
    (clause : stream.ModuleClause keyword stop dropped) :
    ∀ stretch ∈ dropped, stretch.AfterNoWord stream.source := by
  cases clause with
  | imported _ _ list | exported _ list =>
    exact list.specifiers.afterNoWord read (by decide) list.opens

theorem ModuleClause.ends (clause : stream.ModuleClause keyword stop dropped) :
    stream.is (stop - 1) ";" = true := by
  cases clause with
  | imported _ _ _ _ _ ends | exported _ _ ends => exact ends

/-! ## Modules -/

section Modules

variable (nested : stream.Nested) (placed : stream.Placed)

include placed

theorem IsModule.laid (program : stream.IsModule index stop dropped) :
    Laid (stream.startOf index) dropped (stream.startOf stop) := by
  induction program with
  | nothing => exact .nothing (Nat.le_refl _)
  | clause one _ inductionHypothesis => exact (one.laid placed).append inductionHypothesis
  | statement plain _ _ inductionHypothesis =>
    exact inductionHypothesis.from_lower (placed.startOf_mono (Nat.le_succ_of_le plain.le))

include nested

/-- A walk passes a module and erases its specifiers of types. -/
theorem IsModule.walkFrom_eq (program : stream.IsModule index stop dropped)
    (starts : index = 0 ∨ stream.is (index - 1) ";" = true) {rest : Progress}
    (following : stream.walkFrom first stop (.upTo stream.size) = .ok rest) :
    stream.walkFrom first index (.upTo stream.size) = .ok (rest.preceded (erasures dropped)) := by
  induction program with
  | nothing => exact following
  | clause one _ inductionHypothesis =>
    have behind := inductionHypothesis (.inr one.ends) following
    rw [one.walkFrom_eq nested placed starts behind, preceded_preceded, erasures_append]
  | statement plain ends _ inductionHypothesis =>
    have behind := inductionHypothesis (.inr ends) following
    have inside := lt_size_of_is ends
    exact walkFrom_of_plain nested placed plain (headFree_of_is ends (by decide))
      (spares_upTo (Nat.le_of_lt inside)) (walkFrom_of_semicolon placed ends inside behind)

end Modules

theorem IsModule.afterNoWord {source : List Char} (read : ofSource source = .ok stream)
    (program : stream.IsModule index stop dropped) :
    ∀ stretch ∈ dropped, stretch.AfterNoWord stream.source := by
  induction program with
  | nothing => exact nofun
  | clause one _ inductionHypothesis =>
    exact List.forall_mem_append.mpr ⟨one.afterNoWord read, inductionHypothesis⟩
  | statement _ _ _ inductionHypothesis => exact inductionHypothesis

end TokenStream

open TokenStream

/-- A module of imports, exports and plain statements loses exactly its specifiers of types, up to
their line breaks. -/
theorem eraseTypes_of_module {source : String} {stream : TokenStream} {dropped : List Stretch}
    (read : ofSource source.toList = .ok stream) (program : stream.IsModule 0 stream.size dropped) :
    eraseTypes source = .ok (String.ofList (linesWithout stream.source 0 dropped)) := by
  have nested := nested_of_ofSource read
  have placed := placed_of_ofSource read
  have walked : stream.walkFrom 0 0 (.upTo stream.size) = _ :=
    program.walkFrom_eq nested placed (.inl rfl) (walkFrom_of_le (Nat.le_refl stream.size))
  rw [preceded_still] at walked
  have laid := (program.laid placed).from_lower (Nat.zero_le _)
  rw [eraseTypes_of_erasures read walked laid,
    textWithout_eq_of_afterNoWord (program.afterNoWord read) rfl, List.nil_append]

/-- Specifiers of types one after another and in last place, and the names `type` and `f`. -/
theorem eraseTypes_of_threeClauses : ∃ stream dropped,
    ofSource ("import d, \x7b a, type B,\ntype C as E, type, type as f \x7d from \"m\";\nf(a, 1);\n" ++
        "export \x7b a as b, type H, \x7d;\nimport \x7btype G\x7d from \"n\";").toList = .ok stream ∧
      stream.IsModule 0 stream.size dropped ∧
      eraseTypes ("import d, \x7b a, type B,\ntype C as E, type, type as f \x7d from \"m\";\nf(a, 1);\n" ++
        "export \x7b a as b, type H, \x7d;\nimport \x7btype G\x7d from \"n\";") =
        .ok ("import d, \x7b a, \ntype, type as f \x7d from \"m\";\nf(a, 1);\n" ++
          "export \x7b a as b, \x7d;\nimport \x7b\x7d from \"n\";") := by
  have facts : ((ofSource ("import d, \x7b a, type B,\ntype C as E, type, type as f \x7d from \"m\";\nf(a, 1);\n" ++
        "export \x7b a as b, type H, \x7d;\nimport \x7btype G\x7d from \"n\";").toList).toOption.any
      fun stream => decide
        ((∀ token : Nat × String, token ∈ [(0, "import"), (2, ","), (3, "\x7b"), (5, ","), (6, "type"),
            (8, ","), (9, "type"), (11, "as"), (13, ","), (15, ","), (17, "as"), (20, "from"),
            (22, ";"), (24, "("), (26, ","), (29, ";"), (30, "export"), (31, "\x7b"), (33, "as"),
            (35, ","), (36, "type"), (38, ","), (40, ";"), (41, "import"), (42, "\x7b"), (43, "type"),
            (46, "from"), (48, ";")] → stream.is token.1 token.2 = true) ∧
          (∀ index : Nat, index ∈ [1, 4, 7, 10, 12, 14, 16, 18, 32, 34, 37, 44] →
            stream.isPlainWord index = true) ∧
          (∀ index : Nat, index ∈ [7, 10, 37, 44] → stream.is index "as" = false) ∧
          (∀ pair : Nat × Nat, pair ∈ [(3, 19), (24, 28), (31, 39), (42, 45)] →
            stream.closer? pair.1 = some pair.2) ∧
          (∀ index : Nat, index ∈ [23, 25, 27] → stream.IsPlainToken index) ∧
          (stream.kind? 21 = some .string ∧ stream.kind? 47 = some .string ∧ stream.size = 49) ∧
          String.ofList (linesWithout stream.source 0
            [⟨stream.startOf 6, stream.startOf 9⟩, ⟨stream.startOf 9, stream.startOf 14⟩,
              ⟨stream.startOf 36, stream.startOf 39⟩, ⟨stream.startOf 43, stream.startOf 45⟩]) =
            "import d, \x7b a, \ntype, type as f \x7d from \"m\";\nf(a, 1);\n" ++
          "export \x7b a as b, \x7d;\nimport \x7b\x7d from \"n\";")) = true := by
    decide +kernel
  obtain ⟨stream, read, tokens, names, proper, closes, plain, ⟨source, other, size⟩, text⟩ :=
    exists_ok_of_any _ facts
  have written : ∀ {index text}, (index, text) ∈ [(0, "import"), (2, ","), (3, "\x7b"), (5, ","),
      (6, "type"), (8, ","), (9, "type"), (11, "as"), (13, ","), (15, ","), (17, "as"), (20, "from"),
      (22, ";"), (24, "("), (26, ","), (29, ";"), (30, "export"), (31, "\x7b"), (33, "as"),
      (35, ","), (36, "type"), (38, ","), (40, ";"), (41, "import"), (42, "\x7b"), (43, "type"),
      (46, "from"), (48, ";")] → stream.is index text = true :=
    fun listed => tokens _ listed
  have first : stream.AreSpecifiers 19 4 _ :=
    .more (.name (names 4 (by decide))) (written (by decide))
      (.more (.typeName (written (by decide)) (names 7 (by decide)) (proper 7 (by decide)))
        (written (by decide))
        (.more (.typeRenamed (written (by decide)) (names 10 (by decide)) (proper 10 (by decide))
          (written (by decide)) (names 12 (by decide))) (written (by decide))
          (.more (.name (names 14 (by decide))) (written (by decide))
            (.last (.renamed (names 16 (by decide)) (written (by decide)) (names 18 (by decide)))))))
  have second : stream.AreSpecifiers 39 32 _ :=
    .more (.renamed (names 32 (by decide)) (written (by decide)) (names 34 (by decide)))
      (written (by decide))
      (.more (.typeName (written (by decide)) (names 37 (by decide)) (proper 37 (by decide)))
        (written (by decide)) .nothing)
  have third : stream.AreSpecifiers 45 43 _ :=
    .last (.typeName (written (by decide)) (names 44 (by decide)) (proper 44 (by decide)))
  have call : stream.Plain false 23 29 :=
    .token (plain 23 (by decide)) (.pair (.inl (written (by decide))) (closes (24, 28) (by decide))
      (.token (plain 25 (by decide)) (.comma (written (by decide))
        (.token (plain 27 (by decide)) .nothing))) .nothing)
  have program : stream.IsModule 0 49 _ :=
    .clause (.imported (written (by decide)) (.default (names 1 (by decide)) (written (by decide)))
        ⟨written (by decide), closes (3, 19) (by decide), first⟩ (written (by decide)) source
        (written (by decide)))
      (.statement call (written (by decide))
        (.clause (.exported (written (by decide))
            ⟨written (by decide), closes (31, 39) (by decide), second⟩ (written (by decide)))
          (.clause (.imported (written (by decide)) .bare
              ⟨written (by decide), closes (42, 45) (by decide), third⟩ (written (by decide)) other
              (written (by decide))) .nothing)))
  have whole : stream.IsModule 0 stream.size
      [⟨stream.startOf 6, stream.startOf 9⟩, ⟨stream.startOf 9, stream.startOf 14⟩,
        ⟨stream.startOf 36, stream.startOf 39⟩, ⟨stream.startOf 43, stream.startOf 45⟩] := by
    rw [size]
    exact program
  exact ⟨stream, _, read, whole, text ▸ eraseTypes_of_module read whole⟩

end Playground

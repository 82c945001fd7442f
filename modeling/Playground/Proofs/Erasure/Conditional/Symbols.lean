import Playground.Proofs.Erasure.Conditional.Expression

/-!
# The tokens of a plain expression

The symbols of an expression are those of its parts with punctuators between them, so what
they say about a few neighbours is said of the parts, and of the neighbours of the punctuator.
-/

namespace Playground

/-- A closing parenthesis, a colon, a word and an arrow stand at an index. -/
structure AnnotatedAt (symbols : List Symbol) (index : Nat) : Prop where
  parenthesis : symbols[index]? = some (.mark ")")
  colon : symbols[index + 1]? = some (.mark ":")
  word : (symbols[index + 2]?).any (·.kind == .word) = true
  arrow : symbols[index + 3]? = some (.mark "=>")

/-- Every arrow stands after a word, and that word does not stand after a point. -/
def ArrowsLead (symbols : List Symbol) : Prop :=
  ∀ index, symbols[index]? = some (.mark "=>") →
    ∃ before, index = before + 1 ∧ (symbols[before]?).any (·.kind == .word) = true ∧
      ∀ point, before = point + 1 → symbols[point]? ≠ some (.mark ".")

/-- A word and an arrow stand at the front. -/
def StartsArrow (symbols : List Symbol) : Prop :=
  (symbols[0]?).any (·.kind == .word) = true ∧ symbols[1]? = some (.mark "=>")

section Joined

variable {first second : List Symbol} {mark : Symbol} {index : Nat}

theorem getElem?_left (before : index < first.length) :
    (first ++ mark :: second)[index]? = first[index]? :=
  List.getElem?_append_left before

theorem getElem?_middle : (first ++ mark :: second)[first.length]? = some mark := by
  rw [List.getElem?_append_right (Nat.le_refl _), Nat.sub_self, List.getElem?_cons_zero]

theorem getElem?_right (index : Nat) :
    (first ++ mark :: second)[first.length + 1 + index]? = second[index]? := by
  rw [List.getElem?_append_right (by omega), show first.length + 1 + index - first.length =
    index + 1 by omega, List.getElem?_cons_succ]

theorem AnnotatedAt.lt_length (annotated : AnnotatedAt first index) : index + 3 < first.length :=
  (List.getElem?_eq_some_iff.mp annotated.arrow).1

theorem annotatedAt_left (before : index + 3 < first.length) :
    AnnotatedAt (first ++ mark :: second) index ↔ AnnotatedAt first index := by
  constructor
  · rintro ⟨parenthesis, colon, word, arrow⟩
    rw [getElem?_left (by omega)] at parenthesis colon word arrow
    exact ⟨parenthesis, colon, word, arrow⟩
  · rintro ⟨parenthesis, colon, word, arrow⟩
    constructor <;> rwa [getElem?_left (by omega)]

theorem annotatedAt_right :
    AnnotatedAt (first ++ mark :: second) (first.length + 1 + index) ↔
      AnnotatedAt second index := by
  constructor
  · rintro ⟨parenthesis, colon, word, arrow⟩
    simp only [Nat.add_assoc _ index, getElem?_right] at parenthesis colon word arrow
    exact ⟨parenthesis, colon, word, arrow⟩
  · rintro ⟨parenthesis, colon, word, arrow⟩
    constructor <;> simpa only [Nat.add_assoc _ index, getElem?_right]

/-- Four neighbours stand in the first part, in the second part, or around the punctuator. -/
theorem exists_annotatedAt_iff :
    (∃ index, AnnotatedAt (first ++ mark :: second) index) ↔
      (∃ index, AnnotatedAt first index) ∨ (∃ index, AnnotatedAt second index) ∨
        ∃ index, index ≤ first.length ∧ first.length ≤ index + 3 ∧
          AnnotatedAt (first ++ mark :: second) index := by
  constructor
  · rintro ⟨index, annotated⟩
    rcases Nat.lt_or_ge (index + 3) first.length with before | reaches
    · exact .inl ⟨index, (annotatedAt_left before).mp annotated⟩
    rcases Nat.lt_or_ge first.length index with after | around
    · obtain ⟨offset, rfl⟩ := Nat.exists_eq_add_of_lt after
      rw [Nat.add_right_comm] at annotated
      exact .inr (.inl ⟨offset, annotatedAt_right.mp annotated⟩)
    · exact .inr (.inr ⟨index, around, reaches, annotated⟩)
  · rintro (⟨index, annotated⟩ | ⟨index, annotated⟩ | ⟨index, -, -, annotated⟩)
    · exact ⟨index, (annotatedAt_left annotated.lt_length).mpr annotated⟩
    · exact ⟨_, annotatedAt_right.mpr annotated⟩
    · exact ⟨index, annotated⟩

/-- What the punctuator is where four neighbours stand around it. -/
theorem AnnotatedAt.middle (around : index ≤ first.length) (reaches : first.length ≤ index + 3)
    (annotated : AnnotatedAt (first ++ mark :: second) index) :
    (index = first.length ∧ mark = .mark ")") ∨ (index + 1 = first.length ∧ mark = .mark ":") ∨
      (index + 2 = first.length ∧ mark.kind = .word) ∨
        index + 3 = first.length ∧ mark = .mark "=>" := by
  have middle : (first ++ mark :: second)[first.length]? = some mark := getElem?_middle
  obtain ⟨parenthesis, colon, word, arrow⟩ := annotated
  rcases (by omega : index = first.length ∨ index + 1 = first.length ∨ index + 2 = first.length ∨
    index + 3 = first.length) with at0 | at1 | at2 | at3
  · rw [at0, middle] at parenthesis
    exact .inl ⟨at0, Option.some.inj parenthesis⟩
  · rw [at1, middle] at colon
    exact .inr (.inl ⟨at1, Option.some.inj colon⟩)
  · rw [at2, middle] at word
    exact .inr (.inr (.inl ⟨at2, beq_iff_eq.mp word⟩))
  · rw [at3, middle] at arrow
    exact .inr (.inr (.inr ⟨at3, Option.some.inj arrow⟩))

/-- A punctuator that is none of the neighbours keeps the parts apart. -/
theorem exists_annotatedAt_of_apart
    (apart : mark ∉ [.mark ")", .mark ":", .mark "=>"] ∧ mark.kind ≠ .word) :
    (∃ index, AnnotatedAt (first ++ mark :: second) index) ↔
      (∃ index, AnnotatedAt first index) ∨ ∃ index, AnnotatedAt second index := by
  rw [exists_annotatedAt_iff]
  refine or_congr Iff.rfl (or_iff_left ?_)
  rintro ⟨index, around, reaches, annotated⟩
  obtain ⟨listed, notWord⟩ := apart
  rcases annotated.middle around reaches with ⟨-, rfl⟩ | ⟨-, rfl⟩ | ⟨-, word⟩ | ⟨-, rfl⟩
  · exact listed (by simp)
  · exact listed (by simp)
  · exact notWord word
  · exact listed (by simp)

theorem exists_annotatedAt_of_closed :
    (∃ index, AnnotatedAt (first ++ [.mark ")"]) index) ↔ ∃ index, AnnotatedAt first index := by
  rw [exists_annotatedAt_iff]
  constructor
  · rintro (inside | ⟨index, annotated⟩ | ⟨index, around, reaches, annotated⟩)
    · exact inside
    · exact absurd annotated.lt_length (by simp)
    · have inside := annotated.lt_length
      rw [List.length_append, List.length_singleton] at inside
      rcases annotated.middle around reaches with ⟨rfl, -⟩ | ⟨-, colon⟩ | ⟨-, word⟩ | ⟨-, arrow⟩
      · omega
      · exact absurd colon (by decide)
      · contradiction
      · exact absurd arrow (by decide)
  · exact .inl

/-- The neighbours around a colon. -/
theorem exists_annotatedAt_of_colon :
    (∃ index, AnnotatedAt (first ++ .mark ":" :: second) index) ↔
      (∃ index, AnnotatedAt first index) ∨ (∃ index, AnnotatedAt second index) ∨
        first.getLast? = some (.mark ")") ∧ StartsArrow second := by
  rw [exists_annotatedAt_iff]
  refine or_congr Iff.rfl (or_congr Iff.rfl ?_)
  constructor
  · rintro ⟨index, around, reaches, annotated⟩
    have middle := annotated.middle around reaches
    obtain ⟨parenthesis, -, word, arrow⟩ := annotated
    rcases middle with ⟨-, colon⟩ | ⟨before, -⟩ | ⟨-, word⟩ | ⟨-, arrow⟩
    · exact absurd colon (by decide)
    · rw [getElem?_left (by omega)] at parenthesis
      rw [show index + 2 = first.length + 1 + 0 by omega, getElem?_right] at word
      rw [show index + 3 = first.length + 1 + 1 by omega, getElem?_right] at arrow
      refine ⟨?_, word, arrow⟩
      rw [List.getLast?_eq_getElem?, show first.length - 1 = index by omega, parenthesis]
    · contradiction
    · exact absurd arrow (by decide)
  · rintro ⟨last, word, arrow⟩
    rw [List.getLast?_eq_getElem?] at last
    have inside := (List.getElem?_eq_some_iff.mp last).1
    refine ⟨first.length - 1, by omega, by omega, ?_, ?_, ?_, ?_⟩
    · rw [getElem?_left inside, last]
    · rw [show first.length - 1 + 1 = first.length by omega, getElem?_middle]
    · rwa [show first.length - 1 + 2 = first.length + 1 + 0 by omega, getElem?_right]
    · rwa [show first.length - 1 + 3 = first.length + 1 + 1 by omega, getElem?_right]

/-- The head of an arrow function is too short for four neighbours. -/
theorem exists_annotatedAt_of_arrow {parameter : Symbol} :
    (∃ index, AnnotatedAt ([parameter] ++ .mark "=>" :: second) index) ↔
      ∃ index, AnnotatedAt second index := by
  rw [exists_annotatedAt_iff]
  constructor
  · rintro (⟨index, annotated⟩ | behind | ⟨index, around, reaches, annotated⟩)
    · exact absurd annotated.lt_length (by simp)
    · exact behind
    · rcases annotated.middle around reaches with ⟨-, closes⟩ | ⟨-, colon⟩ | ⟨far, -⟩ | ⟨far, -⟩
      · exact absurd closes (by decide)
      · exact absurd colon (by decide)
      · simp at far
      · simp at far
  · exact fun behind => .inr (.inl behind)

/-- Parts in which arrows stand where they may, with a punctuator between them. -/
theorem ArrowsLead.joined (one : ArrowsLead first) (other : ArrowsLead second)
    (arrow : mark = .mark "=>" → ∃ word, first = [word] ∧ word.kind = .word)
    (property : mark = .mark "." → second[1]? ≠ some (.mark "=>")) :
    ArrowsLead (first ++ mark :: second) := by
  intro index found
  rcases Nat.lt_trichotomy index first.length with inside | rfl | after
  · rw [getElem?_left inside] at found
    obtain ⟨before, rfl, word, free⟩ := one index found
    refine ⟨before, rfl, by rwa [getElem?_left (by omega)], ?_⟩
    rintro point rfl
    rw [getElem?_left (by omega)]
    exact free point rfl
  · rw [getElem?_middle] at found
    obtain ⟨word, rfl, kind⟩ := arrow (Option.some.inj found)
    exact ⟨0, rfl, by simp [kind], fun point none => by contradiction⟩
  · obtain ⟨offset, rfl⟩ := Nat.exists_eq_add_of_lt after
    rw [Nat.add_right_comm, getElem?_right] at found
    obtain ⟨before, rfl, word, free⟩ := other offset found
    refine ⟨first.length + 1 + before, by omega, by rwa [getElem?_right], ?_⟩
    intro point here
    rcases Nat.eq_zero_or_pos before with rfl | positive
    · obtain rfl : point = first.length := by omega
      rw [getElem?_middle]
      exact fun dotted => property (Option.some.inj dotted) found
    · obtain ⟨earlier, rfl⟩ := Nat.exists_eq_add_of_lt positive
      rw [show point = first.length + 1 + earlier by omega, getElem?_right]
      exact free earlier (by omega)

theorem ArrowsLead.apart (one : ArrowsLead first) (other : ArrowsLead second)
    (apart : mark ≠ .mark "=>" ∧ mark ≠ .mark ".") : ArrowsLead (first ++ mark :: second) :=
  one.joined other (absurd · apart.1) (absurd · apart.2)

theorem StartsArrow.of_joined (starts : StartsArrow (first ++ mark :: second))
    (nonempty : first ≠ []) (apart : mark ≠ .mark "=>") : StartsArrow first := by
  obtain ⟨word, arrow⟩ := starts
  have positive : 0 < first.length := List.length_pos_iff.mpr nonempty
  rw [getElem?_left positive] at word
  rcases Nat.eq_or_lt_of_le positive with single | longer
  · rw [show 1 = first.length from single, getElem?_middle] at arrow
    exact absurd (Option.some.inj arrow) apart
  · rw [getElem?_left longer] at arrow
    exact ⟨word, arrow⟩

end Joined

/-! ## Symbols of expressions -/

namespace Expression

variable {rank : Rank}

theorem symbols_ne_nil (expression : Expression rank) : expression.symbols ≠ [] := by
  induction expression with
  | object _ inductionHypothesis | operand _ inductionHypothesis
  | last _ inductionHypothesis => exact inductionHypothesis
  | _ => simp [symbols]

theorem getLast?_symbols (expression : Expression rank) :
    expression.symbols.getLast? = some (.mark ")") ↔ expression.endsInParenthesis = true := by
  induction expression with
  | object _ inductionHypothesis | operand _ inductionHypothesis
  | last _ inductionHypothesis => exact inductionHypothesis
  | name word => simp [symbols, endsInParenthesis, Name.symbol, Symbol.mark]
  | string literal => simp [symbols, endsInParenthesis, Literal.symbol, Symbol.mark]
  | number numeral => simp [symbols, endsInParenthesis, Numeral.symbol, Symbol.mark]
  | member owner property => simp [symbols, endsInParenthesis, Name.symbol, Symbol.mark]
  | invoke | call | group => simp [symbols, endsInParenthesis, List.getLast?_cons]
  | arrow _ body inductionHypothesis | more _ body _ inductionHypothesis
  | conditional _ _ body _ _ inductionHypothesis =>
    rw [endsInParenthesis, ← inductionHypothesis]
    have nonempty := symbols_ne_nil body
    cases shape : body.symbols.getLast? with
    | none => exact absurd (List.getLast?_eq_none_iff.mp shape) nonempty
    | some final => simp [symbols, List.getLast?_append, List.getLast?_cons, shape]

theorem not_startsArrow (expression : Expression rank) (tight : rank = .object ∨ rank = .operand) :
    ¬StartsArrow expression.symbols := by
  intro starts
  induction expression with
  | name | string | number => simp [StartsArrow, symbols] at starts
  | group => simp [StartsArrow, symbols, Symbol.mark] at starts
  | object _ inductionHypothesis => exact inductionHypothesis (.inl rfl) starts
  | member owner _ inductionHypothesis =>
    exact inductionHypothesis (.inl rfl) (starts.of_joined owner.symbols_ne_nil (by decide))
  | invoke callee inductionHypothesis | call callee _ inductionHypothesis _ =>
    exact inductionHypothesis (.inr rfl) (starts.of_joined callee.symbols_ne_nil (by decide))
  | operand | arrow | conditional | last | more => simp at tight

theorem startsArrow_iff (expression : Expression .expression) :
    StartsArrow expression.symbols ↔ expression.isArrow = true := by
  cases expression with
  | arrow parameter body => simp [StartsArrow, symbols, isArrow, Name.symbol]
  | operand inner =>
    simp only [isArrow, Bool.false_eq_true, iff_false]
    exact inner.not_startsArrow (.inr rfl)
  | conditional test yes no =>
    simp only [isArrow, Bool.false_eq_true, iff_false]
    exact fun starts => test.not_startsArrow (.inr rfl)
      (starts.of_joined test.symbols_ne_nil (by decide))

theorem arrowsLead_single {symbol : Symbol} (kind : symbol.kind ≠ .punctuator) :
    ArrowsLead [symbol] := by
  intro index found
  cases index with
  | zero =>
    obtain rfl := Option.some.inj found
    exact absurd rfl kind
  | succ => contradiction

theorem arrowsLead_nil : ArrowsLead [] := by
  intro index found
  contradiction

theorem arrowsLead (expression : Expression rank) : ArrowsLead expression.symbols := by
  induction expression with
  | name | string | number => exact arrowsLead_single nofun
  | object _ inductionHypothesis | operand _ inductionHypothesis
  | last _ inductionHypothesis => exact inductionHypothesis
  | member _ property inductionHypothesis =>
    exact inductionHypothesis.joined (arrowsLead_single nofun) (absurd · (by decide))
      fun _ => nofun
  | invoke callee inductionHypothesis =>
    exact inductionHypothesis.apart (arrowsLead_nil.apart arrowsLead_nil (by decide)) (by decide)
  | call callee arguments one other =>
    exact one.apart (other.apart arrowsLead_nil (by decide)) (by decide)
  | group inner inductionHypothesis =>
    exact arrowsLead_nil.apart (inductionHypothesis.apart arrowsLead_nil (by decide)) (by decide)
  | arrow parameter body inductionHypothesis =>
    exact (@arrowsLead_single parameter.symbol nofun).joined inductionHypothesis
      (fun _ => ⟨_, rfl, rfl⟩) (absurd · (by decide))
  | conditional test yes no one two three =>
    exact one.apart (two.apart three (by decide)) (by decide)
  | more argument rest one other => exact one.apart other (by decide)

/-- The neighbours of a return type stand around the colon of a conditional exactly where the
conditional reads as one. -/
theorem exists_annotatedAt_symbols (expression : Expression rank) :
    (∃ index, AnnotatedAt expression.symbols index) ↔ expression.readsAsAnnotated = true := by
  have short : ∀ {symbols : List Symbol}, symbols.length ≤ 3 →
      ¬∃ index, AnnotatedAt symbols index := by
    rintro symbols short ⟨index, annotated⟩
    have := annotated.lt_length
    omega
  induction expression with
  | name | string | number => simpa [readsAsAnnotated] using short (by simp [symbols])
  | object _ inductionHypothesis | operand _ inductionHypothesis
  | last _ inductionHypothesis => exact inductionHypothesis
  | member _ property inductionHypothesis | invoke _ inductionHypothesis =>
    exact (exists_annotatedAt_of_apart (by decide)).trans
      ((or_iff_left (short (by simp))).trans inductionHypothesis)
  | call callee arguments one other =>
    exact (exists_annotatedAt_of_apart (by decide)).trans
      ((or_congr one (exists_annotatedAt_of_closed.trans other)).trans Bool.or_eq_true_iff.symm)
  | group inner inductionHypothesis =>
    exact (@exists_annotatedAt_of_apart [] _ _ (by decide)).trans
      ((or_iff_right (short (by simp))).trans
        (exists_annotatedAt_of_closed.trans inductionHypothesis))
  | arrow parameter body inductionHypothesis =>
    exact exists_annotatedAt_of_arrow.trans inductionHypothesis
  | conditional test yes no one two three =>
    have colon := or_congr two (or_congr three
      (and_congr yes.getLast?_symbols no.startsArrow_iff))
    refine (exists_annotatedAt_of_apart (by decide)).trans
      ((or_congr one (exists_annotatedAt_of_colon.trans colon)).trans ?_)
    simp only [readsAsAnnotated, Bool.or_eq_true, Bool.and_eq_true, or_assoc]
  | more argument rest one other =>
    exact (exists_annotatedAt_of_apart (by decide)).trans
      ((or_congr one other).trans Bool.or_eq_true_iff.symm)

end Expression

end Playground

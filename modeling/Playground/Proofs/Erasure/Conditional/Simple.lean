import Playground.Proofs.Erasure.BracketMatching
import Playground.Proofs.Erasure.Conditional.Reading
import Playground.Proofs.Erasure.Conditional.Symbols
import Playground.Proofs.Erasure.Span

/-!
# Programs of simple tokens

The tokens of plain expressions are `Simple`: names without a meaning of their own, numbers,
strings and eight punctuators. A program of simple tokens in which every arrow stands after a
word is read as a program of types in few ways: the only type that ends before an arrow is a
single name.
-/

namespace Playground

/-- The punctuators of plain expressions and of the semicolon behind them. -/
def simpleMarks : List String :=
  ["(", ")", ",", ".", "?", ":", "=>", ";"]

/-- A symbol of a plain expression. -/
structure Symbol.Simple (symbol : Symbol) : Prop where
  kind : symbol.kind ∈ [.word, .number, .string, .punctuator]
  mark : symbol.kind = .punctuator → symbol.text ∈ simpleMarks
  word : symbol.kind = .word →
    symbol.text ∉ meaningfulWords ∧ symbol.text.startsWith "#" = false

theorem Expression.Name.simple (name : Name) : name.symbol.Simple where
  kind := by simp [symbol]
  mark := nofun
  word _ := by
    have notPrivate : '#' ≠ name.first := by
      intro hash
      have starts := name.starts
      rw [← hash] at starts
      exact absurd starts (by decide)
    exact ⟨name.free, by simp [symbol, text, notPrivate]⟩

theorem Expression.Numeral.simple (numeral : Numeral) : numeral.symbol.Simple :=
  ⟨by simp [symbol], nofun, nofun⟩

theorem Expression.Literal.simple (literal : Literal) : literal.symbol.Simple :=
  ⟨by simp [symbol], nofun, nofun⟩

theorem Symbol.simple_mark {text : String} (listed : text ∈ simpleMarks) : (mark text).Simple :=
  ⟨by simp [mark], fun _ => listed, nofun⟩

theorem Expression.simple {rank : Rank} (expression : Expression rank) :
    ∀ symbol ∈ expression.symbols, symbol.Simple := by
  have mark : ∀ text ∈ simpleMarks, (Symbol.mark text).Simple := fun _ => Symbol.simple_mark
  induction expression with
  | name word => simpa [symbols] using word.simple
  | string literal => simpa [symbols] using literal.simple
  | number numeral => simpa [symbols] using numeral.simple
  | object _ inductionHypothesis | operand _ inductionHypothesis
  | last _ inductionHypothesis => exact inductionHypothesis
  | member owner property inductionHypothesis =>
    simp only [symbols, List.forall_mem_append, List.forall_mem_cons]
    exact ⟨inductionHypothesis, mark _ (by decide), property.simple, by simp⟩
  | invoke callee inductionHypothesis =>
    simp only [symbols, List.forall_mem_append, List.forall_mem_cons]
    exact ⟨inductionHypothesis, mark _ (by decide), mark _ (by decide), by simp⟩
  | call callee arguments one other =>
    simp only [symbols, List.forall_mem_append, List.forall_mem_cons]
    exact ⟨one, mark _ (by decide), other, mark _ (by decide), by simp⟩
  | group inner inductionHypothesis =>
    simp only [symbols, List.forall_mem_append, List.forall_mem_cons]
    exact ⟨mark _ (by decide), inductionHypothesis, mark _ (by decide), by simp⟩
  | arrow parameter body inductionHypothesis =>
    simp only [symbols, List.forall_mem_append, List.forall_mem_cons]
    exact ⟨⟨parameter.simple, by simp⟩, mark _ (by decide), inductionHypothesis⟩
  | conditional test yes no one two three =>
    simp only [symbols, List.forall_mem_append, List.forall_mem_cons]
    exact ⟨one, mark _ (by decide), two, mark _ (by decide), three⟩
  | more argument rest one other =>
    simp only [symbols, List.forall_mem_append, List.forall_mem_cons]
    exact ⟨one, mark _ (by decide), other⟩

namespace TokenStream

/-- The symbols of a program. -/
def symbols (stream : TokenStream) : List Symbol :=
  stream.tokens.toList.map Token.symbol

/-- A program of simple tokens, with a word before every arrow. -/
structure Simple (stream : TokenStream) : Prop where
  nested : stream.Nested
  placed : stream.Placed
  listed : ∀ symbol ∈ stream.symbols, symbol.Simple
  arrows : ArrowsLead stream.symbols
  opened : ∀ {index}, stream.is index "(" = true → ∃ close, stream.closer? index = some close

variable {stream : TokenStream} {index stop : Nat} {text : String}

theorem getElem?_symbols (stream : TokenStream) (index : Nat) :
    stream.symbols[index]? = (stream.get? index).map Token.symbol := by
  simp [symbols, get?]

/-- A closing parenthesis, a colon, a name and an arrow stand at an index. -/
def IsAnnotatedAt (stream : TokenStream) (close : Nat) : Prop :=
  stream.is (close + 1) ":" = true ∧ stream.kind? (close + 2) = some .word ∧
    stream.is (close + 3) "=>" = true

namespace Simple

variable (simple : stream.Simple)

include simple

theorem of_get? {token : Token} (found : stream.get? index = some token) :
    token.symbol.Simple := by
  refine simple.listed _ (List.mem_of_getElem? (i := index) ?_)
  rw [getElem?_symbols, found, Option.map_some]

/-- A punctuator is one of the few. -/
theorem text_of_mark (mark : stream.kind? index = some .punctuator) :
    stream.text index ∈ simpleMarks := by
  obtain ⟨token, found, kind⟩ := Option.map_eq_some_iff.mp mark
  simp only [TokenStream.text, found]
  exact (simple.of_get? found).mark kind

/-- No other punctuator stands anywhere. -/
theorem not_mark (text : String) (foreign : text ∉ simpleMarks)
    (mark : hasMark text = true) : stream.is index text = false := by
  rw [Bool.eq_false_iff]
  intro found
  have listed := simple.text_of_mark (simple.placed.kind?_of_mark found mark)
  rw [(is_iff.mp found).2] at listed
  exact foreign listed

/-- No token is written as a word with a meaning of its own. -/
theorem text_free (index : Nat) : stream.text index ∉ meaningfulWords := by
  have words : ∀ text ∈ meaningfulWords, text.toList.head?.any startsWord = true := by
    decide
  intro meaningful
  obtain ⟨token, found, kind⟩ := Option.map_eq_some_iff.mp
    (simple.placed.kind?_of_start (words _ meaningful))
  simp only [TokenStream.text, found] at meaningful
  exact ((simple.of_get? found).word kind).1 meaningful

theorem not_word (text : String) (meaningful : text ∈ meaningfulWords) : stream.is index text = false := by
  rw [Bool.eq_false_iff]
  intro found
  exact simple.text_free _ ((is_iff.mp found).2 ▸ meaningful)

theorem isPlainWord (word : stream.kind? index = some .word) :
    stream.isPlainWord index = true := by
  obtain ⟨token, found, kind⟩ := Option.map_eq_some_iff.mp word
  have notPrivate : token.text.startsWith "#" = false := ((simple.of_get? found).word kind).2
  simp [TokenStream.isPlainWord, found, kind, notPrivate]

/-- The kinds of simple tokens. -/
theorem kind?_cases (index : Nat) : stream.kind? index = none ∨ stream.kind? index = some .word ∨
    stream.kind? index = some .number ∨ stream.kind? index = some .string ∨
      stream.kind? index = some .punctuator := by
  unfold kind?
  cases found : stream.get? index with
  | none => exact .inl rfl
  | some token =>
    have kind := (simple.of_get? found).kind
    simpa [Token.symbol] using kind

theorem mark_of_is (found : stream.is index text = true)
    (mark : hasMark text = true) : stream.symbols[index]? = some (.mark text) := by
  obtain ⟨token, atIndex, kind⟩ :=
    Option.map_eq_some_iff.mp (simple.placed.kind?_of_mark found mark)
  have spelled := (is_iff.mp found).2
  simp only [TokenStream.text, atIndex] at spelled
  rw [getElem?_symbols, atIndex, Option.map_some, Token.symbol, kind, spelled, Symbol.mark]

/-- Every arrow stands after a word, and that word does not stand after a point. -/
theorem word_of_arrow (arrow : stream.is (index + 1) "=>" = true) :
    stream.kind? index = some .word ∧
      ∀ point, index = point + 1 → stream.is point "." = false := by
  obtain ⟨before, same, word, free⟩ :=
    simple.arrows (index + 1) (simple.mark_of_is arrow (by decide))
  obtain rfl := Nat.succ_inj.mp same
  rw [getElem?_symbols, Option.any_map] at word
  refine ⟨?_, fun point here => ?_⟩
  · cases found : stream.get? index with
    | none => simp [found] at word
    | some token => simpa [found, kind?, Token.symbol] using word
  · rw [Bool.eq_false_iff]
    exact fun dotted => free point here (simple.mark_of_is dotted (by decide))

/-! ## Types -/

theorem operandFrom_eq : stream.operandFrom index = index := by
  unfold operandFrom runEnd
  simp [simple.not_word "keyof" (by decide),
    simple.not_word "readonly" (by decide),
    simple.not_word "unique" (by decide)]

theorem operandTail?_eq (inner : Nat → Option Nat) :
    stream.operandTail? inner stop = some stop := by
  unfold operandTail? subscriptsEnd?
  simp [simple.not_mark "[" (by decide) (by decide),
    simple.not_word "is" (by decide)]

theorem bareOperandWith?_eq (inner : Nat → Option Nat) :
    stream.bareOperandWith? inner index = stream.primaryTypeWith? inner index := by
  have notInfer : stream.text index ≠ "infer" := fun same =>
    simple.text_free _ (same ▸ (by decide : "infer" ∈ meaningfulWords))
  have notAsserts : stream.text index ≠ "asserts" := fun same =>
    simple.text_free _ (same ▸ (by decide : "asserts" ∈ meaningfulWords))
  unfold bareOperandWith?
  simp [notInfer, notAsserts, simple.not_word "typeof" (by decide),
    simple.operandTail?_eq]

theorem unionWith?_eq (inner : Nat → Option Nat) :
    stream.unionWith? inner index = stream.primaryTypeWith? inner index := by
  unfold unionWith? operandWith? unionTail?
  simp [simple.not_mark "|" (by decide) (by decide),
    simple.not_mark "&" (by decide) (by decide), simple.operandFrom_eq,
    simple.bareOperandWith?_eq]

theorem typeWith?_eq (inner : Nat → Option Nat) :
    stream.typeWith? inner index = stream.primaryTypeWith? inner index := by
  unfold typeWith?
  simp [simple.unionWith?_eq, simple.not_word "extends" (by decide)]

/-- A word is a type with the properties that are taken of it. -/
theorem primaryTypeWith?_of_word (inner : Nat → Option Nat)
    (word : stream.kind? index = some .word) :
    stream.primaryTypeWith? inner index = some (stream.dottedEnd (index + 1)) := by
  have isType : stream.textIn index notTypeWords = false := by
    rw [textIn, List.contains_eq_mem, decide_eq_false_iff_not]
    exact fun listed => simple.text_free _ (List.mem_append_right _ listed)
  unfold primaryTypeWith? wordTypeWith? appliedNameWith? qualifiedNameEnd?
  simp [word, isType, simple.isPlainWord word,
    simple.not_mark "<" (by decide) (by decide),
    simple.not_word "new" (by decide)]

omit simple in
/-- Properties end with a word after a point. -/
theorem dottedEnd_cases (stop : Nat) : stream.dottedEnd stop = stop ∨
    ∃ point, stream.is point "." = true ∧ stream.dottedEnd stop = point + 2 := by
  fun_induction stream.dottedEnd stop with
  | case1 stop dotted inductionHypothesis =>
    rcases inductionHypothesis with last | later
    · exact .inr ⟨stop, dotted.1, last⟩
    · exact .inr later
  | case2 => exact .inl rfl

/-- No bracket stands before an arrow. -/
theorem not_arrow_of_closer? {opening close : Nat} (found : stream.closer? opening = some close) :
    stream.is (close + 1) "=>" = false := by
  rw [Bool.eq_false_iff]
  intro arrow
  have word := (simple.word_of_arrow arrow).1
  rw [(simple.nested.text_bracket found).2.1] at word
  contradiction

/-- A type that ends before an arrow ends after its first token. -/
theorem eq_of_primaryTypeWith? {inner : Nat → Option Nat}
    (found : stream.primaryTypeWith? inner index = some stop)
    (arrow : stream.is stop "=>" = true) : stop = index + 1 := by
  rcases simple.kind?_cases index with kind | kind | kind | kind | kind
  · simp [primaryTypeWith?, kind] at found
  · rw [simple.primaryTypeWith?_of_word inner kind, Option.some.injEq] at found
    rcases @dottedEnd_cases stream (index + 1) with single | ⟨point, dotted, last⟩
    · exact found.symm.trans single
    · obtain rfl := found.symm.trans last
      have free := (simple.word_of_arrow arrow).2 point rfl
      rw [dotted] at free
      contradiction
  · simpa [primaryTypeWith?, kind] using found.symm
  · simpa [primaryTypeWith?, kind] using found.symm
  · simp only [primaryTypeWith?, kind, punctuatedTypeWith?,
      simple.not_mark "<" (by decide) (by decide),
      simple.not_mark "\x7b" (by decide) (by decide),
      simple.not_mark "[" (by decide) (by decide),
      simple.not_mark "-" (by decide) (by decide)] at found
    split at found
    · obtain ⟨close, closes, rest⟩ := Option.bind_eq_some_iff.mp found
      have noArrow := simple.not_arrow_of_closer? closes
      simp only [noArrow, Bool.false_eq_true, if_false] at rest
      split at rest
      · contradiction
      · cases rest
        rw [noArrow] at arrow
        contradiction
    · simp at found

/-- The only types that end before an arrow are single names. -/
theorem typeEnd?_before_arrow (arrow : stream.is stop "=>" = true) :
    stream.typeEnd? index = some stop ↔ stream.kind? index = some .word ∧ stop = index + 1 := by
  constructor
  · intro found
    unfold typeEnd? at found
    split at found
    · rw [simple.typeWith?_eq] at found
      obtain rfl := simple.eq_of_primaryTypeWith? found arrow
      exact ⟨(simple.word_of_arrow arrow).1, rfl⟩
    · contradiction
  · rintro ⟨word, rfl⟩
    have noPoint : stream.is (index + 1) "." = false := by
      rw [Bool.eq_false_iff]
      intro dotted
      have same := (is_iff.mp dotted).2.symm.trans (is_iff.mp arrow).2
      exact absurd same (by decide)
    unfold typeEnd?
    rw [dif_pos (lt_size_of_kind? word), simple.typeWith?_eq, simple.primaryTypeWith?_of_word _ word]
    unfold dottedEnd
    simp [noPoint]

end Simple

end TokenStream

end Playground

import Playground.Proofs.Erasure.BracketPairs
import Playground.Proofs.Erasure.Conditional.Statement
import Playground.Proofs.Erasure.Conditional.Walk
import Playground.Proofs.Erasure.Loss
import Playground.Proofs.Erasure.Untouched

/-!
# Conditional expressions

A plain expression is returned as it is, except for one form of conditional: a closing
parenthesis before its colon and an arrow function without parentheses after it read as the end
of a parameter list with a return type. `eraseTypes_statement_iff` proves that nothing else is
changed and that this form always is.
-/

namespace Playground

namespace TokenStream

variable {stream : TokenStream}

namespace Simple

variable (simple : stream.Simple)

include simple

/-! ## Where a return type seems to stand -/

theorem isAnnotatedAt_iff {index : Nat} (closes : stream.is index ")" = true) :
    stream.IsAnnotatedAt index ↔ AnnotatedAt stream.symbols index := by
  constructor
  · rintro ⟨colon, word, arrow⟩
    refine ⟨simple.mark_of_is closes (by decide), simple.mark_of_is colon (by decide), ?_,
      simple.mark_of_is arrow (by decide)⟩
    obtain ⟨token, found, kind⟩ := Option.map_eq_some_iff.mp word
    simp [getElem?_symbols, found, Token.symbol, kind]
  · rintro ⟨_, colon, word, arrow⟩
    have is_of_symbol : ∀ {index text}, stream.symbols[index]? = some (.mark text) →
        stream.is index text = true := by
      intro index text symbol
      rw [getElem?_symbols] at symbol
      obtain ⟨token, found, mark⟩ := Option.map_eq_some_iff.mp symbol
      obtain ⟨kind, spelled⟩ := Symbol.mk.inj mark
      simp [is, found, kind, spelled]
    refine ⟨is_of_symbol colon, ?_, is_of_symbol arrow⟩
    rw [getElem?_symbols, Option.any_map] at word
    cases found : stream.get? (index + 2) with
    | none => simp [found] at word
    | some token => simpa [found, kind?, Token.symbol] using word

/-- The whole program is free of seeming return types exactly if its symbols are. -/
theorem unannotatedFrom_zero_iff :
    stream.UnannotatedFrom 0 stream.size ↔ ¬∃ index, AnnotatedAt stream.symbols index := by
  constructor
  · rintro unannotated ⟨index, annotated⟩
    have parenthesis := annotated.parenthesis
    rw [getElem?_symbols] at parenthesis
    obtain ⟨token, found, mark⟩ := Option.map_eq_some_iff.mp parenthesis
    obtain ⟨kind, spelled⟩ := Symbol.mk.inj mark
    have closes : token.bracketRole = .closes := by simp [Token.bracketRole, kind, spelled]
    obtain ⟨opening, pair⟩ := simple.nested.closers found closes
    have inside := lt_size_of_kind? (simple.nested.text_bracket pair).1
    refine unannotated opening index pair (Nat.zero_le _) inside
      ((simple.isAnnotatedAt_iff ?_).mpr annotated)
    simp [is, found, kind, spelled]
  · intro none opening close found _ _ annotated
    have closes : stream.is close ")" = true :=
      simple.nested.is_close found (simple.is_of_closer? found) (by decide)
    exact none ⟨close, (simple.isAnnotatedAt_iff closes).mp annotated⟩

/-! ## What is erased -/

theorem isPlain : stream.IsPlain := by
  constructor
  · rintro text listed ⟨index, _, spelled⟩
    have meaningful : ∀ text ∈ ["import", "export", "catch", "class", "super"],
        text ∈ meaningfulWords := by
      decide
    exact simple.text_free _ (spelled ▸ meaningful text listed)
  · intro index _ head
    rcases simple.kind?_cases index with kind | kind | kind | kind | kind <;>
      simp [kind] at head

theorem not_hasWord {text : String} (meaningful : text ∈ meaningfulWords) :
    ¬stream.HasWord text :=
  fun ⟨_, _, spelled⟩ => simple.text_free _ (spelled ▸ meaningful)

theorem startOf_attached_le (index : Nat) :
    (if index = 0 then stream.startOf index else stream.stopOf (index - 1)) ≤
      stream.startOf index := by
  split
  · exact Nat.le_refl _
  · exact simple.placed.stopOf_le_startOf (by omega)

/-- An edit of simple tokens is an erasure that starts before a token. -/
theorem erases_of_justified {edit : Edit} (justified : stream.Justified edit) :
    ∃ start finish index, edit = .erase start finish ∧ index < stream.size ∧
      start ≤ stream.startOf index ∧ finish ≤ stream.source.size := by
  have noClass : ¬stream.HasClass := fun ⟨keyword, owner⟩ => by
    rw [simple.not_word _ (by decide)] at owner
    contradiction
  have noAngle : ∀ {index : Nat}, ¬stream.is index "<" = true := fun {index} angle => by
    rw [simple.not_mark _ (by decide) (by decide)] at angle
    contradiction
  have noWord : ∀ {index : Nat} {text : String}, text ∈ meaningfulWords →
      ¬stream.is index text = true := fun meaningful found => by
    rw [simple.not_word _ meaningful] at found
    contradiction
  cases justified with
  | annotated colon =>
    exact ⟨_, _, _, rfl, lt_size_of_is colon, simple.startOf_attached_le _,
      simple.placed.stopOf_le _⟩
  | marker mark =>
    exact ⟨_, _, _, rfl, mark.elim lt_size_of_is lt_size_of_is, Nat.le_refl _,
      simple.placed.stopOf_le _⟩
  | receiver this =>
    exact ⟨_, _, _, rfl, lt_size_of_is this, Nat.le_refl _, simple.placed.startOf_le _⟩
  | @parameterModifier index modifier =>
    have words : ∀ text ∈ parameterModifiers, text.toList.head?.any startsWord = true := by
      decide
    have word := simple.placed.kind?_of_start (words _ (List.contains_iff_mem.mp modifier))
    exact ⟨_, _, index, rfl, lt_size_of_kind? word, Nat.le_refl _, simple.placed.startOf_le _⟩
  | generics angle | arrowGenerics angle => exact absurd angle noAngle
  | signature signature =>
    obtain ⟨_, _, function, _⟩ := signature
    exact absurd function (noWord (by decide))
  | declaration _ declared =>
    have listed : ∀ text ∈ ["interface", "type", "declare"], text ∈ meaningfulWords := by
      decide
    exact absurd (listed _ (List.contains_iff_mem.mp declared)) (simple.text_free _)
  | abstractClass word | typeSpecifier word | enumeration word =>
    exact absurd word (noWord (by decide))
  | implemented owner | memberModifier owner | member owner | assignments owner =>
    exact absurd owner noClass
  | assertion operator | typeClause operator =>
    exact (operator.elim (noWord (by decide)) (noWord (by decide))).elim

end Simple

/-- The first of the edits of an outcome drops a token, or it is an insertion. -/
theorem Outcome.drops_first {edit : Edit} {edits : List Edit} {lower upper : Nat}
    (outcome : stream.Outcome lower (edit :: edits) upper) :
    (∃ start finish first stop, edit = .erase start finish ∧
      stream.Drops start finish first stop) ∨ ∃ offset text, edit = .insert offset text := by
  have ofTidy : ∀ {edits : List Edit} {lower upper : Nat},
      stream.Tidy lower (edit :: edits) upper →
        (∃ start finish first stop, edit = .erase start finish ∧
          stream.Drops start finish first stop) ∨ ∃ offset text, edit = .insert offset text := by
    intro edits lower upper tidy
    cases tidy with
    | erase _ drops => exact .inl ⟨_, _, _, _, rfl, drops⟩
    | insert => exact .inr ⟨_, _, rfl⟩
  cases outcome with
  | tidy tidy _ => exact ofTidy tidy
  | splits splits =>
    obtain ⟨before, start, finish, _, first, stop, shape, tidy, drops, _⟩ := splits
    cases before with
    | nil =>
      obtain ⟨rfl, _⟩ := List.cons.inj shape
      exact .inl ⟨start, finish, first, stop, rfl, drops⟩
    | cons other before =>
      obtain ⟨rfl, _⟩ := List.cons.inj shape
      exact ofTidy tidy

/-- Erasing the types of simple tokens returns them as they are exactly if the walk finds nothing
to change. -/
theorem Simple.eraseTypes_iff {source : String} (simple : stream.Simple)
    (read : ofSource source.toList = .ok stream) :
    eraseTypes source = .ok source ↔ Unchanged (stream.walkFrom 0 0 (.upTo stream.size)) := by
  have same : stream.source.toList = source.toList := by
    obtain ⟨tokens, partners, _, _, rfl⟩ := ofSource_eq_ok_iff.mp read
    rfl
  rw [eraseTypes_eq_ok_iff read]
  constructor
  · rintro ⟨edits, found, written⟩
    have justified := justified_of_edits read found
    obtain ⟨whole, walked, result⟩ := bind_eq_ok_iff.mp found
    cases result
    obtain ⟨next, edits⟩ := whole
    cases edits with
    | nil => exact ⟨next, walked⟩
    | cons edit edits =>
      have regular := simple.isPlain.regular simple.placed
      have outcome := outcome_of_walkFrom simple.nested simple.placed regular
        (simple.not_hasWord (by decide)) (contained_zero _) (.refl 0) walked
      obtain ⟨start, finish, index, rfl, inside, before, _⟩ :=
        simple.erases_of_justified (justified edit List.mem_cons_self)
      rcases outcome.drops_first with ⟨_, _, first, stop, shape, drops⟩ | ⟨_, _, shape⟩
      case inr => contradiction
      cases shape
      have fit : ∀ edit ∈ .erase start finish :: edits, edit.Fits stream.source fun _ => False := by
        intro edit member
        obtain ⟨_, _, _, rfl, _, _, bound⟩ := simple.erases_of_justified (justified edit member)
        exact bound
      -- The erased span may begin behind the last token, which it covers then.
      obtain ⟨token, real, after, covered⟩ : ∃ token < stream.size,
          start ≤ stream.startOf token ∧ stream.stopOf token ≤ finish := by
        rcases Nat.lt_or_ge first stream.size with here | past
        · exact ⟨first, here, drops.reaches, drops.covers first drops.nonempty⟩
        · have nonempty := drops.nonempty
          exact ⟨index, inside, before, drops.covers index (by omega)⟩
      obtain ⟨positive, character, found, visible⟩ := exists_visible_startOf read real
      refine absurd ?_ (editedText_ne_of_erase found visible after (by omega) fit)
      rw [same]
      exact written.symm
  · rintro ⟨next, walked⟩
    refine ⟨[], ?_, ?_⟩
    · unfold edits
      rw [walked]
      rfl
    · rw [editedText_nil, same]

end TokenStream

open Expression

/-- A plain expression as a statement is returned as it is exactly if no conditional in it has a
closing parenthesis before its colon and a bare arrow function behind it. -/
theorem eraseTypes_statement_iff (expression : Expression .expression) (spaces : Nat) :
    eraseTypes (expression.statement spaces) = .ok (expression.statement spaces) ↔
      expression.readsAsAnnotated = false := by
  obtain ⟨stream, read, simple, symbols⟩ := expression.exists_stream_of_statement spaces
  have balanced : stream.Balanced 0 stream.size := by
    refine ((TokenStream.closes_of_size_le simple.nested 0 (Nat.le_refl _)).balanced_or_takesCloser
      (Nat.zero_le _)).resolve_right ?_
    rintro ⟨_, _, _, before, _⟩
    exact absurd before (Nat.not_lt_zero _)
  have closed : (∃ index, AnnotatedAt (expression.symbols ++ [.mark ";"]) index) ↔
      expression.readsAsAnnotated = true := by
    refine (exists_annotatedAt_of_apart (by decide)).trans
      ((or_iff_left ?_).trans expression.exists_annotatedAt_symbols)
    rintro ⟨index, annotated⟩
    exact absurd annotated.lt_length (by simp)
  rw [simple.eraseTypes_iff read, simple.walkFrom_unchanged_iff balanced,
    simple.unannotatedFrom_zero_iff, symbols, closed, Bool.not_eq_true]

/-- A name of one letter. -/
def Expression.Name.letter (first : Char) (starts : startsWord first = true)
    (free : String.ofList [first] ∉ meaningfulWords) : Name :=
  ⟨first, [], starts, by simp, free⟩

/-- A conditional between a group and a bare arrow function. -/
def Expression.groupOrArrow : Expression .expression :=
  .conditional (.object (.name (.letter 'a' (by decide) (by decide))))
    (.operand (.object (.group (.operand (.object (.name (.letter 'b' (by decide) (by decide))))))))
    (.arrow (.letter 'c' (by decide) (by decide))
      (.operand (.object (.name (.letter 'd' (by decide) (by decide))))))

/-- The parameter of the arrow function is taken for a return type and erased. -/
theorem eraseTypes_groupOrArrow :
    groupOrArrow.statement 1 = "a ? (b) : c => d;" ∧
      eraseTypes (groupOrArrow.statement 1) = .ok "a ? (b) => d;" := by
  have written : groupOrArrow.statement 1 = "a ? (b) : c => d;" := by
    decide +kernel
  refine ⟨written, ?_⟩
  rw [written]
  decide +kernel

end Playground

import Playground.Erasure.TokenStream

/-!
# Where tokens stand

`Tiles` says that tokens follow one another in a text, each a non-empty slice of it, with
gaps between them. The tokenizer only ever cuts its input, so its tokens tile the program;
bounds, order and spelling of the tokens of a `TokenStream` follow from that.
-/

namespace Playground

/-- A computation that succeeds after another succeeds with some value of the other. -/
theorem bind_eq_ok_iff {ε α β : Type} {first : Except ε α} {next : α → Except ε β} {result : β} :
    first >>= next = .ok result ↔ ∃ value, first = .ok value ∧ next value = .ok result := by
  cases first with
  | error error => simp [bind, Except.bind]
  | ok value => simp [bind, Except.bind]

/-- A computation whose value is only passed on succeeds exactly if it did. -/
theorem exists_map_eq_ok_iff {ε α β : Type} {first : Except ε α} {image : α → β} :
    (∃ result, (first >>= fun value => pure (image value)) = .ok result) ↔
      ∃ value, first = .ok value := by
  cases first with
  | error error => simp [bind, Except.bind]
  | ok value => simp [bind, Except.bind, pure, Except.pure]

/-- A result that can be seen to have a property. -/
theorem exists_ok_of_any {ε α : Type} {result : Except ε α} (p : α → Prop) [DecidablePred p]
    (holds : (result.toOption.any fun value => decide (p value)) = true) :
    ∃ value, result = .ok value ∧ p value := by
  cases result with
  | error error => contradiction
  | ok value => exact ⟨value, rfl, of_decide_eq_true holds⟩

/-- A text has a character that no word has. -/
def hasMark (text : String) : Bool :=
  text.toList.any fun character => !(character == '#' || continuesWord character)

/-- How a token of each kind is spelled, as far as later passes depend on it. -/
def Token.WellSpelled (token : Token) : Prop :=
  match token.kind with
  | .word => ∀ character ∈ token.text.toList, character = '#' ∨ continuesWord character = true
  | .template | .templateHead => token.text.toList.head? = some '\x60'
  | .templateMiddle | .templateTail => token.text.toList.head? = some '\x7d'
  | .number | .string | .regex | .punctuator =>
    token.text.toList.head?.any startsWord = false

/-- Tokens stand one after another in a text that starts at an offset. -/
inductive Tiles : Nat → List Char → List Token → Prop where
  | done {offset input} : Tiles offset input []
  | token {offset gap lexeme rest token tokens}
      (nonempty : lexeme ≠ [])
      (text : token.text = String.ofList lexeme)
      (start : token.start = offset + gap.length)
      (spelled : token.WellSpelled)
      (following : Tiles (offset + gap.length + lexeme.length) rest tokens) :
      Tiles offset (gap ++ lexeme ++ rest) (token :: tokens)

/-- A scanned token is not empty. -/
theorem Scanned.lexeme_ne_nil {input : List Char} (scanned : Scanned input) :
    scanned.lexeme ≠ [] := by
  intro empty
  have progress := scanned.progress
  have size := scanned.length_add
  simp [empty] at size
  omega

theorem continuesWord_of_startsWord {character : Char} (starts : startsWord character = true) :
    continuesWord character = true := by
  simp [continuesWord, starts]

/-- A part of a template keeps its first character and is of one of two kinds. -/
theorem Scanned.of_templatePart {closed opened : TokenKind} {braces : List Brace} {first : Char}
    {rest : List Char} {scanned : Scanned (first :: rest)}
    (found : Scanned.templatePart closed opened braces first = some scanned) :
    (scanned.kind = closed ∨ scanned.kind = opened) ∧ scanned.lexeme.head? = some first := by
  simp only [Scanned.templatePart, Option.map_eq_some_iff] at found
  obtain ⟨⟨ending, cut⟩, _, rfl⟩ := found
  cases ending <;> simp [Scanned.headed, Cut.push]

/-- A token as it is scanned is well spelled. -/
theorem wellSpelled_of_scanToken {previous : Option Token} {braces : List Brace} {first : Char}
    {rest : List Char} {scanned : Scanned (first :: rest)}
    (found : scanToken previous braces first rest = .ok scanned) (start : Nat)
    (newlineBefore : Bool) :
    Token.WellSpelled
      ⟨scanned.kind, String.ofList scanned.lexeme, start, newlineBefore⟩ := by
  have wordTail : ∀ character ∈ (Cut.spanning continuesWord rest).lexeme,
      continuesWord character = true :=
    List.all_eq_true.mp List.all_takeWhile
  unfold scanToken at found
  split at found
  case isTrue isPrivate =>
    cases found
    simp only [Bool.and_eq_true, beq_iff_eq] at isPrivate
    simp only [Token.WellSpelled, Scanned.headed, Cut.push, String.toList_ofList, List.mem_cons]
    rintro character (rfl | inTail)
    · exact .inl isPrivate.1
    · exact .inr (wordTail character inTail)
  split at found
  case isTrue starts =>
    cases found
    simp only [Token.WellSpelled, Scanned.headed, Cut.push, String.toList_ofList, List.mem_cons]
    rintro character (rfl | inTail)
    · exact .inr (continuesWord_of_startsWord starts)
    · exact .inr (wordTail character inTail)
  rename_i notWord
  have noWord : (some first).any startsWord = false := Bool.eq_false_iff.mpr notWord
  split at found
  case isTrue =>
    cases found
    simpa [Token.WellSpelled, Scanned.headed, Cut.push] using noWord
  split at found
  case isTrue =>
    split at found
    · cases found
      simpa [Token.WellSpelled, Scanned.headed, Cut.push] using noWord
    · contradiction
  split at found
  case isTrue quote =>
    split at found
    · cases found
      rename_i part
      obtain ⟨kind | kind, head⟩ := Scanned.of_templatePart part <;>
        simp_all [Token.WellSpelled]
    · contradiction
  split at found
  case isTrue resumes =>
    split at found
    · cases found
      rename_i part
      obtain ⟨kind | kind, head⟩ := Scanned.of_templatePart part <;>
        simp_all [Token.WellSpelled]
    · contradiction
  split at found
  case isTrue =>
    split at found
    · cases found
      simpa [Token.WellSpelled, Scanned.headed, Cut.push] using noWord
    · contradiction
  cases found
  obtain ⟨count, length⟩ : ∃ count, punctuatorLength (first :: rest) = count + 1 :=
    ⟨_, (Nat.succ_pred_eq_of_pos (punctuatorLength_pos _)).symm⟩
  simpa [Token.WellSpelled, Scanned.punctuator, Cut.after, length] using noWord

/-- The tokens of an input tile it. -/
theorem tiles_of_tokensFrom {offset : Nat} {previous : Option Token} {braces : List Brace}
    {input : List Char} {tokens : List Token}
    (scanned : tokensFrom offset previous braces input = .ok tokens) :
    Tiles offset input tokens := by
  fun_induction tokensFrom offset previous braces input generalizing tokens with
  | case1 | case3 | case4 => contradiction
  | case2 => cases scanned; exact .done
  | case5 offset previous braces input before _ first rest shape _ start token found =>
    rename_i following followed inductionHypothesis
    cases scanned
    have cut : input = before.lexeme ++ token.lexeme ++ token.rest := by
      rw [List.append_assoc, token.joined, ← shape, before.joined]
    rw [cut]
    exact .token token.lexeme_ne_nil rfl rfl (wellSpelled_of_scanToken found _ _)
      (inductionHypothesis followed)

/-! ## Consequences for token lists -/

section Lists

variable {offset : Nat} {input : List Char} {tokens : List Token} {token : Token}

/-- A token lies within the text and its text is the slice of it. -/
theorem Tiles.of_mem (tiles : Tiles offset input tokens) (member : token ∈ tokens) :
    offset ≤ token.start ∧ token.start < token.stop ∧ token.stop ≤ offset + input.length ∧
      token.WellSpelled := by
  induction tiles with
  | done => contradiction
  | @token offset gap lexeme rest first following nonempty text start spelled _
      inductionHypothesis =>
    have positive := List.length_pos_iff.mpr nonempty
    rcases List.mem_cons.mp member with rfl | inFollowing
    · simp only [Token.stop, text, start, String.length_ofList, List.length_append]
      exact ⟨by omega, by omega, by omega, spelled⟩
    · have := inductionHypothesis inFollowing
      simp only [List.length_append]
      refine ⟨by omega, this.2.1, by omega, this.2.2.2⟩

/-- An earlier token stops before a later one starts. -/
theorem Tiles.pairwise (tiles : Tiles offset input tokens) :
    tokens.Pairwise fun earlier later => earlier.stop ≤ later.start := by
  induction tiles with
  | done => exact .nil
  | @token offset gap lexeme rest first following nonempty text start spelled tiled
      inductionHypothesis =>
    refine List.pairwise_cons.mpr ⟨fun later member => ?_, inductionHypothesis⟩
    have bounds := tiled.of_mem member
    simp only [Token.stop, text, start, String.length_ofList]
    exact bounds.1

end Lists

/-! ## Consequences for token streams -/

namespace TokenStream

section Looking

variable {stream : TokenStream} {index : Nat} {text : String}

theorem is_iff : stream.is index text = true ↔
    (stream.kind? index = some .punctuator ∨ stream.kind? index = some .word) ∧
      stream.text index = text := by
  unfold is kind? TokenStream.text
  cases stream.get? index with
  | none => simp
  | some token => simp

theorem is_of_word (word : stream.kind? index = some .word)
    (spelled : stream.text index = text) : stream.is index text = true :=
  is_iff.mpr ⟨.inr word, spelled⟩

theorem is_of_mark (mark : stream.kind? index = some .punctuator)
    (spelled : stream.text index = text) : stream.is index text = true :=
  is_iff.mpr ⟨.inl mark, spelled⟩

theorem stopOf_eq_of_is (found : stream.is index text = true) :
    stream.stopOf index = stream.startOf index + text.length := by
  unfold is at found
  unfold stopOf startOf
  split at found
  · rw [← beq_iff_eq.mp (Bool.and_eq_true_iff.mp found).2]
    rfl
  · contradiction

theorem lt_size_of_kind? {kind : TokenKind} (found : stream.kind? index = some kind) :
    index < stream.size := by
  obtain ⟨token, shape, _⟩ := Option.map_eq_some_iff.mp found
  exact lt_size_of_get?_eq_some shape

theorem kind?_of_isPlainWord (plain : stream.isPlainWord index = true) :
    stream.kind? index = some .word := by
  unfold isPlainWord at plain
  unfold kind?
  split at plain
  · rename_i token found
    rw [found, Option.map_some, beq_iff_eq.mp (Bool.and_eq_true_iff.mp plain).1]
  · contradiction

end Looking

/-- The tokens of a stream stand in its source, in order. -/
structure Placed (stream : TokenStream) : Prop where
  bounds : ∀ {index token}, stream.get? index = some token →
    token.start < token.stop ∧ token.stop ≤ stream.source.size ∧ token.WellSpelled
  ordered : ∀ {first second earlier later}, stream.get? first = some earlier →
    stream.get? second = some later → first < second → earlier.stop ≤ later.start

/-- A program is read into its own characters, its tokens and their partners. -/
theorem ofSource_eq_ok_iff {source : List Char} {stream : TokenStream} :
    ofSource source = .ok stream ↔ ∃ tokens partners, tokenize source = .ok tokens ∧
      matchBrackets tokens = .ok partners ∧
      stream = ⟨source.toArray, tokens.toArray, partners⟩ := by
  simp only [ofSource, bind_eq_ok_iff, pure, Except.pure, Except.ok.injEq]
  constructor
  · rintro ⟨tokens, tokenized, partners, matched, rfl⟩
    exact ⟨tokens, partners, tokenized, matched, rfl⟩
  · rintro ⟨tokens, partners, tokenized, matched, rfl⟩
    exact ⟨tokens, tokenized, partners, matched, rfl⟩

theorem placed_of_ofSource {source : List Char} {stream : TokenStream}
    (read : ofSource source = .ok stream) : stream.Placed := by
  obtain ⟨tokens, partners, tokenized, _, rfl⟩ := ofSource_eq_ok_iff.mp read
  have tiles : Tiles 0 source tokens := tiles_of_tokensFrom tokenized
  constructor
  · intro index token found
    simp only [get?, List.getElem?_toArray] at found
    have placed := tiles.of_mem (List.mem_of_getElem? found)
    simp only [List.size_toArray]
    exact ⟨placed.2.1, by omega, placed.2.2.2⟩
  · intro first second earlier later foundEarlier foundLater before
    simp only [get?, List.getElem?_toArray] at foundEarlier foundLater
    obtain ⟨firstInside, rfl⟩ := List.getElem?_eq_some_iff.mp foundEarlier
    obtain ⟨secondInside, rfl⟩ := List.getElem?_eq_some_iff.mp foundLater
    exact List.pairwise_iff_getElem.mp tiles.pairwise first second _ _ before

namespace Placed

variable {stream : TokenStream} (placed : stream.Placed)

include placed

theorem stopOf_le (index : Nat) : stream.stopOf index ≤ stream.source.size := by
  unfold stopOf
  split
  · rename_i token found
    exact (placed.bounds found).2.1
  · exact Nat.le_refl _

theorem startOf_le_stopOf (index : Nat) : stream.startOf index ≤ stream.stopOf index := by
  unfold startOf stopOf
  split
  · rename_i token found
    exact Nat.le_of_lt (placed.bounds found).1
  · exact Nat.le_refl _

theorem startOf_le (index : Nat) : stream.startOf index ≤ stream.source.size :=
  Nat.le_trans (placed.startOf_le_stopOf index) (placed.stopOf_le index)

/-- A token stops before every later one starts, the end of the program included. -/
theorem stopOf_le_startOf {first second : Nat} (before : first < second) :
    stream.stopOf first ≤ stream.startOf second := by
  cases earlier : stream.get? first with
  | none =>
    have past : stream.get? second = none := by
      unfold get? at earlier ⊢
      rw [Array.getElem?_eq_none_iff] at earlier ⊢
      omega
    simp [stopOf, startOf, earlier, past]
  | some token =>
    cases later : stream.get? second with
    | none =>
      simp only [startOf, later]
      exact placed.stopOf_le first
    | some following =>
      simp only [startOf, stopOf, later, earlier]
      exact placed.ordered earlier later before

theorem stopOf_mono {first second : Nat} (ordered : first ≤ second) :
    stream.stopOf first ≤ stream.stopOf second := by
  rcases Nat.eq_or_lt_of_le ordered with rfl | before
  · exact Nat.le_refl _
  · exact Nat.le_trans (placed.stopOf_le_startOf before) (placed.startOf_le_stopOf second)

theorem startOf_mono {first second : Nat} (ordered : first ≤ second) :
    stream.startOf first ≤ stream.startOf second := by
  rcases Nat.eq_or_lt_of_le ordered with rfl | before
  · exact Nat.le_refl _
  · exact Nat.le_trans (placed.startOf_le_stopOf first) (placed.stopOf_le_startOf before)

/-- A word holds no marks. -/
theorem continues_of_kind {index : Nat} (word : stream.kind? index = some .word) :
    ∀ character ∈ (stream.text index).toList, character = '#' ∨ continuesWord character = true := by
  unfold kind? at word
  cases found : stream.get? index with
  | none => simp [found] at word
  | some token =>
    rw [found, Option.map_some, Option.some.injEq] at word
    have spelled := (placed.bounds found).2.2
    simp only [Token.WellSpelled, word] at spelled
    simpa only [TokenStream.text, found] using spelled

/-- A text with marks in it belongs to a punctuator. -/
theorem kind?_of_mark {index : Nat} {text : String} (found : stream.is index text = true)
    (mark : hasMark text = true) : stream.kind? index = some .punctuator := by
  obtain ⟨punctuator | word, rfl⟩ := is_iff.mp found
  · exact punctuator
  · obtain ⟨character, member, foreign⟩ := List.any_eq_true.mp mark
    rcases placed.continues_of_kind word character member with hash | continues
    · simp [hash] at foreign
    · simp [continues] at foreign

/-- Where a word stands, no mark does. -/
theorem is_eq_false_of_word {index : Nat} {text : String}
    (word : stream.kind? index = some .word) (mark : hasMark text = true) :
    stream.is index text = false := by
  rw [Bool.eq_false_iff]
  intro found
  exact absurd ((placed.kind?_of_mark found mark).symm.trans word) (by decide)

theorem isPlainWord_eq_false {index : Nat} {text : String} (found : stream.is index text = true)
    (mark : hasMark text = true) : stream.isPlainWord index = false := by
  rw [Bool.eq_false_iff]
  intro plain
  rw [placed.is_eq_false_of_word (kind?_of_isPlainWord plain) mark] at found
  contradiction

/-- A text that starts like a word belongs to a word. -/
theorem kind?_of_start {index : Nat}
    (starts : (stream.text index).toList.head?.any startsWord = true) :
    stream.kind? index = some .word := by
  unfold TokenStream.text at starts
  unfold kind?
  cases found : stream.get? index with
  | none => simp [found] at starts
  | some token =>
    have spelled := (placed.bounds found).2.2
    simp only [found] at starts
    unfold Token.WellSpelled at spelled
    split at spelled
    case h_1 word => rw [Option.map_some, word]
    case h_2 | h_3 | h_4 | h_5 =>
      rw [spelled] at starts
      exact absurd starts (by decide)
    all_goals simp [spelled] at starts

/-- A word has no line breaks. -/
theorem newline_not_mem_text {index : Nat} (word : stream.isPlainWord index = true) :
    '\n' ∉ (stream.text index).toList := by
  intro newline
  rcases placed.continues_of_kind (kind?_of_isPlainWord word) _ newline with hash | continues
  · exact absurd hash (by decide)
  · exact absurd continues (by decide)

end Placed

/-- The stream has a word of the given text. -/
def HasWord (stream : TokenStream) (text : String) : Prop :=
  ∃ index, stream.kind? index = some .word ∧ stream.text index = text

instance (stream : TokenStream) (text : String) : Decidable (stream.HasWord text) :=
  decidable_of_iff (∃ index < stream.size,
    stream.kind? index = some .word ∧ stream.text index = text)
    ⟨fun ⟨index, _, found⟩ => ⟨index, found⟩,
      fun ⟨index, found⟩ => ⟨index, lt_size_of_kind? found.1, found⟩⟩

theorem Placed.hasWord_of_is {stream : TokenStream} (placed : stream.Placed) {index : Nat}
    {text : String} (found : stream.is index text = true) (word : text.toList.head?.any startsWord = true) :
    stream.HasWord text := by
  obtain ⟨_, spelled⟩ := is_iff.mp found
  exact ⟨index, placed.kind?_of_start (spelled ▸ word), spelled⟩

end TokenStream

end Playground

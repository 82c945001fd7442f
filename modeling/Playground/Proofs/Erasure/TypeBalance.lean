import Playground.Proofs.Erasure.Pairing.Parts
import Playground.Proofs.Erasure.Trackers

/-!
# Types are balanced

What a recogniser of types passes is a `Phrase`, so each of its tokens is ordinary or in a bracket
pair or template that is passed whole (`Phrase.place`). A part of a template belongs to a template
(`exists_partOf`), which lies in the same pair or template (`PartOf.within`): the levels of the
stack leave no other place for its ends. As no type is empty, a recognised span is
`SelfContained`.
-/

namespace Playground

/-! ## Parts of templates -/

/-- A head, a middle or a tail of a template with substitutions. -/
def Token.IsTemplatePart (token : Token) : Prop :=
  token.kind = .templateHead ∨ token.kind = .templateMiddle ∨ token.kind = .templateTail

/-- The token at a position is a part of the template from a head to a tail. -/
structure PartOf (stream : TokenStream) (head tail position : Nat) : Prop where
  closes : ClosesTemplate stream head tail
  belongs : position = tail ∨
    ∃ part outer, TemplatePart stream head part outer ∧ part.index = position

/-- A bracket pair or a template begins at an index and ends at another. -/
inductive Delimits (stream : TokenStream) : Nat → Nat → Prop where
  | pair {opening close} (closes : stream.closer? opening = some close) :
      Delimits stream opening close
  | template {head tail} (closes : ClosesTemplate stream head tail) : Delimits stream head tail

/-- The token at a position is in a bracket pair or template that begins at or behind `first` and
ends before `stop`. -/
structure HeldIn (stream : TokenStream) (first stop position opening close : Nat) : Prop where
  delimits : Delimits stream opening close
  lower : first ≤ opening
  opens : opening ≤ position
  closes : position ≤ close
  upper : close < stop

section Parts

variable {stream : TokenStream} {pairs : List (Nat × Nat)} {head tail index position : Nat}
  {token : Token} {part entry : IndexedToken} {inner outer : List IndexedToken}

theorem TemplatePart.kind?_head (isPart : TemplatePart stream head part outer) :
    stream.kind? head = some .templateHead := by
  induction isPart with
  | head found kind => rw [TokenStream.kind?, found, Option.map_some, kind]
  | middle _ _ _ _ inductionHypothesis => exact inductionHypothesis

/-- What opens a substitution and is on the stack is a part of a template. -/
theorem exists_templatePart_of_stackAt
    (paired : pairBrackets [] 0 stream.tokens.toList = .ok pairs)
    (reached : stackAt stream.tokens.toList index = .ok (inner ++ entry :: outer))
    (opens : entry.token.opensSubstitution = true) :
    ∃ head, TemplatePart stream head entry outer := by
  induction index generalizing inner entry outer with
  | zero =>
    have empty : [] = inner ++ entry :: outer := Except.ok.inj reached
    simp at empty
  | succ index inductionHypothesis =>
    cases found : stream.get? index with
    | none =>
      have past : stream.tokens.toList[index]? = none := by
        rw [Array.getElem?_toList]
        exact found
      rw [stackAt_succ_of_none past] at reached
      exact inductionHypothesis reached opens
    | some token =>
      obtain ⟨opened, reachedBefore⟩ := exists_stackAt paired index
      obtain ⟨next, reachedNext, step⟩ :=
        exists_stackStep paired (TokenStream.getElem?_toList found) reachedBefore
      obtain rfl := Except.ok.inj (reachedNext.symm.trans reached)
      generalize shape : inner ++ entry :: outer = after at step
      cases step with
      | neutral => exact inductionHypothesis (shape ▸ reachedBefore) opens
      | opens role =>
        cases inner with
        | nil =>
          obtain ⟨rfl, rfl⟩ := List.cons.inj shape
          have kind : token.kind = .templateHead := by
            refine (Token.bracketRole_eq_opens role).resolve_left fun mark => ?_
            simp [Token.opensSubstitution, mark] at opens
          exact ⟨index, .head found kind reachedBefore⟩
        | cons first inner =>
          obtain ⟨-, rfl⟩ := List.cons.inj shape
          exact inductionHypothesis reachedBefore opens
      | @closes innermost =>
        subst shape
        exact @inductionHypothesis _ (innermost :: inner) _ reachedBefore opens
      | @continues part below role opensPart =>
        cases inner with
        | nil =>
          obtain ⟨rfl, rfl⟩ := List.cons.inj shape
          obtain ⟨head, isPart⟩ := @inductionHypothesis _ [] _ reachedBefore opensPart
          have kind : token.kind = .templateMiddle := by
            refine (Token.bracketRole_eq_resumes role).resolve_right fun tail => ?_
            simp [Token.opensSubstitution, tail] at opens
          exact ⟨head, .middle isPart found kind reachedBefore⟩
        | cons first inner =>
          obtain ⟨-, rfl⟩ := List.cons.inj shape
          exact @inductionHypothesis _ (part :: inner) _ reachedBefore opens
      | @ends part =>
        subst shape
        exact @inductionHypothesis _ (part :: inner) _ reachedBefore opens

/-- Where a template goes on or ends, a part of it is innermost. -/
theorem exists_templatePart_of_resumes
    (paired : pairBrackets [] 0 stream.tokens.toList = .ok pairs)
    (found : stream.get? position = some token)
    (kind : token.kind = .templateMiddle ∨ token.kind = .templateTail) :
    ∃ head part outer, TemplatePart stream head part outer ∧
      stackAt stream.tokens.toList position = .ok (part :: outer) := by
  obtain ⟨continues, role⟩ := Token.exists_bracketRole_eq_resumes kind
  obtain ⟨opened, reached⟩ := exists_stackAt paired position
  obtain ⟨next, _, step⟩ :=
    exists_stackStep paired (TokenStream.getElem?_toList found) reached
  cases step with
  | neutral other | opens other | closes other => exact absurd (role.symm.trans other) (by simp)
  | continues _ opens | ends _ opens =>
    obtain ⟨head, isPart⟩ := @exists_templatePart_of_stackAt _ _ _ _ [] _ paired reached opens
    exact ⟨head, _, _, isPart, reached⟩

theorem TokenStream.exists_pairs_of_ofSource {source : List Char}
    (read : TokenStream.ofSource source = .ok stream) :
    ∃ pairs, pairBrackets [] 0 stream.tokens.toList = .ok pairs := by
  obtain ⟨tokens, partners, _, matched, rfl⟩ := TokenStream.ofSource_eq_ok_iff.mp read
  obtain ⟨pairs, paired, -⟩ := bind_eq_ok_iff.mp matched
  exact ⟨pairs, paired⟩

section Read

variable {source : List Char} (read : TokenStream.ofSource source = .ok stream)

include read

theorem closesTemplate_templateTail (kind : stream.kind? head = some .templateHead) :
    ClosesTemplate stream head (stream.templateTail head) :=
  ((templateFound_of_ofSource read kind).closes _).mpr rfl

/-- Every part of a template belongs to one. -/
theorem exists_partOf (found : stream.get? position = some token) (part : token.IsTemplatePart) :
    ∃ head tail, PartOf stream head tail position := by
  obtain ⟨pairs, paired⟩ := TokenStream.exists_pairs_of_ofSource read
  rcases part with kind | kind | kind
  · obtain ⟨outer, reached⟩ := exists_stackAt paired position
    have isPart := TemplatePart.head found kind reached
    exact ⟨position, _, closesTemplate_templateTail read isPart.kind?_head,
      .inr ⟨_, outer, isPart, rfl⟩⟩
  · obtain ⟨head, prior, outer, isPart, reached⟩ :=
      exists_templatePart_of_resumes paired found (.inl kind)
    exact ⟨head, _, closesTemplate_templateTail read isPart.kind?_head,
      .inr ⟨_, outer, .middle isPart found kind reached, rfl⟩⟩
  · obtain ⟨head, prior, outer, isPart, reached⟩ :=
      exists_templatePart_of_resumes paired found (.inr kind)
    have atTail : stream.kind? position = some .templateTail := by
      rw [TokenStream.kind?, found, Option.map_some, kind]
    exact ⟨head, position, ⟨atTail, prior, outer, isPart, reached⟩, .inl rfl⟩

/-- A part of a template stands between its ends. -/
theorem PartOf.between (isPart : PartOf stream head tail position) :
    head ≤ position ∧ position ≤ tail := by
  obtain ⟨pairs, paired⟩ := TokenStream.exists_pairs_of_ofSource read
  have returns := isPart.closes.returns paired
  have ordered : head < tail := returns.after
  rcases isPart.belongs with rfl | ⟨part, outer, belongs, rfl⟩
  · exact ⟨Nat.le_of_lt ordered, Nat.le_refl _⟩
  · refine ⟨belongs.head_le paired, ?_⟩
    -- Behind its tail the template is no longer open.
    by_contra past
    have earlier : tail + 1 ≤ part.index + 1 := by omega
    obtain ⟨inner, entry, reached⟩ :=
      belongs.exists_stackAt paired (Nat.lt_succ_of_lt ordered) earlier
    have level : outer.length = stream.depth head := length_of_stackAt paired belongs.reached_head
    have deeper := length_of_stackAt paired reached
    rw [returns.outside, ← level, List.length_append, List.length_cons] at deeper
    omega

/-- Where a template goes on or ends, it is one level deeper than before. -/
theorem PartOf.resumes (isPart : PartOf stream head tail position) (behind : position ≠ head) :
    stream.depth position = stream.depth head + 1 ∧
      (stream.kind? position = some .templateMiddle ∨
        stream.kind? position = some .templateTail) := by
  obtain ⟨pairs, paired⟩ := TokenStream.exists_pairs_of_ofSource read
  have deeper : ∀ {part outer}, TemplatePart stream head part outer →
      stackAt stream.tokens.toList position = .ok (part :: outer) →
        stream.depth position = stream.depth head + 1 := by
    intro part outer belongs reached
    exact (length_of_stackAt paired reached).symm.trans
      (congrArg (· + 1) (length_of_stackAt paired belongs.reached_head))
  rcases isPart.belongs with rfl | ⟨part, around, belongs, rfl⟩
  · obtain ⟨tailKind, last, outer, isLast, reached⟩ := isPart.closes
    exact ⟨deeper isLast reached, .inr tailKind⟩
  · cases belongs with
    | head => exact absurd rfl behind
    | middle prior found kind reached =>
      exact ⟨deeper prior reached, .inl (by rw [TokenStream.kind?, found, Option.map_some, kind])⟩

/-! ## Pairs and templates -/

variable {opening close first stop : Nat}

theorem Delimits.returns (delimits : Delimits stream opening close) :
    Returns stream.tokens.toList (stream.depth opening) (opening + 1) close := by
  obtain ⟨pairs, paired⟩ := TokenStream.exists_pairs_of_ofSource read
  cases delimits with
  | pair closes => exact ((TokenStream.nested_of_ofSource read).pairs closes).returns
  | template closes => exact closes.returns paired

omit read in
/-- The first token is a punctuator or a head. -/
theorem Delimits.kind?_opening (nested : stream.Nested) (delimits : Delimits stream opening close) :
    stream.kind? opening = some .punctuator ∨ stream.kind? opening = some .templateHead := by
  cases delimits with
  | pair closes => exact .inl (nested.text_bracket closes).1
  | template closes =>
    obtain ⟨-, part, outer, isPart, -⟩ := closes
    exact .inr isPart.kind?_head

omit read in
/-- Neither of the two ends is a neutral token. -/
theorem Delimits.not_isNeutral (nested : stream.Nested) (delimits : Delimits stream opening close)
    (ending : position = opening ∨ position = close) : ¬stream.IsNeutral position := by
  have ofKind : ∀ {kind : TokenKind}, kind = .templateHead ∨ kind = .templateTail →
      stream.kind? position = some kind → ¬stream.IsNeutral position := by
    rintro kind template atPosition ⟨token, found, neutral⟩
    rw [TokenStream.kind?, found, Option.map_some, Option.some.injEq] at atPosition
    rcases template with rfl | rfl <;> simp [Token.bracketRole, atPosition] at neutral
  cases delimits with
  | pair closes => exact (nested.bracket closes ending).2
  | template closes =>
    obtain ⟨tailKind, part, outer, isPart, -⟩ := closes
    rcases ending with rfl | rfl
    · exact ofKind (.inl rfl) isPart.kind?_head
    · exact ofKind (.inr rfl) tailKind

omit read in
theorem HeldIn.widen {next : Nat} (held : HeldIn stream next stop position opening close)
    (later : first ≤ next) : HeldIn stream first stop position opening close :=
  ⟨held.delimits, Nat.le_trans later held.lower, held.opens, held.closes, held.upper⟩

/-- A token of a phrase is ordinary, or in a pair or template of the phrase. -/
theorem TokenStream.Phrase.place (phrase : stream.Phrase first stop) (after : first ≤ position)
    (before : position < stop) :
    stream.IsOrdinary position ∨
      ∃ opening close, HeldIn stream first stop position opening close := by
  have nested := TokenStream.nested_of_ofSource read
  have enclosed : ∀ {first close stop}, Delimits stream first close → close < stop →
      first ≤ position → (close < position → stream.IsOrdinary position ∨
        ∃ opening behind, HeldIn stream (close + 1) stop position opening behind) →
      stream.IsOrdinary position ∨
        ∃ opening behind, HeldIn stream first stop position opening behind := by
    intro first close stop delimits upper lower rest
    have ordered : first < close := (delimits.returns read).after
    rcases Nat.lt_or_ge close position with later | earlier
    · refine (rest later).imp_right ?_
      rintro ⟨opening, behind, held⟩
      exact ⟨opening, behind, held.widen (by omega)⟩
    · exact .inr ⟨first, close, delimits, Nat.le_refl _, lower, earlier, upper⟩
  induction phrase with
  | nothing => omega
  | @token first stop ordinary rest inductionHypothesis =>
    rcases Nat.eq_or_lt_of_le after with rfl | later
    · exact .inl ordinary
    · refine (inductionHypothesis later before).imp_right ?_
      rintro ⟨opening, close, held⟩
      exact ⟨opening, close, held.widen (Nat.le_succ first)⟩
  | pair closes rest inductionHypothesis =>
    exact enclosed (.pair closes) (rest.le nested) after fun later =>
      inductionHypothesis later before
  | template opens rest inductionHypothesis =>
    exact enclosed (.template (closesTemplate_templateTail read opens)) (rest.le nested) after
      fun later => inductionHypothesis later before

omit read in
/-- What opens inside a pair or template closes inside it. -/
theorem Returns.le_of_opened {tokens : List Token}
    (outside : Returns tokens (depthAt tokens opening) (opening + 1) close)
    (inside : Returns tokens (depthAt tokens head) (head + 1) tail) (after : opening ≤ head)
    (before : head ≤ close) : tail ≤ close := by
  rcases Nat.eq_or_lt_of_le after with rfl | later
  · exact Nat.le_of_eq (inside.unique outside)
  · by_contra past
    have level := outside.outside
    have deeper := outside.inside head later before
    have deepest := inside.inside (close + 1) (by omega) (by omega)
    omega

/-- A template with a part in a pair or template lies in it. -/
theorem PartOf.within (isPart : PartOf stream head tail position)
    (delimits : Delimits stream opening close) (after : opening ≤ position)
    (before : position ≤ close) : opening ≤ head ∧ tail ≤ close := by
  obtain ⟨pairs, paired⟩ := TokenStream.exists_pairs_of_ofSource read
  obtain ⟨lower, upper⟩ := isPart.between read
  have outside := delimits.returns read
  have inside := isPart.closes.returns paired
  have opens : opening ≤ head := by
    by_contra earlier
    obtain ⟨level, kind⟩ := isPart.resumes read (by omega)
    have apart : opening ≠ position := by
      rintro rfl
      have opener := delimits.kind?_opening (TokenStream.nested_of_ofSource read)
      rcases kind with kind | kind <;> rw [kind] at opener <;> simp at opener
    have deeper : stream.depth opening + 1 ≤ stream.depth position :=
      outside.inside position (by omega) before
    have deepest : stream.depth head + 1 ≤ stream.depth opening :=
      inside.inside opening (by omega) (by omega)
    omega
  exact ⟨opens, outside.le_of_opened inside opens (Nat.le_trans lower before)⟩

end Read

end Parts

/-! ## Recognised types -/

/-- The tokens from `first` up to `stop` are some, and whole on their own. -/
structure SelfContained (stream : TokenStream) (first stop : Nat) : Prop where
  nonempty : first < stop
  inside : stop ≤ stream.size
  /-- Brackets have their partners among them. -/
  brackets : ∀ position token, first ≤ position → position < stop →
    stream.get? position = some token → token.IsBracket →
      ∃ partner, stream.partner? position = some partner ∧ first ≤ partner ∧ partner < stop
  /-- Parts of templates belong to templates among them. -/
  templates : ∀ position token, first ≤ position → position < stop →
    stream.get? position = some token → token.IsTemplatePart →
      ∃ head tail, PartOf stream head tail position ∧ first ≤ head ∧ tail < stop
  /-- A bracket pair that they start in, they end in. -/
  enclosed : ∀ opening close, stream.closer? opening = some close → opening < first →
    first ≤ close → stop ≤ close
  /-- A semicolon is in a pair or template among them. -/
  semicolons : ∀ position token, first ≤ position → position < stop →
    stream.get? position = some token → token.isMark ";" = true →
      ∃ opening close, Delimits stream opening close ∧ first ≤ opening ∧ opening < position ∧
        position < close ∧ close < stop

section Types

variable {source : List Char} {stream : TokenStream} {first index stop position : Nat}
  {token : Token}

theorem TokenStream.Phrase.le_size (nested : stream.Nested) (phrase : stream.Phrase first stop)
    (inside : first ≤ stream.size) : stop ≤ stream.size := by
  induction phrase with
  | nothing => exact inside
  | token ordinary _ inductionHypothesis =>
    obtain ⟨token, found, -⟩ := ordinary
    exact inductionHypothesis (TokenStream.lt_size_of_get?_eq_some found)
  | pair closes _ inductionHypothesis =>
    exact inductionHypothesis (TokenStream.lt_size_of_kind? (nested.text_bracket closes).2.1)
  | template opens _ inductionHypothesis =>
    exact inductionHypothesis (TokenStream.lt_size_of_kind? (nested.templateTail opens))

/-- A phrase that is not empty begins with a token. -/
theorem TokenStream.Phrase.lt_size (nested : stream.Nested) (phrase : stream.Phrase first stop)
    (nonempty : first < stop) : first < stream.size := by
  cases phrase with
  | nothing => exact absurd nonempty (Nat.lt_irrefl _)
  | token ordinary =>
    obtain ⟨token, found, -⟩ := ordinary
    exact TokenStream.lt_size_of_get?_eq_some found
  | pair closes => exact TokenStream.lt_size_of_kind? (nested.text_bracket closes).1
  | template opens => exact TokenStream.lt_size_of_kind? opens

/-- A bracket in a balanced span has its partner there. -/
theorem TokenStream.Balanced.exists_partner (read : TokenStream.ofSource source = .ok stream)
    (balanced : stream.Balanced first stop) (after : first ≤ position) (before : position < stop)
    (found : stream.get? position = some token) (bracket : token.IsBracket) :
    ∃ partner, stream.partner? position = some partner ∧ first ≤ partner ∧ partner < stop := by
  have partnered := partnered_of_ofSource read
  obtain ⟨partner, here⟩ :=
    (partnered.brackets position).mpr ⟨token, TokenStream.getElem?_toList found, bracket⟩
  have forth : stream.partner? position = some partner := Option.join_eq_some_iff.mpr here
  have back : stream.partner? partner = some position :=
    Option.join_eq_some_iff.mpr (partnered.involutive here)
  refine ⟨partner, forth, ?_⟩
  rcases Nat.lt_trichotomy position partner with forward | same | backward
  · have closes : stream.closer? position = some partner :=
      Option.filter_eq_some_iff.mpr ⟨forth, decide_eq_true forward⟩
    exact (balanced.paired closes).mp ⟨after, before⟩
  · exact same ▸ ⟨after, before⟩
  · have closes : stream.closer? partner = some position :=
      Option.filter_eq_some_iff.mpr ⟨back, decide_eq_true backward⟩
    exact (balanced.paired closes).mpr ⟨after, before⟩

theorem not_isOrdinary_of_isTemplatePart (found : stream.get? position = some token)
    (part : token.IsTemplatePart) : ¬stream.IsOrdinary position := by
  rintro ⟨other, same, neutral, -⟩
  obtain rfl := Option.some.inj (found.symm.trans same)
  rcases part with kind | kind | kind <;> simp [Token.bracketRole, kind] at neutral

/-- A phrase is whole on its own. -/
theorem TokenStream.Phrase.selfContained (read : TokenStream.ofSource source = .ok stream)
    (phrase : stream.Phrase first stop) (nonempty : first < stop) :
    SelfContained stream first stop := by
  have nested := TokenStream.nested_of_ofSource read
  have balanced := phrase.balanced nested
  constructor
  case nonempty => exact nonempty
  case inside => exact phrase.le_size nested (Nat.le_of_lt (phrase.lt_size nested nonempty))
  case brackets =>
    exact fun position token after before => balanced.exists_partner read after before
  case enclosed => exact fun opening close closes => balanced.le_close closes
  case templates =>
    intro position token after before found part
    obtain ⟨head, tail, isPart⟩ := exists_partOf read found part
    obtain ⟨opening, close, held⟩ :=
      (phrase.place read after before).resolve_left (not_isOrdinary_of_isTemplatePart found part)
    obtain ⟨within, ends⟩ := isPart.within read held.delimits held.opens held.closes
    exact ⟨head, tail, isPart, Nat.le_trans held.lower within, Nat.lt_of_le_of_lt ends held.upper⟩
  case semicolons =>
    intro position token after before found mark
    have extraordinary : ¬stream.IsOrdinary position := by
      rintro ⟨other, same, -, unmarked⟩
      obtain rfl := Option.some.inj (found.symm.trans same)
      rw [mark] at unmarked
      contradiction
    have neutral : stream.IsNeutral position := by
      obtain ⟨kind, text⟩ := Bool.and_eq_true_iff.mp mark
      refine ⟨token, found, ?_⟩
      rw [Token.bracketRole, beq_iff_eq.mp kind, beq_iff_eq.mp text]
      decide
    obtain ⟨opening, close, delimits, lower, opens, closes, upper⟩ :=
      (phrase.place read after before).resolve_left extraordinary
    have apart : position ≠ opening ∧ position ≠ close :=
      ⟨fun same => delimits.not_isNeutral nested (.inl same) neutral,
        fun same => delimits.not_isNeutral nested (.inr same) neutral⟩
    exact ⟨opening, close, delimits, lower, by omega, by omega, upper⟩

/-- A recognised type, list of type arguments or list of type parameters is whole on its own. -/
theorem selfContained_of_type (read : TokenStream.ofSource source = .ok stream)
    (found : stream.typeEnd? index = some stop ∨ stream.typeArgumentsEnd? index = some stop ∨
      stream.typeParametersEnd? index = some stop) : SelfContained stream index stop := by
  have nested := TokenStream.nested_of_ofSource read
  have placed := TokenStream.placed_of_ofSource read
  rcases found with type | arguments | parameters
  · exact (TokenStream.phrase_of_typeEnd? placed type).selfContained read
      (TokenStream.lt_of_typeEnd? nested placed type)
  · exact (TokenStream.phrase_of_typeArgumentsEnd? placed arguments).selfContained read
      (TokenStream.lt_of_typeArgumentsEnd? nested placed arguments)
  · exact (TokenStream.phrase_of_typeParametersEnd? placed parameters).selfContained read
      (TokenStream.lt_of_typeParametersEnd? nested placed parameters)

/-- An object type with a bracket pair, a semicolon and a template in it. -/
theorem selfContained_of_objectType :
    ∃ stream, TokenStream.ofSource
        "let v: \x7b a: [T]; b: \x60p$\x7bU\x7dq\x60 \x7d = 0".toList = .ok stream ∧
      stream.typeEnd? 3 = some 16 ∧ stream.is 9 ";" = true ∧
      stream.kind? 12 = some .templateHead ∧ SelfContained stream 3 16 := by
  obtain ⟨stream, read, type, semicolon, template⟩ := exists_ok_of_any
    (fun stream : TokenStream => stream.typeEnd? 3 = some 16 ∧ stream.is 9 ";" = true ∧
      stream.kind? 12 = some .templateHead)
    (show ((TokenStream.ofSource
      "let v: \x7b a: [T]; b: \x60p$\x7bU\x7dq\x60 \x7d = 0".toList).toOption.any
        fun stream => decide _) = true by decide +kernel)
  exact ⟨stream, read, type, semicolon, template, selfContained_of_type read (.inl type)⟩

end Types

end Playground

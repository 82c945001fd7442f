import Playground.Proofs.Erasure.Blame
import Playground.Proofs.Erasure.BracketStack
import Playground.Proofs.Erasure.Positions
import Playground.Proofs.Erasure.Unterminated

/-!
# Where errors are reported

A program is rejected at the start of one of its tokens, at its end, or where a comment or a literal
begins that never ends (`ErrorPlace`). The line and the column of the report lead back there
(`syntaxReport_leadsBack`).
-/

namespace Playground

/-- The places that errors of a program name. -/
inductive ErrorPlace (source : List Char) : SyntaxError → Prop where
  | token {tokens token fault} (tokenized : tokenize source = .ok tokens)
      (member : token ∈ tokens) : ErrorPlace source ⟨fault, token.start⟩
  | finish {tokens fault} (tokenized : tokenize source = .ok tokens) :
      ErrorPlace source ⟨fault, source.length⟩
  /-- The tokenizer gives up at a comment or a literal, behind the tokens before it. -/
  | unterminated {tokens scanner error} (steps : ScanSteps (.start source) tokens scanner)
      (fails : scanner.Fails error) (open_ : Unterminated error.fault (source.drop error.offset)) :
      ErrorPlace source error

/-- A sequence of computations fails with the failure of the first or of what follows it. -/
theorem bind_eq_error_iff {ε α β : Type} {first : Except ε α} {next : α → Except ε β} {error : ε} :
    first >>= next = .error error ↔
      first = .error error ∨ ∃ value, first = .ok value ∧ next value = .error error := by
  cases first with
  | error other => simp [bind, Except.bind]
  | ok value => simp [bind, Except.bind]

theorem map_eq_error_iff {ε α β : Type} {image : α → β} {result : Except ε α} {error : ε} :
    image <$> result = .error error ↔ result = .error error := by
  cases result with
  | error other => simp [Functor.map, Except.map]
  | ok value => simp [Functor.map, Except.map]

section Brackets

variable {opened next : List IndexedToken} {index : Nat} {token : Token} {error : SyntaxError}

/-- A token is blamed for itself or for a bracket that is open. -/
theorem exists_of_stackAfter_error (failed : stackAfter opened index token = .error error) :
    error.offset = token.start ∨ ∃ entry ∈ opened, error.offset = entry.token.start := by
  unfold stackAfter at failed
  split at failed
  case h_1 | h_2 => contradiction
  case h_3 =>
    split at failed
    · cases failed
      exact .inl rfl
    split at failed
    · cases failed
      exact .inl rfl
    split at failed
    · contradiction
    · cases failed
      exact .inl rfl
  case h_4 =>
    split at failed
    · cases failed
      exact .inl rfl
    split at failed
    · contradiction
    · cases failed
      exact .inr ⟨_, List.mem_cons_self, rfl⟩

/-- What is open after a token was open before it, or is the token. -/
theorem StackStep.of_mem (step : StackStep index token opened next) {entry : IndexedToken}
    (member : entry ∈ next) : entry = ⟨index, token⟩ ∨ entry ∈ opened := by
  cases step with
  | neutral => exact .inr member
  | opens => exact List.mem_cons.mp member
  | closes | ends => exact .inr (List.mem_cons_of_mem _ member)
  | continues => exact (List.mem_cons.mp member).imp_right (List.mem_cons_of_mem _)

/-- The pairing stops at one of its tokens or at a bracket that is open. -/
theorem exists_of_pairBrackets_error {tokens : List Token}
    (failed : pairBrackets opened index tokens = .error error) :
    ∃ token, (token ∈ tokens ∨ ∃ entry ∈ opened, entry.token = token) ∧
      error.offset = token.start := by
  induction tokens generalizing opened index with
  | nil =>
    cases opened with
    | nil => contradiction
    | cons innermost outer =>
      cases failed
      exact ⟨_, .inr ⟨innermost, List.mem_cons_self, rfl⟩, rfl⟩
  | cons token rest inductionHypothesis =>
    rw [pairBrackets_cons] at failed
    rcases bind_eq_error_iff.mp failed with stops | ⟨next, after, others⟩
    · rcases exists_of_stackAfter_error stops with here | ⟨entry, member, place⟩
      · exact ⟨token, .inl List.mem_cons_self, here⟩
      · exact ⟨_, .inr ⟨entry, member, rfl⟩, place⟩
    · obtain ⟨blamed, place, offset⟩ := inductionHypothesis (map_eq_error_iff.mp others)
      refine ⟨blamed, ?_, offset⟩
      rcases place with later | ⟨entry, member, rfl⟩
      · exact .inl (List.mem_cons_of_mem _ later)
      · rcases (stackStep_of_stackAfter after).of_mem member with rfl | older
        · exact .inl List.mem_cons_self
        · exact .inr ⟨entry, older, rfl⟩

theorem exists_of_matchBrackets_error {tokens : List Token}
    (failed : matchBrackets tokens = .error error) :
    ∃ token ∈ tokens, error.offset = token.start := by
  rcases bind_eq_error_iff.mp failed with stops | ⟨pairs, -, paired⟩
  · obtain ⟨token, place, offset⟩ := exists_of_pairBrackets_error stops
    exact ⟨token, place.resolve_right (by simp), offset⟩
  · contradiction

end Brackets

/-! ## Rejected programs -/

section Programs

variable {source : List Char} {error : SyntaxError}

theorem errorPlace_of_tokenize (failed : tokenize source = .error error) :
    ErrorPlace source error := by
  have failed : (Scanner.start source).tokens = .error error := failed
  obtain ⟨tokens, scanner, steps, fails⟩ := exists_fails_of_tokens failed
  exact .unterminated steps fails (unterminated_of_fails steps fails).2

/-- A token that is looked up starts where a token of the program starts, or it is past the end. -/
theorem errorPlace_of_startOf {tokens : List Token} {partners : Array (Option Nat)}
    (tokenized : tokenize source = .ok tokens) {index : Nat}
    (place : error.offset =
      TokenStream.startOf ⟨source.toArray, tokens.toArray, partners⟩ index) :
    ErrorPlace source error := by
  obtain ⟨fault, offset⟩ := error
  simp only at place
  subst place
  unfold TokenStream.startOf
  split
  case h_1 token found =>
    simp only [TokenStream.get?, List.getElem?_toArray] at found
    exact .token tokenized (List.mem_of_getElem? found)
  case h_2 =>
    simp only [List.size_toArray]
    exact .finish tokenized

theorem errorPlace_of_eraseCharacters (failed : eraseCharacters source = .error error) :
    ErrorPlace source error := by
  have stops : typeEdits source = .error error := by
    rcases bind_eq_error_iff.mp failed with stops | ⟨edits, -, edited⟩
    · exact stops
    · contradiction
  rcases bind_eq_error_iff.mp stops with unread | ⟨stream, read, walked⟩
  · rcases bind_eq_error_iff.mp unread with untokenized | ⟨tokens, tokenized, unread⟩
    · exact errorPlace_of_tokenize untokenized
    rcases bind_eq_error_iff.mp unread with unmatched | ⟨partners, -, built⟩
    · obtain ⟨token, member, offset⟩ := exists_of_matchBrackets_error unmatched
      obtain ⟨fault, place⟩ := error
      obtain rfl : place = token.start := offset
      exact .token tokenized member
    · contradiction
  · obtain ⟨tokens, partners, tokenized, -, rfl⟩ := TokenStream.ofSource_eq_ok_iff.mp read
    obtain ⟨index, place⟩ := TokenStream.blamesToken_edits _ walked
    exact errorPlace_of_startOf tokenized place

theorem ErrorPlace.offset_le (place : ErrorPlace source error) : error.offset ≤ source.length := by
  cases place with
  | token tokenized member =>
    have tiles : Tiles 0 source _ := tiles_of_tokensFrom tokenized
    have bounds := tiles.of_mem member
    dsimp only
    omega
  | finish => exact Nat.le_refl _
  | unterminated steps fails => exact (unterminated_of_fails steps fails).1

end Programs

/-- Places lead back to their offsets and are ordered as these are, and the place of an error is
that of a token, of the end of the program, or of a comment or a literal that never ends. -/
theorem syntaxReport_leadsBack (source : String) :
    (∀ offset ≤ source.toList.length,
      (SourcePosition.ofOffset source.toList offset).offset? source.toList = some offset) ∧
    (∀ first ≤ source.toList.length, ∀ second ≤ source.toList.length,
      (SourcePosition.ofOffset source.toList first = .ofOffset source.toList second ↔
        first = second) ∧
      ((SourcePosition.ofOffset source.toList first).Before (.ofOffset source.toList second) ↔
        first < second)) ∧
    ∀ report, eraseTypes source = .error report → ∃ error, report = error.report source.toList ∧
      report.position.offset? source.toList = some error.offset ∧
      ErrorPlace source.toList error := by
  refine ⟨fun offset inside => SourcePosition.offset?_ofOffset inside,
    fun first inside second secondInside => ⟨⟨?_, ?_⟩, ?_⟩, fun report rejected => ?_⟩
  · exact SourcePosition.ofOffset_inj inside secondInside
  · rintro rfl
    rfl
  · exact SourcePosition.before_ofOffset_iff inside secondInside
  · unfold eraseTypes at rejected
    cases erased : eraseCharacters source.toList with
    | ok => simp only [erased] at rejected; contradiction
    | error error =>
      simp only [erased] at rejected
      cases rejected
      have place := errorPlace_of_eraseCharacters erased
      exact ⟨error, rfl, SourcePosition.offset?_ofOffset place.offset_le, place⟩

/-- An annotation without a type, in a second line. -/
theorem syntaxReport_leadsBack_of_missingType :
    ∃ report error, eraseTypes "let é = 1;\nlet x: = 5" = .error report ∧
      report = ⟨"expected a type", ⟨2, 8⟩⟩ ∧ report.position = .ofOffset
        "let é = 1;\nlet x: = 5".toList error.offset ∧
      ErrorPlace "let é = 1;\nlet x: = 5".toList error ∧ error.offset = 18 ∧
      (SourcePosition.ofOffset "let é = 1;\nlet x: = 5".toList 11).offset?
        "let é = 1;\nlet x: = 5".toList = some 11 ∧
      (SourcePosition.ofOffset "let é = 1;\nlet x: = 5".toList 11).Before report.position := by
  have rejected : eraseTypes "let é = 1;\nlet x: = 5" =
      .error ⟨"expected a type", ⟨2, 8⟩⟩ := by decide +kernel
  obtain ⟨back, order, reports⟩ := syntaxReport_leadsBack "let é = 1;\nlet x: = 5"
  obtain ⟨error, same, found, place⟩ := reports _ rejected
  have offset : SourcePosition.offset? "let é = 1;\nlet x: = 5".toList ⟨2, 8⟩ = some 18 := by
    decide +kernel
  obtain here : error.offset = 18 := Option.some.inj (found.symm.trans offset)
  have position : (⟨2, 8⟩ : SourcePosition) =
      .ofOffset "let é = 1;\nlet x: = 5".toList error.offset := congrArg SyntaxReport.position same
  refine ⟨_, error, rejected, rfl, position, place, here, back 11 (by decide +kernel), ?_⟩
  rw [position, here]
  exact (order 11 (by decide +kernel) 18 (by decide +kernel)).2.mpr (by decide)

end Playground

import Playground.Proofs.Erasure.Frame.Walk
import Playground.Proofs.Erasure.GapEnd
import Playground.Proofs.Erasure.Typed.Assertions

/-!
# Chains that vanish whole

The result of a program of chains shows whether they vanish: it is the text without them exactly
when each assertion stands behind a token that an expression may end with
(`eraseTypes_assertions_iff`). Behind another token the keyword of an assertion stays, since no
later construct reaches back to it. The first character of the keyword then stands where the text
without the chain goes on with a semicolon.
-/

namespace Playground

/-! ## How a text goes on -/

/-- In front of all edits the source is kept. -/
theorem Draft.prefix_of_behind {source : Array Char} {offset : Nat} (inside : offset ≤ source.size)
    {edits : List Edit} (behind : ∀ edit ∈ edits, offset ≤ edit.start) (draft : Draft) :
    draft.characters source ++ slice source draft.copied offset <+:
      ((draft.applyAll source edits).keepTo source.size).characters source := by
  have further := characters_keepTo source ((draft.keepTo offset).applyAll source edits) source.size
  rw [← characters_applyAll_keepTo source inside behind, ← characters_keepTo, further]
  exact (prefix_applyAll source (draft.keepTo offset) edits).trans (List.prefix_append _ _)

theorem prefix_textWithout (source : Array Char) (written : List Char) (offset : Nat)
    (stretches : List Stretch) : written <+: textWithout source written offset stretches := by
  induction stretches generalizing written offset with
  | nil => exact List.prefix_append written _
  | cons stretch rest inductionHypothesis =>
    refine List.IsPrefix.trans ?_ (inductionHypothesis _ _)
    simp only [List.append_assoc, List.prefix_append]

/-- In front of all stretches the source is kept. -/
theorem prefix_textWithout_of_laid {source : Array Char} {written : List Char}
    {offset lower upper : Nat} {stretches : List Stretch} (laid : Laid lower stretches upper)
    (before : offset ≤ lower) (inside : lower ≤ source.size) :
    written ++ slice source offset lower <+: textWithout source written offset stretches := by
  cases laid with
  | nothing =>
    rw [textWithout, ← slice_add before inside, ← List.append_assoc]
    exact List.prefix_append _ _
  | stretch after =>
    rw [textWithout, ← slice_add before after, ← List.append_assoc written]
    refine List.IsPrefix.trans ?_ (prefix_textWithout ..)
    rw [List.append_assoc (written ++ _)]
    exact List.prefix_append _ _

/-- A dropped stretch leaves nothing but blanks. -/
theorem Stretch.isBlank_of_mem_trace {source : Array Char} {written : List Char} {stretch : Stretch}
    {character : Char} (left : character ∈ stretch.trace source written) :
    Text.isBlank character = true := by
  unfold Stretch.trace at left
  split at left
  · split at left
    · rw [List.mem_singleton.mp left]
      decide +kernel
    · contradiction
  · rw [Draft.lineBreaks_eq_replicate] at left
    rw [List.eq_of_mem_replicate left]
    decide +kernel

namespace TokenStream

variable {stream : TokenStream} {Ends : Nat → Prop} {first index keyword semicolon stop : Nat}
  {types others : List Stretch}

/-- The source up to the end of a token is a gap and the token. -/
theorem exists_gap_of_is {source : List Char} (read : ofSource source = .ok stream) {text : String}
    (found : stream.is index text = true) : ∃ gap items,
      GapItem.MakeUp text.toList items gap ∧
        slice stream.source (stream.passed index) (stream.stopOf index) = gap ++ text.toList := by
  obtain ⟨token, here, rfl, nonempty⟩ := (placed_of_ofSource read).exists_token_of_is found
  obtain ⟨front, gap, items, behind, joined, reached, made, start⟩ := exists_gap_before read here
  have stopAt : stream.stopOf index = front.length + (gap ++ token.text.toList).length := by
    simp only [stopOf, here, Token.stop, start, List.length_append, String.length_toList]
    omega
  refine ⟨gap, items, made.of_head? (List.head?_append_of_ne_nil _ nonempty).symm, ?_⟩
  rw [Draft.slice_eq, joined, ← reached, stopAt, ← List.append_assoc gap, List.take_append,
    List.take_of_length_le (Nat.le_add_right _ _), List.drop_left, Nat.add_sub_cancel_left,
    List.take_left]

/-- A chain leaves nothing but blanks. -/
theorem AssertionChain.exists_blanks (chain : stream.AssertionChain Ends keyword stop types)
    (written : List Char) (offset : Nat) (others : List Stretch) : ∃ blanks,
      (∀ character ∈ blanks, Text.isBlank character = true) ∧
        textWithout stream.source written offset (types ++ others) =
          textWithout stream.source
            (written ++ slice stream.source offset (stream.passed keyword) ++ blanks)
            (stream.passed stop) others := by
  induction chain generalizing written offset with
  | last => exact ⟨_, fun _ left => Stretch.isBlank_of_mem_trace left, rfl⟩
  | @more keyword middle stop types _ _ _ inductionHypothesis =>
    let kept := written ++ slice stream.source offset (stream.passed keyword)
    let trace := (stream.attachedStretch keyword middle).trace stream.source kept
    obtain ⟨blanks, blankAll, following⟩ :=
      inductionHypothesis (kept ++ trace) (stream.passed middle)
    have nothing : slice stream.source (stream.passed middle) (stream.passed middle) = [] := by
      simp [slice]
    refine ⟨trace ++ blanks, fun character left => ?_, ?_⟩
    · exact (List.mem_append.mp left).elim Stretch.isBlank_of_mem_trace (blankAll character)
    · rw [nothing, List.append_nil, List.append_assoc kept] at following
      exact following

/-! ## A chain that stays -/

/-- No assertion begins like a semicolon. -/
theorem IsAssertion.exists_first (one : stream.IsAssertion keyword stop) :
    ∃ text first more, stream.is keyword text = true ∧ text.toList = first :: more ∧
      IsSolid first ∧ first ≠ ';' := by
  rcases one.operator with operator | operator
  · exact ⟨_, 'a', ['s'], operator, rfl, by constructor <;> decide +kernel, by decide⟩
  · exact ⟨_, 's', "atisfies".toList, operator, rfl, by constructor <;> decide +kernel, by decide⟩

/-- No declaration reaches back over the keyword of an assertion. -/
theorem IsAssertion.isBarrier (one : stream.IsAssertion keyword stop) :
    stream.IsBarrier keyword := by
  apply isBarrier_of_text
  rcases one.text_keyword with spelled | spelled <;> simp [spelled]

/-- Where a token stays, the text is none that goes on with another one in its place. -/
theorem ne_textWithout_of_kept {source : List Char} (read : ofSource source = .ok stream)
    {next : Nat} {text other : String} {first second : Char} {more further : List Char}
    (kept : stream.is index text = true) (shape : text.toList = first :: more)
    (solid : IsSolid first) (follows : stream.is next other = true)
    (otherShape : other.toList = second :: further) (otherSolid : IsSolid second)
    (different : first ≠ second) {upper : Nat} (laid : Laid (stream.passed (next + 1)) others upper)
    {draft : Draft} (reached : draft.copied ≤ stream.passed index) {edits : List Edit}
    (behind : stream.AllBehind index edits) {stretches : List Stretch}
    (vanishes : ∃ blanks, (∀ character ∈ blanks, Text.isBlank character = true) ∧
      textWithout stream.source (draft.characters stream.source) draft.copied stretches =
        textWithout stream.source (draft.characters stream.source ++
          slice stream.source draft.copied (stream.passed index) ++ blanks)
          (stream.passed next) others) :
    ((draft.applyAll stream.source edits).keepTo stream.source.size).characters stream.source ≠
      textWithout stream.source (draft.characters stream.source) draft.copied stretches := by
  intro same
  have placed := placed_of_ofSource read
  have passes : ∀ index, stream.passed index ≤ stream.stopOf index := fun index =>
    placed.passed_mono (Nat.le_succ index)
  let written := draft.characters stream.source ++
    slice stream.source draft.copied (stream.passed index)
  obtain ⟨blanks, blankAll, vanished⟩ := vanishes
  -- one text goes on with the token that stays, the other with the one behind the stretches
  obtain ⟨gap, items, made, front⟩ := exists_gap_of_is read kept
  obtain ⟨otherGap, otherItems, otherMade, otherFront⟩ := exists_gap_of_is read follows
  have stays := Draft.prefix_of_behind (placed.stopOf_le index) behind draft
  have goes : written ++ blanks ++ slice stream.source (stream.passed next) (stream.stopOf next) <+:
      textWithout stream.source (written ++ blanks) (stream.passed next) others :=
    prefix_textWithout_of_laid laid (passes next) (placed.stopOf_le next)
  rw [same, vanished, ← slice_add reached (passes index), front, shape] at stays
  rw [otherFront, otherShape] at goes
  obtain ⟨rest, stays⟩ := stays
  obtain ⟨otherRest, goes⟩ := goes
  have joined : written ++ (gap ++ first :: (more ++ rest)) =
      written ++ (blanks ++ otherGap ++ second :: (further ++ otherRest)) := by
    simpa [written, List.append_assoc] using stays.trans goes.symm
  rw [shape] at made
  rw [otherShape] at otherMade
  have made : GapItem.MakeUp (first :: (more ++ rest)) items gap := made.of_head? rfl
  have otherMade : GapItem.MakeUp (second :: (further ++ otherRest)) otherItems otherGap :=
    otherMade.of_head? rfl
  exact different (made.first_eq (otherMade.blanks blankAll) solid otherSolid
    (List.append_cancel_left joined))

/-- Where the first keyword of a chain stays, the text is not the one without the chain. -/
theorem AssertionChain.ne_textWithout {source : List Char} (read : ofSource source = .ok stream)
    (chain : stream.AssertionChain Ends keyword semicolon types)
    (ends : stream.is semicolon ";" = true) {upper : Nat}
    (laid : Laid (stream.passed (semicolon + 1)) others upper) {draft : Draft}
    (reached : draft.copied ≤ stream.passed keyword) {edits : List Edit}
    (behind : stream.AllBehind keyword edits) :
    ((draft.applyAll stream.source edits).keepTo stream.source.size).characters stream.source ≠
      textWithout stream.source (draft.characters stream.source) draft.copied (types ++ others) := by
  obtain ⟨middle, one⟩ := chain.exists_head
  obtain ⟨text, first, more, spelled, shape, solid, other⟩ := one.exists_first
  exact ne_textWithout_of_kept read spelled shape solid ends rfl
    (by constructor <;> decide +kernel) other laid reached behind (chain.exists_blanks ..)

/-! ## What the text shows -/

/-- A walk goes on from an index and, behind some draft, it leaves the text without stretches. -/
def WalksWithout (stream : TokenStream) (first index : Nat) (stretches : List Stretch) : Prop :=
  ∃ (draft : Draft) (progress : Progress), draft.copied ≤ stream.passed index ∧
    stream.walkFrom first index (.upTo stream.size) = .ok progress ∧
    ((draft.applyAll stream.source progress.edits).keepTo stream.source.size).characters
      stream.source = textWithout stream.source (draft.characters stream.source) draft.copied stretches

theorem WalksWithout.of_still (placed : stream.Placed) {next : Nat} {stretches : List Stretch}
    (walks : stream.WalksWithout first index stretches) (inside : index < stream.size)
    (stepped : ∀ walk, stream.WalksBehind index walk → stream.step walk index = .ok (.still next))
    (later : index < next) : stream.WalksWithout first next stretches := by
  obtain ⟨draft, progress, reached, walked, same⟩ := walks
  obtain ⟨rest, following, rfl⟩ :=
    exists_rest_of_walkFrom inside inside (endsBefore_upTo ..) stepped later walked
  have further := placed.passed_mono (Nat.le_of_lt later)
  exact ⟨draft, rest, Nat.le_trans reached further, following, same⟩

theorem WalksWithout.of_erasure (placed : stream.Placed) {next : Nat} {rest : List Stretch}
    (walks : stream.WalksWithout first index (stream.attachedStretch index next :: rest))
    (inside : index < stream.size)
    (stepped : ∀ walk, stream.WalksBehind index walk →
      stream.step walk index = .ok ⟨next, erasures [stream.attachedStretch index next]⟩)
    (later : index < next) : stream.WalksWithout first next rest := by
  obtain ⟨draft, progress, reached, walked, same⟩ := walks
  obtain ⟨further, following, rfl⟩ :=
    exists_rest_of_walkFrom inside inside (endsBefore_upTo ..) stepped later walked
  have nonempty : stream.passed index < stream.passed next :=
    Nat.lt_of_le_of_lt (placed.passed_le_startOf index) (placed.startOf_lt_passed later inside)
  have beyond := Nat.max_lt.mpr ⟨nonempty, Nat.lt_of_le_of_lt reached nonempty⟩
  have copied : (draft.apply stream.source
      (.erase (stream.passed index) (stream.passed next))).copied = stream.passed next :=
    Draft.copied_apply_erase beyond
  refine ⟨_, further, Nat.le_of_eq copied, following, same.trans ?_⟩
  rw [copied]
  exact (Draft.textWithout_apply stream.source reached beyond).symm

section Showing

variable {source : List Char} (read : ofSource source = .ok stream)

include read

/-- The keyword of an assertion that erases nothing stays. -/
theorem AssertionChain.endsExpression (chain : stream.AssertionChain Ends keyword semicolon types)
    (ends : stream.is semicolon ";" = true) {upper : Nat}
    (laid : Laid (stream.passed (semicolon + 1)) others upper)
    (walks : stream.WalksWithout first keyword (types ++ others)) :
    stream.EndsExpression (keyword - 1) := by
  have nested := nested_of_ofSource read
  have placed := placed_of_ofSource read
  obtain ⟨middle, one⟩ := chain.exists_head
  by_contra other
  have idle : stream.IsIdleWord keyword :=
    .ofOperator one.text_keyword fun _ => Bool.eq_false_iff.mpr other
  have stepped : ∀ walk, stream.step walk keyword = .ok (.still (keyword + 1)) := by
    intro walk
    rw [one.step_keyword placed]
    exact wordStep_of_idle walk idle
  obtain ⟨draft, progress, reached, walked, same⟩ := walks
  obtain ⟨rest, following, rfl⟩ := exists_rest_of_walkFrom one.lt_size one.lt_size
    (endsBefore_upTo ..) (fun walk _ => stepped walk) (Nat.lt_succ_self keyword) walked
  exact chain.ne_textWithout read ends laid reached
    (allBehind_of_walkFrom nested placed one.isBarrier (Nat.lt_succ_self keyword) following) same

/-- A chain that the text does not show stands behind tokens that expressions may end with. -/
theorem AssertionChain.of_walksWithout
    (chain : stream.AssertionChain Ends keyword semicolon types) (later : 0 < keyword)
    (ends : stream.is semicolon ";" = true) {upper : Nat}
    (laid : Laid (stream.passed (semicolon + 1)) others upper)
    (walks : stream.WalksWithout first keyword (types ++ others)) :
    stream.AssertionChain stream.EndsExpression keyword semicolon types ∧
      stream.WalksWithout first semicolon others := by
  have nested := nested_of_ofSource read
  have placed := placed_of_ofSource read
  have behind := chain.endsExpression read ends laid walks
  induction chain with
  | last _ one =>
    exact ⟨.last behind one, walks.of_erasure placed one.lt_size
      (fun walk _ => one.step_eq nested placed walk later behind) (one.lt nested placed)⟩
  | more _ one chain inductionHypothesis =>
    have ordered := one.lt nested placed
    have further := walks.of_erasure placed one.lt_size
      (fun walk _ => one.step_eq nested placed walk later behind) ordered
    obtain ⟨rest, following⟩ := inductionHypothesis (Nat.lt_trans later ordered) ends laid further
      (chain.endsExpression read ends laid further)
    exact ⟨.more behind one rest, following⟩

theorem AssertionStatements.of_walksWithout {finish : Nat}
    (statements : stream.AssertionStatements Ends index finish types)
    (walks : stream.WalksWithout first index types) :
    stream.AssertionStatements stream.EndsExpression index finish types := by
  have nested := nested_of_ofSource read
  have placed := placed_of_ofSource read
  induction statements with
  | nothing => exact .nothing
  | @statement index keyword semicolon finish types others operand chain ends statements
      inductionHypothesis =>
    have behind := walks.of_still placed (operand.lt_size nested)
      (fun walk walks => operand.step_eq nested walks chain.headFree) operand.lt
    obtain ⟨chained, stops⟩ := chain.of_walksWithout read (Nat.zero_lt_of_lt operand.lt) ends
      (statements.laid nested placed) behind
    have goesOn := stops.of_still placed (lt_size_of_is ends)
      (fun walk _ => step_of_mark walk (placed.kind?_of_mark ends (by decide)) (is_iff.mp ends).2
        (by decide)) (Nat.lt_succ_self semicolon)
    exact .statement operand chained ends (inductionHypothesis goesOn)

end Showing

end TokenStream

open TokenStream

/-- Operands lose the assertions behind them exactly when each of these stands behind a token that
an expression may end with. -/
theorem eraseTypes_assertions_iff {source : String} {stream : TokenStream} {types : List Stretch}
    (read : ofSource source.toList = .ok stream)
    (statements : stream.AssertionStatements (fun _ => True) 0 stream.size types) :
    eraseTypes source = .ok (String.ofList (textWithout stream.source [] 0 types)) ↔
      stream.AssertionStatements stream.EndsExpression 0 stream.size types := by
  have nested := nested_of_ofSource read
  have placed := placed_of_ofSource read
  constructor
  · intro erased
    obtain ⟨edits, found, written⟩ := (eraseTypes_eq_ok_iff read).mp erased
    obtain ⟨progress, walked, result⟩ := bind_eq_ok_iff.mp found
    cases result
    rw [String.toList_ofList] at written
    exact statements.of_walksWithout read
      ⟨.empty, progress, Nat.zero_le _, walked, written.symm⟩
  · intro behind
    exact eraseTypes_of_erasures read (behind.walkFrom_eq nested placed rfl)
      (behind.laid nested placed)

/-- A chain behind parentheses, an assertion behind a template, and one behind a word that begins
aliases elsewhere. -/
theorem eraseTypes_of_threeChains : ∃ stream types,
    ofSource "(a.b) as T[] satisfies U as V;\n`c$\x7bd\x7de` as const;\ntype satisfies T;".toList =
        .ok stream ∧
      stream.AssertionStatements (fun _ => True) 0 stream.size types ∧
      stream.AssertionStatements stream.EndsExpression 0 stream.size types ∧
      eraseTypes "(a.b) as T[] satisfies U as V;\n`c$\x7bd\x7de` as const;\ntype satisfies T;" =
        .ok "(a.b);\n`c$\x7bd\x7de`;\ntype;" := by
  have facts : ((ofSource
      "(a.b) as T[] satisfies U as V;\n`c$\x7bd\x7de` as const;\ntype satisfies T;".toList).toOption.any
      fun stream => decide
        ((∀ token : Nat × String, token ∈ [(4, ")"), (5, "as"), (9, "satisfies"), (11, "as"),
            (13, ";"), (17, "as"), (18, "const"), (19, ";"), (21, "satisfies"), (23, ";")] →
              stream.is token.1 token.2 = true) ∧
          (∀ index : Nat, index ∈ [6, 10, 12, 22] → stream.is index "const" = false) ∧
          (∀ index : Nat, index ∈ [4, 8, 10, 16, 20] → stream.endsExpression index = true) ∧
          (∀ index : Nat, index ∈ [1, 2, 3, 15] → stream.IsPlainToken index) ∧
          (∀ text ∈ ["=>", ":", "\x7b"], stream.is 16 text = false) ∧
          (stream.typeEnd? 6 = some 9 ∧ stream.typeEnd? 10 = some 11 ∧
            stream.typeEnd? 12 = some 13 ∧ stream.typeEnd? 22 = some 23) ∧
          stream.closer? 0 = some 4 ∧ stream.kind? 14 = some .templateHead ∧
          stream.templateTail 14 = 16 ∧ stream.kind? 20 = some .word ∧ stream.text 20 = "type" ∧
          stream.startsAlias 20 = false ∧ stream.size = 24 ∧
          String.ofList (textWithout stream.source []
            0 [stream.attachedStretch 5 9, stream.attachedStretch 9 11,
              stream.attachedStretch 11 13, stream.attachedStretch 17 19,
              stream.attachedStretch 21 23]) = "(a.b);\n`c$\x7bd\x7de`;\ntype;")) = true := by
    decide +kernel
  obtain ⟨stream, read, tokens, other, ended, plain, headFree, ⟨list, checked, last, alone⟩, closes,
    head, tail, word, spelled, noAlias, size, text⟩ := exists_ok_of_any _ facts
  have nested := nested_of_ofSource read
  have placed := placed_of_ofSource read
  have written : ∀ {index text}, (index, text) ∈ [(4, ")"), (5, "as"), (9, "satisfies"), (11, "as"),
      (13, ";"), (17, "as"), (18, "const"), (19, ";"), (21, "satisfies"), (23, ";")] →
      stream.is index text = true :=
    fun listed => tokens _ listed
  have group : stream.IsOperand 0 5 :=
    .group closes (isUntouched_of_plain nested placed (.token (plain 1 (by decide))
      (.token (plain 2 (by decide)) (.token (plain 3 (by decide)) .nothing)))
      (headFree_of_is (written (by decide)) (by decide : ")" ∉ ["=>", ":", "\x7b"])))
  have template : stream.IsOperand 14 17 := by
    have inside : stream.IsUntouched 15 16 :=
      isUntouched_of_plain nested placed (.token (plain 15 (by decide)) .nothing) headFree
    simpa only [tail] using IsOperand.template head (tail.symm ▸ inside)
  have chain : stream.AssertionChain stream.EndsExpression 5 13 _ :=
    .more (ended 4 (by decide)) (.ofType (.inl (written (by decide))) (other 6 (by decide)) list)
      (.more (ended 8 (by decide))
        (.ofType (.inr (written (by decide))) (other 10 (by decide)) checked)
        (.last (ended 10 (by decide))
          (.ofType (.inl (written (by decide))) (other 12 (by decide)) last)))
  have constant : stream.AssertionChain stream.EndsExpression 17 19 _ :=
    .last (ended 16 (by decide)) (.ofConst (written (by decide)) (written (by decide)))
  have single : stream.AssertionChain stream.EndsExpression 21 23 _ :=
    .last (ended 20 (by decide)) (.ofType (.inr (written (by decide))) (other 22 (by decide)) alone)
  have statements : stream.AssertionStatements stream.EndsExpression 0 24 _ :=
    .statement group chain (written (by decide)) (.statement template constant (written (by decide))
      (.statement (.name word (.ofAlias spelled noAlias)) single (written (by decide)) .nothing))
  rw [← size] at statements
  have chains := statements.mono fun _ _ => trivial
  exact ⟨stream, _, read, chains, statements,
    ((eraseTypes_assertions_iff read chains).mpr statements).trans (congrArg _ text)⟩

/-- The word const ends no expression, so an assertion behind it stays. -/
theorem eraseTypes_of_constChain : ∃ stream,
    ofSource "x as const satisfies T;".toList = .ok stream ∧
      stream.AssertionStatements (fun _ => True) 0 stream.size
        [stream.attachedStretch 1 3, stream.attachedStretch 3 5] ∧
      eraseTypes "x as const satisfies T;" = .ok "x satisfies T;" ∧
      textWithout stream.source [] 0 [stream.attachedStretch 1 3, stream.attachedStretch 3 5] =
        "x;".toList := by
  have facts : ((ofSource "x as const satisfies T;".toList).toOption.any fun stream => decide
      ((stream.kind? 0 = some .word ∧ stream.text 0 ∉ constructWords) ∧
        (stream.is 1 "as" = true ∧ stream.is 2 "const" = true ∧ stream.is 3 "satisfies" = true) ∧
        stream.is 4 "const" = false ∧ stream.typeEnd? 4 = some 5 ∧ stream.is 5 ";" = true ∧
        stream.size = 6 ∧
        textWithout stream.source [] 0 [stream.attachedStretch 1 3, stream.attachedStretch 3 5] =
          "x;".toList)) = true := by
    decide +kernel
  obtain ⟨stream, read, ⟨word, free⟩, ⟨cast, constant, check⟩, other, type, ends, size, text⟩ :=
    exists_ok_of_any _ facts
  have statements : stream.AssertionStatements (fun _ => True) 0 stream.size
      [stream.attachedStretch 1 3, stream.attachedStretch 3 5] := by
    rw [size]
    exact .statement (.name word (.free free)) (.more trivial (.ofConst cast constant)
      (.last trivial (.ofType (.inr check) other type))) ends .nothing
  exact ⟨stream, read, statements, by decide +kernel, text⟩

end Playground

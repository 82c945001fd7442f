import Mathlib.Data.List.Basic
import Playground.Proofs.Erasure.Draft
import Playground.Proofs.Erasure.Tiling
import Playground.Proofs.Erasure.Walkers

/-!
# Texts without some stretches

Where all edits of a program are erasures that lie in order and apart, its result can be read off
the stretches that they drop: `textWithout` is the source without them, and `editedText_erasures`
proves that this is what the edits leave. A stretch leaves its line breaks. Only where two words
would run together it leaves a space, so nothing but line breaks is left where no word follows a
stretch (`textWithout_eq_linesWithout`).
-/

namespace Playground

/-- The characters from one offset up to another. -/
structure Stretch where
  start : Nat
  stop : Nat
  deriving DecidableEq, Repr

/-- One erasure for each stretch. -/
def erasures (stretches : List Stretch) : List Edit :=
  stretches.map fun stretch => .erase stretch.start stretch.stop

@[simp] theorem erasures_nil : erasures [] = [] := rfl

@[simp] theorem erasures_cons (stretch : Stretch) (rest : List Stretch) :
    erasures (stretch :: rest) = .erase stretch.start stretch.stop :: erasures rest := rfl

@[simp] theorem erasures_append (first second : List Stretch) :
    erasures (first ++ second) = erasures first ++ erasures second :=
  List.map_append

/-- What a dropped stretch leaves behind some text: its line breaks, or a space where two words
would otherwise run together. -/
def Stretch.trace (source : Array Char) (written : List Char) (stretch : Stretch) : List Char :=
  match Draft.lineBreaks source stretch.start stretch.stop with
  | [] =>
    if written.getLast?.any isWordCharacter && (source[stretch.stop]?).any isWordCharacter then [' ']
    else []
  | breaks => breaks

/-- Some text, and behind it the source from an offset on without the stretches. -/
def textWithout (source : Array Char) (written : List Char) (offset : Nat) :
    List Stretch → List Char
  | [] => written ++ slice source offset source.size
  | stretch :: rest =>
    let kept := written ++ slice source offset stretch.start
    textWithout source (kept ++ stretch.trace source kept) stretch.stop rest

/-- The source from an offset on with the line breaks of the stretches in their place. -/
def linesWithout (source : Array Char) (offset : Nat) : List Stretch → List Char
  | [] => slice source offset source.size
  | stretch :: rest =>
    slice source offset stretch.start ++ Draft.lineBreaks source stretch.start stretch.stop ++
      linesWithout source stretch.stop rest

/-- Stretches between two offsets lie in order, and none is empty. -/
inductive Laid : Nat → List Stretch → Nat → Prop where
  | nothing {lower upper} (ordered : lower ≤ upper) : Laid lower [] upper
  | stretch {lower start stop rest upper} (after : lower ≤ start) (nonempty : start < stop)
      (following : Laid stop rest upper) : Laid lower (⟨start, stop⟩ :: rest) upper

namespace Laid

variable {lower middle upper : Nat} {first second stretches : List Stretch}

theorem single {start stop : Nat} (after : lower ≤ start) (nonempty : start < stop)
    (before : stop ≤ upper) : Laid lower [⟨start, stop⟩] upper :=
  .stretch after nonempty (.nothing before)

theorem to_upper {later : Nat} (laid : Laid lower stretches upper) (after : upper ≤ later) :
    Laid lower stretches later := by
  induction laid with
  | nothing ordered => exact .nothing (Nat.le_trans ordered after)
  | stretch before nonempty _ inductionHypothesis =>
    exact .stretch before nonempty (inductionHypothesis after)

theorem from_lower {earlier : Nat} (laid : Laid lower stretches upper) (before : earlier ≤ lower) :
    Laid earlier stretches upper := by
  cases laid with
  | nothing ordered => exact .nothing (Nat.le_trans before ordered)
  | stretch after nonempty following => exact .stretch (Nat.le_trans before after) nonempty following

theorem append (one : Laid lower first middle) (other : Laid middle second upper) :
    Laid lower (first ++ second) upper := by
  induction one with
  | nothing ordered => exact other.from_lower ordered
  | stretch after nonempty _ inductionHypothesis =>
    exact .stretch after nonempty (inductionHypothesis other)

end Laid

/-! ## What erasures leave -/

section Erasing

variable (source : Array Char) {draft : Draft} {start stop : Nat} {rest : List Stretch}

/-- Behind a draft, a stretch is left out by its erasure. -/
theorem Draft.textWithout_apply (after : draft.copied ≤ start)
    (further : max start draft.copied < stop) :
    textWithout source ((draft.apply source (.erase start stop)).characters source) stop rest =
      textWithout source (draft.characters source) draft.copied (⟨start, stop⟩ :: rest) := by
  have reached : (draft.keepTo start).copied = start := by
    rw [copied_keepTo, Nat.max_eq_right after]
  have gap : gapFor source (draft.keepTo start) stop = Stretch.trace source
      (draft.characters source ++ slice source draft.copied start) ⟨start, stop⟩ := by
    unfold gapFor
    rw [last?_eq_getLast?, characters_keepTo, reached]
    rfl
  rw [apply, if_neg (Nat.not_le_of_lt further), textWithout, characters_dropTo, characters_write,
    characters_keepTo, gap]

theorem Draft.characters_applyAll_erasures {stretches : List Stretch} {upper : Nat}
    (laid : Laid draft.copied stretches upper) :
    ((draft.applyAll source (erasures stretches)).keepTo source.size).characters source =
      textWithout source (draft.characters source) draft.copied stretches := by
  generalize copied : draft.copied = lower at laid
  induction laid generalizing draft with
  | nothing => rw [← copied, erasures_nil, applyAll, List.foldl_nil, characters_keepTo, textWithout]
  | @stretch _ start stop _ _ after nonempty _ inductionHypothesis =>
    have after : draft.copied ≤ start := copied ▸ after
    have further := Nat.max_lt.mpr ⟨nonempty, Nat.lt_of_le_of_lt after nonempty⟩
    rw [← copied, erasures_cons, applyAll, List.foldl_cons, ← applyAll,
      inductionHypothesis (copied_apply_erase further), textWithout_apply source after further]

end Erasing

/-- Erasures in order leave the source without what they drop. -/
theorem editedText_erasures {source : Array Char} {stretches : List Stretch} {upper : Nat}
    (laid : Laid 0 stretches upper) :
    editedText source (erasures stretches) = textWithout source [] 0 stretches := by
  rw [editedText_eq]
  exact Draft.characters_applyAll_erasures source laid

/-- Where no two words meet, only line breaks are left of a stretch. -/
theorem Stretch.trace_eq_lineBreaks {source : Array Char} {written : List Char} {stretch : Stretch}
    (apart : written.getLast?.any isWordCharacter = false ∨
      (source[stretch.stop]?).any isWordCharacter = false) :
    stretch.trace source written = Draft.lineBreaks source stretch.start stretch.stop := by
  have noSpace : (written.getLast?.any isWordCharacter &&
      (source[stretch.stop]?).any isWordCharacter) = false :=
    Bool.and_eq_false_iff.mpr apart
  unfold Stretch.trace
  split
  · rename_i none
    rw [none, noSpace, if_neg Bool.false_ne_true]
  · rfl

/-- No word stands right behind a stretch. -/
def Stretch.BeforeNoWord (source : Array Char) (stretch : Stretch) : Prop :=
  (source[stretch.stop]?).any isWordCharacter = false

/-- Where no word follows a stretch, only line breaks are left in its place. -/
theorem textWithout_eq_linesWithout {source : Array Char} {stretches : List Stretch}
    (apart : ∀ stretch ∈ stretches, stretch.BeforeNoWord source) (written : List Char)
    (offset : Nat) :
    textWithout source written offset stretches =
      written ++ linesWithout source offset stretches := by
  induction stretches generalizing written offset with
  | nil => rfl
  | cons stretch rest inductionHypothesis =>
    rw [textWithout, linesWithout,
      Stretch.trace_eq_lineBreaks (.inr (apart stretch List.mem_cons_self)),
      inductionHypothesis fun other member => apart other (List.mem_cons_of_mem _ member)]
    simp only [List.append_assoc]

/-! ## What follows a token -/

/-- A table is looked up as a list. -/
theorem inRanges_eq_any (table : Array (Nat × Nat)) (character : Char) :
    Text.inRanges table character = table.toList.any fun range =>
      range.1 ≤ character.toNat && character.toNat ≤ range.2 :=
  Array.any_toList.symm

/-- No blank is part of a word. -/
theorem isWordCharacter_of_isBlank {character : Char} (blank : Text.isBlank character = true) :
    isWordCharacter character = false := by
  have apart : (Text.blankRanges.toList.all fun range =>
      (List.range' range.1 (range.2 + 1 - range.1)).all fun code =>
        !isWordCharacter (Char.ofNat code)) = true := by
    simp only [isWordCharacter, startsWord, Text.isAlphabetic, Text.isNumeric, inRanges_eq_any]
    decide +kernel
  rw [Text.isBlank, inRanges_eq_any, List.any_eq_true] at blank
  obtain ⟨range, listed, within⟩ := blank
  have inside : character.toNat ∈ List.range' range.1 (range.2 + 1 - range.1) := by
    simp only [Bool.and_eq_true, decide_eq_true_eq] at within
    exact List.mem_range'_1.mpr (by omega)
  simpa only [Char.ofNat_toNat, Bool.not_eq_true'] using
    List.all_eq_true.mp (List.all_eq_true.mp apart range listed) _ inside

/-- Neither a blank nor the mark of a comment is part of a word. -/
theorem GapItem.isWordCharacter_eq_false {character : Char}
    (outside : Text.isBlank character = true ∨ character = '\ufeff' ∨ character = '/') :
    isWordCharacter character = false := by
  have marks : isWordCharacter '\ufeff' = false ∧ isWordCharacter '/' = false := by
    simp only [isWordCharacter, startsWord, Text.isAlphabetic, Text.isNumeric, inRanges_eq_any]
    decide +kernel
  rcases outside with blank | mark | slash
  · exact isWordCharacter_of_isBlank blank
  -- the mark stays a variable: the kernel would look it up in the tables
  · rw [mark]
    exact marks.1
  · rw [slash]
    exact marks.2

/-- No gap begins with a word. -/
theorem GapItem.MakeUp.head?_not_word {following gap : List Char} {items : List GapItem}
    (made : MakeUp following items gap) : gap.head?.any isWordCharacter = false := by
  cases made with
  | nothing => rfl
  | @item first items gap fits rest =>
    cases first with
    | blank character =>
      simpa [GapItem.text] using GapItem.isWordCharacter_eq_false (fits.imp_right .inl)
    | lineComment | blockComment =>
      simpa [GapItem.text] using GapItem.isWordCharacter_eq_false (.inr (.inr rfl))

/-- No gap before something that goes on in its line ends with a word. -/
theorem GapItem.MakeUp.getLast?_not_word {first : Char} {following gap : List Char}
    {items : List GapItem} (made : MakeUp (first :: following) items gap)
    (goesOn : endsLineComment first = false) : gap.getLast?.any isWordCharacter = false := by
  induction made with
  | nothing => rfl
  | @item item items gap fits rest inductionHypothesis =>
    cases gap with
    | cons next gap =>
      rw [List.getLast?_append_of_ne_nil _ (List.cons_ne_nil _ _)]
      exact inductionHypothesis
    | nil =>
      rw [List.append_nil]
      cases item with
      | blank character =>
        simpa [GapItem.text] using GapItem.isWordCharacter_eq_false (fits.imp_right .inl)
      | lineComment body =>
        have ends := fits.2 first rfl
        rw [goesOn] at ends
        contradiction
      | blockComment body =>
        have last : (GapItem.blockComment body).text.getLast? = some '/' := by
          simp [GapItem.text, List.getLast?_cons]
        simpa [last] using GapItem.isWordCharacter_eq_false (.inr (.inr rfl))

/-! ## What stands in front of a stretch -/

/-- No word stands right in front of a stretch. -/
def Stretch.AfterNoWord (source : Array Char) (stretch : Stretch) : Prop :=
  (source.toList.take stretch.start).getLast?.any isWordCharacter = false

/-- Where no word precedes a stretch, only line breaks are left in its place. -/
theorem textWithout_eq_of_afterNoWord {source : Array Char} {stretches : List Stretch}
    (apart : ∀ stretch ∈ stretches, stretch.AfterNoWord source) {written : List Char}
    (ended : written.getLast?.any isWordCharacter = false) (offset : Nat) :
    textWithout source written offset stretches =
      written ++ linesWithout source offset stretches := by
  induction stretches generalizing written offset with
  | nil => rfl
  | cons stretch rest inductionHypothesis =>
    let kept := written ++ slice source offset stretch.start
    have noWord : kept.getLast?.any isWordCharacter = false := by
      have before : (source.toList.take stretch.start).getLast?.any isWordCharacter = false :=
        apart stretch List.mem_cons_self
      rw [List.getLast?_append, Draft.slice_eq, List.getLast?_drop]
      split
      · exact ended
      · cases last : (source.toList.take stretch.start).getLast? with
        | none => exact ended
        | some character => simpa [last] using before
    have further : (kept ++ Draft.lineBreaks source stretch.start stretch.stop).getLast?.any
        isWordCharacter = false := by
      rw [List.getLast?_append, Draft.lineBreaks_eq_replicate, List.getLast?_replicate]
      split
      · exact noWord
      · exact GapItem.isWordCharacter_eq_false (.inl (by decide +kernel))
    rw [textWithout, linesWithout]
    change textWithout source (kept ++ stretch.trace source kept) stretch.stop rest = _
    rw [Stretch.trace_eq_lineBreaks (.inl noWord), inductionHypothesis
      (fun other member => apart other (List.mem_cons_of_mem _ member)) further]
    simp only [kept, List.append_assoc]

namespace TokenStream

variable {stream : TokenStream}

/-! ## Stretches of tokens -/

/-- How far the tokens before an index reach. -/
def passed (stream : TokenStream) : Nat → Nat
  | 0 => 0
  | index + 1 => stream.stopOf index

/-- The tokens from `first` up to `stop`, and what stands between them and the token before. -/
def attachedStretch (stream : TokenStream) (first stop : Nat) : Stretch :=
  ⟨stream.passed first, stream.passed stop⟩

/-- A token on its own. -/
def tokenStretch (stream : TokenStream) (index : Nat) : Stretch :=
  ⟨stream.startOf index, stream.stopOf index⟩

/-- A token, and what stands between it and the next. -/
def leadingStretch (stream : TokenStream) (index : Nat) : Stretch :=
  ⟨stream.startOf index, stream.startOf (index + 1)⟩

/-- The tokens from `first` up to `stop`. -/
def wholeStretch (stream : TokenStream) (first stop : Nat) : Stretch :=
  ⟨stream.startOf first, stream.passed stop⟩

theorem attached_eq {first stop : Nat} (later : 0 < first) (ordered : first < stop) :
    stream.attached first stop =
      .erase (stream.attachedStretch first stop).start (stream.attachedStretch first stop).stop := by
  obtain ⟨before, rfl⟩ := Nat.exists_eq_add_of_lt later
  obtain ⟨after, rfl⟩ := Nat.exists_eq_add_of_lt ordered
  simp [attached, attachedStretch, passed]

theorem whole_eq {first stop : Nat} (ordered : first < stop) :
    stream.whole first stop =
      .erase (stream.wholeStretch first stop).start (stream.wholeStretch first stop).stop := by
  obtain ⟨after, rfl⟩ := Nat.exists_eq_add_of_lt ordered
  rfl

namespace Placed

variable (placed : stream.Placed)

include placed

theorem passed_le_startOf (index : Nat) : stream.passed index ≤ stream.startOf index := by
  cases index with
  | zero => exact Nat.zero_le _
  | succ index => exact placed.stopOf_le_startOf (Nat.lt_succ_self index)

theorem passed_mono {first second : Nat} (ordered : first ≤ second) :
    stream.passed first ≤ stream.passed second := by
  cases first with
  | zero => exact Nat.zero_le _
  | succ first =>
    obtain ⟨after, rfl⟩ := Nat.exists_eq_add_of_le ordered
    rw [Nat.add_right_comm]
    exact placed.stopOf_mono (Nat.le_add_right first after)

theorem startOf_lt_stopOf {index : Nat} (inside : index < stream.size) :
    stream.startOf index < stream.stopOf index := by
  obtain ⟨token, found⟩ : ∃ token, stream.get? index = some token :=
    ⟨_, Array.getElem?_eq_getElem inside⟩
  simpa only [startOf, stopOf, found] using (placed.bounds found).1

/-- Tokens take up room. -/
theorem startOf_lt_passed {first stop : Nat} (ordered : first < stop) (inside : first < stream.size) :
    stream.startOf first < stream.passed stop :=
  Nat.lt_of_lt_of_le (placed.startOf_lt_stopOf inside) (placed.passed_mono ordered)

theorem laid_attached {first stop : Nat} (ordered : first < stop) (inside : first < stream.size) :
    Laid (stream.passed first) [stream.attachedStretch first stop] (stream.passed stop) :=
  .single (Nat.le_refl _) (Nat.lt_of_le_of_lt (placed.passed_le_startOf first)
    (placed.startOf_lt_passed ordered inside)) (Nat.le_refl _)

theorem laid_token {index : Nat} (inside : index < stream.size) :
    Laid (stream.passed index) [stream.tokenStretch index] (stream.passed (index + 1)) :=
  .single (placed.passed_le_startOf index) (placed.startOf_lt_stopOf inside) (Nat.le_refl _)

theorem laid_whole {first stop : Nat} (ordered : first < stop) (inside : first < stream.size) :
    Laid (stream.passed first) [stream.wholeStretch first stop] (stream.passed stop) :=
  .single (placed.passed_le_startOf first) (placed.startOf_lt_passed ordered inside) (Nat.le_refl _)

end Placed

/-- The source around a token: what the tokens before it reach over, a gap, and the token. -/
theorem exists_gap_before {source : List Char} (read : ofSource source = .ok stream) {index : Nat}
    {token : Token} (here : stream.get? index = some token) :
    ∃ front gap items behind,
      stream.source.toList = front ++ (gap ++ (token.text.toList ++ behind)) ∧
      front.length = stream.passed index ∧
      GapItem.MakeUp (token.text.toList ++ behind) items gap ∧
      token.start = front.length + gap.length := by
  obtain ⟨tokens, partners, tokenized, _, rfl⟩ := ofSource_eq_ok_iff.mp read
  have atIndex : tokens[index]? = some token := by
    simpa [get?] using here
  obtain ⟨inside, rfl⟩ := List.getElem?_eq_some_iff.mp atIndex
  have tiles := tiled_of_tokensFrom tokenized
  rw [← List.take_append_drop index tokens] at tiles
  obtain ⟨front, rest, joined, stop, tiled⟩ := tiles.split
  have reached :
      front.length = TokenStream.passed ⟨source.toArray, tokens.toArray, partners⟩ index := by
    rw [← Nat.zero_add front.length, ← stop]
    cases index with
    | zero => rfl
    | succ before =>
      have previous : tokens[before]? = some tokens[before] :=
        List.getElem?_eq_getElem (Nat.lt_of_succ_lt inside)
      simp [passed, stopOf, get?, List.getLast?_take, previous]
  rw [List.drop_eq_getElem_cons inside] at tiled
  cases tiled with
  | token made _ start =>
    exact ⟨front, _, _, _, joined, reached, made, by rw [start, Nat.zero_add]⟩

/-- A token that is looked up is not empty. -/
theorem Placed.exists_token_of_is (placed : stream.Placed) {index : Nat} {text : String}
    (found : stream.is index text = true) :
    ∃ token, stream.get? index = some token ∧ token.text = text ∧ token.text.toList ≠ [] := by
  obtain ⟨token, here⟩ : ∃ token, stream.get? index = some token :=
    ⟨_, Array.getElem?_eq_getElem (lt_size_of_is found)⟩
  have spelled : token.text = text := by
    simpa [TokenStream.text, here] using (is_iff.mp found).2
  refine ⟨token, here, spelled, ?_⟩
  have bounds := (placed.bounds here).1
  simp only [Token.stop] at bounds
  rw [← List.length_pos_iff, String.length_toList]
  omega

/-- In front of a mark no word goes on. -/
theorem beforeNoWord_of_mark {source : List Char} (read : ofSource source = .ok stream)
    {index : Nat} {text : String} (found : stream.is index text = true)
    (mark : text.toList.head?.any isWordCharacter = false) (start : Nat) :
    Stretch.BeforeNoWord stream.source ⟨start, stream.passed index⟩ := by
  obtain ⟨token, here, rfl, nonempty⟩ := (placed_of_ofSource read).exists_token_of_is found
  obtain ⟨front, gap, items, behind, joined, reached, made, -⟩ := exists_gap_before read here
  simp only [Stretch.BeforeNoWord, ← Array.getElem?_toList, joined, ← reached]
  rw [List.getElem?_append_right (Nat.le_refl _), Nat.sub_self, ← List.head?_eq_getElem?]
  cases gap with
  | cons first gap => simpa using made.head?_not_word
  | nil =>
    obtain ⟨first, rest, shape⟩ := List.exists_cons_of_ne_nil nonempty
    rw [shape] at mark
    rw [List.nil_append, shape]
    exact mark

/-- What the source holds up to the end of a token ends with its text. -/
theorem exists_take_stopOf {source : List Char} (read : ofSource source = .ok stream) {index : Nat}
    {text : String} (found : stream.is index text = true) :
    ∃ earlier, stream.source.toList.take (stream.stopOf index) = earlier ++ text.toList := by
  obtain ⟨token, here, rfl, -⟩ := (placed_of_ofSource read).exists_token_of_is found
  obtain ⟨front, gap, items, behind, joined, -, -, starts⟩ := exists_gap_before read here
  have stops : stream.stopOf index = (front ++ gap ++ token.text.toList).length := by
    simp [stopOf, here, Token.stop, starts, Nat.add_assoc, String.length_toList]
  refine ⟨front ++ gap, ?_⟩
  rw [joined, stops, ← List.append_assoc, ← List.append_assoc, List.take_left]

/-- Behind a mark no word has begun. -/
theorem afterNoWord_of_mark {source : List Char} (read : ofSource source = .ok stream)
    {index : Nat} {mark text : String} (before : stream.is index mark = true)
    (noWord : mark.toList.getLast?.any isWordCharacter = false)
    (found : stream.is (index + 1) text = true)
    (goesOn : text.toList.head?.any endsLineComment = false) (stop : Nat) :
    Stretch.AfterNoWord stream.source ⟨stream.startOf (index + 1), stop⟩ := by
  have placed := placed_of_ofSource read
  obtain ⟨previous, atIndex, rfl, written⟩ := placed.exists_token_of_is before
  obtain ⟨token, here, rfl, nonempty⟩ := placed.exists_token_of_is found
  obtain ⟨front, gap, items, behind, joined, reached, made, starts⟩ := exists_gap_before read here
  obtain ⟨earlier, passed⟩ := exists_take_stopOf read before
  have ends : front.getLast?.any isWordCharacter = false := by
    have upTo : stream.source.toList.take (stream.stopOf index) = front := by
      rw [joined, ← show front.length = stream.stopOf index from reached, List.take_left]
    rw [← upTo, passed, List.getLast?_append_of_ne_nil _ written]
    exact noWord
  have upTo : stream.source.toList.take (stream.startOf (index + 1)) = front ++ gap := by
    have length : stream.startOf (index + 1) = (front ++ gap).length := by
      simp [startOf, here, starts]
    rw [joined, length, ← List.append_assoc, List.take_left]
  rw [Stretch.AfterNoWord, upTo]
  cases gap with
  | nil =>
    rw [List.append_nil]
    exact ends
  | cons character gap =>
    obtain ⟨first, rest, shape⟩ := List.exists_cons_of_ne_nil nonempty
    rw [shape] at made goesOn
    have last := made.getLast?_not_word (by simpa using goesOn)
    rw [List.getLast?_append_of_ne_nil _ (List.cons_ne_nil _ _)]
    exact last

end TokenStream

end Playground

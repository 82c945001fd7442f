import Playground.Erasure.Program
import Playground.Proofs.Erasure.Juxtaposition.Brackets
import Playground.Proofs.Erasure.Relocation.Drafts
import Playground.Proofs.Erasure.Relocation.Walk

/-!
# Programs one behind the other

A text that ends with a semicolon on a line of its own is erased the same way whatever program
stands behind it, and the program behind it as if it stood alone, as long as no word of the text
starts a search that passes semicolons. Both streams stand, one beside the other, in the stream
of the joined program.
-/

namespace Playground

/-- Offsets of a text in front of another. -/
def InFront (size offset image : Nat) : Prop :=
  image = offset ∧ offset < size

/-- Offsets of a text behind another. -/
def Behind (size offset image : Nat) : Prop :=
  image = offset + size

/-! ## Slices -/

theorem slice_front {first : Array Char} {stop : Nat} (inside : stop ≤ first.size)
    (second : Array Char) (start : Nat) :
    slice (first ++ second) start stop = slice first start stop := by
  rw [Draft.slice_eq, Draft.slice_eq, Array.toList_append,
    List.take_append_of_le_length (by simpa using inside)]

theorem slice_behind (first second : Array Char) (start stop : Nat) :
    slice (first ++ second) (start + first.size) (stop + first.size) = slice second start stop := by
  have length : first.size = first.toList.length := rfl
  rw [Draft.slice_eq, Draft.slice_eq, Array.toList_append, length, Nat.add_comm stop,
    Nat.add_comm start, List.take_length_add_append, List.drop_length_add_append]

/-! ## Streams -/

namespace TokenStream

/-- Two streams, the second behind the first. -/
def beside (stream other : TokenStream) : TokenStream where
  source := stream.source ++ other.source
  tokens := stream.tokens ++
    (onNewLine (other.tokens.toList.map (Token.moved stream.source.size))).toArray
  partners := stream.partners ++ other.partners.map (Option.map (· + stream.size))

/-- A stream of a text with a seam behind it. -/
structure EndsInSeam (stream : TokenStream) : Prop where
  placed : stream.Placed
  nested : stream.Nested
  paired : stream.partners.size = stream.size
  last : ∃ start, stream.get? (stream.size - 1) = some (seamToken start)
  stops : ∀ {index token}, stream.get? index = some token → token.stop < stream.source.size

end TokenStream

open TokenStream

theorem length_onNewLine (tokens : List Token) : (onNewLine tokens).length = tokens.length := by
  cases tokens <;> rfl

theorem getElem?_onNewLine {tokens : List Token} {index : Nat} (positive : 0 < index) :
    (onNewLine tokens)[index]? = tokens[index]? := by
  obtain ⟨index, rfl⟩ := Nat.exists_eq_add_of_lt positive
  cases tokens <;> simp [onNewLine]

theorem standsFor_behind (count : Nat) (tokens : List Token) :
    List.Forall₂ (Token.StandsFor (Behind count) Eq) tokens
      (onNewLine (tokens.map (Token.moved count))) := by
  have moved : ∀ (token : Token) (newline : Bool), token.StandsFor (Behind count) Eq
      { token.moved count with newlineBefore := newline } := fun token newline =>
    ⟨rfl, rfl, .inl rfl, rfl, Nat.add_right_comm ..⟩
  cases tokens with
  | nil => exact .nil
  | cons first rest =>
    refine .cons (moved first true) (List.forall₂_map_right_iff.mpr (List.forall₂_same.mpr ?_))
    exact fun token _ => moved token token.newlineBefore

theorem ofSource_seam {text rest : List Char} {stream other : TokenStream}
    (read : ofSource (text ++ seam) = .ok stream) (readRest : ofSource rest = .ok other) :
    stream.EndsInSeam ∧
      (∃ earlier start, tokenize text = .ok earlier ∧
        stream.tokens.toList = earlier ++ [seamToken start]) ∧
      ofSource (text ++ (seam ++ rest)) = .ok (stream.beside other) := by
  have placed := placed_of_ofSource read
  have nested := nested_of_ofSource read
  obtain ⟨tokens, partners, tokenized, matched, rfl⟩ := ofSource_eq_ok_iff.mp read
  obtain ⟨others, otherPartners, tokenizedRest, matchedRest, rfl⟩ := ofSource_eq_ok_iff.mp readRest
  have tiles : Tiles 0 (text ++ seam) tokens := tiles_of_tokensFrom tokenized
  have spelled : ∀ token ∈ tokens, token.WellSpelled := fun token member =>
    (tiles.of_mem member).2.2.2
  obtain ⟨pairs, paired, table⟩ := bind_eq_ok_iff.mp matched
  have balanced : tokens.foldl Token.bracesAfter [] = [] :=
    bracesAfter_of_pairBrackets spelled (by simp) paired
  obtain ⟨⟨earlier, tokenizedText, shape⟩, whole⟩ := tokenize_seam tokenized tokenizedRest balanced
  have tilesText : Tiles 0 text earlier := tiles_of_tokensFrom tokenizedText
  refine ⟨⟨placed, nested, ?_, ?_, ?_⟩, ⟨earlier, _, tokenizedText, shape⟩, ?_⟩
  · cases table
    simp [size_partnerTable, size]
  · refine ⟨text.length + 1, ?_⟩
    simp [get?, size, shape]
  · intro index token found
    have member : token ∈ earlier ++ [seamToken (text.length + 1)] := by
      rw [← shape]
      exact List.mem_of_getElem? (by simpa [get?] using found)
    rcases List.mem_append.mp member with before | last
    · have := (tilesText.of_mem before).2.2.1
      simp [seam]
      omega
    · obtain rfl := List.mem_singleton.mp last
      have one : ";".length = 1 := rfl
      simp [seam, seamToken, Token.stop, one]
  · have joined := matchBrackets_append spelled matched matchedRest
      (standsFor_behind (text ++ seam).length others)
    refine ofSource_eq_ok_iff.mpr ⟨_, _, whole, joined, ?_⟩
    simp [beside, size]

namespace TokenStream.EndsInSeam

variable {stream : TokenStream} (ends : stream.EndsInSeam) (other : TokenStream)

theorem get?_front (stream other : TokenStream) {index : Nat} (inside : index < stream.size) :
    (stream.beside other).get? index = stream.get? index :=
  Array.getElem?_append_left inside

theorem get?_behind (stream other : TokenStream) (index : Nat) :
    (stream.beside other).get? (index + stream.size) =
      (onNewLine (other.tokens.toList.map (Token.moved stream.source.size)))[index]? := by
  have position : index + stream.size - stream.tokens.size = index := Nat.add_sub_cancel ..
  have behind : stream.tokens.size ≤ index + stream.size := Nat.le_add_left ..
  simp only [get?, beside]
  rw [Array.getElem?_append_right behind, position, List.getElem?_toArray]

include ends

theorem partner?_front {index : Nat} (inside : index < stream.size) :
    (stream.beside other).partner? index = stream.partner? index := by
  rw [partner?, beside, Array.getElem?_append_left (by rwa [ends.paired]), partner?]

theorem partner?_behind (index : Nat) :
    (stream.beside other).partner? (index + stream.size) =
      (other.partner? index).map (· + stream.size) := by
  have position : index + stream.size - stream.partners.size = index := by
    rw [ends.paired, Nat.add_sub_cancel]
  rw [partner?, beside, Array.getElem?_append_right (by rw [ends.paired]; omega), position,
    Array.getElem?_map, partner?]
  cases found : other.partners[index]? with
  | none => rfl
  | some entry => cases entry <;> rfl

theorem size_pos : 0 < stream.size := by
  obtain ⟨start, last⟩ := ends.last
  have := lt_size_of_get?_eq_some last
  omega

/-- The stream in front, where no word of it starts a search. -/
def front (plain : ∀ index, ∀ word ∈ searchingWords, stream.is index word = false) :
    Relocation stream (stream.beside other) where
  shift := 0
  Whole := False
  Offset := InFront stream.source.size
  Same := Eq
  placed := ends.placed
  nested := ends.nested
  tokens := by
    intro index token found
    have stop := ends.stops found
    have start : token.start ≤ token.stop := Nat.le_add_right ..
    refine ⟨token, ?_, rfl, rfl, .inl rfl, ⟨rfl, by omega⟩, rfl, stop⟩
    rw [Nat.add_zero, get?_front stream other (lt_size_of_get?_eq_some found), found]
  lines := by
    intro index inside _
    rw [Nat.add_zero, newlineBefore, get?_front stream other inside, newlineBefore]
  partners := by
    intro index inside
    rw [Nat.add_zero, ends.partner?_front other (inside.resolve_left id)]
    simp
  size := False.elim
  finish := False.elim
  injective := by
    rintro first second _ _ ⟨rfl, -⟩ ⟨rfl, -⟩
    rfl
  plain _ := rfl
  append one two := by rw [one, two]
  slices entire := entire.elim
  seam := by
    obtain ⟨start, last⟩ := ends.last
    exact .inr ⟨by simp [is, last, seamToken], plain⟩
  before shifted := absurd shifted (Nat.lt_irrefl 0)

/-- The stream behind. -/
def behind (placed : other.Placed) (nested : other.Nested) :
    Relocation other (stream.beside other) where
  shift := stream.size
  Whole := True
  Offset := Behind stream.source.size
  Same := Eq
  placed := placed
  nested := nested
  tokens := by
    intro index token found
    rw [get?_behind]
    rw [get?, ← Array.getElem?_toList] at found
    exact exists_getElem?_of_forall₂ (standsFor_behind stream.source.size other.tokens.toList) found
  lines := by
    intro index inside later
    have positive : 0 < index := later.resolve_right (Nat.ne_of_gt ends.size_pos)
    rw [newlineBefore, newlineBefore, get?_behind, getElem?_onNewLine positive, List.getElem?_map,
      Array.getElem?_toList, get?]
    cases other.tokens[index]? <;> rfl
  partners _ := ends.partner?_behind other _
  size _ := by
    simp [size, beside, length_onNewLine, Nat.add_comm]
  finish _ := by
    simp [Behind, beside, Nat.add_comm]
  injective := by
    rintro first second _ _ rfl rfl
    exact Nat.add_right_cancel_iff.symm
  plain _ := rfl
  append one two := by rw [one, two]
  slices := by
    rintro start stop _ _ - rfl rfl
    exact congrArg String.ofList (slice_behind stream.source other.source start stop).symm
  seam := other.whole_or_stopsAtSeam
  before _ := by
    obtain ⟨start, last⟩ := ends.last
    have inside := lt_size_of_get?_eq_some last
    constructor
    · rw [kind?, get?_front stream other inside, last]
      rfl
    · rw [text, get?_front stream other inside, last]
      rfl

end TokenStream.EndsInSeam

/-! ## Edits -/

/-- No word among the tokens starts a search that passes semicolons. -/
theorem not_searching_of_tokens {stream : TokenStream} (placed : stream.Placed)
    {earlier : List Token} {start : Nat}
    (plain : ∀ token ∈ earlier, token.kind = .word → token.text ∉ searchingWords)
    (tokens : stream.tokens.toList = earlier ++ [seamToken start]) (index : Nat) :
    ∀ word ∈ searchingWords, stream.is index word = false := by
  intro word listed
  rw [Bool.eq_false_iff]
  intro found
  have starts : word.toList.head?.any startsWord = true := by
    have letters : ∀ word ∈ searchingWords, word.toList.head?.any startsWord = true := by
      decide +kernel
    exact letters word listed
  obtain ⟨place, kind, spelled⟩ := placed.hasWord_of_is found starts
  obtain ⟨token, here, isWord⟩ := Option.map_eq_some_iff.mp kind
  simp only [text, here] at spelled
  have member : token ∈ earlier ++ [seamToken start] := by
    rw [← tokens]
    rw [get?, ← Array.getElem?_toList] at here
    exact List.mem_of_getElem? here
  rcases List.mem_append.mp member with before | last
  · exact plain token before isWord (spelled ▸ listed)
  · rw [List.mem_singleton.mp last] at isWord
    contradiction

/-- The edits of the two programs are the edits of the joined one. -/
theorem typeEdits_seam {text rest : List Char} {edits others : List Edit}
    (plain : ∀ tokens, tokenize text = .ok tokens →
      ∀ token ∈ tokens, token.kind = .word → token.text ∉ searchingWords)
    (found : typeEdits (text ++ seam) = .ok edits) (foundRest : typeEdits rest = .ok others) :
    ∃ images otherImages, typeEdits (text ++ (seam ++ rest)) = .ok (images ++ otherImages) ∧
      List.Forall₂ (Edit.StandsFor (InFront (text ++ seam).length) Eq) edits images ∧
      List.Forall₂ (Edit.StandsFor (Behind (text ++ seam).length) Eq) others otherImages := by
  obtain ⟨stream, read, walked⟩ := bind_eq_ok_iff.mp found
  obtain ⟨other, readRest, walkedRest⟩ := bind_eq_ok_iff.mp foundRest
  obtain ⟨progress, run, result⟩ := bind_eq_ok_iff.mp walked
  obtain ⟨otherProgress, otherRun, otherResult⟩ := bind_eq_ok_iff.mp walkedRest
  cases result
  cases otherResult
  have source : stream.source.size = (text ++ seam).length := by
    obtain ⟨tokens, partners, -, -, rfl⟩ := ofSource_eq_ok_iff.mp read
    exact List.size_toArray ..
  obtain ⟨ends, ⟨earlier, start, tokenized, tokens⟩, joined⟩ := ofSource_seam read readRest
  have searching := not_searching_of_tokens ends.placed (plain earlier tokenized) tokens
  have past : (ends.front other searching).Past 0 0 := ⟨⟨.inr ends.size_pos, rfl⟩, .inr rfl⟩
  obtain ⟨images, front, passes⟩ := Relocation.walkFrom_of_seam id past ends.size_pos run
  have behind := (ends.behind other (placed_of_ofSource readRest)
    (nested_of_ofSource readRest)).edits_alike trivial
  rw [otherRun] at behind
  obtain ⟨otherImage, foundImage, otherAlike⟩ := behind.exists_ok
  refine ⟨images, otherImage.edits, ?_, source ▸ front, source ▸ otherAlike⟩
  have walked : (stream.beside other).walkFrom 0 0 (.upTo (stream.beside other).size) =
      .ok (otherImage.preceded images) :=
    passes.trans (bind_eq_ok_iff.mpr ⟨otherImage, foundImage, rfl⟩)
  exact bind_eq_ok_iff.mpr ⟨_, joined, bind_eq_ok_iff.mpr ⟨_, walked, rfl⟩⟩

/-! ## Drafts -/

theorem transfer_self (source : Array Char) : Transfer source source Eq Eq Eq where
  order := by
    rintro first second _ _ rfl rfl
    exact Iff.rfl
  slices := by
    rintro start stop _ _ rfl rfl
    rfl
  lineFeeds := by
    rintro text _ rfl
    rfl
  plain _ := rfl
  next := by
    rintro stop _ rfl
    rfl
  append := by
    rintro text _ further _ rfl rfl
    rfl
  last := by
    rintro text _ rfl
    rfl

theorem transfer_front (first second : Array Char) :
    Transfer first (first ++ second) (InFront first.size) Eq Eq where
  order := by
    rintro first second _ _ ⟨rfl, -⟩ ⟨rfl, -⟩
    exact Iff.rfl
  slices := by
    rintro start stop _ _ ⟨rfl, -⟩ ⟨rfl, inside⟩
    exact (slice_front (Nat.le_of_lt inside) second _).symm
  lineFeeds := by
    rintro text _ rfl
    rfl
  plain _ := rfl
  next := by
    rintro stop _ ⟨rfl, inside⟩
    rw [Array.getElem?_append_left inside]
  append := by
    rintro text _ further _ rfl rfl
    rfl
  last := by
    rintro text _ rfl
    rfl

theorem transfer_behind (first second : Array Char) {output : List Char}
    (ends : output.getLast?.any isWordCharacter = false) :
    Transfer second (first ++ second) (Behind first.size) Eq
      (fun text image => image = output ++ text) where
  order := by
    rintro start stop _ _ rfl rfl
    exact Nat.add_le_add_iff_right.symm
  slices := by
    rintro start stop _ _ rfl rfl
    exact (slice_behind first second start stop).symm
  lineFeeds := by
    rintro text _ rfl
    rfl
  plain _ := rfl
  next := by
    rintro stop _ rfl
    rw [Array.getElem?_append_right (Nat.le_add_left ..), Nat.add_sub_cancel]
  append := by
    rintro text _ further _ rfl rfl
    exact List.append_assoc ..
  last := by
    rintro text _ rfl
    rw [List.getLast?_append]
    cases text.getLast? with
    | none => exact ends
    | some final => rfl

theorem slice_add {source : Array Char} {start middle stop : Nat} (first : start ≤ middle)
    (second : middle ≤ stop) :
    slice source start middle ++ slice source middle stop = slice source start stop := by
  have whole : source.toList.take start ++ (slice source start middle ++ slice source middle stop) =
      source.toList.take start ++ slice source start stop := by
    rw [← List.append_assoc, Draft.take_append_slice first, Draft.take_append_slice second,
      Draft.take_append_slice (Nat.le_trans first second)]
  exact List.append_cancel_left whole

/-- Where an edit starts. -/
def Edit.start : Edit → Nat
  | .erase start _ | .replace start _ _ | .insert start _ => start

section Keeping

variable (source : Array Char) (draft : Draft) {offset : Nat}

/-- Keeping in two steps keeps the same. -/
theorem keepTo_keepTo_alike {later : Nat} (ordered : offset ≤ later) :
    DraftAlike source source Eq Eq (draft.keepTo later) ((draft.keepTo offset).keepTo later) where
  copied := by
    simp only [Draft.copied_keepTo]
    omega
  text := by
    simp only [Draft.characters_keepTo, Draft.copied_keepTo, List.append_assoc]
    rcases Nat.le_total draft.copied offset with behind | passed
    · rw [Nat.max_eq_right behind, slice_add behind ordered]
    · have nothing : slice source draft.copied offset = [] := by
        rw [Draft.slice_eq, List.drop_eq_nil_iff, List.length_take]
        omega
      rw [Nat.max_eq_left passed, nothing, List.nil_append]

/-- An edit drops nothing, or what is kept in front of it may be kept before. -/
theorem apply_keepTo_alike {edit : Edit} (behind : offset ≤ edit.start) :
    draft.apply source edit = draft ∧
        (draft.keepTo offset).apply source edit = draft.keepTo offset ∨
      DraftAlike source source Eq Eq (draft.apply source edit)
        ((draft.keepTo offset).apply source edit) := by
  have transfer := transfer_self source
  have before := keepTo_keepTo_alike source draft behind
  cases edit with
  | insert place text => exact .inr (before.write transfer rfl)
  | replace start stop text =>
    right
    simp only [Edit.start] at before
    simp only [Draft.apply, before.lineBreaks transfer rfl]
    exact ((before.write transfer rfl).write transfer rfl).dropTo transfer rfl
  | erase start stop =>
    simp only [Edit.start] at before behind
    simp only [Draft.apply, Draft.copied_keepTo]
    by_cases passed : stop ≤ max start draft.copied
    · left
      rw [if_pos passed, if_pos (by omega)]
      exact ⟨rfl, rfl⟩
    · right
      rw [if_neg passed, if_neg (by omega), before.gapFor transfer rfl]
      exact (before.write transfer rfl).dropTo transfer rfl

end Keeping

theorem standsFor_self (edit : Edit) : edit.StandsFor Eq (fun text other => text.toList = other.toList) edit := by
  cases edit with
  | erase | replace | insert => constructor <;> rfl

/-- What stands in front of all edits may be kept before they are applied. -/
theorem characters_applyAll_keepTo (source : Array Char) {offset stop : Nat} (inside : offset ≤ stop)
    {edits : List Edit} (behind : ∀ edit ∈ edits, offset ≤ edit.start) (draft : Draft) :
    (((draft.keepTo offset).applyAll source edits).keepTo stop).characters source =
      ((draft.applyAll source edits).keepTo stop).characters source := by
  have transfer := transfer_self source
  induction edits generalizing draft with
  | nil => exact (keepTo_keepTo_alike source draft inside).text.symm
  | cons edit edits inductionHypothesis =>
    obtain ⟨here, later⟩ := List.forall_mem_cons.mp behind
    rcases apply_keepTo_alike source draft here with ⟨nothing, nothingKept⟩ | alike
    · simp only [Draft.applyAll, List.foldl_cons, nothing, nothingKept]
      exact inductionHypothesis later draft
    · have same := alike.applyAll transfer
        (List.forall₂_same.mpr fun edit _ => standsFor_self edit : List.Forall₂ _ edits edits)
      exact (same.keepTo transfer rfl).text.symm

/-- A program whose end is not dropped ends as it did. -/
theorem getLast?_editedText {source : Array Char} {edits : List Edit}
    (unfinished : (Draft.empty.applyAll source edits).copied < source.size) :
    (editedText source edits).getLast? = source.toList.getLast? := by
  have size : source.size = source.toList.length := rfl
  rw [size] at unfinished
  rw [editedText_eq, Draft.characters_keepTo, List.getLast?_append, Draft.slice_eq, size,
    List.take_length, List.getLast?_drop, if_neg (Nat.not_le_of_lt unfinished)]
  cases ends : source.toList.getLast? with
  | none =>
    rw [List.getLast?_eq_none_iff] at ends
    rw [ends] at unfinished
    exact absurd unfinished (Nat.not_lt_zero _)
  | some final => rfl

theorem le_start_of_behind {size : Nat} {edits images : List Edit}
    (behind : List.Forall₂ (Edit.StandsFor (Behind size) Eq) edits images) :
    ∀ edit ∈ images, size ≤ edit.start := by
  induction behind with
  | nil => simp
  | cons one _ inductionHypothesis =>
    refine List.forall_mem_cons.mpr ⟨?_, inductionHypothesis⟩
    cases one with
    | erase starts _ | replace starts _ _ | insert starts _ =>
      exact (Nat.le_add_left size _).trans_eq starts.symm

/-- Edits in front and edits behind leave the texts of both side by side. -/
theorem editedText_append {first second : Array Char} (nonempty : 0 < first.size)
    (line : first.toList.getLast?.any isWordCharacter = false)
    {edits images others otherImages : List Edit}
    (front : List.Forall₂ (Edit.StandsFor (InFront first.size) Eq) edits images)
    (behind : List.Forall₂ (Edit.StandsFor (Behind first.size) Eq) others otherImages) :
    editedText (first ++ second) (images ++ otherImages) =
      editedText first edits ++ editedText second others := by
  have texts : ∀ {Offset : Nat → Nat → Prop} {edits images : List Edit},
      List.Forall₂ (Edit.StandsFor Offset Eq) edits images →
      List.Forall₂ (Edit.StandsFor Offset fun text other => text.toList = other.toList) edits images :=
    fun alike => alike.imp fun _ _ one => one.imp (congrArg String.toList)
  have start : DraftAlike first (first ++ second) (InFront first.size) Eq .empty .empty :=
    ⟨⟨rfl, nonempty⟩, rfl⟩
  have written := start.applyAll (transfer_front first second) (texts front)
  obtain ⟨copied, inside⟩ := written.copied
  have kept : ((Draft.empty.applyAll (first ++ second) images).keepTo first.size).characters
      (first ++ second) = editedText first edits := by
    rw [editedText_eq, Draft.characters_keepTo, Draft.characters_keepTo, ← written.text, copied,
      slice_front (Nat.le_refl _)]
  have ends : (editedText first edits).getLast?.any isWordCharacter = false := by
    rwa [getLast?_editedText inside]
  have between : DraftAlike second (first ++ second) (Behind first.size)
      (fun text image => image = editedText first edits ++ text) .empty
      ((Draft.empty.applyAll (first ++ second) images).keepTo first.size) := by
    refine ⟨?_, ?_⟩
    · rw [Draft.copied_keepTo, copied, Nat.max_eq_right (Nat.le_of_lt inside)]
      exact (Nat.zero_add _).symm
    · rw [kept]
      exact (List.append_nil _).symm
  have transfer := transfer_behind first second ends
  have whole := (between.applyAll transfer (texts behind)).keepTo transfer
    (show Behind first.size second.size (first ++ second).size by simp [Behind, Nat.add_comm])
  have inFront := characters_applyAll_keepTo (first ++ second)
    (show first.size ≤ (first ++ second).size by simp) (le_start_of_behind behind)
    (Draft.empty.applyAll (first ++ second) images)
  rw [editedText_eq, Draft.applyAll, List.foldl_append]
  exact inFront.symm.trans whole.text

theorem eraseTypes_eq_ok {source output : String} :
    eraseTypes source = .ok output ↔ ∃ edits, typeEdits source.toList = .ok edits ∧
      output.toList = editedText source.toList.toArray edits := by
  unfold eraseTypes eraseCharacters
  cases typeEdits source.toList with
  | error error => simp [bind, Except.bind]
  | ok edits =>
    simp only [bind, Except.bind, pure, Except.pure, Except.ok.injEq, exists_eq_left']
    constructor
    · rintro rfl
      exact String.toList_ofList
    · intro written
      rw [← written, String.ofList_toList]

/-- A text with a semicolon on a line of its own behind it is erased alike whatever stands behind
it, and what stands behind it as if it stood alone. -/
theorem eraseTypes_seam {text rest output other : String}
    (plain : ∀ tokens, tokenize text.toList = .ok tokens →
      ∀ token ∈ tokens, token.kind = .word → token.text ∉ searchingWords)
    (erased : eraseTypes (text ++ "\n;\n") = .ok output) (erasedRest : eraseTypes rest = .ok other) :
    eraseTypes (text ++ "\n;\n" ++ rest) = .ok (output ++ other) := by
  obtain ⟨edits, found, written⟩ := eraseTypes_eq_ok.mp erased
  obtain ⟨others, foundRest, writtenRest⟩ := eraseTypes_eq_ok.mp erasedRest
  have spelled : (text ++ "\n;\n").toList = text.toList ++ seam := String.toList_append
  rw [spelled] at found written
  obtain ⟨images, otherImages, joined, front, behind⟩ := typeEdits_seam plain found foundRest
  have line : (text.toList ++ seam).getLast?.any isWordCharacter = false := by
    have newline : isWordCharacter '\n' = false := by decide +kernel
    simp [seam, newline]
  have nonempty : 0 < (text.toList ++ seam).toArray.size := by simp [seam]
  have whole := @editedText_append _ rest.toList.toArray nonempty line _ _ _ _ front behind
  refine eraseTypes_eq_ok.mpr ⟨images ++ otherImages, ?_, ?_⟩
  · rw [String.toList_append, spelled, List.append_assoc]
    exact joined
  · rw [String.toList_append, String.toList_append, spelled, written, writtenRest, ← whole]
    simp

theorem eraseTypes_seam_of_assertion :
    (∀ tokens, tokenize "let a: T = b".toList = .ok tokens →
      ∀ token ∈ tokens, token.kind = .word → token.text ∉ searchingWords) ∧
    eraseTypes ("let a: T = b" ++ "\n;\n") = .ok "let a = b\n;\n" ∧
    eraseTypes "/c/.d(e as F)" = .ok "/c/.d(e)" ∧
    eraseTypes ("let a: T = b" ++ "\n;\n" ++ "/c/.d(e as F)") =
      .ok ("let a = b\n;\n" ++ "/c/.d(e)") := by
  have plain : ∀ tokens, tokenize "let a: T = b".toList = .ok tokens →
      ∀ token ∈ tokens, token.kind = .word → token.text ∉ searchingWords := by
    obtain ⟨tokens, tokenized, none⟩ := exists_ok_of_any
      (fun tokens : List Token => ∀ token ∈ tokens, token.kind = .word → token.text ∉ searchingWords)
      (show ((tokenize "let a: T = b".toList).toOption.any fun tokens =>
        decide (∀ token ∈ tokens, token.kind = .word → token.text ∉ searchingWords)) = true by
          decide +kernel)
    intro others found
    cases tokenized.symm.trans found
    exact none
  have erased : eraseTypes ("let a: T = b" ++ "\n;\n") = .ok "let a = b\n;\n" := by
    decide +kernel
  have erasedRest : eraseTypes "/c/.d(e as F)" = .ok "/c/.d(e)" := by
    decide +kernel
  exact ⟨plain, erased, erasedRest, eraseTypes_seam plain erased erasedRest⟩

end Playground

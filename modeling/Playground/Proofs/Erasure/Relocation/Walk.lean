import Playground.Proofs.Erasure.Courses
import Playground.Proofs.Erasure.Relocation.ClassBody

/-!
# Walks of streams that stand for one another

A step answers alike wherever the token it starts at stands for another: the first token of a
shifted stream follows a semicolon in the other one, which opens no expression, ends no operand
and lets a statement start, just as the start of a program does. Walks then answer alike by
induction on the tokens left.
-/

namespace Playground.Relocation

open TokenStream

variable {source target : TokenStream} {reloc : Relocation source target}
variable {index other first otherFirst : Nat}

/-! ## Steps -/

theorem isPropertyName (at_ : reloc.At index other) :
    target.isPropertyName other = source.isPropertyName index := by
  unfold TokenStream.isPropertyName
  obtain past | ⟨rfl, -, -, semicolon⟩ := at_.past_or_first
  · have positive : 0 < index ↔ 0 < other := by
      have := past.shifted
      have := past.later
      omega
    rw [past.pred.is, past.pred.is, decide_eq_decide.mpr positive]
  · have refused : ∀ {text : String}, text ≠ ";" → target.is (other - 1) text = false :=
      fun plain => is_eq_false_of_text fun spelled => plain (spelled.symm.trans semicolon)
    simp [refused]

/-- A searching word stands only in a source that takes up the rest of the target. -/
theorem whole_of_is {word : String} (found : source.is index word = true)
    (listed : word ∈ searchingWords) : reloc.Whole := by
  refine reloc.seam.resolve_right fun seam => ?_
  rw [seam.2 index word listed] at found
  contradiction

section Steps

variable {walk otherWalk : Walk} (walks : reloc.WalksAlike walk otherWalk)
variable (at_ : reloc.At index other) (next : reloc.Past (index + 1) (other + 1))

include walks at_ next

theorem wordStep (word : source.kind? index = some .word) :
    reloc.Alike reloc.ProgressAlike (source.wordStep walk index)
      (target.wordStep otherWalk other) := by
  have pass : reloc.Alike reloc.ProgressAlike (pure (.still (index + 1)))
      (pure (.still (other + 1))) := .ok (.still next)
  have inside : 0 < source.size := Nat.lt_of_le_of_lt (Nat.zero_le _) (lt_size_of_kind? word)
  have searches : ∀ {text}, source.text index = text → text ∈ searchingWords → reloc.Whole :=
    fun spelled listed => whole_of_is (is_of_word word spelled) listed
  have named : ∀ {checked otherChecked : Bool}, (source.isPlainWord (index + 1) = true →
      otherChecked = checked) →
      (target.isPlainWord (other + 1) && otherChecked) =
        (source.isPlainWord (index + 1) && checked) :=
    fun same => both next.isPlainWord same
  have after : source.isPlainWord (index + 1) = true → reloc.Past (index + 2) (other + 2) :=
    fun plain => next.succ_of_isPlainWord plain
  unfold TokenStream.wordStep
  refine choose (by rw [isPropertyName at_]) (fun _ => pass) (fun _ => ?_)
  rw [at_.text_of_kind? word rfl]
  generalize shape : source.text index = text at searches
  split
  case h_1 =>
    exact choose (by rw [startsStatement at_, next.isPlainWord])
      (fun _ => interfaceDeclaration (searches rfl (by decide)) at_) (fun _ => pass)
  case h_2 =>
    have entire := searches rfl (by decide)
    refine choose ?_ (fun _ => aliasDeclaration entire at_) (fun _ => pass)
    have last := next.succ_of_whole entire
    unfold TokenStream.startsAlias
    rw [startsStatement at_, next.isPlainWord, last.is, last.is]
  case h_3 =>
    have entire := searches rfl (by decide)
    refine choose ?_ (fun _ => .ok (ambientDeclaration entire at_ inside)) (fun _ => pass)
    unfold TokenStream.startsAmbient
    rw [startsStatement at_, next.isPlainWord, next.newlineBefore]
  case h_4 | h_5 =>
    refine choose ?_ (fun _ => fail at_ _) (fun _ => pass)
    unfold TokenStream.startsNamespace
    rw [startsStatement at_, Bool.and_assoc, Bool.and_assoc,
      named fun plain => by rw [(after plain).is, (after plain).is]]
  case h_6 =>
    exact choose (by rw [next.is])
      (fun _ => .ok ⟨next, .single (leading at_ next.toAt)⟩) (fun _ => pass)
  case h_7 =>
    exact choose (by rw [next.isPlainWord])
      (fun _ => enumDeclaration (searches rfl (by decide)) at_ at_) (fun _ => pass)
  case h_8 =>
    refine choose (by rw [next.is])
      (fun enum => enumDeclaration (whole_of_is enum (by decide)) at_ next.toAt) (fun _ => ?_)
    exact choose (by rw [startsBinding next.toAt]) (fun _ => variablesFrom walks next)
      (fun _ => pass)
  case h_9 | h_10 =>
    exact choose (by rw [startsBinding next.toAt]) (fun _ => variablesFrom walks next)
      (fun _ => pass)
  case h_11 => exact functionDeclaration walks (searches rfl (by decide)) at_
  case h_12 => exact classDeclaration walks (searches rfl (by decide)) at_
  case h_13 | h_14 =>
    obtain past | ⟨rfl, positive, mark, semicolon⟩ := at_.past_or_first
    · refine choose ?_ (fun _ => .ok (typeAssertion past next)) (fun _ => pass)
      have : 0 < index ↔ 0 < other := by
        have := past.shifted
        have := past.later
        omega
      rw [past.pred.endsExpression, decide_eq_decide.mpr this]
    · rw [if_neg (by simp), if_neg (by simp [endsExpression_of_semicolon mark semicolon])]
      exact pass
  case h_15 => exact importDeclaration (searches rfl (by decide)) at_
  case h_16 => exact exportDeclaration (searches rfl (by decide)) at_ inside
  case h_17 =>
    exact choose (by rw [next.is]) (fun _ => catchHead next) (fun _ => pass)
  case h_18 | h_19 | h_20 | h_21 | h_22 => exact controlHead walks at_ next
  case h_23 => exact pass

theorem punctuatorStep (mark : source.kind? index = some .punctuator) :
    reloc.Alike reloc.ProgressAlike (source.punctuatorStep walk index)
      (target.punctuatorStep otherWalk other) := by
  unfold TokenStream.punctuatorStep
  rw [at_.text_of_kind? mark rfl]
  split
  case h_1 => exact parenthesis walks at_
  case h_2 | h_3 => exact walkInside walks at_
  case h_4 => exact .ok (angle at_ next)
  case h_5 => exact .ok (nonNullMark at_ next)
  case h_6 => exact .ok (.still next)

theorem step : reloc.Alike reloc.ProgressAlike (source.step walk index)
    (target.step otherWalk other) := by
  unfold TokenStream.step
  rw [at_.kind?]
  split
  case h_1 word => exact wordStep walks at_ next word
  case h_2 mark => exact punctuatorStep walks at_ next mark
  case h_3 opens =>
    have tail := at_.templateTail opens
    exact (walks (tail.inside at_) (.upTo tail.here.toAt)).bind fun inside =>
      .ok ⟨tail.next, inside.edits⟩
  case h_4 => exact .ok (.still next)

end Steps

/-! ## Walks -/

/-- Walks that begin at indices that stand for one another; where a walk begins matters only if
a line break may end it. -/
def StartsAlike (reloc : Relocation source target) (first otherFirst : Nat)
    (ending : WalkEnd) : Prop :=
  ending.lineEnd = .never ∨ reloc.Past first otherFirst

theorem endsAtLine (past : reloc.Past index other) (lineEnd : LineEnd) :
    target.endsAtLine other lineEnd = source.endsAtLine index lineEnd := by
  have operators : target.textIn other ["in", "instanceof", "as", "satisfies", "of"] =
      source.textIn index ["in", "instanceof", "as", "satisfies", "of"] := past.textIn (by decide)
  have members : target.textIn other ["[", "*", "@"] = source.textIn index ["[", "*", "@"] :=
    past.textIn (by decide)
  simp only [TokenStream.endsAtLine, past.newlineBefore, past.pred.endsExpression, past.kind?,
    operators, members]

theorem endsBefore {ending otherEnding : WalkEnd}
    (starts : reloc.StartsAlike first otherFirst ending) (past : reloc.Past index other)
    (endings : reloc.EndsAlike ending otherEnding) :
    target.endsBefore otherFirst other otherEnding = source.endsBefore first index ending := by
  have lines : (decide (otherFirst < other) && target.endsAtLine other ending.lineEnd) =
      (decide (first < index) && source.endsAtLine index ending.lineEnd) := by
    rw [endsAtLine past]
    obtain never | begins := starts
    · simp [never, TokenStream.endsAtLine]
    · rw [decide_eq_decide.mpr (begins.lt_iff past.toAt)]
  unfold TokenStream.endsBefore
  rw [endings.stops, endings.lineEnd, past.kind?, past.textIn endings.plain, lines]

theorem inside_iff {ending otherEnding : WalkEnd} (past : reloc.Past index other)
    (endings : reloc.EndsAlike ending otherEnding) :
    index < ending.limit ∧ index < source.size ↔
      other < otherEnding.limit ∧ other < target.size := by
  rw [past.lt_size_iff]
  refine and_congr_left fun inside => ?_
  obtain limit | ⟨limit, otherLimit, -⟩ := endings.limit
  · exact past.lt_iff limit
  · rw [limit, otherLimit]
    exact past.lt_size_iff

theorem goesOn_iff {ending otherEnding : WalkEnd}
    (starts : reloc.StartsAlike first otherFirst ending) (past : reloc.Past index other)
    (endings : reloc.EndsAlike ending otherEnding) :
    source.GoesOn first index ending ↔ target.GoesOn otherFirst other otherEnding := by
  have inside := inside_iff past endings
  have ends := endsBefore starts past endings
  constructor
  · rintro ⟨before, here, unended⟩
    exact ⟨(inside.mp ⟨before, here⟩).1, (inside.mp ⟨before, here⟩).2, ends.trans unended⟩
  · rintro ⟨before, here, unended⟩
    exact ⟨(inside.mpr ⟨before, here⟩).1, (inside.mpr ⟨before, here⟩).2, ends.symm.trans unended⟩

/-- A walk that goes on at a token runs in step after it. -/
theorem succ_of_inside {ending otherEnding : WalkEnd} (past : reloc.Past index other)
    (endings : reloc.EndsAlike ending otherEnding) (inside : index < ending.limit)
    (unended : source.endsBefore first index ending = false) :
    reloc.Past (index + 1) (other + 1) := by
  obtain limit | ⟨-, -, listed⟩ := endings.limit
  · exact past.succ_of_lt limit inside
  · refine past.succ (Bool.eq_false_iff.mpr fun semicolon => Bool.eq_false_iff.mp unended ?_)
    have mark := reloc.placed.kind?_of_mark semicolon (by decide)
    have spelled : source.text index = ";" := (is_iff.mp semicolon).2
    simp [TokenStream.endsBefore, mark, TokenStream.textIn, spelled, listed]

/-- Nested walks are walks that begin where they start. -/
theorem walksAlike (at_ : reloc.At index other)
    (alike : ∀ {next otherNext ending otherEnding}, index < next → reloc.Past next otherNext →
      reloc.EndsAlike ending otherEnding →
        reloc.Alike reloc.ProgressAlike (source.walkFrom next next ending)
          (target.walkFrom otherNext otherNext otherEnding)) :
    reloc.WalksAlike (source.walkBehind index) (target.walkBehind other) := by
  intro next otherNext ending otherEnding past endings
  by_cases later : index < next
  · rw [walkBehind_of_lt later, walkBehind_of_lt ((at_.lt_iff past.toAt).mp later)]
    exact alike later past endings
  · rw [walkBehind, walkBehind, dif_neg later, dif_neg (mt (at_.lt_iff past.toAt).mpr later)]
    exact .ok (.still past)

/-- Walks of streams that stand for one another answer alike. -/
theorem walkFrom {first otherFirst index other : Nat} {ending otherEnding : WalkEnd}
    (starts : reloc.StartsAlike first otherFirst ending) (past : reloc.Past index other)
    (endings : reloc.EndsAlike ending otherEnding) :
    reloc.Alike reloc.ProgressAlike (source.walkFrom first index ending)
      (target.walkFrom otherFirst other otherEnding) := by
  by_cases goesOn : source.GoesOn first index ending
  case neg =>
    rw [walkFrom_of_not_goesOn goesOn,
      walkFrom_of_not_goesOn (mt (goesOn_iff starts past endings).mpr goesOn)]
    exact .ok (.still past)
  case pos =>
    have here := goesOn.inside
    have next := succ_of_inside past endings goesOn.before goesOn.unended
    rw [goesOn.walkFrom_eq, ((goesOn_iff starts past endings).mp goesOn).walkFrom_eq]
    refine (step (walksAlike past.toAt fun later nextPast nextEndings =>
      walkFrom (.inr nextPast) nextPast nextEndings) past.toAt next).bind
        fun {one otherOne} ends => ?_
    exact choose (past.lt_iff ends.next.toAt)
      (fun forward => (walkFrom starts ends.next endings).bind fun rest =>
        .ok (rest.preceded ends.edits)) fun _ => .ok ends
termination_by source.size - index

/-! ## Runs -/

/-- A walk of a whole program goes on up to its end. -/
theorem goesOn_upTo {stream : TokenStream} (inside : index < stream.size) :
    stream.GoesOn first index (.upTo stream.size) :=
  ⟨inside, inside, endsBefore_upTo ..⟩

theorem walkFrom_of_le {stream : TokenStream} {ending : WalkEnd} (outside : stream.size ≤ index) :
    stream.walkFrom first index ending = .ok (.still index) :=
  walkFrom_of_not_goesOn fun goesOn => Nat.not_lt_of_le outside goesOn.inside

/-- The program that the source is, walked on its own or where it stands in the target. -/
theorem edits_alike (entire : reloc.Whole) :
    reloc.Alike (fun progress other => reloc.EditsAlike progress.edits other.edits)
      (source.walkFrom 0 0 (.upTo source.size))
      (target.walkFrom 0 reloc.shift (.upTo target.size)) := by
  have size := reloc.size entire
  have start : reloc.At 0 reloc.shift := ⟨.inl entire, (Nat.zero_add _).symm⟩
  have endings : reloc.EndsAlike (.upTo source.size) (.upTo target.size) :=
    .upTo (at_size entire)
  rcases Nat.eq_zero_or_pos source.size with empty | inside
  · rw [walkFrom_of_le (by omega), walkFrom_of_le (by omega)]
    exact .ok .nil
  · rw [(goesOn_upTo inside).walkFrom_eq, (goesOn_upTo (by omega)).walkFrom_eq]
    refine (step (walksAlike start fun _ nextPast nextEndings =>
      walkFrom (.inr nextPast) nextPast nextEndings) start (start.succ_of_whole entire)).bind
        fun {one otherOne} ends => ?_
    exact choose (start.lt_iff ends.next.toAt)
      (fun _ => (walkFrom (.inl rfl) ends.next endings).bind fun rest =>
        .ok (ends.edits.append rest.edits)) fun _ => .ok ends.edits

theorem step_of_semicolon {stream : TokenStream} {walk : Walk}
    (mark : stream.kind? index = some .punctuator) (semicolon : stream.text index = ";") :
    stream.step walk index = .ok (.still (index + 1)) := by
  simp only [TokenStream.step, mark, TokenStream.punctuatorStep, semicolon]
  rfl

/-- A source that ends with a semicolon in the target is walked there as on its own, and the
walk goes on behind it. -/
theorem walkFrom_of_seam (part : ¬reloc.Whole) {first otherFirst index other : Nat}
    {progress : Progress} (past : reloc.Past index other)
    (inside : index < source.size)
    (found : source.walkFrom first index (.upTo source.size) = .ok progress) :
    ∃ edits, reloc.EditsAlike progress.edits edits ∧
      target.walkFrom otherFirst other (.upTo target.size) = (do
        let rest ← target.walkFrom otherFirst (source.size + reloc.shift) (.upTo target.size)
        return rest.preceded edits) := by
  have insideTarget := past.lt_size_iff.mp inside
  have ends := (reloc.seam.resolve_left part).1
  by_cases last : index = source.size - 1
  · -- The semicolon itself is passed, and nothing of the source is left.
    subst last
    have mark := reloc.placed.kind?_of_mark ends (by decide)
    have spelled : source.text (source.size - 1) = ";" := (is_iff.mp ends).2
    rw [(goesOn_upTo inside).walkFrom_of_step (step_of_semicolon mark spelled)
      (Nat.lt_succ_self _), walkFrom_of_le (by dsimp only [Progress.still]; omega)] at found
    cases found
    have behind : other + 1 = source.size + reloc.shift := by
      have := past.shifted
      omega
    refine ⟨[], .nil, ?_⟩
    rw [(goesOn_upTo insideTarget).walkFrom_of_step (step_of_semicolon (past.kind?.trans mark)
      ((past.text_of_kind? mark rfl).trans spelled)) (Nat.lt_succ_self _)]
    simp only [Progress.still, behind]
  · have next : reloc.Past (index + 1) (other + 1) :=
      ⟨⟨.inr (by omega), by rw [past.shifted]; omega⟩, .inl (Nat.succ_pos index)⟩
    obtain ⟨one, others, foundOne, later, foundOthers, rfl⟩ :=
      (goesOn_upTo inside).exists_step reloc.nested reloc.placed found
    have alike := step (walksAlike past.toAt fun _ nextPast nextEndings =>
      walkFrom (.inr nextPast) nextPast nextEndings) past.toAt next
    rw [foundOne] at alike
    obtain ⟨otherOne, foundOther, stops⟩ := alike.exists_ok
    obtain ⟨edits, editsAlike, run⟩ := walkFrom_of_seam part stops.next
      (stops.next.seen.resolve_left part) foundOthers
    refine ⟨otherOne.edits ++ edits, stops.edits.append editsAlike, ?_⟩
    rw [(goesOn_upTo insideTarget).walkFrom_of_step foundOther
      ((past.lt_iff stops.next.toAt).mp later), run, bind_assoc]
    simp only [pure_bind, Progress.preceded, List.append_assoc]
termination_by source.size - index

end Playground.Relocation

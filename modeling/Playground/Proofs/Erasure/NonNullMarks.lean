import Playground.Proofs.Erasure.BracketFate
import Playground.Proofs.Erasure.Coverage.Walk
import Playground.Proofs.Erasure.Provenance

/-!
# Non-null marks vanish

An exclamation mark behind a name is dropped wherever it stands in an accepted program, if one of
the tokens follows that the walk expects behind it and the mark does not stand aside
(`eraseTypes_drops_nonNullMark`). Before an operator the mark stays
(`eraseTypes_of_addedNonNull`).
-/

namespace Playground

namespace Draft

variable {source : Array Char} {draft : Draft} {offset : Nat}

/-- Edits that begin at an offset or before it do not keep it. -/
theorem not_keeps_apply {edit : Edit} (begins : edit.start ≤ offset)
    (unkept : ¬draft.Keeps offset) : ¬(draft.apply source edit).Keeps offset := by
  cases edit with
  | erase start finish =>
    rcases Nat.lt_or_ge (max start draft.copied) finish with further | nothing
    · rw [keeps_apply_erase further]
      rintro (keeps | ⟨_, before⟩)
      · exact unkept keeps
      · exact Nat.not_lt_of_le begins before
    · have same : draft.apply source (.erase start finish) = draft := if_pos nothing
      rwa [same]
  | insert start text =>
    rw [keeps_apply_insert]
    rintro (keeps | ⟨_, before⟩)
    · exact unkept keeps
    · exact Nat.not_lt_of_le begins before
  | replace start finish text =>
    simp only [apply, keeps_dropTo, keeps_write, keeps_keepTo]
    rintro (keeps | ⟨_, before⟩)
    · exact unkept keeps
    · exact Nat.not_lt_of_le begins before

theorem not_keeps_applyAll {edits : List Edit} (early : ∀ edit ∈ edits, edit.start ≤ offset)
    (unkept : ¬draft.Keeps offset) : ¬(draft.applyAll source edits).Keeps offset := by
  induction edits generalizing draft with
  | nil => exact unkept
  | cons edit edits inductionHypothesis =>
    exact inductionHypothesis (fun later member => early later (List.mem_cons_of_mem _ member))
      (not_keeps_apply (early edit List.mem_cons_self) unkept)

end Draft

namespace TokenStream

variable {stream : TokenStream} {mark : Nat} {edits : List Edit}

/-- An edit that covers a token drops it, if it has not been kept before. -/
theorem drops_of_covers {source : Array Char} {draft : Draft} {edit : Edit} {token : Nat}
    (nonempty : stream.startOf token < stream.stopOf token)
    (covers : edit.Covers stream token) (unkept : ¬draft.Keeps (stream.startOf token)) :
    (draft.apply source edit).Drops (stream.startOf token) := by
  cases edit with
  | erase start finish =>
    obtain ⟨begins, ends⟩ := covers
    refine ⟨?_, Draft.not_keeps_apply begins unkept⟩
    rcases Nat.lt_or_ge (max start draft.copied) finish with further | nothing
    · rw [Draft.copied_apply_erase further]
      omega
    · have same : draft.apply source (.erase start finish) = draft := if_pos nothing
      rw [same]
      omega
  | insert => exact covers.elim
  | replace start finish text =>
    obtain ⟨begins, ends⟩ := covers
    refine ⟨?_, Draft.not_keeps_apply begins unkept⟩
    simp only [Draft.apply, Draft.copied_dropTo]
    omega

/-- A mark that is caught is dropped. -/
theorem Catches.drops {source : Array Char} (catches : stream.Catches mark edits)
    (nonempty : stream.startOf mark < stream.stopOf mark) :
    (Draft.empty.applyAll source edits).Drops (stream.startOf mark) := by
  obtain ⟨before, edit, after, rfl, early, covers⟩ := catches
  have unkept : ¬(Draft.empty.applyAll source before).Keeps (stream.startOf mark) :=
    Draft.not_keeps_applyAll early (by rintro ⟨_, _, member, _⟩; contradiction)
  have dropped : ((Draft.empty.applyAll source before).apply source edit).Drops
      (stream.startOf mark) := drops_of_covers nonempty covers unkept
  rw [Draft.applyAll_append_cons]
  exact (Draft.drops_applyAll dropped.1 after).mpr dropped

/-- One of these words stands in every construct with tokens that are passed without a look. -/
def asideWords : List String :=
  ["extends", "function", "catch", "import", "export", "enum"]

theorem not_standsAside_of_words (placed : stream.Placed)
    (unused : ∀ text ∈ asideWords, ¬stream.HasWord text) (token : Nat) :
    ¬stream.StandsAside token := by
  have words : ∀ text ∈ asideWords, text.toList.head?.any startsWord = true := by
    decide
  have absent : ∀ {index text}, text ∈ asideWords → ¬stream.is index text = true :=
    fun {index text} listed found =>
      unused text listed (placed.hasWord_of_is found (words text listed))
  rintro (⟨_, _, derived, _⟩ | ⟨word, _⟩ | ⟨word, _⟩ | ⟨word, _⟩ | ⟨word, _⟩ | ⟨word, _⟩)
  · exact absent (by decide) derived
  all_goals first
    | exact absent (by decide) word.1
    | exact absent (by decide) word

end TokenStream

open TokenStream

/-- A mark behind a name vanishes from every accepted program, if it does not stand aside and one
of the tokens follows that the walk expects behind it. -/
theorem eraseTypes_drops_nonNullMark {source output : String} {stream : TokenStream} {mark : Nat}
    (read : ofSource source.toList = .ok stream) (erased : eraseTypes source = .ok output)
    (nonNull : stream.IsNonNullMark mark) (follows : stream.followsNonNullMark (mark + 1) = true)
    (attended : ¬stream.StandsAside mark) :
    ∃ edits, stream.edits = .ok edits ∧
      output.toList = (editedPieces stream.source edits).flatMap
        (Piece.characters stream.source) ∧
      stream.DropsToken (editedPieces stream.source edits) mark := by
  have nested := nested_of_ofSource read
  have placed := placed_of_ofSource read
  obtain ⟨edits, found, written⟩ := (eraseTypes_eq_ok_iff read).mp erased
  refine ⟨edits, found, written, ?_⟩
  obtain ⟨whole, walked, result⟩ := bind_eq_ok_iff.mp found
  cases result
  have settled := settles_of_walkFrom nested placed ⟨nonNull, follows, attended⟩ walked
  have reached : mark < whole.next := Nat.lt_of_lt_of_le (lt_size_of_is nonNull.spelled)
    (reaches_of_walkFrom nested placed (Nat.le_refl stream.size) walked)
  have character : stream.stopOf mark = stream.startOf mark + 1 :=
    stopOf_eq_of_is nonNull.spelled
  have dropped : (Draft.empty.applyAll stream.source whole.edits).Drops (stream.startOf mark) :=
    (settled.caught (Nat.zero_le mark) reached).drops (by omega)
  have inside : stream.startOf mark < stream.source.size := by
    have bound := placed.stopOf_le mark
    omega
  rw [dropsToken_iff character, keepsToken_iff character inside]
  exact not_not.mpr dropped

/-- Marks of a field, of a variable and behind values in members, calls and lists. -/
theorem eraseTypes_of_fiveMarks : ∃ stream edits,
    ofSource "class A \x7b x!: T; y = a!.b \x7d\nlet z!: T = f(c!), d = [e!];".toList = .ok stream ∧
      (∀ mark ∈ [4, 11, 17, 24, 31], stream.IsNonNullMark mark ∧
        stream.followsNonNullMark (mark + 1) = true ∧ ¬stream.StandsAside mark) ∧
      eraseTypes "class A \x7b x!: T; y = a!.b \x7d\nlet z!: T = f(c!), d = [e!];" =
        .ok "class A \x7b x; y = a.b \x7d\nlet z = f(c), d = [e];" ∧
      stream.edits = .ok edits ∧
      ∀ mark ∈ [4, 11, 17, 24, 31],
        stream.DropsToken (editedPieces stream.source edits) mark := by
  have erased : eraseTypes "class A \x7b x!: T; y = a!.b \x7d\nlet z!: T = f(c!), d = [e!];" =
      .ok "class A \x7b x; y = a.b \x7d\nlet z = f(c), d = [e];" := by
    decide +kernel
  have facts : ((ofSource
      "class A \x7b x!: T; y = a!.b \x7d\nlet z!: T = f(c!), d = [e!];".toList).toOption.any
      fun stream => decide
        ((∀ mark : Nat, mark ∈ [4, 11, 17, 24, 31] → stream.IsNonNullMark mark ∧
            stream.followsNonNullMark (mark + 1) = true) ∧
          ∀ text ∈ asideWords, ¬stream.HasWord text)) = true := by
    decide +kernel
  obtain ⟨stream, read, marks, unused⟩ := exists_ok_of_any _ facts
  have attended := not_standsAside_of_words (placed_of_ofSource read) unused
  obtain ⟨edits, found, _⟩ := (eraseTypes_eq_ok_iff read).mp erased
  refine ⟨stream, edits, read, fun mark listed => ⟨(marks mark listed).1, (marks mark listed).2,
    attended mark⟩, erased, found, fun mark listed => ?_⟩
  obtain ⟨same, foundSame, _, dropped⟩ := eraseTypes_drops_nonNullMark read erased
    (marks mark listed).1 (marks mark listed).2 (attended mark)
  obtain rfl : edits = same := Except.ok.inj (found.symm.trans foundSame)
  exact dropped

/-- A mark before an operator stays, as it does before the end of a substitution and before the
keyword of an assertion. -/
theorem eraseTypes_of_addedNonNull : ∃ stream,
    ofSource "a! + b;".toList = .ok stream ∧ stream.IsNonNullMark 1 ∧ ¬stream.StandsAside 1 ∧
      eraseTypes "a! + b;" = .ok "a! + b;" ∧ eraseTypes "`$\x7ba!\x7d`;" = .ok "`$\x7ba!\x7d`;" ∧
      eraseTypes "a! as T;" = .ok "a! as T;" := by
  have facts : ((ofSource "a! + b;".toList).toOption.any fun stream => decide
      (stream.IsNonNullMark 1 ∧ ∀ text ∈ asideWords, ¬stream.HasWord text)) = true := by
    decide +kernel
  obtain ⟨stream, read, nonNull, unused⟩ := exists_ok_of_any _ facts
  exact ⟨stream, read, nonNull, not_standsAside_of_words (placed_of_ofSource read) unused 1,
    by decide +kernel, by decide +kernel, by decide +kernel⟩

end Playground

import Playground.Proofs.Erasure.Enumeration.Members
import Playground.Proofs.Number.Format

/-!
# The lines of an enumeration

An enumeration is replaced by its statements and by all line breaks that it spans. The statements
copy its name, its keys and its initializers, so what is written has the lines of the source exactly
when none of these breaks a line (`eraseTypes_enumeration_lines`); a break in one of them is written
twice, and everything behind the enumeration comes to stand later.
-/

namespace Playground

/-- The text that an edit adds to the source. -/
def Edit.addition : Edit → List Char
  | .erase _ _ => []
  | .replace _ _ text | .insert _ text => text.toList

/-! ## How far a draft is ahead -/

namespace Draft

/-- A draft has written some more lines than the source has up to the offset that it has passed. -/
def Ahead (source : Array Char) (draft : Draft) (lines : Nat) : Prop :=
  (draft.characters source).count '\n' = (source.toList.take draft.copied).count '\n' + lines

variable {source : Array Char} {draft : Draft} {lines : Nat}

theorem count_take_add_slice (source : Array Char) (start stop : Nat) :
    (source.toList.take start).count '\n' + (slice source start stop).count '\n' =
      (source.toList.take (max start stop)).count '\n' := by
  rcases Nat.le_total start stop with ordered | reversed
  · rw [Nat.max_eq_right ordered, ← take_append_slice ordered, List.count_append]
  · have nothing : slice source start stop = [] := by
      rw [slice_eq, List.drop_eq_nil_iff, List.length_take]
      omega
    rw [Nat.max_eq_left reversed, nothing, List.count_nil, Nat.add_zero]

/-- Text that stands for the source up to an offset, and breaks as many lines, is passed. -/
theorem Ahead.pass {gap : List Char} {stop : Nat} (ahead : draft.Ahead source lines)
    (breaks : gap.count '\n' = (slice source draft.copied stop).count '\n') :
    ((draft.write gap).dropTo stop).Ahead source lines := by
  have further := count_take_add_slice source draft.copied stop
  unfold Ahead at ahead ⊢
  rw [characters_dropTo, characters_write, copied_dropTo, copied_write, List.count_append]
  omega

theorem Ahead.keepTo (ahead : draft.Ahead source lines) (offset : Nat) :
    (draft.keepTo offset).Ahead source lines := by
  have further := count_take_add_slice source draft.copied offset
  unfold Ahead at ahead ⊢
  rw [characters_keepTo, copied_keepTo, List.count_append]
  omega

theorem Ahead.write (ahead : draft.Ahead source lines) (text : List Char) :
    (draft.write text).Ahead source (lines + text.count '\n') := by
  unfold Ahead at ahead ⊢
  rw [characters_write, copied_write, List.count_append]
  omega

/-- An edit brings a draft ahead by the lines that it adds. -/
theorem Ahead.apply (ahead : draft.Ahead source lines) (edit : Edit) :
    (draft.apply source edit).Ahead source (lines + edit.addition.count '\n') := by
  cases edit with
  | erase start stop =>
    rw [Draft.apply]
    split
    · exact ahead
    · exact (ahead.keepTo start).pass (count_gapFor ..)
  | replace start stop text =>
    refine ((ahead.keepTo start).write text.toList).pass ?_
    rw [lineBreaks_eq_replicate, List.count_replicate_self, copied_write]
  | insert offset text => exact (ahead.keepTo offset).write text.toList

theorem Ahead.applyAll (ahead : draft.Ahead source lines) (edits : List Edit) :
    (draft.applyAll source edits).Ahead source
      (lines + (edits.flatMap Edit.addition).count '\n') := by
  induction edits generalizing draft lines with
  | nil => exact ahead
  | cons edit edits inductionHypothesis =>
    rw [List.flatMap_cons, List.count_append, ← Nat.add_assoc]
    exact inductionHypothesis (ahead.apply edit)

theorem ahead_empty : empty.Ahead source 0 := by
  simp [Ahead, empty, characters]

theorem Ahead.unique {others : Nat} (ahead : draft.Ahead source lines)
    (other : draft.Ahead source others) : lines = others :=
  Nat.add_left_cancel (ahead.symm.trans other)

/-- Edits leave a draft on the lines of its source exactly when none of them adds a line. -/
theorem ahead_applyAll_iff (edits : List Edit) :
    (empty.applyAll source edits).Ahead source 0 ↔ ∀ edit ∈ edits, '\n' ∉ edit.addition := by
  have ahead : (empty.applyAll source edits).Ahead source _ := ahead_empty.applyAll edits
  have none : (edits.flatMap Edit.addition).count '\n' = 0 ↔
      ∀ edit ∈ edits, '\n' ∉ edit.addition := by
    simp [List.count_eq_zero]
  rw [← none]
  constructor
  · intro level
    have same := ahead.unique level
    omega
  · intro level
    rwa [level] at ahead

end Draft

/-! ## The statements of an enumeration -/

/-- What a value copies from the source. -/
def MemberValue.copied : MemberValue → List Char
  | .string text | .successor text | .word text | .expression text => text.toList
  | .number _ => []

theorem newline_not_mem_join {α : Type} {items : List α} {text : α → String} :
    '\n' ∉ (String.join (items.map text)).toList ↔ ∀ item ∈ items, '\n' ∉ (text item).toList := by
  induction items with
  | nil => simp
  | cons item items inductionHypothesis =>
    rw [List.map_cons, String.join_cons, String.toList_append, List.mem_append, not_or,
      inductionHypothesis, List.forall_mem_cons]

section Statements

variable {enumName key value body : String}

theorem newline_not_mem_stringMember : '\n' ∉ (stringMember enumName key value).toList ↔
    '\n' ∉ enumName.toList ∧ '\n' ∉ key.toList ∧ '\n' ∉ value.toList := by
  simp [stringMember, toString]

theorem newline_not_mem_numericMember : '\n' ∉ (numericMember enumName key value).toList ↔
    '\n' ∉ enumName.toList ∧ '\n' ∉ key.toList ∧ '\n' ∉ value.toList := by
  simp [numericMember, toString]
  tauto

theorem newline_not_mem_enumObject : '\n' ∉ (enumObject enumName body).toList ↔
    '\n' ∉ enumName.toList ∧ '\n' ∉ body.toList := by
  unfold enumObject
  simp [toString]
  tauto

/-- A value breaks a line only where the name of the enumeration or what it copies does. -/
theorem MemberValue.newline_not_mem_text (named : '\n' ∉ enumName.toList) (value : MemberValue) :
    '\n' ∉ (value.text enumName).toList ↔ '\n' ∉ value.copied := by
  cases value with
  | string | word | expression => rfl
  | number value =>
    have written := value.not_mem_format (by decide : '\n'.isDigit = false) (by decide)
    exact iff_of_true written List.not_mem_nil
  | successor key => simp [text, copied, toString, named]

/-- A statement breaks a line only where its key or what its value copies does. -/
theorem MemberAssignment.newline_not_mem_statement (named : '\n' ∉ enumName.toList)
    (member : MemberAssignment) : '\n' ∉ (member.statement enumName).toList ↔
      '\n' ∉ member.key.toList ∧ '\n' ∉ member.value.copied := by
  rw [← member.value.newline_not_mem_text named]
  obtain ⟨index, key, value⟩ := member
  cases value with
  | string => exact newline_not_mem_stringMember.trans (and_iff_right named)
  | number | successor | word | expression =>
    exact newline_not_mem_numericMember.trans (and_iff_right named)

end Statements

namespace TokenStream

/-- Nothing that is copied for an enumeration breaks a line. -/
structure OnOneLine (stream : TokenStream) (keyword : Nat) (members : List MemberAssignment) :
    Prop where
  name : '\n' ∉ (stream.text (keyword + 1)).toList
  members : ∀ member ∈ members, '\n' ∉ member.key.toList ∧ '\n' ∉ member.value.copied

/-- What is written for an enumeration: its statements, and the line breaks between its ends. -/
def enumerationLines (stream : TokenStream) (first keyword close : Nat)
    (members : List MemberAssignment) : List Char :=
  (stream.enumerationText keyword members).toList ++
    Draft.lineBreaks stream.source (stream.startOf first) (stream.stopOf close)

/-- The output behind the draft of some earlier edits, where an enumeration is replaced. -/
structure ReplacesLines (stream : TokenStream) (output : List Char) (earlier : List Edit)
    (first keyword close : Nat) (members : List MemberAssignment) : Prop where
  /-- Where the earlier edits have not passed its beginning, the declaration is replaced by its
  statements with its line breaks. -/
  written : (Draft.empty.applyAll stream.source earlier).copied ≤ stream.startOf first →
    ((Draft.empty.applyAll stream.source earlier).keepTo (stream.startOf first)).characters
      stream.source ++ stream.enumerationLines first keyword close members <+: output
  /-- What follows it stays on its line exactly when no line is added up to there. -/
  aligned : ((Draft.empty.applyAll stream.source earlier).apply stream.source
      (stream.enumerationEdit first keyword close members)).Ahead stream.source 0 ↔
    stream.OnOneLine keyword members ∧
      ∀ start stop text, .replace start stop text ∈ earlier → '\n' ∉ text.toList

variable {stream : TokenStream} {keyword : Nat} {members : List MemberAssignment}

theorem newline_not_mem_enumerationText :
    '\n' ∉ (stream.enumerationText keyword members).toList ↔ stream.OnOneLine keyword members := by
  rw [enumerationText, newline_not_mem_enumObject, newline_not_mem_join]
  constructor
  · rintro ⟨name, statements⟩
    exact ⟨name, fun member listed =>
      (member.newline_not_mem_statement name).mp (statements member listed)⟩
  · rintro ⟨name, pieces⟩
    exact ⟨name, fun member listed =>
      (member.newline_not_mem_statement name).mpr (pieces member listed)⟩

/-- Only what replaces an enumeration can add lines. -/
theorem newline_not_mem_addition {source : List Char} {edits : List Edit} {edit : Edit}
    (read : ofSource source = .ok stream) (found : stream.edits = .ok edits) (member : edit ∈ edits)
    (other : ∀ start stop text, edit = .replace start stop text → '\n' ∉ text.toList) :
    '\n' ∉ edit.addition := by
  have justified := justified_of_edits read found edit member
  cases edit with
  | erase => exact List.not_mem_nil
  | replace start stop text => exact other start stop text rfl
  | insert offset text =>
    cases justified with
    | assignments _ assigns =>
      have assigned : stream.Assigned text.toList := by
        rwa [Assigned, String.ofList_toList]
      exact assigned.newline_not_mem (placed_of_ofSource read)

/-- An enumeration among the edits of a program brings the output ahead by the lines of its text. -/
theorem replacesLines_of_edits {source output : List Char} {edits earlier later : List Edit}
    {first close : Nat} (read : ofSource source = .ok stream) (found : stream.edits = .ok edits)
    (split : edits = earlier ++ stream.enumerationEdit first keyword close members :: later)
    (written : output = editedText stream.source edits) :
    stream.ReplacesLines output earlier first keyword close members := by
  let draft := Draft.empty.applyAll stream.source earlier
  let edit := stream.enumerationEdit first keyword close members
  constructor
  · intro before
    have begins : (draft.keepTo (stream.startOf first)).copied = stream.startOf first := by
      rw [Draft.copied_keepTo, Nat.max_eq_right before]
    have replaced : (draft.apply stream.source edit).characters stream.source =
        (draft.keepTo (stream.startOf first)).characters stream.source ++
          stream.enumerationLines first keyword close members := by
      simp only [edit, enumerationEdit, Draft.apply, Draft.characters_dropTo, Draft.characters_write,
        begins, enumerationLines, List.append_assoc]
    rw [← replaced, written, editedText_eq, split, Draft.applyAll_append_cons,
      Draft.characters_keepTo]
    exact ((draft.apply stream.source edit).prefix_applyAll stream.source later).trans
      (List.prefix_append _ _)
  · have level : (Draft.empty.applyAll stream.source (earlier ++ [edit])).Ahead stream.source 0 ↔ _ :=
      Draft.ahead_applyAll_iff (earlier ++ [edit])
    rw [Draft.applyAll_append_cons] at level
    refine level.trans ?_
    have own : '\n' ∉ edit.addition ↔ stream.OnOneLine keyword members :=
      newline_not_mem_enumerationText
    rw [List.forall_mem_append, List.forall_mem_singleton, own, and_comm]
    refine and_congr_right fun _ => ⟨fun all start stop text listed => all _ listed, ?_⟩
    intro all other listed
    refine newline_not_mem_addition read found ?_ fun start stop text same => all start stop text ?_
    · exact split ▸ List.mem_append_left _ listed
    · exact same ▸ listed

end TokenStream

open TokenStream

/-- An enumeration is replaced by text with the lines of its declaration exactly when nothing that is
copied for it breaks a line. What follows it then stays on its line, if that holds of the enumerations
before it as well; otherwise it does not. -/
theorem eraseTypes_enumeration_lines {source output : String} {stream : TokenStream}
    {first keyword : Nat} (read : ofSource source.toList = .ok stream)
    (erased : eraseTypes source = .ok output) (starts : stream.StartsEnumeration first keyword)
    (steps : stream.StepsOn first) :
    ∃ edits close members, stream.edits = .ok edits ∧
      stream.LowersEnumeration first keyword close members edits ∧
        ((stream.enumerationLines first keyword close members).count '\n' =
            (slice stream.source (stream.startOf first) (stream.stopOf close)).count '\n' ↔
          stream.OnOneLine keyword members) ∧
        ∀ earlier later,
          edits = earlier ++ stream.enumerationEdit first keyword close members :: later →
            stream.ReplacesLines output.toList earlier first keyword close members := by
  obtain ⟨edits, found, written⟩ := (eraseTypes_eq_ok_iff read).mp erased
  obtain ⟨close, members, lowered⟩ := starts.exists_lowersEnumeration read steps found
  refine ⟨edits, close, members, found, lowered, ?_, fun earlier later split => ?_⟩
  · rw [← newline_not_mem_enumerationText, ← List.count_eq_zero, enumerationLines,
      List.count_append, Draft.lineBreaks_eq_replicate, List.count_replicate_self]
    omega
  · exact replacesLines_of_edits read found split written

/-- Members on several lines, with a comment, a computed initializer and a member behind it. -/
theorem eraseTypes_of_enumerationOnLines : ∃ stream edits earlier,
    ofSource "enum E \x7b\n 'A' = f(1), // one\n B,\n\x7d\ng(E.B);".toList = .ok stream ∧
      eraseTypes "enum E \x7b\n 'A' = f(1), // one\n B,\n\x7d\ng(E.B);" =
        .ok ("var E; (function (E) \x7b E[E['A'] = f(1)] = 'A'; E[E[\"B\"] = E['A'] + 1] = \"B\"; \x7d)" ++
          "(E || (E = \x7b\x7d));\n\n\n\ng(E.B);") ∧
      stream.LowersEnumeration 0 0 12
        [⟨3, "'A'", .expression "f(1)"⟩, ⟨10, "\"B\"", .successor "'A'"⟩] edits ∧
      (stream.enumerationLines 0 0 12
        [⟨3, "'A'", .expression "f(1)"⟩, ⟨10, "\"B\"", .successor "'A'"⟩]).count '\n' =
          (slice stream.source (stream.startOf 0) (stream.stopOf 12)).count '\n' ∧
      stream.ReplacesLines ("var E; (function (E) \x7b E[E['A'] = f(1)] = 'A'; E[E[\"B\"] = E['A'] + 1] = \"B\"; \x7d)" ++
          "(E || (E = \x7b\x7d));\n\n\n\ng(E.B);").toList earlier 0 0 12
        [⟨3, "'A'", .expression "f(1)"⟩, ⟨10, "\"B\"", .successor "'A'"⟩] := by
  have erased : eraseTypes "enum E \x7b\n 'A' = f(1), // one\n B,\n\x7d\ng(E.B);" =
      .ok ("var E; (function (E) \x7b E[E['A'] = f(1)] = 'A'; E[E[\"B\"] = E['A'] + 1] = \"B\"; \x7d)" ++
          "(E || (E = \x7b\x7d));\n\n\n\ng(E.B);") := by
    decide +kernel
  have facts : ((ofSource "enum E \x7b\n 'A' = f(1), // one\n B,\n\x7d\ng(E.B);".toList).toOption.any
      fun stream => decide
        ((∀ token : Nat × String, token ∈ [(0, "enum"), (4, "="), (9, ","), (11, ",")] →
            stream.is token.1 token.2 = true) ∧
          (∀ member : Nat × String, member ∈ [(3, "'A'"), (10, "\"B\"")] →
            ((stream.memberKey member.1).toOption.any fun key => decide (key = member.2)) = true) ∧
          stream.is 11 "=" = false ∧ stream.isPlainWord 1 = true ∧ stream.text 1 = "E" ∧
          (stream.memberValueEnd 5 12 = 9 ∧ stream.initializerNumber? 5 9 = none ∧
            stream.sourceOf 5 9 = "f(1)") ∧
          stream.closer? 2 = some 12)) = true := by
    decide +kernel
  obtain ⟨stream, read, tokens, keys, bare, named, name, ⟨ends, noNumber, copied⟩, closes⟩ :=
    exists_ok_of_any _ facts
  have written : ∀ {index text}, (index, text) ∈ [(0, "enum"), (4, "="), (9, ","), (11, ",")] →
      stream.is index text = true :=
    fun listed => tokens _ listed
  have keyed : ∀ {index key}, (index, key) ∈ [(3, "'A'"), (10, "\"B\"")] →
      stream.memberKey index = .ok key := by
    intro index key listed
    obtain ⟨value, found, rfl⟩ := exists_ok_of_any _ (keys _ listed)
    exact found
  have lowers : stream.LowersMembers 12 3 (.value .zero)
      [⟨3, "'A'", .expression "f(1)"⟩, ⟨10, "\"B\"", .successor "'A'"⟩] := by
    have call : stream.LowersMember 12 3 (.value .zero) (.expression "f(1)") 9 :=
      copied ▸ .initialized (written (by decide)) ends (by decide)
        (.expression noNumber fun lone => absurd lone (by decide))
    exact .more (by decide) (keyed (by decide)) call (written (by decide))
      (.more (by decide) (keyed (by decide)) (.successor bare rfl) (written (by decide))
        (.nothing (by decide)))
  have starts : stream.StartsEnumeration 0 0 := .plain (written (by decide)) named rfl
  obtain ⟨edits, close, members, -, lowered, level, replaces⟩ := eraseTypes_enumeration_lines read
    erased starts (stepsOn_zero (lt_size_of_is (written (by decide : (0, "enum") ∈ _))))
  obtain rfl : 12 = close := Option.some.inj (closes.symm.trans lowered.closes)
  obtain rfl := lowers.unique lowered.lowers
  obtain ⟨earlier, later, split⟩ := List.append_of_mem lowered.replaced
  have oneLine : stream.OnOneLine 0
      [⟨3, "'A'", .expression "f(1)"⟩, ⟨10, "\"B\"", .successor "'A'"⟩] :=
    ⟨by rw [name]; decide, by decide⟩
  exact ⟨stream, edits, earlier, read, erased, lowered, level.mpr oneLine,
    replaces earlier later split⟩

/-- A line break in an initializer is written twice, and the call comes to stand a line later. -/
theorem eraseTypes_of_brokenInitializer :
    eraseTypes "enum E \x7b A = 1 +\n2 \x7d\nf();" =
        .ok "var E; (function (E) \x7b E[E[\"A\"] = 1 +\n2] = \"A\"; \x7d)(E || (E = \x7b\x7d));\n\nf();" := by
  decide +kernel

end Playground

import Playground.Proofs.Erasure.Provenance
import Playground.Proofs.Erasure.Tiling
import Playground.Proofs.Erasure.Visits.Basic

/-!
# What an enumeration becomes

The members of an enumeration become assignments, in their order: each has its key, and a value by
the way in which the member is initialized (`LowersMembers`). Where the walk of a program steps on
an enumeration, the statements of its assignments are written in place of it
(`exists_lowersEnumeration`).
-/

namespace Playground

/-- What a member of an enumeration is given. -/
inductive MemberValue where
  | string (text : String)
  | number (value : Number)
  /-- One more than the member with the given key. -/
  | successor (key : String)
  | word (name : String)
  /-- Any other expression, by its source. -/
  | expression (text : String)

/-- A member of an enumeration by its token, its key and its value. -/
structure MemberAssignment where
  index : Nat
  key : String
  value : MemberValue

/-- How a value is written. -/
def MemberValue.text (enumName : String) : MemberValue → String
  | .string text | .word text | .expression text => text
  | .number value => value.format .plain
  | .successor key => s!"{enumName}[{key}] + 1"

/-- What a member without an initializer receives behind one with the given key and value. -/
def MemberValue.following (key : String) : MemberValue → NextMember
  | .string _ => .unknown
  | .number value => .value (value + Number.ofNat 1)
  | .successor _ | .word _ | .expression _ => .after key

/-- The statement that an assignment is written as: only strings are not mapped back. -/
def MemberAssignment.statement (enumName : String) (assignment : MemberAssignment) : String :=
  match assignment.value with
  | .string text => stringMember enumName assignment.key text
  | value => numericMember enumName assignment.key (value.text enumName)

namespace TokenStream

/-- The value that the tokens from `first` up to `stop` give a member. -/
inductive Initializes (stream : TokenStream) (first stop : Nat) : MemberValue → Prop where
  | string (lone : stop = first + 1) (kind : stream.kind? first = some .string) :
      Initializes stream first stop (.string (stream.text first))
  | number {value} (found : stream.initializerNumber? first stop = some value) :
      Initializes stream first stop (.number value)
  | word (lone : stop = first + 1) (kind : stream.kind? first = some .word) :
      Initializes stream first stop (.word (stream.text first))
  | expression (unknown : stream.initializerNumber? first stop = none)
      (several : stop = first + 1 →
        stream.kind? first ≠ some .string ∧ stream.kind? first ≠ some .word) :
      Initializes stream first stop (.expression (stream.sourceOf first stop))

/-- The value of the member at an index, up to where it ends. -/
inductive LowersMember (stream : TokenStream) (close index : Nat) (before : Playground.NextMember) :
    MemberValue → Nat → Prop where
  | initialized {value stop} (equals : stream.is (index + 1) "=" = true)
      (ends : stream.memberValueEnd (index + 2) close = stop) (present : stop ≠ index + 2)
      (given : stream.Initializes (index + 2) stop value) :
      LowersMember stream close index before value stop
  | counted {value} (bare : stream.is (index + 1) "=" = false) (known : before = .value value) :
      LowersMember stream close index before (.number value) (index + 1)
  | successor {key} (bare : stream.is (index + 1) "=" = false) (known : before = .after key) :
      LowersMember stream close index before (.successor key) (index + 1)

/-- The assignments of the members from an index up to the closing brace. -/
inductive LowersMembers (stream : TokenStream) (close : Nat) :
    Nat → Playground.NextMember → List MemberAssignment → Prop where
  | nothing {index before} (past : close ≤ index) : LowersMembers stream close index before []
  | last {index before key value stop} (inside : index < close)
      (named : stream.memberKey index = .ok key)
      (one : stream.LowersMember close index before value stop) (ends : close ≤ stop)
      (alone : stream.is stop "," = false) :
      LowersMembers stream close index before [⟨index, key, value⟩]
  | more {index before key value comma others} (inside : index < close)
      (named : stream.memberKey index = .ok key)
      (one : stream.LowersMember close index before value comma)
      (separator : stream.is comma "," = true)
      (rest : LowersMembers stream close (comma + 1) (value.following key) others) :
      LowersMembers stream close index before (⟨index, key, value⟩ :: others)

/-- The declaration of an enumeration begins at `first`, with its keyword at another index or there
as well. -/
inductive StartsEnumeration (stream : TokenStream) (first : Nat) : Nat → Prop where
  | plain (word : stream.is first "enum" = true) (named : stream.isPlainWord (first + 1) = true)
      (free : stream.isPropertyName first = false) : StartsEnumeration stream first first
  | constant (modifier : stream.is first "const" = true) (word : stream.is (first + 1) "enum" = true)
      (free : stream.isPropertyName first = false) : StartsEnumeration stream first (first + 1)

/-- The text that is written for an enumeration with some assignments. -/
def enumerationText (stream : TokenStream) (keyword : Nat) (members : List MemberAssignment) : String :=
  enumObject (stream.text (keyword + 1))
    (String.join (members.map (MemberAssignment.statement (stream.text (keyword + 1)))))

/-- The edit that replaces an enumeration. -/
def enumerationEdit (stream : TokenStream) (first keyword close : Nat)
    (members : List MemberAssignment) : Edit :=
  .replace (stream.startOf first) (stream.stopOf close) (stream.enumerationText keyword members)

/-- Among some edits the enumeration from `first` up to `close` is replaced by its assignments. -/
structure LowersEnumeration (stream : TokenStream) (first keyword close : Nat)
    (members : List MemberAssignment) (edits : List Edit) : Prop where
  opens : stream.is (keyword + 2) "\x7b" = true
  closes : stream.closer? (keyword + 2) = some close
  lowers : stream.LowersMembers close (keyword + 3) (.value .zero) members
  replaced : stream.enumerationEdit first keyword close members ∈ edits

variable {stream : TokenStream} {first keyword index stop close : Nat} {enumName key : String}
  {before : Playground.NextMember}

/-! ## One member -/

/-- A token is the slice of the source between its ends. -/
theorem sourceOf_single {source : List Char} (read : ofSource source = .ok stream)
    (inside : index < stream.size) : stream.sourceOf index (index + 1) = stream.text index := by
  obtain ⟨tokens, partners, tokenized, _, rfl⟩ := ofSource_eq_ok_iff.mp read
  have listed : index < tokens.length := by
    simpa [size] using inside
  have here : TokenStream.get? ⟨source.toArray, tokens.toArray, partners⟩ index =
      some tokens[index] := by
    simp [get?, listed]
  have tiled : Tiled 0 source tokens := tiled_of_tokensFrom tokenized
  have slices := tiled.slice_of_mem (List.getElem_mem listed)
  simp only [sourceOf, startOf, stopOf, text, Nat.add_sub_cancel, here, slices, String.ofList_toList]

theorem exists_initializes {source : List Char} (read : ofSource source = .ok stream)
    (enumName key : String) (index first stop : Nat) :
    ∃ value, stream.Initializes first stop value ∧
      stream.initializedMember enumName key first stop =
        ⟨(⟨index, key, value⟩ : MemberAssignment).statement enumName, value.following key, stop⟩ := by
  unfold initializedMember
  split
  case isTrue string => exact ⟨_, .string string.1 string.2, rfl⟩
  rename_i notString
  cases found : stream.initializerNumber? first stop with
  | some value => exact ⟨_, .number found, rfl⟩
  | none =>
    by_cases lone : stop = first + 1
    · subst lone
      by_cases word : stream.kind? first = some .word
      · refine ⟨_, .word rfl word, ?_⟩
        rw [sourceOf_single read (lt_size_of_kind? word)]
        rfl
      · exact ⟨_, .expression found fun _ => ⟨fun string => notString ⟨rfl, string⟩, word⟩, rfl⟩
    · exact ⟨_, .expression found fun same => absurd same lone, rfl⟩

theorem exists_lowersMember {source : List Char} (read : ofSource source = .ok stream)
    {member : LoweredMember}
    (found : stream.enumMember enumName index close before = .ok member) :
    ∃ key value, stream.memberKey index = .ok key ∧
      stream.LowersMember close index before value member.stop ∧
        member.statement = (⟨index, key, value⟩ : MemberAssignment).statement enumName ∧
          member.following = value.following key := by
  obtain ⟨key, named, rest⟩ := bind_eq_ok_iff.mp found
  dsimp only at rest
  split at rest
  case isTrue equals =>
    split at rest
    · contradiction
    rename_i present
    cases rest
    obtain ⟨value, given, lowered⟩ := exists_initializes read enumName key index (index + 2)
      (stream.memberValueEnd (index + 2) close)
    rw [lowered]
    exact ⟨key, value, named, .initialized equals rfl present given, rfl, rfl⟩
  case isFalse bare =>
    have bare := Bool.eq_false_iff.mpr bare
    cases before with
    | value value =>
      cases rest
      exact ⟨key, _, named, .counted bare rfl, rfl, rfl⟩
    | after previous =>
      cases rest
      exact ⟨key, _, named, .successor bare rfl, rfl, rfl⟩
    | unknown => contradiction

theorem LowersMember.lt {value : MemberValue}
    (one : stream.LowersMember close index before value stop) : index < stop := by
  cases one with
  | initialized _ ends =>
    have forward : index + 2 ≤ stream.memberValueEnd (index + 2) close := stream.le_seek ..
    omega
  | counted | successor => exact Nat.lt_succ_self index

/-! ## All members -/

/-- The body of an enumeration is made of the statements of its assignments. -/
theorem exists_lowersMembers {source : List Char} (read : ofSource source = .ok stream)
    {index : Nat} {before : Playground.NextMember} {body : String}
    (found : stream.enumMembersFrom enumName index close before = .ok body) :
    ∃ members, stream.LowersMembers close index before members ∧
      body = String.join (members.map (MemberAssignment.statement enumName)) := by
  unfold enumMembersFrom at found
  split at found
  case isFalse past =>
    cases found
    exact ⟨[], .nothing (Nat.le_of_not_lt past), rfl⟩
  case isTrue inside =>
    obtain ⟨member, foundMember, rest⟩ := bind_eq_ok_iff.mp found
    obtain ⟨key, value, named, one, statement, following⟩ := exists_lowersMember read foundMember
    split at rest
    case isTrue comma =>
      obtain ⟨others, foundOthers, result⟩ := bind_eq_ok_iff.mp rest
      cases result
      rw [following] at foundOthers
      obtain ⟨members, lowers, rfl⟩ := exists_lowersMembers read foundOthers
      exact ⟨_, .more inside named one comma.2 lowers,
        by rw [statement, List.map_cons, String.join_cons]⟩
    case isFalse noComma =>
      split at rest
      · contradiction
      rename_i ends
      cases rest
      have alone : stream.is member.stop "," = false :=
        Bool.eq_false_iff.mpr fun comma => noComma ⟨Nat.le_of_lt one.lt, comma⟩
      exact ⟨_, .last inside named one (Nat.le_of_not_lt ends) alone, by simp [statement]⟩
termination_by close - index

/-- A member among others is lowered, and those behind it follow its value. -/
theorem LowersMembers.of_append {front back : List MemberAssignment} {one : MemberAssignment}
    (lowers : stream.LowersMembers close index before (front ++ one :: back)) :
    ∃ earlier stop, stream.memberKey one.index = .ok one.key ∧
      stream.LowersMember close one.index earlier one.value stop ∧
        (back ≠ [] → stream.LowersMembers close (stop + 1) (one.value.following one.key) back) := by
  induction front generalizing index before with
  | nil =>
    cases lowers with
    | last _ named one => exact ⟨_, _, named, one, fun some => absurd rfl some⟩
    | more _ named one _ rest => exact ⟨_, _, named, one, fun _ => rest⟩
  | cons first front inductionHypothesis =>
    rw [List.cons_append] at lowers
    generalize shape : front ++ one :: back = others at lowers
    cases lowers with
    | last => simp at shape
    | more _ _ _ _ rest => exact inductionHypothesis (shape ▸ rest)

/-! ## A single lowering -/

/-- A word or a string is no number. -/
theorem initializerNumber?_eq_none {kind : TokenKind} (found : stream.kind? first = some kind)
    (other : kind ≠ .number) : stream.initializerNumber? first (first + 1) = none := by
  simp [initializerNumber?, found, other]

theorem Initializes.unique {one other : MemberValue} (given : stream.Initializes first stop one)
    (second : stream.Initializes first stop other) : one = other := by
  cases given with
  | string lone kind =>
    subst lone
    have noNumber := initializerNumber?_eq_none kind (by decide)
    cases second with
    | string => rfl
    | number found => simp [noNumber] at found
    | word _ word => simp [kind] at word
    | expression _ several => exact absurd kind (several rfl).1
  | number found =>
    cases second with
    | string lone kind | word lone kind =>
      subst lone
      simp [initializerNumber?_eq_none kind] at found
    | number other => rw [Option.some.inj (found.symm.trans other)]
    | expression unknown => simp [unknown] at found
  | word lone kind =>
    subst lone
    have noNumber := initializerNumber?_eq_none kind (by decide)
    cases second with
    | string _ string => simp [kind] at string
    | number found => simp [noNumber] at found
    | word => rfl
    | expression _ several => exact absurd kind (several rfl).2
  | expression unknown several =>
    cases second with
    | string lone kind => exact absurd kind (several lone).1
    | number found => simp [unknown] at found
    | word lone kind => exact absurd kind (several lone).2
    | expression => rfl

theorem LowersMember.unique {value other : MemberValue} {otherStop : Nat}
    (one : stream.LowersMember close index before value stop)
    (second : stream.LowersMember close index before other otherStop) :
    value = other ∧ stop = otherStop := by
  cases one with
  | initialized equals ends _ given =>
    cases second with
    | initialized _ otherEnds _ otherGiven =>
      subst ends otherEnds
      exact ⟨given.unique otherGiven, rfl⟩
    | counted bare | successor bare => simp [equals] at bare
  | counted bare known =>
    cases second with
    | initialized equals => simp [bare] at equals
    | counted _ otherKnown =>
      cases known.symm.trans otherKnown
      exact ⟨rfl, rfl⟩
    | successor _ otherKnown => cases known.symm.trans otherKnown
  | successor bare known =>
    cases second with
    | initialized equals => simp [bare] at equals
    | counted _ otherKnown => cases known.symm.trans otherKnown
    | successor _ otherKnown =>
      cases known.symm.trans otherKnown
      exact ⟨rfl, rfl⟩

/-- The members of an enumeration are lowered in one way. -/
theorem LowersMembers.unique {members others : List MemberAssignment}
    (lowers : stream.LowersMembers close index before members)
    (second : stream.LowersMembers close index before others) : members = others := by
  induction lowers generalizing others with
  | nothing past =>
    cases second with
    | nothing => rfl
    | last inside | more inside => omega
  | last inside named one _ alone =>
    cases second with
    | nothing past => omega
    | last _ otherNamed other =>
      obtain ⟨rfl, -⟩ := one.unique other
      cases named.symm.trans otherNamed
      rfl
    | more _ _ other separator =>
      obtain ⟨-, rfl⟩ := one.unique other
      simp [alone] at separator
  | more inside named one separator _ inductionHypothesis =>
    cases second with
    | nothing past => omega
    | last _ _ other _ alone =>
      obtain ⟨-, rfl⟩ := one.unique other
      simp [alone] at separator
    | more _ otherNamed other _ rest =>
      obtain ⟨rfl, rfl⟩ := one.unique other
      cases named.symm.trans otherNamed
      rw [inductionHypothesis rest]

/-! ## Declarations -/

/-- What is declared is replaced by the statements of its assignments. -/
theorem exists_enumerationText {source : List Char} (read : ofSource source = .ok stream)
    {progress : Progress} (found : stream.enumDeclaration first keyword = .ok progress) :
    ∃ close members, stream.is (keyword + 2) "\x7b" = true ∧
      stream.closer? (keyword + 2) = some close ∧
        stream.LowersMembers close (keyword + 3) (.value .zero) members ∧
          progress = ⟨close + 1, [stream.enumerationEdit first keyword close members]⟩ := by
  unfold enumDeclaration at found
  dsimp only at found
  split at found
  case isFalse => contradiction
  case isTrue opens =>
    obtain ⟨close, closes, rest⟩ := bind_eq_ok_iff.mp found
    obtain ⟨body, foundBody, result⟩ := bind_eq_ok_iff.mp rest
    cases result
    obtain ⟨members, lowers, rfl⟩ := exists_lowersMembers read foundBody
    exact ⟨close, members, opens, closeOf_eq_ok_iff.mp closes, lowers, rfl⟩

/-! ## Enumerations of a program -/

theorem StartsEnumeration.step_eq (placed : stream.Placed) (walk : Walk)
    (starts : stream.StartsEnumeration first keyword) :
    stream.step walk first = stream.enumDeclaration first keyword := by
  cases starts with
  | plain word named free =>
    rw [placed.step_of_keyword walk word (by decide), wordStep, free, if_neg Bool.false_ne_true,
      (is_iff.mp word).2]
    exact if_pos named
  | constant modifier word free =>
    rw [placed.step_of_keyword walk modifier (by decide), wordStep, free,
      if_neg Bool.false_ne_true, (is_iff.mp modifier).2]
    exact if_pos word

/-- Where the walk of a program steps on an enumeration, it is replaced by its assignments. -/
theorem StartsEnumeration.exists_lowersEnumeration {source : List Char}
    (read : ofSource source = .ok stream) (starts : stream.StartsEnumeration first keyword)
    (steps : stream.StepsOn first) {edits : List Edit} (found : stream.edits = .ok edits) :
    ∃ close members, stream.LowersEnumeration first keyword close members edits := by
  have placed := placed_of_ofSource read
  obtain ⟨whole, walked, result⟩ := bind_eq_ok_iff.mp found
  cases result
  obtain ⟨one, stepped, among⟩ := steps.exists_step (nested_of_ofSource read) placed walked
  rw [starts.step_eq placed] at stepped
  obtain ⟨close, members, opens, closes, lowers, rfl⟩ := exists_enumerationText read stepped
  exact ⟨close, members, opens, closes, lowers, among List.mem_cons_self⟩

end TokenStream

/-- The text of a replacement stands in the result. -/
theorem infix_editedText_of_replace (source : Array Char) {edits : List Edit} {start stop : Nat}
    {text : String} (member : .replace start stop text ∈ edits) :
    text.toList <:+: editedText source edits := by
  obtain ⟨before, after, rfl⟩ := List.append_of_mem member
  let draft := Draft.empty.applyAll source before
  have replaced : text.toList <:+:
      (draft.apply source (.replace start stop text)).characters source := by
    simp only [Draft.apply, Draft.characters_dropTo, Draft.characters_write]
    exact List.infix_append _ _ _
  rw [editedText_eq, Draft.applyAll_append_cons, Draft.characters_keepTo]
  exact replaced.trans (((draft.apply source (.replace start stop text)).prefix_applyAll source
    after).trans (List.prefix_append _ _)).isInfix

end Playground

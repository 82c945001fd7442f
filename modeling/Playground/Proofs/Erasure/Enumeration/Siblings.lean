import Mathlib.Logic.Function.Basic
import Playground.Proofs.Erasure.Enumeration.Members

/-!
# Members that are named by other members

A member may be initialized with the name of an earlier one. What is written for it reads the variable
of that name around the enumeration, and not the property of the object (`eraseTypes_reads_variable`).
A `Runtime` says what the statements do: without such a variable they fail, and otherwise the two
members agree exactly where the variable holds the value of the earlier one.
-/

namespace Playground

/-- What the statements of an enumeration change: everything around it, and the properties of its
object. -/
structure EnumState (Scope Value Property : Type) where
  scope : Scope
  properties : Property → Value

/-- What the parts of the statements mean. -/
structure Runtime (Scope Value Property : Type) where
  literal : String → Value
  number : Number → Value
  addOne : Value → Value
  /-- The property that a value names in brackets. -/
  property : Value → Property
  /-- The object of the enumeration as a value. -/
  object : Value
  /-- The value of a variable around the enumeration, if there is one. -/
  lookup? : Scope → String → Option Value
  /-- The value of any other expression and the state behind it, unless it fails. -/
  evaluate : String → EnumState Scope Value Property →
    Option (Value × EnumState Scope Value Property)

namespace Runtime

variable {Scope Value Property : Type} (runtime : Runtime Scope Value Property)

/-- The property of the member with a key. -/
def keyed (key : String) : Property :=
  runtime.property (runtime.literal key)

/-- The value that a member is given and the state behind it. The name of the enumeration stands for
its object. -/
def valueOf (enumName : String) (state : EnumState Scope Value Property) :
    MemberValue → Option (Value × EnumState Scope Value Property)
  | .string text => some (runtime.literal text, state)
  | .number value => some (runtime.number value, state)
  | .successor key => some (runtime.addOne (state.properties (runtime.keyed key)), state)
  | .word name =>
    (if name = enumName then some runtime.object else runtime.lookup? state.scope name).map (·, state)
  | .expression text => runtime.evaluate text state

variable [DecidableEq Property]

/-- Runs the statement of an assignment: the key is mapped to the value, and the value back to the key
unless it is a string. -/
def assign (enumName : String) (state : EnumState Scope Value Property)
    (assignment : MemberAssignment) : Option (EnumState Scope Value Property) := do
  let (value, reached) ← runtime.valueOf enumName state assignment.value
  let named := Function.update reached.properties (runtime.keyed assignment.key) value
  match assignment.value with
  | .string _ => return ⟨reached.scope, named⟩
  | _ =>
    return ⟨reached.scope,
      Function.update named (runtime.property value) (runtime.literal assignment.key)⟩

/-- Runs the statements of assignments in their order. -/
def run (enumName : String) (state : EnumState Scope Value Property)
    (assignments : List MemberAssignment) : Option (EnumState Scope Value Property) :=
  assignments.foldlM (runtime.assign enumName) state

end Runtime

/-- The statements behind those of `front` read a variable for a member. -/
structure ReadsVariable (enumName : String) (front : List MemberAssignment)
    (member : MemberAssignment) (back : List MemberAssignment) (name : String) : Prop where
  /-- Without the variable they fail. -/
  fails : ∀ {Scope Value Property : Type} [DecidableEq Property]
    (runtime : Runtime Scope Value Property) {start reached : EnumState Scope Value Property},
      runtime.run enumName start front = some reached → runtime.lookup? reached.scope name = none →
        runtime.run enumName start (front ++ member :: back) = none
  /-- The member is given the value of the variable. -/
  gives : ∀ {Scope Value Property : Type} [DecidableEq Property]
    (runtime : Runtime Scope Value Property) {start reached : EnumState Scope Value Property}
    {value : Value}, runtime.run enumName start front = some reached →
      runtime.lookup? reached.scope name = some value →
        runtime.run enumName start (front ++ [member]) = some ⟨reached.scope,
          Function.update (Function.update reached.properties (runtime.keyed member.key) value)
            (runtime.property value) (runtime.literal member.key)⟩
  /-- The member agrees with another exactly where the variable does, if the value of the variable
  names neither of them. -/
  agrees : ∀ {Scope Value Property : Type} [DecidableEq Property]
    (runtime : Runtime Scope Value Property) {start after : EnumState Scope Value Property}
    {other : String}, runtime.run enumName start (front ++ [member]) = some after →
      runtime.keyed other ≠ runtime.keyed member.key →
        (∀ value, runtime.lookup? after.scope name = some value →
          runtime.property value ≠ runtime.keyed member.key ∧
            runtime.property value ≠ runtime.keyed other) →
          (after.properties (runtime.keyed member.key) = after.properties (runtime.keyed other) ↔
            runtime.lookup? after.scope name = some (after.properties (runtime.keyed other)))

namespace Runtime

variable {Scope Value Property : Type} [DecidableEq Property]
  (runtime : Runtime Scope Value Property) {enumName name : String} {member : MemberAssignment}
  {front back : List MemberAssignment} {start reached : EnumState Scope Value Property}

theorem run_append (assignments : List MemberAssignment)
    (ran : runtime.run enumName start front = some reached) :
    runtime.run enumName start (front ++ assignments) = runtime.run enumName reached assignments := by
  rw [run, List.foldlM_append]
  change runtime.run enumName start front >>= _ = _
  rw [ran]
  rfl

/-- A word that is not the name of the enumeration is looked up around it. -/
theorem assign_of_word (word : member.value = .word name) (other : name ≠ enumName) :
    runtime.assign enumName reached member =
      (runtime.lookup? reached.scope name).map fun value => ⟨reached.scope,
        Function.update (Function.update reached.properties (runtime.keyed member.key) value)
          (runtime.property value) (runtime.literal member.key)⟩ := by
  rw [assign, word, valueOf, if_neg other]
  cases runtime.lookup? reached.scope name <;> rfl

end Runtime

/-- A member with a word as its value reads the variable of that name. -/
theorem readsVariable_of_word {enumName name : String} {front back : List MemberAssignment}
    {member : MemberAssignment} (word : member.value = .word name) (other : name ≠ enumName) :
    ReadsVariable enumName front member back name where
  fails runtime start reached ran missing := by
    rw [runtime.run_append _ ran, Runtime.run, List.foldlM_cons, runtime.assign_of_word word other,
      missing]
    rfl
  gives runtime start reached value ran found := by
    rw [runtime.run_append _ ran, Runtime.run, List.foldlM_cons, runtime.assign_of_word word other,
      found]
    rfl
  agrees runtime start after key ran apart foreign := by
    cases ranFront : runtime.run enumName start front with
    | none =>
      rw [Runtime.run, List.foldlM_append] at ran
      change runtime.run enumName start front >>= _ = _ at ran
      rw [ranFront] at ran
      contradiction
    | some reached =>
      rw [runtime.run_append _ ranFront, Runtime.run, List.foldlM_cons,
        runtime.assign_of_word word other] at ran
      cases found : runtime.lookup? reached.scope name with
      | none =>
        rw [found] at ran
        contradiction
      | some value =>
        rw [found] at ran
        obtain rfl := Option.some.inj ran
        obtain ⟨notMember, notOther⟩ := foreign value found
        simp only [found, Option.some.injEq, Function.update_of_ne notMember.symm,
          Function.update_of_ne notOther.symm, Function.update_self, Function.update_of_ne apart]

namespace TokenStream

/-- The initializer of the member at an index is a single word. -/
structure IsNamed (stream : TokenStream) (close index : Nat) (name : String) : Prop where
  equals : stream.is (index + 1) "=" = true
  kind : stream.kind? (index + 2) = some .word
  spelled : stream.text (index + 2) = name
  lone : stream.memberValueEnd (index + 2) close = index + 3

variable {stream : TokenStream} {close index stop : Nat} {name : String} {value : MemberValue}
  {before : Playground.NextMember}

theorem LowersMember.eq_word (one : stream.LowersMember close index before value stop)
    (named : stream.IsNamed close index name) : value = .word name ∧ stop = index + 3 := by
  cases one with
  | initialized _ ends _ given =>
    obtain rfl : stop = index + 2 + 1 := ends.symm.trans named.lone
    exact ⟨(given.unique (.word rfl named.kind)).trans (by rw [named.spelled]), rfl⟩
  | counted bare | successor bare => simp [named.equals] at bare

/-- Behind a member that is not known a member without an initializer is one more than it. -/
theorem LowersMember.eq_successor {key : String}
    (one : stream.LowersMember close index (.after key) value stop)
    (bare : stream.is (index + 1) "=" = false) : value = .successor key := by
  cases one with
  | initialized equals => simp [bare] at equals
  | counted _ known => cases known
  | successor _ known =>
    cases known
    rfl

end TokenStream

open TokenStream

/-- A member that is initialized with the name of another reads the variable of that name around the
enumeration; a member without an initializer behind it is one more than that. -/
theorem eraseTypes_reads_variable {source output : String} {stream : TokenStream}
    {first keyword : Nat} (read : ofSource source.toList = .ok stream)
    (erased : eraseTypes source = .ok output) (starts : stream.StartsEnumeration first keyword)
    (steps : stream.StepsOn first) :
    ∃ edits close members, stream.edits = .ok edits ∧
      stream.LowersEnumeration first keyword close members edits ∧
        (stream.enumerationText keyword members).toList <:+: output.toList ∧
          ∀ front member back name, members = front ++ member :: back →
            stream.IsNamed close member.index name →
              member.statement (stream.text (keyword + 1)) =
                  numericMember (stream.text (keyword + 1)) member.key name ∧
                (∀ next others, back = next :: others →
                  stream.is (next.index + 1) "=" = false → next.value = .successor member.key) ∧
                (name ≠ stream.text (keyword + 1) →
                  ReadsVariable (stream.text (keyword + 1)) front member back name) := by
  obtain ⟨edits, found, written⟩ := (eraseTypes_eq_ok_iff read).mp erased
  obtain ⟨close, members, lowered⟩ := starts.exists_lowersEnumeration read steps found
  refine ⟨edits, close, members, found, lowered, ?_, ?_⟩
  · rw [written]
    exact infix_editedText_of_replace stream.source lowered.replaced
  rintro front member back name rfl named
  obtain ⟨before, stop, -, one, behind⟩ := lowered.lowers.of_append
  obtain ⟨word, -⟩ := one.eq_word named
  refine ⟨?_, ?_, readsVariable_of_word word⟩
  · rw [MemberAssignment.statement, word]
    rfl
  · rintro next others rfl bare
    have rest := behind (List.cons_ne_nil next others)
    rw [word] at rest
    cases rest with
    | last _ _ one | more _ _ one => exact one.eq_successor bare

/-- A member that is named by the next one, and one that goes on behind both. -/
theorem eraseTypes_of_namedMember : ∃ stream edits,
    ofSource "const enum E \x7b A = 2, 'b' = A, D \x7d\nf(E.D);".toList = .ok stream ∧
      eraseTypes "const enum E \x7b A = 2, 'b' = A, D \x7d\nf(E.D);" =
        .ok ("var E; (function (E) \x7b E[E[\"A\"] = 2] = \"A\"; E[E['b'] = A] = 'b'; " ++
          "E[E[\"D\"] = E['b'] + 1] = \"D\"; \x7d)(E || (E = \x7b\x7d));\nf(E.D);") ∧
      stream.LowersEnumeration 0 1 13
        ([⟨4, "\"A\"", .number (Number.ofNat 2)⟩] ++ ⟨8, "'b'", .word "A"⟩ ::
          [⟨12, "\"D\"", .successor "'b'"⟩]) edits ∧
      stream.IsNamed 13 8 "A" ∧
      ReadsVariable "E" [⟨4, "\"A\"", .number (Number.ofNat 2)⟩] ⟨8, "'b'", .word "A"⟩
        [⟨12, "\"D\"", .successor "'b'"⟩] "A" := by
  have erased : eraseTypes "const enum E \x7b A = 2, 'b' = A, D \x7d\nf(E.D);" =
      .ok ("var E; (function (E) \x7b E[E[\"A\"] = 2] = \"A\"; E[E['b'] = A] = 'b'; " ++
          "E[E[\"D\"] = E['b'] + 1] = \"D\"; \x7d)(E || (E = \x7b\x7d));\nf(E.D);") := by
    decide +kernel
  have facts : ((ofSource "const enum E \x7b A = 2, 'b' = A, D \x7d\nf(E.D);".toList).toOption.any
      fun stream => decide
        ((∀ token : Nat × String, token ∈ [(0, "const"), (1, "enum"), (5, "="), (7, ","), (9, "="),
            (11, ",")] → stream.is token.1 token.2 = true) ∧
          (∀ token : Nat × String, token ∈ [(13, "="), (13, ",")] →
            stream.is token.1 token.2 = false) ∧
          (∀ member : Nat × String, member ∈ [(4, "\"A\""), (8, "'b'"), (12, "\"D\"")] →
            ((stream.memberKey member.1).toOption.any fun key => decide (key = member.2)) = true) ∧
          (∀ value : Nat × Nat, value ∈ [(6, 7), (10, 11)] →
            stream.memberValueEnd value.1 13 = value.2) ∧
          stream.initializerNumber? 6 7 = some (Number.ofNat 2) ∧
          (stream.kind? 10 = some .word ∧ stream.text 10 = "A" ∧ stream.text 2 = "E") ∧
          stream.closer? 3 = some 13 ∧ 0 < stream.size)) = true := by
    decide +kernel
  obtain ⟨stream, read, tokens, missing, keys, ends, number, ⟨kind, spelled, name⟩, closes, size⟩ :=
    exists_ok_of_any _ facts
  have written : ∀ {index text}, (index, text) ∈ [(0, "const"), (1, "enum"), (5, "="), (7, ","),
      (9, "="), (11, ",")] → stream.is index text = true :=
    fun listed => tokens _ listed
  have keyed : ∀ {index key}, (index, key) ∈ [(4, "\"A\""), (8, "'b'"), (12, "\"D\"")] →
      stream.memberKey index = .ok key := by
    intro index key listed
    obtain ⟨value, found, rfl⟩ := exists_ok_of_any _ (keys _ listed)
    exact found
  have lowers : stream.LowersMembers 13 4 (.value .zero)
      [⟨4, "\"A\"", .number (Number.ofNat 2)⟩, ⟨8, "'b'", .word "A"⟩,
        ⟨12, "\"D\"", .successor "'b'"⟩] := by
    have second : stream.LowersMember 13 8 (.value (Number.ofNat 2 + Number.ofNat 1)) (.word "A") 11 :=
      spelled ▸ .initialized (written (by decide)) (ends (10, 11) (by decide)) (by decide)
        (.word rfl kind)
    exact .more (by decide) (keyed (by decide))
      (.initialized (written (by decide)) (ends (6, 7) (by decide)) (by decide) (.number number))
      (written (by decide))
      (.more (by decide) (keyed (by decide)) second (written (by decide))
        (.last (by decide) (keyed (by decide)) (.successor (missing (13, "=") (by decide)) rfl)
          (by decide) (missing (13, ",") (by decide))))
  have starts : stream.StartsEnumeration 0 1 :=
    .constant (written (by decide)) (written (by decide)) rfl
  have named : stream.IsNamed 13 8 "A" := ⟨written (by decide), kind, spelled, ends (10, 11) (by decide)⟩
  obtain ⟨edits, close, members, -, lowered, -, reads⟩ :=
    eraseTypes_reads_variable read erased starts (stepsOn_zero size)
  obtain rfl : 13 = close := Option.some.inj (closes.symm.trans lowered.closes)
  obtain rfl := lowers.unique lowered.lowers
  obtain ⟨-, -, behind⟩ := reads [_] _ [_] "A" rfl named
  rw [name] at behind
  exact ⟨stream, edits, read, erased, lowered, named, behind (by decide)⟩

/-- What is written for a member that is named like an earlier one does not read that one. -/
theorem eraseTypes_of_unqualifiedMember :
    eraseTypes "enum E \x7b A = 1, B = A \x7d" =
      .ok ("var E; (function (E) \x7b E[E[\"A\"] = 1] = \"A\"; E[E[\"B\"] = A] = \"B\"; " ++
        "\x7d)(E || (E = \x7b\x7d));") := by
  decide +kernel

end Playground

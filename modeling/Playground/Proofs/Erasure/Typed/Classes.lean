import Playground.Proofs.Erasure.Typed.Members

/-!
# Typed classes

A class loses the type parameters of its head, the type arguments of its base, the types that it
implements, and what its members lose, and nothing else, as long as no field that ends at a line
break has a value whose last token cannot end an expression (`eraseTypes_of_class`). The name of a
property behind a point may be such a token: then the next field is taken for a part of the value.
-/

namespace Playground

namespace TokenStream

/-- The base of a class, with its type arguments. -/
inductive BaseClass (stream : TokenStream) : Nat → Nat → List Stretch → Prop where
  | absent {index} (missing : stream.is index "extends" = false) : BaseClass stream index index []
  | plain {keyword} (found : stream.is keyword "extends" = true)
      (named : stream.isPlainWord (keyword + 1) = true)
      (free : stream.text (keyword + 1) ≠ "implements") : BaseClass stream keyword (keyword + 2) []
  | applied {keyword stop} (found : stream.is keyword "extends" = true)
      (named : stream.isPlainWord (keyword + 1) = true)
      (free : stream.text (keyword + 1) ≠ "implements")
      (arguments : stream.typeArgumentsEnd? (keyword + 2) = some stop) :
      BaseClass stream keyword stop [stream.attachedStretch (keyword + 2) stop]

/-- Types with commas between them. -/
inductive AreTypes (stream : TokenStream) : Nat → Nat → Prop where
  | last {index stop} (type : stream.typeEnd? index = some stop) : AreTypes stream index stop
  | more {index comma stop} (type : stream.typeEnd? index = some comma)
      (separator : stream.is comma "," = true) (rest : AreTypes stream (comma + 1) stop) :
      AreTypes stream index stop

/-- The types that a class implements. -/
inductive ImplementedTypes (stream : TokenStream) : Nat → Nat → List Stretch → Prop where
  | absent {index} (missing : stream.is index "implements" = false) :
      ImplementedTypes stream index index []
  | present {keyword stop} (found : stream.is keyword "implements" = true)
      (types : stream.AreTypes (keyword + 1) stop) :
      ImplementedTypes stream keyword stop [stream.attachedStretch keyword stop]

/-- A class from its keyword to its closing brace; the values of its fields that end at a line
break end as `Ends` says. -/
inductive IsClass (stream : TokenStream) (Ends : Nat → Prop) : Nat → Nat → List Stretch → Prop where
  | declared {keyword named derived body close generics base interfaces members}
      (begins : stream.is keyword "class" = true) (name : stream.isPlainWord (keyword + 1) = true)
      (free : stream.text (keyword + 1) ∉ ["extends", "implements"])
      (typeParameters : stream.TypeParameters (keyword + 2) named generics)
      (heritage : stream.BaseClass named derived base)
      (implemented : stream.ImplementedTypes derived body interfaces)
      (opens : stream.is body "\x7b" = true) (closes : stream.closer? body = some close)
      (inside : stream.AreMembers Ends (body + 1) close members) :
      IsClass stream Ends keyword (close + 1) (generics ++ base ++ interfaces ++ members)

variable {stream : TokenStream} {Ends : Nat → Prop} {first index stop close keyword : Nat}
  {types : List Stretch}

section Walking

variable (nested : stream.Nested) (placed : stream.Placed)

include nested placed

omit nested placed in
theorem IsClass.lt_size (declared : stream.IsClass Ends keyword stop types) :
    keyword < stream.size := by
  cases declared with
  | declared begins => exact lt_size_of_is begins

/-! ## Members -/

theorem AreMembers.le (members : stream.AreMembers Ends first stop types) : first ≤ stop := by
  induction members with
  | nothing => exact Nat.le_refl _
  | member one _ inductionHypothesis =>
    have ordered := one.lt nested placed
    omega

omit nested in
theorem AreMembers.memberEndsAt (members : stream.AreMembers Ends first close types) :
    stream.MemberEndsAt close first := by
  cases members with
  | nothing => exact .inl rfl
  | member one => exact .inr (one.starts placed)

/-- Members are read up to the closing brace of their class. -/
theorem AreMembers.classMembersFrom_eq {walk : Walk} (walks : stream.WalksBehind keyword walk)
    (members : stream.AreMembers stream.EndsExpression first close types) (after : keyword < first)
    (closes : stream.is close "\x7d" = true) (derived : Bool) :
    stream.classMembersFrom walk first close derived = .ok (erasures types) := by
  induction members with
  | nothing =>
    rw [classMembersFrom, dif_neg (Nat.lt_irrefl _)]
    rfl
  | @member first middle close types others one rest inductionHypothesis =>
    have forward := one.lt nested placed
    have within := rest.le nested placed
    have found := one.classMember_eq nested placed walks after within (rest.memberEndsAt placed) closes
      derived
    have following := inductionHypothesis (by omega) closes
    rw [classMembersFrom, dif_pos (by omega), found]
    change (if _ : first < middle then _ else _) = _
    rw [dif_pos forward, following, erasures_append]
    rfl

/-! ## Heads -/

/-- Behind the base of a class stand the types that it implements, or its body. -/
def EndsHeritage (stream : TokenStream) (index : Nat) : Prop :=
  stream.is index "\x7b" = true ∨ stream.is index "implements" = true

theorem BaseClass.le (heritage : stream.BaseClass index stop types) : index ≤ stop := by
  cases heritage with
  | absent => exact Nat.le_refl _
  | plain => exact Nat.le_add_right _ 2
  | applied _ _ _ arguments =>
    have ordered := lt_of_typeArgumentsEnd? nested placed arguments
    omega

omit nested placed in
theorem heritageFrom_of_end (walk : Walk) (ends : stream.EndsHeritage index) :
    stream.heritageFrom walk index = .ok (.still index) := by
  have ended : (stream.is index "\x7b" || stream.is index "implements") = true := by
    rcases ends with found | found <;> simp [found]
  rw [heritageFrom, if_pos ended]
  split <;> rfl

omit nested placed in
/-- A part of the base is followed by the next. -/
theorem heritageFrom_of_part {walk : Walk} {part rest : Progress} (inside : index < stream.size)
    (goesOn : ¬stream.EndsHeritage index) (found : stream.heritagePart walk index = .ok part)
    (later : index < part.next) (following : stream.heritageFrom walk part.next = .ok rest) :
    stream.heritageFrom walk index = .ok (rest.preceded part.edits) := by
  have going : (stream.is index "\x7b" || stream.is index "implements") = false := by
    simpa [EndsHeritage] using goesOn
  rw [heritageFrom, dif_pos inside, going, if_neg Bool.false_ne_true, found]
  change (if _ : index < part.next then _ else _) = _
  rw [dif_pos later, following]
  rfl

omit nested in
/-- The name of a base is passed. -/
theorem heritagePart_of_name (walk : Walk) (named : stream.isPlainWord index = true) :
    stream.heritagePart walk index = .ok (.still (index + 1)) := by
  have word := kind?_of_isPlainWord named
  have noAngle : stream.is index "<" = false := placed.is_eq_false_of_word word (by decide)
  have noList : stream.is index "(" = false := placed.is_eq_false_of_word word (by decide)
  have noBracket : stream.is index "[" = false := placed.is_eq_false_of_word word (by decide)
  have noArguments : stream.baseArgumentsEnd? index = none := by
    simp [baseArgumentsEnd?, typeArgumentsEnd?, typeArgumentsWith?, noAngle]
  rw [heritagePart, noArguments]
  simp [noList, noBracket, pure, Except.pure]

omit nested placed in
/-- The type arguments of a base are erased where they end the head or come before the types that
the class implements. -/
theorem heritagePart_of_arguments (walk : Walk) (found : stream.typeArgumentsEnd? index = some stop)
    (ends : stream.EndsHeritage stop) :
    stream.heritagePart walk index = .ok ⟨stop, [stream.attached index stop]⟩ := by
  have arguments : stream.baseArgumentsEnd? index = some stop := by
    simpa [baseArgumentsEnd?, found, Option.filter_eq_some_iff, EndsHeritage] using ends
  rw [heritagePart, arguments]
  rfl

/-- The base of a class is read up to the end of its type arguments. -/
theorem BaseClass.heritage_eq (heritage : stream.BaseClass index stop types) (walk : Walk)
    (ends : stream.EndsHeritage stop) :
    stream.heritage walk index = .ok ⟨stop, erasures types⟩ := by
  have goesOn : ∀ {index}, stream.isPlainWord index = true → stream.text index ≠ "implements" →
      ¬stream.EndsHeritage index := by
    rintro index named free (brace | implemented)
    · rw [placed.is_eq_false_of_word (kind?_of_isPlainWord named) (by decide)] at brace
      contradiction
    · exact free (is_iff.mp implemented).2
  cases heritage with
  | absent missing => simp [TokenStream.heritage, missing, pure, Except.pure, Progress.still]
  | plain found named free =>
    rw [TokenStream.heritage, if_pos found, heritageFrom_of_part (lt_size_of_isPlainWord named)
      (goesOn named free) (heritagePart_of_name placed walk named) (Nat.lt_succ_self _)
      (heritageFrom_of_end walk ends)]
    rfl
  | @applied _ found named free arguments =>
    have forward := lt_of_typeArgumentsEnd? nested placed arguments
    have angle := angle_of_typeArguments arguments
    have noEnd : ¬stream.EndsHeritage (index + 2) := by
      rintro (brace | implemented)
      · exact absurd ((is_iff.mp angle).2.symm.trans (is_iff.mp brace).2) (by decide)
      · exact absurd ((is_iff.mp angle).2.symm.trans (is_iff.mp implemented).2) (by decide)
    have afterName := heritageFrom_of_part (lt_size_of_is angle) noEnd
      (heritagePart_of_arguments walk arguments ends) forward (heritageFrom_of_end walk ends)
    rw [TokenStream.heritage, if_pos found, heritageFrom_of_part (lt_size_of_isPlainWord named)
      (goesOn named free) (heritagePart_of_name placed walk named) (Nat.lt_succ_self _) afterName,
      attached_eq (Nat.succ_pos _) forward]
    simp [Progress.still, Progress.preceded]

theorem AreTypes.le (list : stream.AreTypes index stop) : index ≤ stop := by
  induction list with
  | last type => exact ((passes_of_typeEnd? placed type).balanced nested).ordered
  | more type _ _ inductionHypothesis =>
    have ordered := ((passes_of_typeEnd? placed type).balanced nested).ordered
    omega

theorem AreTypes.typeListEnd_eq (list : stream.AreTypes index stop)
    (ends : stream.is stop "," = false) : stream.typeListEnd index = .ok stop := by
  induction list with
  | last type =>
    rw [typeListEnd]
    simp [expectType, type, bind, Except.bind, ends, pure, Except.pure]
  | more type separator _ inductionHypothesis =>
    have ordered := ((passes_of_typeEnd? placed type).balanced nested).ordered
    rw [typeListEnd]
    simp [expectType, type, bind, Except.bind, ordered, separator, inductionHypothesis ends]

theorem ImplementedTypes.implementedTypes_eq
    (implemented : stream.ImplementedTypes index stop types) (later : 0 < index)
    (ends : stream.is stop "," = false) :
    stream.implementedTypes index = .ok ⟨stop, erasures types⟩ := by
  cases implemented with
  | absent missing => simp [implementedTypes, missing, pure, Except.pure, Progress.still]
  | present found list =>
    have forward : index < stop := list.le nested placed
    simp [implementedTypes, found, list.typeListEnd_eq nested placed ends, bind, Except.bind, pure,
      Except.pure, attached_eq later forward]

theorem ImplementedTypes.le (implemented : stream.ImplementedTypes index stop types) :
    index ≤ stop := by
  cases implemented with
  | absent => exact Nat.le_refl _
  | present _ list => exact Nat.le_of_succ_le (list.le nested placed)

omit nested placed in
theorem ImplementedTypes.endsHeritage (implemented : stream.ImplementedTypes index stop types)
    (opens : stream.is stop "\x7b" = true) : stream.EndsHeritage index := by
  cases implemented with
  | absent => exact .inl opens
  | present found => exact .inr found

/-- A class is read from its keyword to its closing brace. -/
theorem IsClass.classDeclaration_eq {walk : Walk} (walks : stream.WalksBehind keyword walk)
    (declared : stream.IsClass stream.EndsExpression keyword stop types) :
    stream.classDeclaration walk keyword = .ok ⟨stop, erasures types⟩ := by
  cases declared with
  | @declared named derived body close generics base interfaces members begins name free typeParameters
      heritage implemented opens closes inside =>
    have afterGenerics := typeParameters.le nested placed
    have afterBase := heritage.le nested placed
    have afterTypes := implemented.le nested placed
    have nameEnd : stream.classNameEnd keyword = keyword + 2 := by
      have other : stream.textIn (keyword + 1) ["extends", "implements"] = false := by
        simpa [textIn] using free
      simp [classNameEnd, name, other]
    have noComma : stream.is body "," = false := is_eq_false_of_is opens (by decide)
    have foundBase := heritage.heritage_eq nested placed walk (implemented.endsHeritage opens)
    have foundTypes := implemented.implementedTypes_eq nested placed (by omega) noComma
    have foundMembers := inside.classMembersFrom_eq nested placed walks (by omega)
      (nested.is_close closes opens (by decide)) (stream.is named "extends")
    unfold classDeclaration
    simp only [nameEnd, typeParameters.optionalTypeParameters_eq, bind, Except.bind, foundBase,
      foundTypes, opens, if_true, closeOf_eq_ok_iff.mpr closes, foundMembers,
      typeParameters.attachedIf_eq nested placed (Nat.succ_pos (keyword + 1)), ← erasures_append]
    rfl

theorem IsClass.step_eq {walk : Walk} (walks : stream.WalksBehind keyword walk)
    (declared : stream.IsClass stream.EndsExpression keyword stop types)
    (starts : stream.isPropertyName keyword = false) :
    stream.step walk keyword = .ok ⟨stop, erasures types⟩ := by
  rw [← declared.classDeclaration_eq nested placed walks]
  cases declared with
  | declared begins =>
    rw [placed.step_of_keyword walk begins (by decide), wordStep, if_neg (by simp [starts]),
      (is_iff.mp begins).2]
    rfl

/-! ## The stretches of a class -/

omit nested in
theorem MemberHead.laid {name marked : Nat} {heads : List Stretch}
    (head : stream.MemberHead first name marked heads) :
    Laid (stream.passed first) heads (stream.passed marked) := by
  have modifiers : ∀ {first name erased}, stream.AccessModifiers first name erased →
      stream.IsMemberName name → Laid (stream.startOf first) erased (stream.startOf name) := by
    intro first name erased modifiers named
    induction modifiers with
    | nothing => exact .nothing (Nat.le_refl _)
    | @erased first _ _ listed _ rest inductionHypothesis =>
      have inside : first < stream.size :=
        Nat.lt_of_lt_of_le rest.le (Nat.le_of_lt (lt_size_of_kind? named.word))
      have nonempty : stream.startOf first < stream.startOf (first + 1) :=
        Nat.lt_of_lt_of_le (placed.startOf_lt_stopOf inside)
          (placed.stopOf_le_startOf (Nat.lt_succ_self first))
      exact .stretch (Nat.le_refl _) nonempty (inductionHypothesis named)
    | @kept first _ _ _ _ rest inductionHypothesis =>
      exact (inductionHypothesis named).from_lower (placed.startOf_mono (Nat.le_succ first))
  cases head with
  | @head _ marks access named mark =>
    have erased := (modifiers access named).to_upper (placed.startOf_le_stopOf name)
    have marks : Laid (stream.passed (name + 1)) marks (stream.passed marked) := by
      cases mark with
      | absent => exact .nothing (Nat.le_refl _)
      | present _ found => exact placed.laid_token (lt_size_of_is found)
    exact (erased.append marks).from_lower (placed.passed_le_startOf first)

theorem IsMember.laid (one : stream.IsMember Ends first stop types) :
    Laid (stream.passed first) types (stream.passed stop) := by
  have forward := one.lt nested placed
  have inside := lt_size_of_kind? (one.starts placed).1
  cases one with
  | @field _ _ typed _ _ _ _ head ascription value ends =>
    have ordered := value.le fun value => value.plain.le
    have upTo : typed ≤ stop := by
      cases ends with
      | semicolon | line => omega
    exact ((head.laid placed).append (ascription.laid nested placed)).to_upper (placed.passed_mono upTo)
  | @method _ _ opening close _ last _ _ _ _ head typeParameters _ closes listed ascription _
      bodyCloses =>
    have ordered := lt_of_closer?_eq_some closes
    have bodyOrdered := lt_of_closer?_eq_some bodyCloses
    have generics := (typeParameters.laid nested placed).to_upper
      (placed.passed_mono (Nat.le_succ opening))
    have parameters := (listed.laid nested placed).to_upper (placed.passed_mono (Nat.le_succ close))
    exact ((((head.laid placed).append generics).append parameters).append
      (ascription.laid nested placed)).to_upper (placed.passed_mono (by omega))
  | signature | ambient => exact placed.laid_whole forward inside

theorem AreMembers.laid (members : stream.AreMembers Ends first stop types) :
    Laid (stream.passed first) types (stream.passed stop) := by
  induction members with
  | nothing => exact .nothing (Nat.le_refl _)
  | member one _ inductionHypothesis => exact (one.laid nested placed).append inductionHypothesis

theorem IsClass.laid (declared : stream.IsClass Ends keyword stop types) :
    Laid (stream.passed keyword) types (stream.passed stop) := by
  cases declared with
  | @declared named derived body close generics base interfaces members begins name free typeParameters
      heritage implemented opens closes inside =>
    have ordered := lt_of_closer?_eq_some closes
    have bases : Laid (stream.passed named) base (stream.passed derived) := by
      cases heritage with
      | absent => exact .nothing (Nat.le_refl _)
      | plain => exact .nothing (placed.passed_mono (Nat.le_add_right _ 2))
      | applied _ _ _ arguments =>
        exact (placed.laid_attached (lt_of_typeArgumentsEnd? nested placed arguments)
          (lt_size_of_is (angle_of_typeArguments arguments))).from_lower
            (placed.passed_mono (Nat.le_add_right _ 2))
    have types : Laid (stream.passed derived) interfaces (stream.passed body) := by
      cases implemented with
      | absent => exact .nothing (Nat.le_refl _)
      | present found list =>
        exact placed.laid_attached (list.le nested placed) (lt_size_of_is found)
    have inner := (inside.laid nested placed).from_lower (placed.passed_mono (Nat.le_succ body))
    exact ((((typeParameters.laid nested placed).append bases).append types).append inner |>.from_lower
      (placed.passed_mono (Nat.le_add_right _ 2))).to_upper (placed.passed_mono (Nat.le_succ close))

end Walking

end TokenStream

open TokenStream

/-- A class whose fields end at line breaks behind nothing but the ends of expressions loses its
types, and nothing else. -/
theorem eraseTypes_of_class {source : String} {stream : TokenStream} {types : List Stretch}
    (read : ofSource source.toList = .ok stream)
    (declared : stream.IsClass stream.EndsExpression 0 stream.size types) :
    eraseTypes source = .ok (String.ofList (textWithout stream.source [] 0 types)) := by
  have nested := nested_of_ofSource read
  have placed := placed_of_ofSource read
  have begins := declared.lt_size
  have walked : stream.walkFrom 0 0 (.upTo stream.size) = _ :=
    walkFrom_of_step begins begins (endsBefore_upTo ..)
      (fun walk walks => declared.step_eq nested placed walks (isPropertyName_eq_false (.inl rfl)))
      begins (walkFrom_of_le (Nat.le_refl stream.size))
  rw [preceded_still] at walked
  exact eraseTypes_of_erasures read walked (declared.laid nested placed)

/-- Modifiers, a field that ends at a line break, an ambient member, a signature and a method. -/
theorem eraseTypes_of_everyMember : ∃ stream types,
    ofSource
        "class A<T> extends B<T> implements C, D \x7b\n private static x?: T = m.a\n abstract y: T;\n f(a: T): T;\n f<U>(a?: T, ...b): T \x7b return a; \x7d\n\x7d".toList =
        .ok stream ∧
      stream.IsClass stream.EndsExpression 0 stream.size types ∧
      eraseTypes
          "class A<T> extends B<T> implements C, D \x7b\n private static x?: T = m.a\n abstract y: T;\n f(a: T): T;\n f<U>(a?: T, ...b): T \x7b return a; \x7d\n\x7d" =
        .ok "class A extends B \x7b\n static x = m.a\n \n \n f(a, ...b) \x7b return a; \x7d\n\x7d" := by
  have facts : ((ofSource
      "class A<T> extends B<T> implements C, D \x7b\n private static x?: T = m.a\n abstract y: T;\n f(a: T): T;\n f<U>(a?: T, ...b): T \x7b return a; \x7d\n\x7d".toList).toOption.any
      fun stream => decide
        ((∀ name : Nat, name ∈ [1, 6, 44, 50] → stream.isPlainWord name = true ∧
            stream.text name ∉ ["extends", "implements", "this"]) ∧
          (∀ name : Nat, name ∈ [17, 26, 30, 39] → stream.kind? name = some .word ∧
            stream.text name ∉ memberModifiers ∧ stream.text name ∉ continuationWords) ∧
          (∀ token : Nat × String, token ∈ [(0, "class"), (5, "extends"), (10, "implements"),
              (12, ","), (14, "\x7b"), (18, "?"), (19, ":"), (21, "="), (29, ";"), (31, "("),
              (36, ":"), (38, ";"), (43, "("), (45, "?"), (46, ":"), (48, ","), (49, "..."),
              (52, ":"), (54, "\x7b"), (57, ";")] → stream.is token.1 token.2 = true) ∧
          (∀ token : Nat × String, token ∈ [(26, ";"), (27, ";"), (28, ";"), (31, "?"), (31, "!"),
              (31, "<"), (40, "?"), (40, "!"), (48, "="), (51, "?"), (51, ":"), (51, "=")] →
            stream.is token.1 token.2 = false) ∧
          (∀ index : Nat, index ∈ [22, 23, 24, 55, 56] → stream.IsPlainToken index) ∧
          (∀ index : Nat, index ∈ [16, 17, 23, 24, 26, 27, 28, 29] →
            stream.newlineBefore index = false) ∧
          (∀ index : Nat, index ∈ [26, 27, 28] → stream.closer? index = none) ∧
          (stream.text 15 = "private" ∧ stream.text 16 = "static" ∧ stream.text 25 = "abstract" ∧
            stream.newlineBefore 25 = true ∧ stream.endsExpression 24 = true) ∧
          (stream.closer? 14 = some 59 ∧ stream.closer? 31 = some 35 ∧ stream.closer? 43 = some 51 ∧
            stream.closer? 54 = some 58) ∧
          (stream.typeParametersEnd? 2 = some 5 ∧ stream.typeArgumentsEnd? 7 = some 10 ∧
            stream.typeEnd? 11 = some 12 ∧ stream.typeEnd? 13 = some 14 ∧
            stream.typeEnd? 20 = some 21 ∧ stream.typeEnd? 37 = some 38 ∧
            stream.typeParametersEnd? 40 = some 43 ∧ stream.typeEnd? 47 = some 48 ∧
            stream.typeEnd? 53 = some 54) ∧
          stream.size = 60 ∧ String.ofList (textWithout stream.source []
            0 [stream.attachedStretch 2 5, stream.attachedStretch 7 10,
              stream.attachedStretch 10 14, stream.leadingStretch 15, stream.tokenStretch 18,
              stream.attachedStretch 19 21, stream.wholeStretch 25 30, stream.wholeStretch 30 39,
              stream.attachedStretch 40 43, stream.tokenStretch 45, stream.attachedStretch 46 48,
              stream.attachedStretch 52 54]) =
            "class A extends B \x7b\n static x = m.a\n \n \n f(a, ...b) \x7b return a; \x7d\n\x7d")) =
        true := by
    decide +kernel
  obtain ⟨stream, read, words, names, tokens, missing, plain, sameLine, unopened, ⟨isPrivate, isStatic,
    isAbstract, newline, ends⟩, ⟨closesClass, closesSignature, closesList, closesBody⟩, ⟨generics,
    arguments, first, second, field, result, methodGenerics, parameter, methodResult⟩, size, text⟩ :=
    exists_ok_of_any _ facts
  have written : ∀ {index text}, (index, text) ∈ [(0, "class"), (5, "extends"), (10, "implements"),
      (12, ","), (14, "\x7b"), (18, "?"), (19, ":"), (21, "="), (29, ";"), (31, "("), (36, ":"),
      (38, ";"), (43, "("), (45, "?"), (46, ":"), (48, ","), (49, "..."), (52, ":"), (54, "\x7b"),
      (57, ";")] → stream.is index text = true :=
    fun listed => tokens _ listed
  have unwritten : ∀ {index text}, (index, text) ∈ [(26, ";"), (27, ";"), (28, ";"), (31, "?"),
      (31, "!"), (31, "<"), (40, "?"), (40, "!"), (48, "="), (51, "?"), (51, ":"), (51, "=")] →
      stream.is index text = false :=
    fun listed => missing _ listed
  have unlisted : ∀ {index text}, index ∈ [1, 6, 44, 50] →
      text ∈ ["extends", "implements", "this"] → stream.text index ≠ text := by
    rintro index text named listed rfl
    exact (words index named).2 listed
  have named : ∀ {index}, index ∈ [17, 26, 30, 39] → stream.IsMemberName index :=
    fun listed => ⟨(names _ listed).1, (names _ listed).2.1, (names _ listed).2.2⟩
  have fieldHead : stream.MemberHead 15 17 19
      ([stream.leadingStretch 15] ++ [stream.tokenStretch 18]) :=
    .head (.erased (isPrivate ▸ (by decide)) (sameLine 16 (by decide))
        (.kept isStatic (sameLine 17 (by decide)) .nothing)) (named (by decide))
      (.present (by decide : "?" ∈ ["?", "!"]) (written (by decide)))
  have value : stream.OneLine 22 25 :=
    ⟨.token (plain 22 (by decide)) (.token (plain 23 (by decide))
        (.token (plain 24 (by decide)) .nothing)),
      fun index after before => sameLine index (by simp; omega)⟩
  have fieldMember : stream.IsMember stream.EndsExpression 15 25 _ :=
    .field fieldHead (.present (written (by decide)) field) (.present (written (by decide)) value)
      (.line newline fun _ => ends)
  have ambientMember : stream.IsMember stream.EndsExpression 25 30 [stream.wholeStretch 25 30] := by
    refine .ambient ⟨fun index after before => ?_, 25, by decide, by decide, isAbstract ▸ (by decide)⟩
      (named (by decide)) (.token (unwritten (by decide)) (unopened 26 (by decide))
        (sameLine 27 (by decide)) (.token (unwritten (by decide)) (unopened 27 (by decide))
          (sameLine 28 (by decide)) (.token (unwritten (by decide)) (unopened 28 (by decide))
            (sameLine 29 (by decide)) (.semicolon (written (by decide))))))
    obtain rfl : index = 25 := by omega
    exact ⟨isAbstract ▸ (by decide), sameLine 26 (by decide)⟩
  have signature : stream.IsMember stream.EndsExpression 30 39 [stream.wholeStretch 30 39] :=
    .signature (.head .nothing (named (by decide))
        (.absent (unwritten (by decide)) (unwritten (by decide))))
      (.absent (unwritten (by decide))) (written (by decide)) closesSignature
      (.present (written (by decide)) result) (written (by decide))
  have parameters : stream.AreParameters 44 51 _ :=
    .more (.one (.named (words 44 (by decide)).1 (unlisted (by decide) (by decide))
        (.present (written (by decide))) (.present (written (by decide)) parameter)
        (.absent (unwritten (by decide))))) (written (by decide))
      (.last (.rest (written (by decide)) (.named (words 50 (by decide)).1
        (unlisted (by decide) (by decide)) (.absent (unwritten (by decide)))
        (.absent (unwritten (by decide))) (.absent (unwritten (by decide))))))
  have body : stream.PlainStatements 55 58 :=
    .statement (.token (plain 55 (by decide)) (.token (plain 56 (by decide)) .nothing))
      (written (by decide)) .nothing
  have method : stream.IsMember stream.EndsExpression 39 59 _ :=
    .method (.head .nothing (named (by decide))
        (.absent (unwritten (by decide)) (unwritten (by decide))))
      (.present methodGenerics) (written (by decide)) closesList parameters
      (.present (written (by decide)) methodResult) (written (by decide)) closesBody body
  have free : stream.text 1 ∉ ["extends", "implements"] := fun listed =>
    (words 1 (by decide)).2 (List.mem_append_left ["this"] listed)
  have declared : stream.IsClass stream.EndsExpression 0 60 _ :=
    .declared (written (by decide)) (words 1 (by decide)).1 free
      (.present generics) (.applied (written (by decide)) (words 6 (by decide)).1
        (unlisted (by decide) (by decide)) arguments)
      (.present (written (by decide)) (.more first (written (by decide)) (.last second)))
      (written (by decide)) closesClass
      (.member fieldMember (.member ambientMember (.member signature (.member method .nothing))))
  rw [← size] at declared
  exact ⟨stream, _, read, declared, (eraseTypes_of_class read declared).trans (congrArg _ text)⟩

/-- Behind a property with the name of a keyword a field does not end at a line break, and the next
field keeps its type. -/
theorem eraseTypes_of_keywordProperty : ∃ stream,
    ofSource "class A \x7b x = m.default\n y: number = 2; \x7d".toList = .ok stream ∧
      stream.IsClass (fun _ => True) 0 stream.size [stream.attachedStretch 9 11] ∧
      eraseTypes "class A \x7b x = m.default\n y: number = 2; \x7d" =
        .ok "class A \x7b x = m.default\n y: number = 2; \x7d" ∧
      textWithout stream.source [] 0 [stream.attachedStretch 9 11] =
        "class A \x7b x = m.default\n y = 2; \x7d".toList := by
  have facts : ((ofSource
      "class A \x7b x = m.default\n y: number = 2; \x7d".toList).toOption.any
      fun stream => decide
        ((stream.isPlainWord 1 = true ∧ stream.text 1 ∉ ["extends", "implements"]) ∧
          (∀ name : Nat, name ∈ [3, 8] → stream.kind? name = some .word ∧
            stream.text name ∉ memberModifiers ∧ stream.text name ∉ continuationWords) ∧
          (∀ token : Nat × String, token ∈ [(0, "class"), (2, "\x7b"), (4, "="), (9, ":"), (11, "="),
              (13, ";")] → stream.is token.1 token.2 = true) ∧
          (∀ token : Nat × String, token ∈ [(2, "<"), (2, "extends"), (2, "implements"), (4, "?"),
              (4, "!"), (4, ":"), (9, "?"), (9, "!")] → stream.is token.1 token.2 = false) ∧
          (∀ index : Nat, index ∈ [5, 6, 7, 12] → stream.IsPlainToken index) ∧
          (∀ index : Nat, index ∈ [6, 7] → stream.newlineBefore index = false) ∧
          stream.newlineBefore 8 = true ∧ stream.closer? 2 = some 14 ∧
          stream.typeEnd? 10 = some 11 ∧ stream.size = 15 ∧
          textWithout stream.source [] 0 [stream.attachedStretch 9 11] =
            "class A \x7b x = m.default\n y = 2; \x7d".toList)) = true := by
    decide +kernel
  obtain ⟨stream, read, className, names, tokens, missing, plain, sameLine, newline, closes, type,
    size, text⟩ := exists_ok_of_any _ facts
  have written : ∀ {index text}, (index, text) ∈ [(0, "class"), (2, "\x7b"), (4, "="), (9, ":"),
      (11, "="), (13, ";")] → stream.is index text = true :=
    fun listed => tokens _ listed
  have unwritten : ∀ {index text}, (index, text) ∈ [(2, "<"), (2, "extends"), (2, "implements"),
      (4, "?"), (4, "!"), (4, ":"), (9, "?"), (9, "!")] → stream.is index text = false :=
    fun listed => missing _ listed
  have named : ∀ {index}, index ∈ [3, 8] → stream.IsMemberName index :=
    fun listed => ⟨(names _ listed).1, (names _ listed).2.1, (names _ listed).2.2⟩
  have property : stream.OneLine 5 8 :=
    ⟨.token (plain 5 (by decide)) (.token (plain 6 (by decide))
        (.token (plain 7 (by decide)) .nothing)),
      fun index after before => sameLine index (by simp; omega)⟩
  have number : stream.OneLine 12 13 :=
    ⟨.token (plain 12 (by decide)) .nothing, fun _ after before => by omega⟩
  have untyped : stream.IsMember (fun _ => True) 3 8 [] :=
    .field (.head .nothing (named (by decide))
        (.absent (unwritten (by decide)) (unwritten (by decide))))
      (.absent (unwritten (by decide))) (.present (written (by decide)) property)
      (.line newline fun _ => trivial)
  have typed : stream.IsMember (fun _ => True) 8 14 [stream.attachedStretch 9 11] :=
    .field (.head .nothing (named (by decide))
        (.absent (unwritten (by decide)) (unwritten (by decide))))
      (.present (written (by decide)) type) (.present (written (by decide)) number)
      (.semicolon (written (by decide)))
  have declared : stream.IsClass (fun _ => True) 0 stream.size [stream.attachedStretch 9 11] := by
    rw [size]
    exact .declared (written (by decide)) className.1 className.2
      (.absent (unwritten (by decide))) (.absent (unwritten (by decide)))
      (.absent (unwritten (by decide))) (written (by decide)) closes
      (.member untyped (.member typed .nothing))
  exact ⟨stream, read, declared, by decide +kernel, text⟩

end Playground

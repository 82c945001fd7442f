import Playground.Proofs.Erasure.Typed.Parameters

/-!
# Typed functions

A program of functions with plain bodies loses their type parameters, the question marks and the
types of their parameters and their result types, and nothing else (`eraseTypes_of_functions`).
The blanks before type parameters go with them.
-/

namespace Playground

namespace TokenStream

/-- A function from its keyword to its closing brace. -/
inductive IsFunction (stream : TokenStream) : Nat → Nat → List Stretch → Prop where
  | function {keyword name opening close body last generics parameters result}
      (begins : stream.is keyword "function" = true)
      (generator : name = keyword + 1 ∨ stream.is (keyword + 1) "*" = true ∧ name = keyword + 2)
      (named : stream.isPlainWord name = true)
      (typeParameters : stream.TypeParameters (name + 1) opening generics)
      (opens : stream.is opening "(" = true) (closes : stream.closer? opening = some close)
      (listed : stream.AreParameters (opening + 1) close parameters)
      (ascription : stream.Annotation (close + 1) body result)
      (bodyOpens : stream.is body "\x7b" = true) (bodyCloses : stream.closer? body = some last)
      (statements : stream.PlainStatements (body + 1) last) :
      IsFunction stream keyword (last + 1) (generics ++ parameters ++ result)

/-- Functions one after another. -/
inductive AreFunctions (stream : TokenStream) : Nat → Nat → List Stretch → Prop where
  | nothing {index} : AreFunctions stream index index []
  | function {keyword middle stop types others} (one : stream.IsFunction keyword middle types)
      (rest : AreFunctions stream middle stop others) :
      AreFunctions stream keyword stop (types ++ others)

variable {stream : TokenStream} {index keyword stop : Nat} {types : List Stretch}

section Walking

variable (nested : stream.Nested) (placed : stream.Placed)

include placed

theorem functionNameEnd_eq {name : Nat} (named : stream.isPlainWord name = true)
    (generator : name = keyword + 1 ∨ stream.is (keyword + 1) "*" = true ∧ name = keyword + 2) :
    stream.functionNameEnd keyword = name + 1 := by
  rcases generator with rfl | ⟨star, rfl⟩
  · have noStar : stream.is (keyword + 1) "*" = false :=
      placed.is_eq_false_of_word (kind?_of_isPlainWord named) (by decide)
    simp [functionNameEnd, noStar, named]
  · simp [functionNameEnd, star, named]

include nested

theorem IsFunction.lt (function : stream.IsFunction keyword stop types) : keyword < stop := by
  cases function with
  | function _ generator _ typeParameters _ closes _ ascription _ bodyCloses =>
    have := typeParameters.le nested placed
    have := lt_of_closer?_eq_some closes
    have := ascription.le nested placed
    have := lt_of_closer?_eq_some bodyCloses
    omega

/-- A function is read from its keyword to its closing brace. -/
theorem IsFunction.functionDeclaration_eq {walk : Walk} (walks : stream.WalksBehind keyword walk)
    (function : stream.IsFunction keyword stop types) :
    stream.functionDeclaration walk keyword = .ok ⟨stop, erasures types⟩ := by
  cases function with
  | @function name opening close body last generics parameters result begins generator named
      typeParameters opens closes listed ascription bodyOpens bodyCloses statements =>
    have afterName : keyword < name := by omega
    have afterGenerics := typeParameters.le nested placed
    have ordered := lt_of_closer?_eq_some closes
    have afterResult := ascription.le nested placed
    have closesParameters : stream.is close ")" = true := nested.is_close closes opens (by decide)
    have foundParameters := listed.parametersFrom_eq nested placed walks (by omega) closesParameters
    have foundBody := walkInside_of_statements nested placed
      (walks.later (by omega : keyword ≤ body)) bodyCloses statements
    unfold functionDeclaration
    simp only [functionNameEnd_eq placed named generator, typeParameters.optionalTypeParameters_eq,
      bind, Except.bind, opens, if_true, closeOf_eq_ok_iff.mpr closes,
      ascription.optionalAnnotation_eq, bodyOpens, foundParameters, foundBody,
      typeParameters.attachedIf_eq nested placed (Nat.succ_pos name),
      ascription.attachedIf_eq nested placed (Nat.succ_pos close), ← erasures_append]
    simp [pure, Except.pure, Progress.preceded]

theorem IsFunction.step_eq {walk : Walk} (walks : stream.WalksBehind keyword walk)
    (function : stream.IsFunction keyword stop types)
    (starts : stream.isPropertyName keyword = false) :
    stream.step walk keyword = .ok ⟨stop, erasures types⟩ := by
  rw [← function.functionDeclaration_eq nested placed walks]
  cases function with
  | function begins =>
    rw [placed.step_of_keyword walk begins (by decide), wordStep, if_neg (by simp [starts]),
      (is_iff.mp begins).2]
    rfl

/-- A walk passes functions and erases their types. -/
theorem walkFrom_of_functions {first : Nat} {rest : Progress}
    (functions : stream.AreFunctions index stop types)
    (starts : index = 0 ∨ stream.is (index - 1) "\x7d" = true)
    (following : stream.walkFrom first stop (.upTo stream.size) = .ok rest) :
    stream.walkFrom first index (.upTo stream.size) = .ok (rest.preceded (erasures types)) := by
  induction functions with
  | nothing => exact following
  | @function keyword middle stop types others one _ inductionHypothesis =>
    have begins : keyword < stream.size := by
      cases one with
      | function begins => exact lt_size_of_is begins
    have ends : stream.is (middle - 1) "\x7d" = true := by
      cases one with
      | function _ _ _ _ _ _ _ _ bodyOpens bodyCloses =>
        exact nested.is_close bodyCloses bodyOpens (by decide)
    have behind := inductionHypothesis (.inr ends) following
    have property := isPropertyName_eq_false
      (starts.imp_right fun found => ⟨"\x7d", found, by decide⟩)
    have whole := walkFrom_of_step begins begins (endsBefore_upTo ..)
      (fun walk walks => one.step_eq nested placed walks property) (one.lt nested placed) behind
    rw [whole, erasures_append, preceded_preceded]

theorem IsFunction.laid (function : stream.IsFunction keyword stop types) :
    Laid (stream.passed keyword) types (stream.passed stop) := by
  cases function with
  | @function name opening close body last _ _ _ _ generator _ typeParameters _ closes listed
      ascription _ bodyCloses _ =>
    have ordered := lt_of_closer?_eq_some closes
    have bodyOrdered := lt_of_closer?_eq_some bodyCloses
    have generics := (typeParameters.laid nested placed).to_upper
      (placed.passed_mono (Nat.le_succ opening))
    have parameters := (listed.laid nested placed).to_upper (placed.passed_mono (Nat.le_succ close))
    have whole := (generics.append parameters).append (ascription.laid nested placed)
    exact (whole.from_lower (placed.passed_mono (by omega))).to_upper (placed.passed_mono (by omega))

theorem AreFunctions.laid (functions : stream.AreFunctions index stop types) :
    Laid (stream.passed index) types (stream.passed stop) := by
  induction functions with
  | nothing => exact .nothing (Nat.le_refl _)
  | function one _ inductionHypothesis => exact (one.laid nested placed).append inductionHypothesis

end Walking

theorem AreFunctions.beforeNoWord {source : List Char} (read : ofSource source = .ok stream)
    (functions : stream.AreFunctions index stop types) :
    ∀ stretch ∈ types, stretch.BeforeNoWord stream.source := by
  have nested := nested_of_ofSource read
  induction functions with
  | nothing => nofun
  | function one _ inductionHypothesis =>
    cases one with
    | function _ _ _ typeParameters opens closes listed ascription bodyOpens =>
      have closing := nested.is_close closes opens (by decide : ("(", ")") ∈ bracketPairs)
      have generics := typeParameters.beforeNoWord read (markAt_of_is opens (by decide +kernel))
      have parameters := listed.beforeNoWord read closing
      have result := ascription.beforeNoWord read (markAt_of_is bodyOpens (by decide +kernel))
      exact List.forall_mem_append.mpr ⟨List.forall_mem_append.mpr
        ⟨List.forall_mem_append.mpr ⟨generics, parameters⟩, result⟩, inductionHypothesis⟩

end TokenStream

open TokenStream

/-- A program of functions loses the types of its functions, up to their line breaks, and nothing
else. -/
theorem eraseTypes_of_functions {source : String} {stream : TokenStream} {types : List Stretch}
    (read : ofSource source.toList = .ok stream)
    (functions : stream.AreFunctions 0 stream.size types) :
    eraseTypes source = .ok (String.ofList (linesWithout stream.source 0 types)) := by
  have nested := nested_of_ofSource read
  have placed := placed_of_ofSource read
  have walked : stream.walkFrom 0 0 (.upTo stream.size) = _ :=
    walkFrom_of_functions nested placed functions (.inl rfl)
      (walkFrom_of_le (Nat.le_refl stream.size))
  rw [preceded_still] at walked
  rw [eraseTypes_of_erasures read walked (functions.laid nested placed),
    textWithout_eq_linesWithout (functions.beforeNoWord read), List.nil_append]

/-- A generator with type parameters, marks, defaults, dots and a comma behind them, and a function
without any of these. -/
theorem eraseTypes_of_twoFunctions : ∃ stream,
    ofSource "function* f<A, B>(a?: A, b: B[] = [a, 1],\n ...c: \x7b\n\x7d[],): C<A> \x7b return a.b(1); \x7d\nfunction g() \x7b \x7d".toList = .ok stream ∧
      stream.AreFunctions 0 stream.size [stream.attachedStretch 3 8, stream.tokenStretch 10,
        stream.attachedStretch 11 13, stream.attachedStretch 15 19, stream.attachedStretch 28 33,
        stream.attachedStretch 35 40] ∧
      eraseTypes "function* f<A, B>(a?: A, b: B[] = [a, 1],\n ...c: \x7b\n\x7d[],): C<A> \x7b return a.b(1); \x7d\nfunction g() \x7b \x7d" =
        .ok "function* f(a, b = [a, 1],\n ...c\n,) \x7b return a.b(1); \x7d\nfunction g() \x7b \x7d" := by
  have facts : ((ofSource "function* f<A, B>(a?: A, b: B[] = [a, 1],\n ...c: \x7b\n\x7d[],): C<A> \x7b return a.b(1); \x7d\nfunction g() \x7b \x7d".toList).toOption.any
      fun stream => decide
        ((∀ name : Nat, name ∈ [2, 9, 14, 27, 51] →
            stream.isPlainWord name = true ∧ stream.text name ≠ "this") ∧
          (∀ token : Nat × String, token ∈ [(0, "function"), (1, "*"), (8, "("), (10, "?"),
      (11, ":"), (13, ","), (15, ":"), (19, "="), (20, "["), (22, ","), (25, ","), (26, "..."),
      (28, ":"), (33, ","), (35, ":"), (40, "\x7b"), (45, "("), (48, ";"), (50, "function"),
      (52, "("), (54, "\x7b")] →
              stream.is token.1 token.2 = true) ∧
          (∀ index : Nat, index ∈ [21, 23, 41, 42, 43, 44, 46] → stream.IsPlainToken index) ∧
          (stream.closer? 8 = some 34 ∧ stream.closer? 20 = some 24 ∧ stream.closer? 40 = some 49 ∧
            stream.closer? 45 = some 47 ∧ stream.closer? 52 = some 53 ∧
            stream.closer? 54 = some 55) ∧
          (stream.typeParametersEnd? 3 = some 8 ∧ stream.typeEnd? 12 = some 13 ∧
            stream.typeEnd? 16 = some 19 ∧ stream.typeEnd? 29 = some 33 ∧
            stream.typeEnd? 36 = some 40) ∧
          (∀ token : Nat × String, token ∈ [(13, "="), (15, "?"), (28, "?"), (33, "="), (52, "<"),
            (54, ":")] → stream.is token.1 token.2 = false) ∧ stream.size = 56 ∧
          String.ofList (linesWithout stream.source 0 [stream.attachedStretch 3 8, stream.tokenStretch 10,
        stream.attachedStretch 11 13, stream.attachedStretch 15 19, stream.attachedStretch 28 33,
        stream.attachedStretch 35 40]) =
              "function* f(a, b = [a, 1],\n ...c\n,) \x7b return a.b(1); \x7d\nfunction g() \x7b \x7d")) =
        true := by
    decide +kernel
  obtain ⟨stream, read, names, tokens, plain, ⟨closesList, closesArray, closesBody, closesCall,
    closesNothing, closesBlock⟩, ⟨generics, first, second, third, result⟩, missing, size, text⟩ :=
    exists_ok_of_any _ facts
  have written : ∀ {index text}, (index, text) ∈ [(0, "function"), (1, "*"), (8, "("), (10, "?"),
      (11, ":"), (13, ","), (15, ":"), (19, "="), (20, "["), (22, ","), (25, ","), (26, "..."),
      (28, ":"), (33, ","), (35, ":"), (40, "\x7b"), (45, "("), (48, ";"), (50, "function"),
      (52, "("), (54, "\x7b")] →
      stream.is index text = true :=
    fun listed => tokens _ listed
  have marked : stream.IsParameter 9 13 ([stream.tokenStretch 10] ++ [stream.attachedStretch 11 13]) :=
    .one (.named (names 9 (by decide)).1 (names 9 (by decide)).2 (.present (written (by decide)))
      (.present (written (by decide)) first) (.absent (missing (13, "=") (by decide))))
  have array : stream.Plain false 20 25 :=
    .pair (.inr (written (by decide))) closesArray (.token (plain 21 (by decide))
      (.comma (written (by decide)) (.token (plain 23 (by decide)) .nothing))) .nothing
  have defaulted : stream.IsParameter 14 25 ([] ++ [stream.attachedStretch 15 19]) :=
    .one (.named (names 14 (by decide)).1 (names 14 (by decide)).2
      (.absent (missing (15, "?") (by decide))) (.present (written (by decide)) second)
      (.present (written (by decide)) array))
  have others : stream.IsParameter 26 33 ([] ++ [stream.attachedStretch 28 33]) :=
    .rest (written (by decide)) (.named (names 27 (by decide)).1 (names 27 (by decide)).2
      (.absent (missing (28, "?") (by decide))) (.present (written (by decide)) third)
      (.absent (missing (33, "=") (by decide))))
  have statement : stream.Plain false 41 48 :=
    .token (plain 41 (by decide)) (.token (plain 42 (by decide)) (.token (plain 43 (by decide))
      (.token (plain 44 (by decide)) (.pair (.inl (written (by decide))) closesCall
        (.token (plain 46 (by decide)) .nothing) .nothing))))
  have generator : stream.IsFunction 0 50 ([stream.attachedStretch 3 8] ++
      (([stream.tokenStretch 10] ++ [stream.attachedStretch 11 13]) ++
        (([] ++ [stream.attachedStretch 15 19]) ++ (([] ++ [stream.attachedStretch 28 33]) ++ []))) ++
      [stream.attachedStretch 35 40]) :=
    .function (written (by decide)) (.inr ⟨written (by decide), rfl⟩) (names 2 (by decide)).1
      (.present generics) (written (by decide)) closesList
      (.more marked (written (by decide)) (.more defaulted (written (by decide))
        (.more others (written (by decide)) .nothing)))
      (.present (written (by decide)) result) (written (by decide)) closesBody
      (.statement statement (written (by decide)) .nothing)
  have plainFunction : stream.IsFunction 50 56 ([] ++ [] ++ []) :=
    .function (written (by decide)) (.inl rfl) (names 51 (by decide)).1
      (.absent (missing (52, "<") (by decide))) (written (by decide)) closesNothing .nothing
      (.absent (missing (54, ":") (by decide))) (written (by decide)) closesBlock .nothing
  have functions : stream.AreFunctions 0 stream.size [stream.attachedStretch 3 8, stream.tokenStretch 10,
      stream.attachedStretch 11 13, stream.attachedStretch 15 19, stream.attachedStretch 28 33,
      stream.attachedStretch 35 40] := by
    rw [size]
    exact .function generator (.function plainFunction .nothing)
  exact ⟨stream, read, functions, text ▸ eraseTypes_of_functions read functions⟩

/-- The blank before type parameters goes with them. -/
theorem eraseTypes_of_spacedTypeParameters : ∃ stream,
    ofSource "function f <T>(x: T) \x7b \x7d".toList = .ok stream ∧
      stream.AreFunctions 0 stream.size [stream.attachedStretch 2 5, stream.attachedStretch 7 9] ∧
      eraseTypes "function f <T>(x: T) \x7b \x7d" = .ok "function f(x) \x7b \x7d" ∧
      linesWithout stream.source 0 [stream.wholeStretch 2 5, stream.attachedStretch 7 9] =
        "function f (x) \x7b \x7d".toList := by
  have facts : ((ofSource "function f <T>(x: T) \x7b \x7d".toList).toOption.any
      fun stream => decide
        ((∀ name : Nat, name ∈ [1, 6] →
            stream.isPlainWord name = true ∧ stream.text name ≠ "this") ∧
          (∀ token : Nat × String, token ∈ [(0, "function"), (5, "("), (7, ":"), (10, "\x7b")] →
              stream.is token.1 token.2 = true) ∧
          (stream.closer? 5 = some 9 ∧ stream.closer? 10 = some 11 ∧
            stream.typeParametersEnd? 2 = some 5 ∧ stream.typeEnd? 8 = some 9) ∧
          (∀ token : Nat × String, token ∈ [(7, "?"), (9, "="), (10, ":")] →
            stream.is token.1 token.2 = false) ∧ stream.size = 12 ∧
          linesWithout stream.source 0 [stream.wholeStretch 2 5, stream.attachedStretch 7 9] =
            "function f (x) \x7b \x7d".toList)) = true := by
    decide +kernel
  obtain ⟨stream, read, names, tokens, ⟨closes, closesBody, generics, type⟩, missing, size, text⟩ :=
    exists_ok_of_any _ facts
  have parameter : stream.IsParameter 6 9 ([] ++ [stream.attachedStretch 7 9]) :=
    .one (.named (names 6 (by decide)).1 (names 6 (by decide)).2
      (.absent (missing (7, "?") (by decide))) (.present (tokens (7, ":") (by decide)) type)
      (.absent (missing (9, "=") (by decide))))
  have functions : stream.AreFunctions 0 stream.size
      [stream.attachedStretch 2 5, stream.attachedStretch 7 9] := by
    rw [size]
    exact .function (.function (tokens (0, "function") (by decide)) (.inl rfl)
      (names 1 (by decide)).1 (.present generics) (tokens (5, "(") (by decide)) closes
      (.last parameter) (.absent (missing (10, ":") (by decide))) (tokens (10, "\x7b") (by decide))
      closesBody .nothing) .nothing
  refine ⟨stream, read, functions, ?_, text⟩
  decide +kernel

end Playground

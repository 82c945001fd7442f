import Playground.Erasure.TypeSyntax
import Playground.Proofs.Erasure.TypeGrammar.Groups

/-!
# The grammar of types

`Spans` describes the types of the language by a grammar over the tokens of a stream. It knows
nothing of how types are recognised: an alternative may be taken wherever its tokens stand. The
recognisers never go back, so that they agree with the grammar depends on what follows. Behind a
type that is followed by a token which cannot continue it, every way of reading the tokens as a
type ends where `typeEnd?` ends (`typeEnd?_of_spans`).
-/

namespace Playground

/-- Words that begin an operand which is more than a primary type. -/
def operandWords : List String :=
  ["keyof", "readonly", "unique", "infer", "asserts", "typeof"]

/-- Words that begin a constructor type. -/
def constructorWords : List String :=
  ["new", "abstract"]

/-- The parts of a type. -/
inductive TypePart where
  | type
  /-- A union or intersection with the bar that may stand before it. -/
  | union
  /-- The operands of a union or intersection. -/
  | operands
  | operand
  | primary
  /-- The types of an argument list with the closing angle. -/
  | arguments
  deriving DecidableEq, Repr

namespace TokenStream

/-! ## Types -/

/-- A word that names a type. -/
structure IsTypeName (stream : TokenStream) (index : Nat) : Prop where
  plain : stream.isPlainWord index = true
  free : stream.text index ∉ notTypeWords
  meaningless : stream.text index ∉ operandWords ++ constructorWords

instance (stream : TokenStream) (index : Nat) : Decidable (stream.IsTypeName index) :=
  decidable_of_iff
    (stream.isPlainWord index = true ∧ stream.text index ∉ notTypeWords ∧
      stream.text index ∉ operandWords ++ constructorWords)
    ⟨fun ⟨plain, free, meaningless⟩ => ⟨plain, free, meaningless⟩,
      fun ⟨plain, free, meaningless⟩ => ⟨plain, free, meaningless⟩⟩

/-- Names with points between them. -/
inductive DottedName (stream : TokenStream) : Nat → Nat → Prop where
  | single {index} (name : stream.IsTypeName index) : DottedName stream index (index + 1)
  | dotted {index stop} (name : stream.IsTypeName index) (point : stream.is (index + 1) "." = true)
      (rest : DottedName stream (index + 2) stop) : DottedName stream index stop

/-- Square brackets behind an operand, each on the line of the token before it. -/
inductive Subscripts (stream : TokenStream) : Nat → Nat → Prop where
  | nothing {index} : Subscripts stream index index
  | bracket {opening close stop} (sameLine : stream.newlineBefore opening = false)
      (group : stream.Group ("[", "]") opening close) (rest : Subscripts stream (close + 1) stop) :
      Subscripts stream opening stop

/-- The tokens from an index up to another form a part of a type. -/
inductive Spans (stream : TokenStream) : TypePart → Nat → Nat → Prop where
  | plain {index stop} (union : Spans stream .union index stop) : Spans stream .type index stop
  | conditional {index subject check whenTrue stop} (tested : Spans stream .union index subject)
      (keyword : stream.is subject "extends" = true) (sameLine : stream.newlineBefore subject = false)
      (bound : Spans stream .union (subject + 1) check) (question : stream.is check "?" = true)
      (positive : Spans stream .type (check + 1) whenTrue) (colon : stream.is whenTrue ":" = true)
      (negative : Spans stream .type (whenTrue + 1) stop) : Spans stream .type index stop
  | function {opening close stop} (parameters : stream.Group ("(", ")") opening close)
      (arrow : stream.is (close + 1) "=>" = true) (result : Spans stream .type (close + 2) stop) :
      Spans stream .type opening stop
  | constructor {index close stop} (keyword : stream.is index "new" = true)
      (parameters : stream.Group ("(", ")") (index + 1) close)
      (arrow : stream.is (close + 1) "=>" = true) (result : Spans stream .type (close + 2) stop) :
      Spans stream .type index stop
  | predicate {index stop} (subject : stream.IsTypeName index)
      (keyword : stream.is (index + 1) "is" = true)
      (sameLine : stream.newlineBefore (index + 1) = false)
      (narrowed : Spans stream .type (index + 2) stop) : Spans stream .type index stop
  | unheaded {index stop} (operands : Spans stream .operands index stop) :
      Spans stream .union index stop
  | headed {index stop} (bar : stream.is index "|" = true)
      (operands : Spans stream .operands (index + 1) stop) : Spans stream .union index stop
  | last {index stop} (operand : Spans stream .operand index stop) :
      Spans stream .operands index stop
  | further {index middle stop} (operand : Spans stream .operand index middle)
      (operator : stream.is middle "|" = true ∨ stream.is middle "&" = true)
      (operands : Spans stream .operands (middle + 1) stop) : Spans stream .operands index stop
  | subscripted {index middle stop} (primary : Spans stream .primary index middle)
      (subscripts : stream.Subscripts middle stop) : Spans stream .operand index stop
  | modified {index stop} {modifier : String} (listed : modifier ∈ ["keyof", "readonly", "unique"])
      (keyword : stream.is index modifier = true) (operand : Spans stream .operand (index + 1) stop) :
      Spans stream .operand index stop
  | query {index stop} (keyword : stream.is index "typeof" = true)
      (name : stream.DottedName (index + 1) stop) : Spans stream .operand index stop
  | name {index stop} (name : stream.DottedName index stop) : Spans stream .primary index stop
  | applied {index angle stop} (name : stream.DottedName index angle)
      (opens : stream.is angle "<" = true) (sameLine : stream.newlineBefore angle = false)
      (arguments : Spans stream .arguments (angle + 1) stop) : Spans stream .primary index stop
  | literal {index kind} (listed : kind ∈ [TokenKind.string, .number, .template])
      (found : stream.kind? index = some kind) : Spans stream .primary index (index + 1)
  | negated {index} (minus : stream.is index "-" = true)
      (number : stream.kind? (index + 1) = some .number) : Spans stream .primary index (index + 2)
  | parenthesised {opening close} (group : stream.Group ("(", ")") opening close)
      (nonempty : close ≠ opening + 1) : Spans stream .primary opening (close + 1)
  | enclosed {brackets opening close} (listed : brackets ∈ [("\x7b", "\x7d"), ("[", "]")])
      (group : stream.Group brackets opening close) : Spans stream .primary opening (close + 1)
  | final {index angle} (type : Spans stream .type index angle)
      (closes : stream.is angle ">" = true) : Spans stream .arguments index (angle + 1)
  | listed {index comma stop} (type : Spans stream .type index comma)
      (separator : stream.is comma "," = true)
      (arguments : Spans stream .arguments (comma + 1) stop) : Spans stream .arguments index stop

/-- What may stand behind a type: nothing, a token that no type goes on with, or an arrow, which
a closing parenthesis would make the result of a function. -/
inductive Follows (stream : TokenStream) (stop : Nat) : Prop where
  | nothing (past : stream.size ≤ stop)
  | mark {text : String}
      (listed : text ∈ ["=", ";", ",", ")", "]", "\x7d", ">", "?", ":", "\x7b"])
      (found : stream.is stop text = true)
  | arrow (found : stream.is stop "=>" = true) (unclosed : stream.is (stop - 1) ")" = false)

/-! ## What stops a part -/

/-- The tokens that would continue a part. -/
def continuations : TypePart → List String
  | .primary => [".", "<"]
  | .operand => [".", "<", "[", "is"]
  | .union | .operands => [".", "<", "[", "is", "|", "&"]
  | .type => [".", "<", "[", "is", "|", "&", "extends"]
  | .arguments => []

/-- No token continues the part that ends at an index. -/
structure Stops (stream : TokenStream) (part : TypePart) (stop : Nat) : Prop where
  refuses : ∀ text ∈ continuations part, stream.is stop text = false
  arrow : stream.is (stop - 1) ")" = true → stream.is stop "=>" = false

variable {stream : TokenStream} {part : TypePart} {index stop : Nat} {text : String}

/-- A token is written in one way. -/
theorem is_eq_false_of_is {other : String} (found : stream.is index text = true)
    (different : text ≠ other) : stream.is index other = false := by
  rw [Bool.eq_false_iff]
  intro same
  exact different ((is_iff.mp found).2.symm.trans (is_iff.mp same).2)

theorem is_eq_false_of_size_le (past : stream.size ≤ index) : stream.is index text = false := by
  rw [Bool.eq_false_iff]
  intro found
  have := lt_size_of_is found
  omega

theorem Stops.of_is (found : stream.is stop text = true)
    (foreign : text ∉ "=>" :: continuations part) : stream.Stops part stop where
  refuses _ listed := is_eq_false_of_is found fun same =>
    foreign (List.mem_cons_of_mem _ (same ▸ listed))
  arrow _ := is_eq_false_of_is found fun same => foreign (same ▸ List.mem_cons_self)

theorem Stops.weaken {smaller : TypePart} (stops : stream.Stops part stop)
    (included : continuations smaller ⊆ continuations part) : stream.Stops smaller stop where
  refuses text listed := stops.refuses text (included listed)
  arrow := stops.arrow

/-- Nothing that follows a type continues it. -/
theorem Follows.stops (follows : stream.Follows stop) : stream.Stops .type stop := by
  cases follows with
  | nothing past =>
    exact ⟨fun _ _ => is_eq_false_of_size_le past, fun _ => is_eq_false_of_size_le past⟩
  | @mark text listed found =>
    have foreign : ∀ text ∈ ["=", ";", ",", ")", "]", "\x7d", ">", "?", ":", "\x7b"],
        text ∉ "=>" :: continuations .type := by
      decide
    exact .of_is found (foreign text listed)
  | arrow found unclosed =>
    have foreign : "=>" ∉ continuations .type := by decide
    refine ⟨fun text listed => is_eq_false_of_is found fun same => foreign (same ▸ listed), ?_⟩
    intro closed
    rw [unclosed] at closed
    contradiction

/-! ## Where parts start and end -/

theorem DottedName.lt (name : stream.DottedName index stop) : index < stop := by
  induction name with
  | single => exact Nat.lt_succ_self _
  | dotted _ _ _ inductionHypothesis => omega

theorem Subscripts.le (subscripts : stream.Subscripts index stop) : index ≤ stop := by
  induction subscripts with
  | nothing => exact Nat.le_refl _
  | bracket _ group _ inductionHypothesis =>
    have := group.lt
    omega

/-- A part is not empty. -/
theorem Spans.lt (spans : stream.Spans part index stop) : index < stop := by
  induction spans with
  | plain | unheaded | last => assumption
  | conditional | predicate | headed | further | modified | final | listed => omega
  | function parameters | constructor _ parameters =>
    have := parameters.lt
    omega
  | subscripted _ subscripts =>
    have := subscripts.le
    omega
  | query _ name =>
    have := name.lt
    omega
  | name name => exact name.lt
  | applied name =>
    have := name.lt
    omega
  | literal => exact Nat.lt_succ_self _
  | negated => omega
  | parenthesised group | enclosed _ group =>
    have := group.lt
    omega

/-- A part begins with a token. -/
theorem Spans.lt_size (spans : stream.Spans part index stop) : index < stream.size := by
  have named : ∀ {index stop}, stream.DottedName index stop → index < stream.size := by
    rintro index stop (⟨name⟩ | ⟨name⟩)
    · exact lt_size_of_isPlainWord name.plain
    · exact lt_size_of_isPlainWord name.plain
  induction spans with
  | plain | conditional | unheaded | last | further | subscripted | final | listed => assumption
  | function group | parenthesised group | enclosed _ group => exact lt_size_of_is group.opens
  | constructor keyword | headed keyword | modified _ keyword | query keyword | negated keyword =>
    exact lt_size_of_is keyword
  | predicate subject => exact lt_size_of_isPlainWord subject.plain
  | name name | applied name => exact named name
  | literal _ found => exact lt_size_of_kind? found

/-- A name is none of the words with a meaning of their own, and no operator. -/
theorem IsTypeName.is_eq_false (placed : stream.Placed) (name : stream.IsTypeName index)
    (foreign : text ∈ operandWords ++ constructorWords ++ notTypeWords ++ ["|", "&", "="]) :
    stream.is index text = false := by
  have marks : ∀ text ∈ ["|", "&", "="], hasMark text = true := by
    decide
  rw [Bool.eq_false_iff]
  intro found
  rw [List.mem_append, List.mem_append, ← (is_iff.mp found).2] at foreign
  rcases foreign with (word | word) | mark
  · exact name.meaningless word
  · exact name.free word
  · rw [(is_iff.mp found).2] at mark
    have kind := placed.kind?_of_mark found (marks text mark)
    rw [kind?_of_isPlainWord name.plain] at kind
    contradiction

theorem DottedName.isTypeName (name : stream.DottedName index stop) : stream.IsTypeName index := by
  cases name with
  | single name => exact name
  | dotted name => exact name

/-- A primary type begins with no word that begins more than a primary type, and no operator. -/
theorem Spans.primary_start (placed : stream.Placed) (spans : stream.Spans .primary index stop)
    (foreign : text ∈ operandWords ++ ["|", "&", "="]) : stream.is index text = false := by
  have listed : text ∈ operandWords ++ constructorWords ++ notTypeWords ++ ["|", "&", "="] := by
    simp only [List.mem_append] at foreign ⊢
    tauto
  have brackets : ∀ pair ∈ bracketPairs, pair.1 ∉ operandWords ++ ["|", "&", "="] := by
    decide
  cases spans with
  | name name | applied name => exact name.isTypeName.is_eq_false placed listed
  | literal kinds found =>
    rw [Bool.eq_false_iff]
    intro same
    have kind := (is_iff.mp same).1
    rw [found] at kind
    simp only [List.mem_cons, List.not_mem_nil, or_false] at kinds
    rcases kinds with rfl | rfl | rfl <;> simp at kind
  | negated minus =>
    have other : "-" ∉ operandWords ++ ["|", "&", "="] := by decide
    exact is_eq_false_of_is minus fun same => other (same ▸ foreign)
  | parenthesised group | enclosed _ group =>
    exact is_eq_false_of_is group.opens fun same => brackets _ group.matching (same ▸ foreign)

theorem Spans.operand_start (placed : stream.Placed) (spans : stream.Spans .operand index stop)
    (foreign : text ∈ ["|", "&", "="]) : stream.is index text = false := by
  have words : ∀ text ∈ operandWords, text ∉ ["|", "&", "="] := by
    decide
  cases spans with
  | subscripted primary => exact primary.primary_start placed (List.mem_append_right _ foreign)
  | modified listed keyword =>
    have word := words _ (List.mem_of_mem_take (i := 3) listed)
    exact is_eq_false_of_is keyword fun same => word (same ▸ foreign)
  | query keyword =>
    exact is_eq_false_of_is keyword fun same => words "typeof" (by decide) (same ▸ foreign)

theorem Spans.operands_start (placed : stream.Placed) (spans : stream.Spans .operands index stop)
    (foreign : text ∈ ["|", "&", "="]) : stream.is index text = false := by
  cases spans with
  | last operand | further operand => exact operand.operand_start placed foreign

/-- An operator in front of operands is no half of another operator. -/
theorem Spans.not_adjacentOperator (placed : stream.Placed)
    (spans : stream.Spans .operands (index + 1) stop) : stream.adjacentOperator index = false := by
  rw [Bool.eq_false_iff]
  intro adjacent
  simp only [adjacentOperator, Bool.and_eq_true, beq_iff_eq] at adjacent
  have listed := List.contains_iff_mem.mp adjacent.1.2
  have found := is_of_mark adjacent.2 rfl
  rw [spans.operands_start placed listed] at found
  contradiction

/-! ## Recognition -/

/-- A recogniser answers as `typeEnd?` does from an index on. -/
def KnowsTypes (stream : TokenStream) (inner : Nat → Option Nat) (start : Nat) : Prop :=
  ∀ next, start ≤ next → inner next = stream.typeEnd? next

theorem KnowsTypes.later {inner : Nat → Option Nat} {start next : Nat}
    (knows : stream.KnowsTypes inner start) (ordered : start ≤ next) :
    stream.KnowsTypes inner next :=
  fun index lower => knows index (Nat.le_trans ordered lower)

theorem qualifiedNameEnd?_of_dottedName (name : stream.DottedName index stop)
    (ends : stream.is stop "." = false) : stream.qualifiedNameEnd? index = some stop := by
  have parts : stream.dottedEnd (index + 1) = stop := by
    induction name with
    | single =>
      unfold dottedEnd
      simp [ends]
    | dotted _ point rest inductionHypothesis =>
      unfold dottedEnd
      simp [point, rest.isTypeName.plain, inductionHypothesis ends]
  simp [qualifiedNameEnd?, name.isTypeName.plain, parts]

section Constructs

variable {inner : Nat → Option Nat} {close middle : Nat}

theorem appliedNameWith?_of_dottedName (name : stream.DottedName index stop)
    (stops : stream.Stops .primary stop) : stream.appliedNameWith? inner index = some stop := by
  have named := qualifiedNameEnd?_of_dottedName name (stops.refuses "." (by decide))
  simp [appliedNameWith?, named, stops.refuses "<" (by decide)]

theorem appliedNameWith?_of_arguments (name : stream.DottedName index middle)
    (opens : stream.is middle "<" = true) (sameLine : stream.newlineBefore middle = false)
    (arguments : stream.typeArgumentsTail? inner (middle + 1) = some stop) :
    stream.appliedNameWith? inner index = some stop := by
  have named := qualifiedNameEnd?_of_dottedName name (is_eq_false_of_is opens (by decide))
  simp [appliedNameWith?, named, opens, sameLine, typeArgumentsWith?, arguments]

/-- A name is read as a name. -/
theorem primaryTypeWith?_of_name (placed : stream.Placed) (name : stream.IsTypeName index)
    (applied : stream.appliedNameWith? inner index = some stop) :
    stream.primaryTypeWith? inner index = some stop := by
  have notNew : stream.is index "new" = false := name.is_eq_false placed (by decide)
  have notAbstract : stream.is index "abstract" = false := name.is_eq_false placed (by decide)
  have free : stream.textIn index notTypeWords = false := by
    rw [textIn, List.contains_eq_mem, decide_eq_false_iff_not]
    exact name.free
  simp [primaryTypeWith?, kind?_of_isPlainWord name.plain, wordTypeWith?, notNew, notAbstract, free,
    applied]

/-- A bracket begins a type with a punctuator. -/
theorem Group.primaryTypeWith?_eq {brackets : String × String} (placed : stream.Placed)
    (group : stream.Group brackets index close) :
    stream.primaryTypeWith? inner index = stream.punctuatedTypeWith? inner index := by
  have marks : ∀ pair ∈ bracketPairs, hasMark pair.1 = true := by
    decide
  simp [primaryTypeWith?, placed.kind?_of_mark group.opens (marks _ group.matching)]

theorem primaryTypeWith?_of_parentheses (placed : stream.Placed)
    (group : stream.Group ("(", ")") index close) (closes : stream.closer? index = some close)
    (nonempty : close ≠ index + 1) (noArrow : stream.is (close + 1) "=>" = false) :
    stream.primaryTypeWith? inner index = some (close + 1) := by
  rw [group.primaryTypeWith?_eq placed]
  simp [punctuatedTypeWith?, group.opens, closes, nonempty, noArrow]

theorem primaryTypeWith?_of_enclosed {brackets : String × String} (placed : stream.Placed)
    (listed : brackets ∈ [("\x7b", "\x7d"), ("[", "]")]) (group : stream.Group brackets index close)
    (closes : stream.closer? index = some close) :
    stream.primaryTypeWith? inner index = some (close + 1) := by
  have foreign : ∀ pair ∈ [("\x7b", "\x7d"), ("[", "]")], pair.1 ≠ "(" ∧ pair.1 ≠ "<" := by
    decide
  have notRound : stream.is index "(" = false := is_eq_false_of_is group.opens (foreign _ listed).1
  have notAngle : stream.is index "<" = false := is_eq_false_of_is group.opens (foreign _ listed).2
  have opens := group.opens
  rw [group.primaryTypeWith?_eq placed]
  simp only [List.mem_cons, List.not_mem_nil, or_false] at listed
  rcases listed with rfl | rfl <;> simp [punctuatedTypeWith?, notRound, notAngle, opens, closes]

theorem primaryTypeWith?_of_negated (placed : stream.Placed) (minus : stream.is index "-" = true)
    (number : stream.kind? (index + 1) = some .number) :
    stream.primaryTypeWith? inner index = some (index + 2) := by
  have kind := placed.kind?_of_mark minus (by decide)
  have notRound : stream.is index "(" = false := is_eq_false_of_is minus (by decide)
  have notAngle : stream.is index "<" = false := is_eq_false_of_is minus (by decide)
  have notCurly : stream.is index "\x7b" = false := is_eq_false_of_is minus (by decide)
  have notSquare : stream.is index "[" = false := is_eq_false_of_is minus (by decide)
  simp [primaryTypeWith?, kind, punctuatedTypeWith?, notRound, notAngle, notCurly, notSquare, minus,
    number]

/-- Parentheses before an arrow are the parameters of a function. -/
theorem primaryTypeWith?_of_function (placed : stream.Placed)
    (group : stream.Group ("(", ")") index close) (closes : stream.closer? index = some close)
    (arrow : stream.is (close + 1) "=>" = true) :
    stream.primaryTypeWith? inner index = inner (close + 2) := by
  rw [group.primaryTypeWith?_eq placed]
  simp [punctuatedTypeWith?, group.opens, closes, arrow]

theorem primaryTypeWith?_of_constructor (placed : stream.Placed)
    (keyword : stream.is index "new" = true) (group : stream.Group ("(", ")") (index + 1) close)
    (closes : stream.closer? (index + 1) = some close) (arrow : stream.is (close + 1) "=>" = true) :
    stream.primaryTypeWith? inner index = inner (close + 2) := by
  have kind : stream.kind? index = some .word := by
    refine placed.kind?_of_start ?_
    rw [(is_iff.mp keyword).2]
    decide
  have notAngle : stream.is (index + 1) "<" = false := is_eq_false_of_is group.opens (by decide)
  simp [primaryTypeWith?, kind, wordTypeWith?, keyword, functionTypeWith?, notAngle, arrowTypeWith?,
    group.opens, closes, arrow]

/-! ### Operands -/

theorem subscriptsEnd?_of_subscripts (placed : stream.Placed) (nested : stream.Nested)
    (partnered : stream.IsPartnered) (subscripts : stream.Subscripts middle stop)
    (ends : stream.is stop "[" = false) : stream.subscriptsEnd? middle = some stop := by
  induction subscripts with
  | nothing =>
    unfold subscriptsEnd?
    simp [ends]
  | bracket sameLine group rest inductionHypothesis =>
    have closes := closer?_of_group placed nested partnered group
    unfold subscriptsEnd?
    simp only [group.opens, sameLine, and_self, dite_true]
    split
    · rename_i close found
      obtain rfl := Option.some.inj (closes.symm.trans found)
      exact inductionHypothesis ends
    · rename_i missing
      rw [closes] at missing
      contradiction

theorem operandTail?_of_subscriptsEnd? (subscripts : stream.subscriptsEnd? middle = some stop)
    (stops : stream.Stops .operand stop) : stream.operandTail? inner middle = some stop := by
  simp [operandTail?, subscripts, stops.refuses "is" (by decide)]

/-- Nothing stands behind an operand that stops where its name or brackets stop. -/
theorem operandTail?_of_stops (stops : stream.Stops .operand stop) :
    stream.operandTail? inner stop = some stop := by
  refine operandTail?_of_subscriptsEnd? ?_ stops
  unfold subscriptsEnd?
  simp [stops.refuses "[" (by decide)]

theorem operandFrom_eq_of_plain (plain : ∀ text ∈ operandWords, stream.is index text = false) :
    stream.operandFrom index = index := by
  unfold operandFrom runEnd
  simp [plain "keyof" (by decide), plain "readonly" (by decide), plain "unique" (by decide)]

/-- An operand that begins with none of the words for operands is a primary type. -/
theorem operandWith?_eq_of_plain (placed : stream.Placed)
    (plain : ∀ text ∈ operandWords, stream.is index text = false) :
    stream.operandWith? inner index =
      (stream.primaryTypeWith? inner index).bind (stream.operandTail? inner) := by
  have unwritten : ∀ text ∈ operandWords, stream.text index ≠ text := by
    have words : ∀ text ∈ operandWords, text.toList.head?.any startsWord = true := by
      decide
    intro text listed same
    have word := placed.kind?_of_start (same ▸ words text listed)
    have found := is_of_word word same
    rw [plain text listed] at found
    contradiction
  simp [operandWith?, operandFrom_eq_of_plain plain, bareOperandWith?, unwritten "infer" (by decide),
    unwritten "asserts" (by decide), plain "typeof" (by decide)]

theorem operandWith?_eq_of_modifier {modifier : String}
    (listed : modifier ∈ ["keyof", "readonly", "unique"])
    (keyword : stream.is index modifier = true) :
    stream.operandWith? inner index = stream.operandWith? inner (index + 1) := by
  have skipped : stream.operandFrom index = stream.operandFrom (index + 1) := by
    simp only [List.mem_cons, List.not_mem_nil, or_false] at listed
    unfold operandFrom
    rw [runEnd, if_pos (lt_size_of_is keyword), if_pos]
    rcases listed with rfl | rfl | rfl <;> simp [keyword]
  rw [operandWith?, operandWith?, skipped]

theorem operandWith?_of_query (keyword : stream.is index "typeof" = true)
    (applied : stream.appliedNameWith? inner (index + 1) = some stop)
    (stops : stream.Stops .operand stop) : stream.operandWith? inner index = some stop := by
  have here : stream.operandFrom index = index := by
    unfold operandFrom runEnd
    have notKeyof : stream.is index "keyof" = false := is_eq_false_of_is keyword (by decide)
    have notReadonly : stream.is index "readonly" = false := is_eq_false_of_is keyword (by decide)
    have notUnique : stream.is index "unique" = false := is_eq_false_of_is keyword (by decide)
    simp [notKeyof, notReadonly, notUnique]
  simp [operandWith?, here, bareOperandWith?, (is_iff.mp keyword).2, keyword, applied,
    operandTail?_of_stops stops]

/-! ### Unions and whole types -/

theorem unionTail?_of_stops (stops : stream.Stops .operands stop) :
    stream.unionTail? inner stop = some stop := by
  unfold unionTail?
  simp [stops.refuses "|" (by decide), stops.refuses "&" (by decide)]

theorem unionTail?_of_operand (operator : stream.is middle "|" = true ∨ stream.is middle "&" = true)
    (alone : stream.adjacentOperator middle = false) {next : Nat} (later : middle < next)
    (operand : stream.operandWith? inner (middle + 1) = some next)
    (tail : stream.unionTail? inner next = some stop) :
    stream.unionTail? inner middle = some stop := by
  have inRange : middle < stream.size := operator.elim lt_size_of_is lt_size_of_is
  unfold unionTail?
  simp [inRange, operator, alone, operand, later, tail]

theorem unionWith?_of_operands (bar : stream.is index "|" = false)
    (ampersand : stream.is index "&" = false)
    (operand : stream.operandWith? inner index = some middle)
    (tail : stream.unionTail? inner middle = some stop) :
    stream.unionWith? inner index = some stop := by
  simp [unionWith?, bar, ampersand, operand, tail]

end Constructs

/-- A type is what its recogniser says when it knows the types that begin later. -/
theorem typeEnd?_eq (inRange : index < stream.size) :
    ∃ inner, stream.KnowsTypes inner (index + 1) ∧
      stream.typeEnd? index = stream.typeWith? inner index := by
  refine ⟨fun next => if index < next then stream.typeEnd? next else none, ?_, ?_⟩
  · intro next later
    exact if_pos later
  · rw [typeEnd?]
    simp [inRange]

theorem typeEnd?_of_union (inRange : index < stream.size)
    (union : ∀ inner, stream.KnowsTypes inner (index + 1) →
      stream.unionWith? inner index = some stop)
    (stops : stream.Stops .type stop) : stream.typeEnd? index = some stop := by
  obtain ⟨inner, knows, whole⟩ := @typeEnd?_eq stream index inRange
  rw [whole]
  simp [typeWith?, union inner knows, stops.refuses "extends" (by decide)]

/-- What the recogniser of a part says of the tokens from an index up to another. -/
def Recognised (stream : TokenStream) : TypePart → Nat → Nat → Prop
  | .type, index, stop => stream.typeEnd? index = some stop
  | .union, index, stop => ∀ inner, stream.KnowsTypes inner (index + 1) →
      stream.unionWith? inner index = some stop
  | .operands, index, stop => ∀ inner, stream.KnowsTypes inner (index + 1) →
      ∃ next, index < next ∧ stream.operandWith? inner index = some next ∧
        stream.unionTail? inner next = some stop
  | .operand, index, stop => ∀ inner, stream.KnowsTypes inner (index + 1) →
      stream.operandWith? inner index = some stop
  | .primary, index, stop => ∀ inner, stream.KnowsTypes inner (index + 1) →
      stream.primaryTypeWith? inner index = some stop
  | .arguments, index, stop => ∀ inner, stream.KnowsTypes inner index →
      stream.typeArgumentsTail? inner index = some stop

section Completeness

variable (placed : stream.Placed)

/-- A conditional type is its parts one after another. -/
theorem typeEnd?_of_conditional (inRange : index < stream.size) {subject check whenTrue : Nat}
    (first : index < subject) (second : subject < check) (third : check < whenTrue)
    (tested : stream.Recognised .union index subject) (keyword : stream.is subject "extends" = true)
    (sameLine : stream.newlineBefore subject = false)
    (bound : stream.Recognised .union (subject + 1) check) (question : stream.is check "?" = true)
    (positive : stream.typeEnd? (check + 1) = some whenTrue) (colon : stream.is whenTrue ":" = true)
    (negative : stream.typeEnd? (whenTrue + 1) = some stop) : stream.typeEnd? index = some stop := by
  obtain ⟨inner, knows, whole⟩ := @typeEnd?_eq stream index inRange
  have subjectEnd := tested inner knows
  have checkEnd := bound inner (knows.later (by omega))
  have trueEnd := (knows (check + 1) (by omega)).trans positive
  have falseEnd := (knows (whenTrue + 1) (by omega)).trans negative
  rw [whole]
  simp [typeWith?, subjectEnd, keyword, sameLine, checkEnd, question, branchesWith?, trueEnd, colon,
    falseEnd]

include placed

/-- An operand that nothing continues is a whole type. -/
theorem typeEnd?_of_operand (inRange : index < stream.size)
    (plain : ∀ text ∈ operandWords ++ ["|", "&", "="], stream.is index text = false)
    (primary : ∀ inner, stream.KnowsTypes inner (index + 1) →
      ∃ middle, stream.primaryTypeWith? inner index = some middle ∧
        stream.operandTail? inner middle = some stop)
    (stops : stream.Stops .type stop) : stream.typeEnd? index = some stop := by
  refine typeEnd?_of_union inRange (fun inner knows => ?_) stops
  obtain ⟨middle, found, tail⟩ := primary inner knows
  have operand : stream.operandWith? inner index = some stop := by
    rw [operandWith?_eq_of_plain placed fun text listed => plain text (List.mem_append_left _ listed),
      found, Option.bind_some, tail]
  exact unionWith?_of_operands (plain "|" (by decide)) (plain "&" (by decide)) operand
    (unionTail?_of_stops (stops.weaken (by decide)))

/-- A function type ends with its result, and so does a constructor type. -/
theorem typeEnd?_of_arrow {head : String} {close : Nat} (begins : stream.is index head = true)
    (foreign : head ∉ operandWords ++ ["|", "&", "="]) (ordered : index < close)
    (arrows : ∀ inner, stream.primaryTypeWith? inner index = inner (close + 2))
    (result : stream.typeEnd? (close + 2) = some stop) (stops : stream.Stops .type stop) :
    stream.typeEnd? index = some stop := by
  refine typeEnd?_of_operand placed (lt_size_of_is begins) (fun text listed => ?_) ?_ stops
  · exact is_eq_false_of_is begins fun same => foreign (same ▸ listed)
  · intro inner knows
    refine ⟨stop, ?_, operandTail?_of_stops (stops.weaken (by decide))⟩
    rw [arrows, knows _ (by omega), result]

/-- A predicate ends with the type that it narrows to. -/
theorem typeEnd?_of_predicate (subject : stream.IsTypeName index)
    (keyword : stream.is (index + 1) "is" = true)
    (sameLine : stream.newlineBefore (index + 1) = false)
    (narrowed : stream.typeEnd? (index + 2) = some stop) (stops : stream.Stops .type stop) :
    stream.typeEnd? index = some stop := by
  have ends : stream.Stops .primary (index + 1) := .of_is keyword (by decide)
  have noBracket : stream.is (index + 1) "[" = false := is_eq_false_of_is keyword (by decide)
  refine typeEnd?_of_operand placed (lt_size_of_isPlainWord subject.plain) ?_ ?_ stops
  · intro text listed
    refine subject.is_eq_false placed ?_
    simp only [List.mem_append] at listed ⊢
    tauto
  · intro inner knows
    have narrowedEnd := (knows (index + 2) (by omega)).trans narrowed
    refine ⟨index + 1, primaryTypeWith?_of_name placed subject
      (appliedNameWith?_of_dottedName (.single subject) ends), ?_⟩
    unfold operandTail? subscriptsEnd?
    simp [noBracket, keyword, sameLine, kind?_of_isPlainWord subject.plain, narrowedEnd]

variable (nested : stream.Nested) (partnered : stream.IsPartnered)

include nested partnered

/-- Every part that nothing continues is recognised up to its end. -/
theorem Spans.recognised (spans : stream.Spans part index stop) (stops : stream.Stops part stop) :
    stream.Recognised part index stop := by
  have closer : ∀ {brackets opening close}, stream.Group brackets opening close →
      stream.closer? opening = some close := closer?_of_group placed nested partnered
  induction spans with
  | plain union inductionHypothesis =>
    exact typeEnd?_of_union union.lt_size (inductionHypothesis (stops.weaken (by decide))) stops
  | conditional tested keyword sameLine bound question positive colon negative testedFound boundFound
      positiveFound negativeFound =>
    have second := bound.lt
    have third := positive.lt
    exact typeEnd?_of_conditional tested.lt_size tested.lt (by omega) (by omega)
      (testedFound (.of_is keyword (by decide))) keyword sameLine
      (boundFound (.of_is question (by decide))) question
      (positiveFound (.of_is colon (by decide))) colon (negativeFound stops)
  | function parameters arrow result inductionHypothesis =>
    exact typeEnd?_of_arrow placed parameters.opens (by decide) parameters.lt
      (fun _ => primaryTypeWith?_of_function placed parameters (closer parameters) arrow)
      (inductionHypothesis stops) stops
  | constructor keyword parameters arrow result inductionHypothesis =>
    have ordered := parameters.lt
    exact typeEnd?_of_arrow placed keyword (by decide) (by omega)
      (fun _ => primaryTypeWith?_of_constructor placed keyword parameters (closer parameters) arrow)
      (inductionHypothesis stops) stops
  | predicate subject keyword sameLine narrowed inductionHypothesis =>
    exact typeEnd?_of_predicate placed subject keyword sameLine (inductionHypothesis stops) stops
  | unheaded operands inductionHypothesis =>
    intro inner knows
    obtain ⟨next, _, operand, tail⟩ := inductionHypothesis (stops.weaken (by decide)) inner knows
    exact unionWith?_of_operands (operands.operands_start placed (by decide))
      (operands.operands_start placed (by decide)) operand tail
  | headed bar operands inductionHypothesis =>
    intro inner knows
    obtain ⟨next, _, operand, tail⟩ :=
      inductionHypothesis (stops.weaken (by decide)) inner (knows.later (by omega))
    simp [unionWith?, bar, operand, tail]
  | last operand inductionHypothesis =>
    intro inner knows
    exact ⟨_, operand.lt, inductionHypothesis (stops.weaken (by decide)) inner knows,
      unionTail?_of_stops stops⟩
  | @further index middle stop operand operator operands operandFound operandsFound =>
    intro inner knows
    have ordered := operand.lt
    have separated : stream.Stops .operand middle := by
      rcases operator with bar | ampersand
      · exact .of_is bar (by decide)
      · exact .of_is ampersand (by decide)
    obtain ⟨next, later, following, tail⟩ := operandsFound stops inner (knows.later (by omega))
    exact ⟨middle, ordered, operandFound separated inner knows, unionTail?_of_operand operator
      (operands.not_adjacentOperator placed) (by omega) following tail⟩
  | @subscripted index middle stop primary subscripts inductionHypothesis =>
    intro inner knows
    have ends : stream.Stops .primary middle := by
      cases subscripts with
      | nothing => exact stops.weaken (by decide)
      | bracket _ group => exact .of_is group.opens (by decide)
    have brackets := subscriptsEnd?_of_subscripts placed nested partnered subscripts
      (stops.refuses "[" (by decide))
    rw [operandWith?_eq_of_plain placed fun text listed =>
        primary.primary_start placed (List.mem_append_left _ listed),
      inductionHypothesis ends inner knows, Option.bind_some]
    exact operandTail?_of_subscriptsEnd? brackets stops
  | modified listed keyword operand inductionHypothesis =>
    intro inner knows
    rw [operandWith?_eq_of_modifier listed keyword]
    exact inductionHypothesis stops inner (knows.later (by omega))
  | query keyword name =>
    intro inner knows
    exact operandWith?_of_query keyword
      (appliedNameWith?_of_dottedName name (stops.weaken (by decide))) stops
  | name name =>
    intro inner knows
    exact primaryTypeWith?_of_name placed name.isTypeName (appliedNameWith?_of_dottedName name stops)
  | applied name opens sameLine arguments inductionHypothesis =>
    intro inner knows
    have ordered := name.lt
    have closed := inductionHypothesis (stops.weaken (by decide)) inner (knows.later (by omega))
    exact primaryTypeWith?_of_name placed name.isTypeName
      (appliedNameWith?_of_arguments name opens sameLine closed)
  | literal listed found =>
    intro inner knows
    simp only [List.mem_cons, List.not_mem_nil, or_false] at listed
    rcases listed with rfl | rfl | rfl <;> simp [primaryTypeWith?, found]
  | negated minus number =>
    intro inner knows
    exact primaryTypeWith?_of_negated placed minus number
  | parenthesised group nonempty =>
    intro inner knows
    exact primaryTypeWith?_of_parentheses placed group (closer group) nonempty
      (stops.arrow group.closes)
  | enclosed listed group =>
    intro inner knows
    exact primaryTypeWith?_of_enclosed placed listed group (closer group)
  | final type closes inductionHypothesis =>
    intro inner knows
    have typeEnd := inductionHypothesis (.of_is closes (by decide))
    rw [typeArgumentsTail?, knows _ (Nat.le_refl _), typeEnd]
    simp [closes]
  | listed type separator arguments typeFound argumentsFound =>
    intro inner knows
    have ordered := type.lt
    have typeEnd := typeFound (.of_is separator (by decide))
    have rest := argumentsFound stops inner (knows.later (by omega))
    have unclosed : stream.is _ ">" = false := is_eq_false_of_is separator (by decide)
    rw [typeArgumentsTail?, knows _ (Nat.le_refl _), typeEnd]
    simp [unclosed, separator, rest, Nat.le_of_lt ordered]

end Completeness

/-- Every type of an accepted program that is followed by nothing that continues it is recognised
up to its end. -/
theorem typeEnd?_of_spans {source : List Char} (read : ofSource source = .ok stream)
    (spans : stream.Spans .type index stop) (follows : stream.Follows stop) :
    stream.typeEnd? index = some stop :=
  spans.recognised (placed_of_ofSource read) (nested_of_ofSource read) (isPartnered_of_ofSource read)
    follows.stops

theorem typeEnd?_of_conditionalSpan :
    ∃ stream, ofSource "A extends B | C ? (x) => ns.D : E<F, G>[] = 5".toList = .ok stream ∧
      stream.Spans .type 0 22 ∧ stream.Follows 22 ∧ stream.typeEnd? 0 = some 22 := by
  have facts : ((ofSource "A extends B | C ? (x) => ns.D : E<F, G>[] = 5".toList).toOption.any
      fun stream => decide
        ((∀ index : Nat, index ∈ [0, 2, 4, 7, 10, 12, 14, 16, 18] → stream.IsTypeName index) ∧
          (∀ token : Nat × String, token ∈ [(1, "extends"), (3, "|"), (5, "?"), (6, "("), (8, ")"),
            (9, "=>"), (11, "."), (13, ":"), (15, "<"), (17, ","), (19, ">"), (20, "["), (21, "]"),
            (22, "=")] → stream.is token.1 token.2 = true) ∧
          ∀ index : Nat, index ∈ [1, 15, 20] → stream.newlineBefore index = false)) = true := by
    decide +kernel
  obtain ⟨stream, read, names, tokens, lines⟩ := exists_ok_of_any _ facts
  have written : ∀ {index text}, (index, text) ∈ [(1, "extends"), (3, "|"), (5, "?"), (6, "("),
      (8, ")"), (9, "=>"), (11, "."), (13, ":"), (15, "<"), (17, ","), (19, ">"), (20, "["),
      (21, "]"), (22, "=")] → stream.is index text = true :=
    fun listed => tokens _ listed
  have operand : ∀ {index}, stream.IsTypeName index → stream.Spans .operand index (index + 1) :=
    fun name => .subscripted (.name (.single name)) .nothing
  have operandType : ∀ {index}, stream.IsTypeName index → stream.Spans .type index (index + 1) :=
    fun name => .plain (.unheaded (.last (operand name)))
  obtain ⟨parameter, here, word⟩ :=
    Option.map_eq_some_iff.mp (kind?_of_isPlainWord (names 7 (by decide)).plain)
  have plain : ¬parameter.IsBracket := by
    simp [Token.IsBracket, word]
  have parameters : stream.Group ("(", ")") 6 8 :=
    ⟨by decide, written (by decide), .token here plain .nothing, written (by decide)⟩
  have bound : stream.Spans .union 2 5 :=
    .unheaded (.further (operand (names 2 (by decide))) (.inl (written (by decide)))
      (.last (operand (names 4 (by decide)))))
  have result : stream.Spans .type 10 13 :=
    .plain (.unheaded (.last (.subscripted (.name (.dotted (names 10 (by decide))
      (written (by decide)) (.single (names 12 (by decide))))) .nothing)))
  have arguments : stream.Spans .arguments 16 20 :=
    .listed (operandType (names 16 (by decide))) (written (by decide))
      (.final (operandType (names 18 (by decide))) (written (by decide)))
  have brackets : stream.Subscripts 20 22 :=
    .bracket (lines 20 (by decide))
      ⟨by decide, written (by decide), .nothing, written (by decide)⟩ .nothing
  have negative : stream.Spans .type 14 22 :=
    .plain (.unheaded (.last (.subscripted (.applied (.single (names 14 (by decide)))
      (written (by decide)) (lines 15 (by decide)) arguments) brackets)))
  have spans : stream.Spans .type 0 22 :=
    .conditional (.unheaded (.last (operand (names 0 (by decide))))) (written (by decide))
      (lines 1 (by decide)) bound (written (by decide))
      (.function parameters (written (by decide)) result) (written (by decide)) negative
  have follows : stream.Follows 22 :=
    .mark (by decide : "=" ∈ ["=", ";", ",", ")", "]", "\x7d", ">", "?", ":", "\x7b"])
      (written (by decide))
  exact ⟨stream, read, spans, follows, typeEnd?_of_spans read spans follows⟩

end TokenStream

end Playground

import Playground.Erasure.TokenStream

/-!
# Recognising type syntax

Pure lookahead: every recogniser answers with the index after the type it found, or with
nothing. The recognisers of single constructs refer to whole types only through `inner`,
so each construct is described on its own; `typeEnd?` closes that loop. It asks only for
types that start strictly later, so it ends.
-/

namespace Playground

/-- Words that never begin a type. -/
def notTypeWords : List String :=
  ["as", "await", "break", "case", "catch", "class", "const", "continue", "debugger", "default",
    "delete", "do", "else", "export", "extends", "finally", "for", "function", "if", "implements",
    "import", "in", "instanceof", "is", "let", "return", "satisfies", "super", "switch", "throw",
    "try", "var", "while", "with", "yield"]

namespace TokenStream

variable (stream : TokenStream)

/-- The end of a name with any number of dotted parts, the first of which ends at `stop`. -/
def dottedEnd (stop : Nat) : Nat :=
  if dotted : stream.is stop "." = true ∧ stream.isPlainWord (stop + 1) = true then
    dottedEnd (stop + 2)
  else stop
termination_by stream.size - stop
decreasing_by
  have := lt_size_of_is dotted.1
  omega

/-- A dotted name. -/
def qualifiedNameEnd? (index : Nat) : Option Nat :=
  if stream.isPlainWord index then some (stream.dottedEnd (index + 1)) else none

/-- Skips the variance and const modifiers before a type parameter. -/
def parameterNameFrom (index : Nat) : Nat :=
  runEnd
    (fun index =>
      stream.textIn index ["in", "out", "const"] && stream.isPlainWord (index + 1))
    stream.size index

/-- Skips the operators that stand before an operand. -/
def operandFrom (index : Nat) : Nat :=
  runEnd
    (fun index =>
      stream.is index "keyof" || stream.is index "readonly" || stream.is index "unique")
    stream.size index

/-- The end of the indexed access and array brackets after an operand. -/
def subscriptsEnd? (stop : Nat) : Option Nat :=
  if _ : stream.is stop "[" = true ∧ stream.newlineBefore stop = false then
    match _ : stream.closer? stop with
    | some close => subscriptsEnd? (close + 1)
    | none => none
  else some stop
termination_by stream.size - stop
decreasing_by
  have := lt_size_of_is (And.left ‹_›)
  have := lt_of_closer?_eq_some ‹_›
  omega

/-- Whether the bar or ampersand at an index is one half of an operator of the
surrounding expression. -/
def adjacentOperator (index : Nat) : Bool :=
  stream.stopOf index == stream.startOf (index + 1) &&
    stream.textIn (index + 1) ["|", "&", "="] &&
    stream.kind? (index + 1) == some .punctuator

section

variable (inner : Nat → Option Nat)

/-- The types of an argument list up to its closing angle, read from an index after the
opening angle or a comma. -/
def typeArgumentsTail? (index : Nat) : Option Nat :=
  match inner index with
  | none => none
  | some stop =>
    if stream.is stop ">" then some (stop + 1)
    else if comma : index ≤ stop ∧ stream.is stop "," = true then typeArgumentsTail? (stop + 1)
    else none
termination_by stream.size - index
decreasing_by
  have := lt_size_of_is comma.2
  omega

/-- A list of type arguments in angles. -/
def typeArgumentsWith? (index : Nat) : Option Nat :=
  if stream.is index "<" then stream.typeArgumentsTail? inner (index + 1) else none

/-- An optional part of a type parameter: a mark followed by a type. -/
def markedType? (mark : String) (index : Nat) : Option Nat :=
  if stream.is index mark then inner (index + 1) else some index

/-- One type parameter: modifiers, a name, a constraint and a default. -/
def typeParameter? (index : Nat) : Option Nat :=
  let name := stream.parameterNameFrom index
  if stream.isPlainWord name && !(stream.textIn name notTypeWords) then do
    let constraint ← stream.markedType? inner "extends" (name + 1)
    stream.markedType? inner "=" constraint
  else none

/-- The parameters of a type parameter list up to its closing angle. -/
def typeParametersTail? (index : Nat) : Option Nat :=
  match stream.typeParameter? inner index with
  | none => none
  | some stop =>
    if comma : index ≤ stop ∧ stream.is stop "," = true then
      if stream.is (stop + 1) ">" then some (stop + 2) else typeParametersTail? (stop + 1)
    else if stream.is stop ">" then some (stop + 1)
    else none
termination_by stream.size - index
decreasing_by
  have := lt_size_of_is comma.2
  omega

/-- A list of declared type parameters in angles. -/
def typeParametersWith? (index : Nat) : Option Nat :=
  if stream.is index "<" then stream.typeParametersTail? inner (index + 1) else none

/-- A parenthesised list followed by an arrow and a result type. -/
def arrowTypeWith? (index : Nat) : Option Nat :=
  if stream.is index "(" then do
    let close ← stream.closer? index
    if stream.is (close + 1) "=>" then inner (close + 2) else none
  else none

/-- A function type, possibly with type parameters. -/
def functionTypeWith? (index : Nat) : Option Nat :=
  if stream.is index "<" then do
    let generics ← stream.typeParametersWith? inner index
    stream.arrowTypeWith? inner generics
  else stream.arrowTypeWith? inner index

/-- A name with the type arguments that may follow it on its line. -/
def appliedNameWith? (index : Nat) : Option Nat := do
  let name ← stream.qualifiedNameEnd? index
  if stream.is name "<" && !(stream.newlineBefore name) then stream.typeArgumentsWith? inner name
  else return name

/-- A type that starts with a punctuator. -/
def punctuatedTypeWith? (index : Nat) : Option Nat :=
  if stream.is index "(" then do
    let close ← stream.closer? index
    if stream.is (close + 1) "=>" then inner (close + 2)
    else if close = index + 1 then none
    else return close + 1
  else if stream.is index "<" then stream.functionTypeWith? inner index
  else if stream.is index "\x7b" || stream.is index "[" then
    (stream.closer? index).map (· + 1)
  else if stream.is index "-" && stream.kind? (index + 1) == some .number then some (index + 2)
  else none

/-- A type that starts with a word. -/
def wordTypeWith? (index : Nat) : Option Nat :=
  if stream.is index "new" then stream.functionTypeWith? inner (index + 1)
  else if stream.is index "abstract" && stream.is (index + 1) "new" then
    stream.functionTypeWith? inner (index + 2)
  else if stream.textIn index notTypeWords then none
  else stream.appliedNameWith? inner index

/-- A type without operators around it. -/
def primaryTypeWith? (index : Nat) : Option Nat :=
  match stream.kind? index with
  | none => none
  | some .string | some .number | some .template => some (index + 1)
  | some .templateHead =>
    let tail := stream.templateTail index
    if tail < stream.size then some (tail + 1) else none
  | some .regex | some .templateMiddle | some .templateTail => none
  | some .punctuator => stream.punctuatedTypeWith? inner index
  | some .word => stream.wordTypeWith? inner index

/-- The brackets after an operand that ends at `stop`, and the type a predicate narrows
to. -/
def operandTail? (stop : Nat) : Option Nat := do
  let final ← stream.subscriptsEnd? stop
  if stream.is final "is" && !(stream.newlineBefore final) &&
      stream.kind? (final - 1) == some .word then
    inner (final + 1)
  else return final

/-- An operand whose leading operators have been skipped. -/
def bareOperandWith? (index : Nat) : Option Nat :=
  if stream.text index == "infer" && stream.isPlainWord (index + 1) then
    stream.operandTail? inner (index + 2)
  else if stream.text index == "asserts" && stream.isPlainWord (index + 1) &&
      !(stream.newlineBefore (index + 1)) then
    if stream.is (index + 2) "is" then inner (index + 3) else some (index + 2)
  else if stream.is index "typeof" then do
    let queried ← stream.appliedNameWith? inner (index + 1)
    stream.operandTail? inner queried
  else do
    let primary ← stream.primaryTypeWith? inner index
    stream.operandTail? inner primary

/-- An operand of a union or intersection. -/
def operandWith? (index : Nat) : Option Nat :=
  stream.bareOperandWith? inner (stream.operandFrom index)

/-- The further operands of a union or intersection. -/
def unionTail? (stop : Nat) : Option Nat :=
  if _ : stop < stream.size ∧ (stream.is stop "|" || stream.is stop "&") = true ∧
      stream.adjacentOperator stop = false then
    match stream.operandWith? inner (stop + 1) with
    | none => none
    | some next => if _ : stop < next then unionTail? next else none
  else some stop
termination_by stream.size - stop

/-- A union or intersection, possibly with a leading operator. -/
def unionWith? (index : Nat) : Option Nat := do
  let first := if stream.is index "|" || stream.is index "&" then index + 1 else index
  let operand ← stream.operandWith? inner first
  stream.unionTail? inner operand

/-- The branches of a conditional type, read from an index after its question mark. -/
def branchesWith? (index : Nat) : Option Nat := do
  let whenTrue ← inner index
  if stream.is whenTrue ":" then inner (whenTrue + 1) else none

/-- A whole type, conditional types included. -/
def typeWith? (index : Nat) : Option Nat := do
  let stop ← stream.unionWith? inner index
  if stream.is stop "extends" && !(stream.newlineBefore stop) then
    match stream.unionWith? inner (stop + 1) with
    | some check =>
      if stream.is check "?" then stream.branchesWith? inner (check + 1) else return stop
    | none => return stop
  else return stop

end

/-- The index after the type that starts at an index. -/
def typeEnd? (index : Nat) : Option Nat :=
  if _ : index < stream.size then
    stream.typeWith? (fun next => if _ : index < next then typeEnd? next else none) index
  else none
termination_by stream.size - index

/-- The index after the type arguments that start at an index. -/
def typeArgumentsEnd? (index : Nat) : Option Nat :=
  stream.typeArgumentsWith? stream.typeEnd? index

/-- The index after the type parameters that start at an index. -/
def typeParametersEnd? (index : Nat) : Option Nat :=
  stream.typeParametersWith? stream.typeEnd? index

end TokenStream

end Playground

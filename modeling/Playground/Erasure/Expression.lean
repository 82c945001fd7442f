import Playground.Erasure.Walker

/-!
# Type syntax inside expressions

Type arguments before a call, generic heads of arrow functions, the non-null mark and
type assertions are erased where they stand. Heads of control statements are walked, so
that their parentheses are not taken for parameter lists.
-/

namespace Playground.TokenStream

variable (stream : TokenStream)

/-- A control statement: the parentheses after its keyword are walked. -/
def controlHead (walk : Walk) (keyword : Nat) : Except SyntaxError Progress :=
  let opening :=
    if stream.text keyword == "for" && stream.is (keyword + 1) "await" then keyword + 2
    else keyword + 1
  if stream.is opening "(" then stream.walkInside walk opening else return .still (keyword + 1)

/-- The end of the binding of a catch clause. -/
def catchTargetEnd (index : Nat) : Except SyntaxError Nat :=
  if stream.is index "\x7b" || stream.is index "[" then do
    let pattern ← stream.closeOf index
    return pattern + 1
  else return index + 1

/-- The head of a catch clause, whose binding may be annotated. -/
def catchHead (keyword : Nat) : Except SyntaxError Progress := do
  let opening := keyword + 1
  let close ← stream.closeOf opening
  let target ← stream.catchTargetEnd (opening + 1)
  let annotation ← stream.optionalAnnotation target
  return ⟨close + 1, stream.attachedIf target annotation⟩

/-- Whether the call or tagged template that takes type arguments stands at an index. -/
def startsCall (index : Nat) : Bool :=
  stream.is index "(" || stream.kind? index == some .template ||
    stream.kind? index == some .templateHead

/-- Whether the parenthesis at an index heads an arrow function. -/
def opensArrowHead (index : Nat) : Bool :=
  stream.is index "(" &&
    match stream.partner? index with
    | some close => stream.is (close + 1) "=>" || stream.is (close + 1) ":"
    | none => false

/-- The type arguments of a call, erased; the callee ends with a name. -/
def callArguments? (index : Nat) : Option Progress :=
  if stream.kind? (index - 1) == some .word then
    ((stream.typeArgumentsEnd? index).filter stream.startsCall).map fun stop =>
      ⟨stop, [stream.attached index stop]⟩
  else none

/-- The type parameters of an arrow function, erased. -/
def arrowParameters? (index : Nat) : Option Progress :=
  ((stream.typeParametersEnd? index).filter stream.opensArrowHead).map fun stop =>
    ⟨stop, [.erase (stream.startOf index) (stream.startOf stop)]⟩

/-- An opening angle: type arguments after an operand, or the generic head of an arrow
function where an operand is expected. -/
def angle (index : Nat) : Progress :=
  let erased? :=
    if 0 < index && stream.endsExpression (index - 1) then stream.callArguments? index
    else stream.arrowParameters? index
  erased?.getD (.still (index + 1))

/-- Whether the token at an index can be an operand of the non-null mark. -/
def takesNonNullMark (index : Nat) : Bool :=
  match stream.kind? index with
  | some .word => !(stream.textIn index expressionKeywords)
  | some .punctuator => stream.textIn index [")", "]"]
  | _ => false

/-- Whether the token at an index can follow the non-null mark. -/
def followsNonNullMark (index : Nat) : Bool :=
  stream.size ≤ index || stream.newlineBefore index ||
    stream.textIn index
      [".", "?.", ")", "]", ",", ";", "[", "\x7d", ":", "(", "=", "==", "===", "!=", "!==", "??",
        "?"]

/-- An exclamation mark, erased where it asserts that its operand is not null. -/
def nonNullMark (index : Nat) : Progress :=
  if 0 < index && !(stream.newlineBefore index) && stream.takesNonNullMark (index - 1) &&
      stream.followsNonNullMark (index + 1) then
    ⟨index + 1, [stream.single index]⟩
  else .still (index + 1)

/-- A type assertion after an operand. -/
def typeAssertion (keyword : Nat) : Progress :=
  if stream.is (keyword + 1) "const" then
    ⟨keyword + 2, [stream.attached keyword (keyword + 2)]⟩
  else
    match stream.typeEnd? (keyword + 1) with
    | some stop => ⟨stop, [stream.attached keyword stop]⟩
    | none => .still (keyword + 1)

end Playground.TokenStream

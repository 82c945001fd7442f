import Playground.Erasure.Binding

/-!
# Functions

A `function` is followed by a name, type parameters, parameters, a return type and a
body. Without a body it is an overload signature and vanishes. In an expression, a
parenthesis opens a parameter list if an arrow follows, or if it heads a method.
-/

namespace Playground.TokenStream

variable (stream : TokenStream)

/-- The end of the name of a function, after its generator star. -/
def functionNameEnd (keyword : Nat) : Nat :=
  let star := if stream.is (keyword + 1) "*" then keyword + 2 else keyword + 1
  if stream.isPlainWord star then star + 1 else star

/-- A function from its keyword on. -/
def functionDeclaration (walk : Walk) (keyword : Nat) : Except SyntaxError Progress := do
  let name := stream.functionNameEnd keyword
  let opening ← stream.optionalTypeParameters name
  if stream.is opening "(" then
    let close ← stream.closeOf opening
    let body ← stream.optionalAnnotation (close + 1)
    if stream.is body "\x7b" then
      let parameters ← stream.parametersFrom walk (opening + 1) close
      let inside ← stream.walkInside walk body
      return inside.preceded (stream.attachedIf name opening ++ parameters.edits ++
        stream.attachedIf (close + 1) body)
    else
      let stop := stream.afterSemicolon body
      return ⟨stop, [stream.declarationErased keyword stop]⟩
  else return .still opening

/-- Whether the parenthesis at an index follows the name of a method in an object. -/
def followsMethodName : Nat → Bool
  | 0 => false
  | previous + 1 =>
    match stream.kind? previous with
    | some .word => !(stream.textIn previous expressionKeywords)
    | some .string | some .number => true
    | some .punctuator => stream.textIn previous ["]", ">"]
    | _ => false

/-- The end of the head of a function whose parameters stand in the parentheses from
`opening` to `close`: after the parentheses, or after the return type. Nothing if the
parentheses hold no parameters. -/
def parameterHeadEnd? (opening close : Nat) : Option Nat :=
  let after := close + 1
  if stream.is after "=>" then some after
  else if stream.is after ":" then
    (stream.typeEnd? (after + 1)).filter fun stop =>
      stream.is stop "=>" || (stream.is stop "\x7b" && stream.followsMethodName opening)
  else if stream.is after "\x7b" && !(stream.newlineBefore after) &&
      stream.followsMethodName opening then
    some after
  else none

/-- A parenthesis in an expression. -/
def parenthesis (walk : Walk) (opening : Nat) : Except SyntaxError Progress := do
  let close ← stream.closeOf opening
  match stream.parameterHeadEnd? opening close with
  | none => stream.walkInside walk opening
  | some head =>
    let parameters ← stream.parametersFrom walk (opening + 1) close
    return ⟨head, parameters.edits ++ stream.attachedIf (close + 1) head⟩

end Playground.TokenStream

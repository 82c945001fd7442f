import Playground.Erasure.Ambient
import Playground.Erasure.Callable
import Playground.Erasure.ClassBody
import Playground.Erasure.Enumeration
import Playground.Erasure.Expression
import Playground.Erasure.ModuleClause

/-!
# The walk

`step` decides what the token at an index starts and hands it to the walker of that
construct; `walkFrom` repeats steps until the walk ends. Nested walks start later than
the step that asks for them and a step is followed by one that starts later, so the walk
of a program ends.
-/

namespace Playground.TokenStream

variable (stream : TokenStream)

/-- Whether a line break before the token at an index ends the construct. -/
def endsAtLine (index : Nat) (lineEnd : LineEnd) : Bool :=
  lineEnd != .never && stream.newlineBefore index && stream.endsExpression (index - 1) &&
    match stream.kind? index with
    | some .word => !(stream.textIn index ["in", "instanceof", "as", "satisfies", "of"])
    | some .number | some .string | some .template | some .templateHead => true
    | some .punctuator => lineEnd == .member && stream.textIn index ["[", "*", "@"]
    | _ => false

/-- Whether the walk that began at `first` ends before the token at an index. -/
def endsBefore (first index : Nat) (ending : WalkEnd) : Bool :=
  (stream.kind? index == some .punctuator && stream.textIn index ending.stops) ||
    (first < index && stream.endsAtLine index ending.lineEnd)

/-- Whether the word at an index is a property name after a dot. -/
def isPropertyName (index : Nat) : Bool :=
  0 < index && (stream.is (index - 1) "." || stream.is (index - 1) "?.")

/-- Whether the word at an index starts a type alias. -/
def startsAlias (index : Nat) : Bool :=
  stream.startsStatement index && stream.isPlainWord (index + 1) &&
    (stream.is (index + 2) "=" || stream.is (index + 2) "<")

/-- Whether the word at an index starts an ambient declaration. -/
def startsAmbient (index : Nat) : Bool :=
  stream.startsStatement index && stream.isPlainWord (index + 1) &&
    !(stream.newlineBefore (index + 1))

/-- Whether the word at an index starts a namespace. -/
def startsNamespace (index : Nat) : Bool :=
  stream.startsStatement index && stream.isPlainWord (index + 1) &&
    (stream.is (index + 2) "\x7b" || stream.is (index + 2) ".")

/-- A word, by what it starts. -/
def wordStep (walk : Walk) (index : Nat) : Except SyntaxError Progress :=
  let pass : Except SyntaxError Progress := return .still (index + 1)
  if stream.isPropertyName index then pass
  else
    match stream.text index with
    | "interface" =>
      if stream.startsStatement index && stream.isPlainWord (index + 1) then
        stream.interfaceDeclaration index
      else pass
    | "type" => if stream.startsAlias index then stream.aliasDeclaration index else pass
    | "declare" =>
      if stream.startsAmbient index then return stream.ambientDeclaration index else pass
    | "namespace" | "module" =>
      if stream.startsNamespace index then stream.fail index .namespacesUnsupported else pass
    | "abstract" =>
      if stream.is (index + 1) "class" then return ⟨index + 1, [stream.leading index]⟩ else pass
    | "enum" =>
      if stream.isPlainWord (index + 1) then stream.enumDeclaration index index else pass
    | "const" =>
      if stream.is (index + 1) "enum" then stream.enumDeclaration index (index + 1)
      else if stream.startsBinding (index + 1) then stream.variablesFrom walk (index + 1)
      else pass
    | "let" | "var" =>
      if stream.startsBinding (index + 1) then stream.variablesFrom walk (index + 1) else pass
    | "function" => stream.functionDeclaration walk index
    | "class" => stream.classDeclaration walk index
    | "as" | "satisfies" =>
      if 0 < index && stream.endsExpression (index - 1) then return stream.typeAssertion index
      else pass
    | "import" => stream.importDeclaration index
    | "export" => stream.exportDeclaration index
    | "catch" => if stream.is (index + 1) "(" then stream.catchHead index else pass
    | "if" | "while" | "for" | "switch" | "with" => stream.controlHead walk index
    | _ => pass

/-- A punctuator, by what it opens. -/
def punctuatorStep (walk : Walk) (index : Nat) : Except SyntaxError Progress :=
  match stream.text index with
  | "(" => stream.parenthesis walk index
  | "\x7b" | "[" => stream.walkInside walk index
  | "<" => return stream.angle index
  | "!" => return stream.nonNullMark index
  | _ => return .still (index + 1)

/-- A template with substitutions, walked up to its tail. -/
def templateStep (walk : Walk) (index : Nat) : Except SyntaxError Progress := do
  let tail := stream.templateTail index
  let inside ← walk (index + 1) (.upTo tail)
  return ⟨tail + 1, inside.edits⟩

/-- The token at an index, by its kind. -/
def step (walk : Walk) (index : Nat) : Except SyntaxError Progress :=
  match stream.kind? index with
  | some .word => stream.wordStep walk index
  | some .punctuator => stream.punctuatorStep walk index
  | some .templateHead => stream.templateStep walk index
  | _ => return .still (index + 1)

/-- Walks from an index until the walk that began at `first` ends. -/
def walkFrom (first index : Nat) (ending : WalkEnd) : Except SyntaxError Progress :=
  if _ : index < ending.limit ∧ index < stream.size then
    if stream.endsBefore first index ending then return .still index
    else do
      let one ← stream.step
        (fun next nested =>
          if _ : index < next then walkFrom next next nested else return .still next)
        index
      if _ : index < one.next then
        let rest ← walkFrom first one.next ending
        return rest.preceded one.edits
      else return one
  else return .still index
termination_by stream.size - index

/-- The edits of a whole program. -/
def edits : Except SyntaxError (List Edit) := do
  let whole ← stream.walkFrom 0 0 (.upTo stream.size)
  return whole.edits

end Playground.TokenStream

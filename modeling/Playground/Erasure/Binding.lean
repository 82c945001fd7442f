import Playground.Erasure.Walker

/-!
# Parameters and variable declarations

Both are lists of bindings: a name or a pattern, an optional marker, an optional
annotation and an optional initializer. Markers and annotations are erased; patterns
and initializers are walked. Access modifiers make a parameter a property.
-/

namespace Playground

/-- Modifiers that make a constructor parameter a property. -/
def parameterModifiers : List String :=
  ["public", "private", "protected", "readonly", "override"]

/-- One parameter: the property it declares, if any, and the walk over it. -/
structure Parameter where
  property : Option String
  progress : Progress

/-- The edits of a parameter list and the parameters declared with a modifier. -/
structure ParameterList where
  properties : List String
  edits : List Edit

/-- Puts earlier edits in front of a parameter list. -/
def ParameterList.preceded (list : ParameterList) (edits : List Edit) : ParameterList :=
  { list with edits := edits ++ list.edits }

/-- Puts a parameter in front of a parameter list. -/
def ParameterList.cons (first : Parameter) (list : ParameterList) : ParameterList :=
  ⟨first.property.toList ++ list.properties, first.progress.edits ++ list.edits⟩

namespace TokenStream

variable (stream : TokenStream)

/-- Whether a parameter name or pattern stands at an index. -/
def startsBinding (index : Nat) : Bool :=
  stream.isPlainWord index || stream.is index "\x7b" || stream.is index "["

/-- The end of the access modifiers before a parameter. -/
def parameterModifiersEnd (index : Nat) : Nat :=
  runEnd
    (fun index =>
      stream.textIn index parameterModifiers && stream.startsBinding (index + 1))
    stream.size index

/-- A marker token that is erased if it stands at an index. -/
def erasedMarker (text : String) (index : Nat) : Progress :=
  if stream.is index text then ⟨index + 1, [stream.single index]⟩ else .still index

/-- An annotation that is erased if it stands at an index. -/
def erasedAnnotation (index : Nat) : Except SyntaxError Progress := do
  let stop ← stream.optionalAnnotation index
  return ⟨stop, stream.attachedIf index stop⟩

/-- The definite assignment mark before an annotation. -/
def definiteMark (index : Nat) : Progress :=
  if stream.is (index + 1) ":" then stream.erasedMarker "!" index else .still index

/-- Whether the parameter at an index is the annotation of the receiver. -/
def isReceiver (index close : Nat) : Bool :=
  stream.is index "this" &&
    (stream.is (index + 1) ":" || stream.is (index + 1) "," || index + 1 == close)

/-- The receiver annotation, erased with its comma. -/
def receiverParameter (index : Nat) : Except SyntaxError Progress := do
  let type ← stream.optionalAnnotation (index + 1)
  let stop := if stream.is type "," then type + 1 else type
  return ⟨stop, [.erase (stream.startOf index) (stream.startOf stop)]⟩

section

variable (walk : Walk)

/-- The value after an equals sign, if one stands at an index. -/
def initializer (index : Nat) (ending : WalkEnd) : Except SyntaxError Progress :=
  if stream.is index "=" then walk (index + 1) ending else return .still index

/-- The name or pattern of a parameter. -/
def parameterTarget (index close : Nat) : Except SyntaxError Progress :=
  if stream.is index "\x7b" || stream.is index "[" then stream.walkInside walk index
  else if stream.isPlainWord index then return .still (index + 1)
  else walk index ⟨close, [","], .never⟩

/-- One parameter, without the comma after it. -/
def parameter (index close : Nat) : Except SyntaxError Parameter := do
  let modified := stream.parameterModifiersEnd index
  let modifiers := (List.range' index (modified - index)).map stream.leading
  let name := if stream.is modified "..." then modified + 1 else modified
  let target ← stream.parameterTarget walk name close
  let marker := stream.erasedMarker "?" target.next
  let annotation ← stream.erasedAnnotation marker.next
  let value ← stream.initializer walk annotation.next ⟨close, [","], .never⟩
  let isProperty := modified != index && stream.isPlainWord name
  return ⟨if isProperty then some (stream.text name) else none, ⟨value.next,
    modifiers ++ target.edits ++ marker.edits ++ annotation.edits ++ value.edits⟩⟩

/-- The parameters from an index up to the closing parenthesis. -/
def parametersFrom (index close : Nat) : Except SyntaxError ParameterList :=
  if _ : index < close then
    if stream.isReceiver index close then do
      let receiver ← stream.receiverParameter index
      if _ : index < receiver.next then
        let rest ← parametersFrom receiver.next close
        return rest.preceded receiver.edits
      else return ⟨[], receiver.edits⟩
    else do
      let one ← stream.parameter walk index close
      if _ : index ≤ one.progress.next ∧ stream.is one.progress.next "," = true then
        let rest ← parametersFrom (one.progress.next + 1) close
        return .cons one rest
      else if one.progress.next < close then
        stream.fail one.progress.next .expectedParameterEnd
      else return .cons one ⟨[], []⟩
  else return ⟨[], []⟩
termination_by close - index

/-- The name or pattern of a declared variable; nothing if neither stands there. -/
def variableTarget (index : Nat) : Except SyntaxError (Option Progress) :=
  if stream.is index "\x7b" || stream.is index "[" then do
    let pattern ← stream.walkInside walk index
    return some pattern
  else if stream.isPlainWord index then return some (.still (index + 1))
  else return none

/-- One declared variable after its name or pattern. -/
def variableFrom (target : Progress) : Except SyntaxError Progress := do
  let mark := stream.definiteMark target.next
  let annotation ← stream.erasedAnnotation mark.next
  let value ← stream.initializer walk annotation.next
    ⟨stream.size, [",", ";", ")", "]", "\x7d"], .statement⟩
  return value.preceded (target.edits ++ mark.edits ++ annotation.edits)

/-- The variables of a declaration from an index on. -/
def variablesFrom (index : Nat) : Except SyntaxError Progress := do
  match ← stream.variableTarget walk index with
  | none => return .still index
  | some target =>
    let one ← stream.variableFrom walk target
    if comma : index ≤ one.next ∧ stream.is one.next "," = true then
      let rest ← variablesFrom (one.next + 1)
      return rest.preceded one.edits
    else return one
termination_by stream.size - index
decreasing_by
  have := lt_size_of_is comma.2
  omega

end

end TokenStream

end Playground

import Playground.Erasure.Binding
import Playground.Erasure.Extent

/-!
# Classes

A class head loses its type parameters, the type arguments of its base and its
implemented types. Members lose their access modifiers, markers and annotations;
signatures without a body, ambient members and index signatures vanish. Parameter
properties of a constructor become assignments in its body.
-/

namespace Playground

/-- Words that may modify a class member. -/
def memberModifiers : List String :=
  ["public", "private", "protected", "readonly", "override", "declare", "abstract", "static",
    "async", "get", "set", "accessor"]

/-- Member modifiers that exist at run time. -/
def keptModifiers : List String :=
  ["static", "async", "get", "set", "accessor"]

/-- Member modifiers that make the whole member vanish. -/
def ambientModifiers : List String :=
  ["declare", "abstract"]

namespace TokenStream

variable (stream : TokenStream)

/-- Whether the word at an index modifies a member rather than names it. -/
def modifiesMember (index : Nat) : Bool :=
  !(stream.textIn (index + 1) ["(", "=", ";", ":", "?", "!", "<", "\x7d", ",", "."]) &&
    !(stream.newlineBefore (index + 1))

/-- The index after the modifiers of a member. -/
def modifiersEnd (index close : Nat) : Nat :=
  runEnd
    (fun index => stream.textIn index memberModifiers && stream.modifiesMember index)
    close index

/-- The erasures of the modifiers between two indices that do not exist at run time. -/
def erasedModifiers (first stop : Nat) : List Edit :=
  (List.range' first (stop - first)).filterMap fun index =>
    if stream.textIn index keptModifiers || stream.textIn index ambientModifiers then none
    else some (stream.leading index)

/-- Whether a modifier between two indices makes the member vanish. -/
def isAmbientMember (first stop : Nat) : Bool :=
  (List.range' first (stop - first)).any fun index => stream.textIn index ambientModifiers

/-- Whether an index signature starts at an index. -/
def startsIndexSignature (index : Nat) : Bool :=
  stream.is index "[" && stream.isPlainWord (index + 1) && stream.is (index + 2) ":"

/-- The index after the name of a member. -/
def memberNameEnd (name : Nat) : Except SyntaxError Nat :=
  if stream.is name "[" then do
    let close ← stream.closeOf name
    return close + 1
  else
    match stream.kind? name with
    | some .word | some .string | some .number => return name + 1
    | _ => stream.fail name .expectedClassMember

/-- The last token of the first call of the base constructor from an index on, with its
semicolon. -/
def superCallEnd? (index close : Nat) : Except SyntaxError (Option Nat) :=
  let call := stream.seek
    (fun index => stream.is index "super" && stream.is (index + 1) "(") close index
  if call < close then do
    let stop ← stream.closeOf (call + 1)
    return some (if stream.is (stop + 1) ";" then stop + 1 else stop)
  else return none

/-- The assignments of parameter properties. -/
def propertyAssignments (properties : List String) : String :=
  String.join (properties.map fun name => s!" this.{name} = {name};")

/-- The token after which the assignments of parameter properties stand: the end of the
call of the base constructor in a derived class, or the opening brace of the body. -/
def assignmentAnchor (opening close : Nat) (derived : Bool) : Except SyntaxError Nat := do
  let call ← if derived then stream.superCallEnd? (opening + 1) close else pure none
  return call.getD opening

section

variable (walk : Walk)

/-- The parts of a member head that are erased or walked: modifiers, a computed name and
a marker. -/
def memberHead (first modified name nameEnd markerEnd : Nat) :
    Except SyntaxError (List Edit) := do
  let computed ←
    if stream.is name "[" then do
      let inside ← stream.walkInside walk name
      pure inside.edits
    else pure []
  let marker := if nameEnd < markerEnd then [stream.single nameEnd] else []
  return stream.erasedModifiers first modified ++ computed ++ marker

/-- The body of a constructor with parameter properties, walked on both sides of the
assignments. -/
def constructorBody (opening : Nat) (derived : Bool) (properties : List String) :
    Except SyntaxError Progress := do
  let close ← stream.closeOf opening
  let anchor ← stream.assignmentAnchor opening close derived
  let before ← walk (opening + 1) (.upTo (anchor + 1))
  let after ← walk (anchor + 1) (.upTo close)
  let assignments := Edit.insert (stream.stopOf anchor) (propertyAssignments properties)
  return ⟨close + 1, before.edits ++ [assignments] ++ after.edits⟩

/-- The body of a method. -/
def methodBody (opening name : Nat) (derived : Bool) (properties : List String) :
    Except SyntaxError Progress :=
  if stream.text name == "constructor" && !properties.isEmpty then
    stream.constructorBody walk opening derived properties
  else stream.walkInside walk opening

/-- A method or signature whose parameters open at `opening`. -/
def methodMember (first modified name nameEnd markerEnd opening : Nat) (derived : Bool) :
    Except SyntaxError Progress := do
  let close ← stream.closeOf opening
  let body ← stream.optionalAnnotation (close + 1)
  if stream.is body "\x7b" then
    let head ← stream.memberHead walk first modified name nameEnd markerEnd
    let parameters ← stream.parametersFrom walk (opening + 1) close
    let inside ← stream.methodBody walk body name derived parameters.properties
    return inside.preceded (head ++ stream.attachedIf markerEnd opening ++ parameters.edits ++
      stream.attachedIf (close + 1) body)
  else
    let stop := stream.afterSemicolon body
    return ⟨stop, [stream.whole first stop]⟩

/-- A field whose head ends at `headEnd`. -/
def fieldMember (first modified name nameEnd headEnd close : Nat) :
    Except SyntaxError Progress := do
  let head ← stream.memberHead walk first modified name nameEnd headEnd
  let annotation ← stream.erasedAnnotation headEnd
  let value ← stream.initializer walk annotation.next ⟨close, [";"], .member⟩
  return ⟨stream.afterSemicolon value.next, head ++ annotation.edits ++ value.edits⟩

/-- A member with a name, after its modifiers. -/
def namedMember (first modified close : Nat) (derived : Bool) : Except SyntaxError Progress := do
  let name := if stream.is modified "*" then modified + 1 else modified
  let nameEnd ← stream.memberNameEnd name
  let marked := stream.is nameEnd "?" || stream.is nameEnd "!"
  let markerEnd := if marked then nameEnd + 1 else nameEnd
  let generics ← stream.optionalTypeParameters markerEnd
  if stream.is generics "(" then
    stream.methodMember walk first modified name nameEnd markerEnd generics derived
  else if markerEnd < generics then stream.fail generics .expectedParenthesis
  else stream.fieldMember walk first modified name nameEnd markerEnd close

/-- One member of a class. -/
def classMember (first close : Nat) (derived : Bool) : Except SyntaxError Progress :=
  if stream.is first ";" then return .still (first + 1)
  else if stream.is first "@" then stream.fail first .decoratorsUnsupported
  else
    let modified := stream.modifiersEnd first close
    if first < modified && stream.is modified "\x7b" && stream.is (modified - 1) "static" then
      stream.walkInside walk modified
    else if stream.isAmbientMember first modified || stream.startsIndexSignature modified then
      let stop := stream.statementEnd modified close
      return ⟨stop, [stream.whole first stop]⟩
    else stream.namedMember walk first modified close derived

/-- The members of a class from an index up to its closing brace. -/
def classMembersFrom (index close : Nat) (derived : Bool) : Except SyntaxError (List Edit) :=
  if _ : index < close then do
    let member ← stream.classMember walk index close derived
    if _ : index < member.next then
      let rest ← classMembersFrom member.next close derived
      return member.edits ++ rest
    else return member.edits
  else return []
termination_by close - index

/-- The type arguments of a base class, which end right before the implemented types or
the body. -/
def baseArgumentsEnd? (index : Nat) : Option Nat :=
  (stream.typeArgumentsEnd? index).filter fun stop =>
    stream.is stop "\x7b" || stream.is stop "implements"

/-- One part of the base class: type arguments, a bracket pair or a token. -/
def heritagePart (index : Nat) : Except SyntaxError Progress :=
  match stream.baseArgumentsEnd? index with
  | some stop => return ⟨stop, [stream.attached index stop]⟩
  | none =>
    if stream.is index "(" || stream.is index "[" then stream.walkInside walk index
    else return .still (index + 1)

/-- The base class of a derived class, up to the implemented types or the body. -/
def heritageFrom (index : Nat) : Except SyntaxError Progress :=
  if _ : index < stream.size then
    if stream.is index "\x7b" || stream.is index "implements" then return .still index
    else do
      let part ← stream.heritagePart walk index
      if _ : index < part.next then
        let rest ← heritageFrom part.next
        return rest.preceded part.edits
      else return part
  else return .still index
termination_by stream.size - index

/-- The base class, if the class is derived. -/
def heritage (index : Nat) : Except SyntaxError Progress :=
  if stream.is index "extends" then stream.heritageFrom walk (index + 1)
  else return .still index

end

/-- The implemented types, erased. -/
def implementedTypes (index : Nat) : Except SyntaxError Progress :=
  if stream.is index "implements" then do
    let stop ← stream.typeListEnd (index + 1)
    return ⟨stop, [stream.attached index stop]⟩
  else return .still index

/-- The end of the name of a class. -/
def classNameEnd (keyword : Nat) : Nat :=
  if stream.isPlainWord (keyword + 1) &&
      !(stream.textIn (keyword + 1) ["extends", "implements"]) then
    keyword + 2
  else keyword + 1

/-- A class from its keyword on. A class without a body keeps what was found in its head,
and the walk goes on after the keyword. -/
def classDeclaration (walk : Walk) (keyword : Nat) : Except SyntaxError Progress := do
  let name := stream.classNameEnd keyword
  let generics ← stream.optionalTypeParameters name
  let base ← stream.heritage walk generics
  let implemented ← stream.implementedTypes base.next
  let head := stream.attachedIf name generics ++ base.edits ++ implemented.edits
  if stream.is implemented.next "\x7b" then
    let close ← stream.closeOf implemented.next
    let members ← stream.classMembersFrom walk (implemented.next + 1) close
      (stream.is generics "extends")
    return ⟨close + 1, head ++ members⟩
  else return ⟨keyword + 1, head⟩

end TokenStream

end Playground

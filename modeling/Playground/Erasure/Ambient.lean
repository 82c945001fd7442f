import Playground.Erasure.Extent

/-!
# Declarations that vanish

Interfaces, type aliases and ambient declarations have no counterpart at run time and
are erased whole, with the modifiers before them.
-/

namespace Playground.TokenStream

variable (stream : TokenStream)

/-- The end of the types an interface extends, if it extends any. -/
def extendedTypesEnd (index : Nat) : Except SyntaxError Nat :=
  if stream.is index "extends" then stream.typeListEnd (index + 1) else return index

/-- An interface declaration; `keyword` is followed by its name. -/
def interfaceDeclaration (keyword : Nat) : Except SyntaxError Progress := do
  let generics ← stream.optionalTypeParameters (keyword + 2)
  let opening ← stream.extendedTypesEnd generics
  if stream.is opening "\x7b" then
    let close ← stream.closeOf opening
    return ⟨close + 1, [stream.declarationErased keyword (close + 1)]⟩
  else stream.fail opening .expectedInterfaceBody

/-- A type alias; `keyword` is followed by its name. -/
def aliasDeclaration (keyword : Nat) : Except SyntaxError Progress := do
  let generics ← stream.optionalTypeParameters (keyword + 2)
  if stream.is generics "=" then
    let type ← stream.expectType (generics + 1)
    let stop := stream.afterSemicolon type
    return ⟨stop, [stream.declarationErased keyword stop]⟩
  else return .still (keyword + 1)

/-- An ambient declaration. -/
def ambientDeclaration (keyword : Nat) : Progress :=
  let stop := stream.statementEnd (keyword + 1) stream.size
  ⟨stop, [stream.declarationErased keyword stop]⟩

end Playground.TokenStream

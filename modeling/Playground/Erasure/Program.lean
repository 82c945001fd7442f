import Playground.Erasure.Walk

/-!
# Erasing the types of a program

`eraseTypes` takes a program with type syntax to the program that runs: annotations,
interfaces, aliases, generics, assertions and ambient declarations are dropped, and
enumerations and parameter properties are lowered. The result keeps the lines of its
input.
-/

namespace Playground

/-- The edits that take a program to the program without types. -/
def typeEdits (source : List Char) : Except SyntaxError (List Edit) := do
  let stream ← TokenStream.ofSource source
  stream.edits

/-- The characters of a program without its types. -/
def eraseCharacters (source : List Char) : Except SyntaxError (List Char) := do
  let edits ← typeEdits source
  return editedText source.toArray edits

/-- A program without its types, or the report of why it is rejected. -/
def eraseTypes (source : String) : Except SyntaxReport String :=
  match eraseCharacters source.toList with
  | .ok characters => .ok (String.ofList characters)
  | .error error => .error (error.report source.toList)

end Playground

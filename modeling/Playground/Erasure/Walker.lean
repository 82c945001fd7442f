import Playground.Erasure.Edit
import Playground.Erasure.TypeSyntax

/-!
# Walking tokens

A walker looks at the tokens from an index on and answers with the edits it found and
the index it reached. Walkers of nested constructs take `walk`, the walker of whole
stretches of a program, so each construct is described on its own and the recursion is
closed once.
-/

namespace Playground

/-- Which line breaks may end the construct being walked. -/
inductive LineEnd where
  | never
  | statement
  | member
  deriving DecidableEq, Repr

/-- Where a walk ends: at an index, before a punctuator at its own nesting level, or at a
line break. -/
structure WalkEnd where
  limit : Nat
  stops : List String
  lineEnd : LineEnd

/-- A walk that ends only at an index. -/
def WalkEnd.upTo (limit : Nat) : WalkEnd := ⟨limit, [], .never⟩

/-- The index a walk reached and the edits it found. -/
structure Progress where
  next : Nat
  edits : List Edit
  deriving DecidableEq, Repr

namespace Progress

/-- A walk that changes nothing. -/
def still (index : Nat) : Progress :=
  ⟨index, []⟩

/-- Puts the edits of an earlier part in front. -/
def preceded (progress : Progress) (edits : List Edit) : Progress :=
  { progress with edits := edits ++ progress.edits }

end Progress

/-- A walker of the tokens from an index on. -/
abbrev Walk := Nat → WalkEnd → Except SyntaxError Progress

namespace TokenStream

variable (stream : TokenStream)

/-- An error at the token with the given index. -/
def fail {α : Type} (index : Nat) (fault : SyntaxFault) : Except SyntaxError α :=
  .error ⟨fault, stream.startOf index⟩

/-- The closing bracket of the opening bracket at an index. -/
def closeOf (index : Nat) : Except SyntaxError Nat :=
  match stream.closer? index with
  | some close => .ok close
  | none => stream.fail index .unbalancedBracket

/-- The end of the type that has to start at an index. -/
def expectType (index : Nat) : Except SyntaxError Nat :=
  match stream.typeEnd? index with
  | some stop => .ok stop
  | none => stream.fail index .expectedType

/-- The end of a list of types separated by commas, the first of which starts at an
index. -/
def typeListEnd (index : Nat) : Except SyntaxError Nat := do
  let stop ← stream.expectType index
  if comma : index ≤ stop ∧ stream.is stop "," = true then typeListEnd (stop + 1)
  else return stop
termination_by stream.size - index
decreasing_by
  have := lt_size_of_is comma.2
  omega

/-- The end of the type parameters that have to start at an index. -/
def expectTypeParameters (index : Nat) : Except SyntaxError Nat :=
  match stream.typeParametersEnd? index with
  | some stop => .ok stop
  | none => stream.fail index .malformedTypeParameters

/-- Erases the tokens from `first` up to `stop`, with the blanks before them. -/
def attached (first stop : Nat) : Edit :=
  .erase (if first = 0 then stream.startOf first else stream.stopOf (first - 1))
    (stream.stopOf (stop - 1))

/-- Erases the tokens from `first` up to `stop`. -/
def whole (first stop : Nat) : Edit :=
  .erase (stream.startOf first) (stream.stopOf (stop - 1))

/-- Erases a token with the blanks after it. -/
def leading (index : Nat) : Edit :=
  .erase (stream.startOf index) (stream.startOf (index + 1))

/-- Erases a token. -/
def single (index : Nat) : Edit :=
  .erase (stream.startOf index) (stream.stopOf index)

/-- The end of an optional list of type parameters. -/
def optionalTypeParameters (index : Nat) : Except SyntaxError Nat :=
  if stream.is index "<" then stream.expectTypeParameters index else return index

/-- The end of an optional annotation: a colon and a type. -/
def optionalAnnotation (index : Nat) : Except SyntaxError Nat :=
  if stream.is index ":" then stream.expectType (index + 1) else return index

/-- Erases an optional part, if there is one. -/
def attachedIf (first stop : Nat) : List Edit :=
  if first < stop then [stream.attached first stop] else []

/-- The index after an optional semicolon. -/
def afterSemicolon (index : Nat) : Nat :=
  if stream.is index ";" then index + 1 else index

/-- Walks the inside of the bracket pair that opens at an index. -/
def walkInside (walk : Walk) (index : Nat) : Except SyntaxError Progress := do
  let close ← stream.closeOf index
  let inside ← walk (index + 1) (.upTo close)
  return ⟨close + 1, inside.edits⟩

/-- Whether the token at an index is where a statement can start. -/
def startsStatement (index : Nat) : Bool :=
  index == 0 || stream.newlineBefore index ||
    stream.textIn (index - 1) [";", "\x7b", "\x7d", "export", "default", "declare"]

/-- The first of the modifiers that stand before a declaration's keyword. -/
def declarationStart : Nat → Nat
  | 0 => 0
  | index + 1 =>
    if stream.kind? index == some .word &&
        stream.textIn index ["export", "default", "declare", "async"] then
      declarationStart index
    else index + 1

/-- Erases a declaration from its modifiers up to `stop`. -/
def declarationErased (keyword stop : Nat) : Edit :=
  stream.whole (stream.declarationStart keyword) stop

end TokenStream

end Playground

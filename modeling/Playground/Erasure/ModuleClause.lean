import Playground.Erasure.Extent

/-!
# Imports and exports

A type-only import or export vanishes; from a list of specifiers only the type-only ones
are dropped. Everything else that follows the keyword is left to the walk.
-/

namespace Playground.TokenStream

variable (stream : TokenStream)

/-- The first opening brace between two indices. -/
def firstBrace? (first stop : Nat) : Option Nat :=
  (List.range' first (stop - first)).find? fun index => stream.is index "\x7b"

/-- The comma that ends the specifier at an index, or the end of the list. -/
def specifierEnd (index close : Nat) : Nat :=
  runEnd (fun index => !(stream.is index ",")) close index

/-- Whether the specifier at an index names a type only. -/
def isTypeSpecifier (index : Nat) : Bool :=
  stream.is index "type" && stream.isPlainWord (index + 1) && !(stream.is (index + 1) "as")

/-- Drops the type-only specifiers from an index up to the closing brace. -/
def erasedSpecifiersFrom (index close : Nat) : List Edit :=
  if _ : index < close then
    let stop := stream.specifierEnd index close
    let dropped :=
      if stream.isTypeSpecifier index then
        let after := if stream.is stop "," then stop + 1 else stop
        [.erase (stream.startOf index) (stream.startOf after)]
      else []
    dropped ++ erasedSpecifiersFrom (stop + 1) close
  else []
termination_by close - index
decreasing_by
  have : index ≤ stream.specifierEnd index close := le_runEnd ..
  omega

/-- Drops the type-only specifiers of the first list between two indices. -/
def erasedSpecifiers (first stop : Nat) : Except SyntaxError (List Edit) :=
  match stream.firstBrace? first stop with
  | none => return []
  | some opening => do
    let close ← stream.closeOf opening
    return stream.erasedSpecifiersFrom (opening + 1) close

/-- Whether an import clause, rather than a call or a property, starts at an index. -/
def startsImportClause (index : Nat) : Bool :=
  stream.isPlainWord index || stream.is index "\x7b" || stream.is index "*" ||
    stream.kind? index == some .string

/-- Whether the import clause at an index imports types only. -/
def isTypeImport (index : Nat) : Bool :=
  stream.is index "type" &&
    (stream.is (index + 1) "\x7b" || stream.is (index + 1) "*" ||
      (stream.isPlainWord (index + 1) && !(stream.is (index + 1) "from")))

/-- An import from its keyword on. -/
def importDeclaration (keyword : Nat) : Except SyntaxError Progress := do
  let clause := keyword + 1
  if stream.startsImportClause clause then
    let stop := stream.moduleClauseEnd clause
    if stream.isTypeImport clause then return ⟨stop, [stream.whole keyword stop]⟩
    else
      let edits ← stream.erasedSpecifiers clause stop
      return ⟨stop, edits⟩
  else return .still clause

/-- An export from its keyword on. -/
def exportDeclaration (keyword : Nat) : Except SyntaxError Progress := do
  let clause := keyword + 1
  if stream.is clause "type" &&
      (stream.is (clause + 1) "\x7b" || stream.is (clause + 1) "*") then
    let stop ← stream.exportClauseEnd (clause + 1)
    return ⟨stop, [stream.whole keyword stop]⟩
  else if stream.is clause "as" && stream.is (clause + 1) "namespace" then
    let stop := stream.statementEnd clause stream.size
    return ⟨stop, [stream.whole keyword stop]⟩
  else if stream.is clause "\x7b" then
    let close ← stream.closeOf clause
    let edits ← stream.erasedSpecifiers clause (close + 1)
    return ⟨close + 1, edits⟩
  else return .still clause

end Playground.TokenStream

import Playground.Erasure.Walker

/-!
# Where declarations without a body end

An ambient declaration ends with its semicolon or at the first line break that cannot
continue it; an import or export clause ends with its module name. Bracket pairs are
passed whole.
-/

namespace Playground.TokenStream

variable (stream : TokenStream)

/-- Whether a declaration goes on after the token at an index. -/
def continuesAfter (index : Nat) : Bool :=
  stream.textIn index
    ["|", "&", ",", ":", "=", "=>", "<", ".", "?", "extends", "implements", "keyof", "typeof",
      "is", "readonly", "unique", "infer", "new", "declare", "abstract", "export"]

/-- Whether the token at an index continues the declaration before it. -/
def continuesAt (index : Nat) : Bool :=
  stream.textIn index ["|", "&", ".", "=>", "?", ":", "\x7b", "extends", "implements"]

/-- Whether the line break before the token at an index ends the declaration that began
at `first`. -/
def endsDeclaration (first index : Nat) : Bool :=
  first < index && stream.newlineBefore index && !(stream.continuesAfter (index - 1)) &&
    !(stream.continuesAt index)

/-- The end of a declaration without a body: before the first line break that cannot
continue it, after its semicolon, or at the limit. -/
def statementEnd (first limit : Nat) : Nat :=
  let stop :=
    stream.seek (fun index => stream.endsDeclaration first index || stream.is index ";") limit
      first
  if limit ≤ stop then limit
  else if stream.endsDeclaration first stop then stop
  else stop + 1

variable {stream} in
/-- A declaration is at least one token long, or as long as its limit allows. -/
theorem statementEnd_advances (first limit : Nat) :
    first < stream.statementEnd first limit ∨ stream.statementEnd first limit = limit := by
  unfold statementEnd
  simp only
  split
  · exact .inr rfl
  · left
    split
    · rename_i ended
      rw [endsDeclaration] at ended
      simp only [Bool.and_eq_true] at ended
      exact of_decide_eq_true ended.1.1.1
    · exact Nat.lt_succ_of_le (le_seek ..)

/-- The index after a module name and its semicolon, or the end of the program. -/
def moduleClauseEnd (index : Nat) : Nat :=
  let name := stream.seek (fun index => stream.kind? index == some .string) stream.size index
  if name < stream.size then stream.afterSemicolon (name + 1) else name

/-- The end of a re-export clause that starts with a specifier list or a star. -/
def exportClauseEnd (index : Nat) : Except SyntaxError Nat := do
  let names ←
    if stream.is index "\x7b" then do
      let close ← stream.closeOf index
      pure (close + 1)
    else if stream.is (index + 1) "as" then pure (index + 3)
    else pure (index + 1)
  let source := if stream.is names "from" then names + 2 else names
  return stream.afterSemicolon source

end Playground.TokenStream

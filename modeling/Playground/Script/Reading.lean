import Playground.Erasure.Lexer
import Playground.Script.Statement

/-!
# Reading source text

Source text is read as statements that end at semicolons: declarations of a name with a
literal or another name, and console calls on such operands. Comments and empty
statements mean nothing. Other text is not read.
-/

namespace Playground.Script

/-- Tokens cut at semicolons. -/
def statementGroups : List Token → List (List Token)
  | [] => [[]]
  | token :: rest =>
    if token.isMark ";" then [] :: statementGroups rest
    else
      match statementGroups rest with
      | [] => [[token]]
      | group :: more => (token :: group) :: more

/-- The value of a string literal without escapes. -/
def literalValue? (text : String) : Option String :=
  match text.toList with
  | _ :: rest => if rest.contains '\\' then none else some (String.ofList rest.dropLast)
  | [] => none

/-- An operand: a string literal or a name. -/
def readOperand? (token : Token) : Option Expression :=
  match token.kind with
  | .string => (literalValue? token.text).map .text
  | .word => some (.variable token.text)
  | _ => none

/-- Operands with commas between them and a closing parenthesis at the end. -/
def readOperands? : List Token → Option (List Expression)
  | [] => none
  | [token] => if token.isMark ")" then some [] else none
  | token :: mark :: rest => do
    let operand ← readOperand? token
    if mark.isMark "," then return operand :: (← readOperands? rest)
    else if mark.isMark ")" ∧ rest.isEmpty then return [operand]
    else none

/-- The names of the console's methods. -/
def consoleMethods : List String := ["log", "info", "debug", "warn", "error"]

/-- The words that declare a name. -/
def declarationWords : List String := ["const", "let", "var"]

/-- The statement between two semicolons; an empty one means nothing. -/
def readStatement? : List Token → Option (List Statement)
  | [] => some []
  | [word, name, mark, operand] =>
    if declarationWords.contains word.text ∧ name.kind = .word ∧ mark.isMark "=" then do
      return [.assign name.text (← readOperand? operand)]
    else none
  | console :: dot :: method :: opening :: operands =>
    if console.text = "console" ∧ dot.isMark "." ∧ consoleMethods.contains method.text ∧
        opening.isMark "(" then do
      return [.print (← readOperands? operands)]
    else none
  | _ => none

/-- The statements of a source text, if it can be read. -/
def readStatements? (source : String) : Option (List Statement) :=
  match tokenize source.toList with
  | .error _ => none
  | .ok tokens => do
    let groups ← (statementGroups tokens).mapM readStatement?
    return groups.flatten

/-- The statements of a source. Text that cannot be read throws. -/
def Source.statements : Source → List Statement
  | .script statements => statements
  | .text source =>
    (readStatements? source).getD [.throw (.error "SyntaxError" "unexpected token")]

end Playground.Script

import Playground.Text.Alphabetic
import Playground.Text.Numeric

/-!
# Tokens

A token keeps its own text, its first character offset and whether a line break
separates it from the token before. Where it ends follows from its text.
-/

namespace Playground

/-- What a token is. -/
inductive TokenKind where
  /-- An identifier, a keyword or a `#private` name. -/
  | word
  | number
  | string
  | regex
  /-- A template literal without substitutions. -/
  | template
  /-- The part of a template before its first substitution. -/
  | templateHead
  /-- The part between two substitutions. -/
  | templateMiddle
  /-- The part after the last substitution. -/
  | templateTail
  | punctuator
  deriving DecidableEq, Repr

/-- A token of a program. -/
structure Token where
  kind : TokenKind
  text : String
  start : Nat
  newlineBefore : Bool
  deriving DecidableEq, Repr

/-- The offset just past a token. -/
def Token.stop (token : Token) : Nat :=
  token.start + token.text.length

/-- Whether a character may begin an identifier. -/
def startsWord (character : Char) : Bool :=
  character == '_' || character == '$' || Text.isAlphabetic character

/-- Whether a character may continue an identifier. -/
def continuesWord (character : Char) : Bool :=
  startsWord character || Text.isNumeric character || character == '\u200c' ||
    character == '\u200d'

/-- Whether a character belongs to a word that an erasure must not join to another. -/
def isWordCharacter (character : Char) : Bool :=
  startsWord character || Text.isNumeric character

/-- Keywords after which an operand, not an operator, is expected. -/
def expressionKeywords : List String :=
  ["return", "typeof", "instanceof", "in", "of", "new", "delete", "void", "throw", "case", "do",
    "else", "yield", "await", "extends", "let", "const", "var", "export", "import", "default",
    "if", "while", "for", "switch", "catch", "with", "function", "class"]

namespace Token

/-- Whether the token is the punctuator with the given text. -/
def isMark (token : Token) (text : String) : Bool :=
  token.kind == .punctuator && token.text == text

/-- Whether an expression may end with the token. -/
def endsExpression (token : Token) : Bool :=
  match token.kind with
  | .word => !expressionKeywords.contains token.text
  | .punctuator => [")", "]", "\x7d", "++", "--"].contains token.text
  | .templateHead | .templateMiddle => false
  | .number | .string | .regex | .template | .templateTail => true

end Token

end Playground

import Playground.Erasure.Lexer
import Playground.Erasure.TypeSyntax

/-!
# Plain expressions

Names, numbers, strings, property accesses, calls, groups, arrow functions and conditionals,
as they are written on a line: `Expression` builds in where parentheses are needed, `text` is
how an expression is written and `symbols` are the tokens that are written.
-/

namespace Playground

/-- Words to which a walk or a type gives a meaning of their own. -/
def meaningfulWords : List String :=
  ["interface", "type", "declare", "namespace", "module", "abstract", "enum", "const", "let",
    "var", "function", "class", "as", "satisfies", "import", "export", "catch", "if", "while",
    "for", "switch", "with", "new", "infer", "asserts", "typeof", "keyof", "readonly", "unique"] ++
      notTypeWords

/-- A token without its place. -/
structure Symbol where
  kind : TokenKind
  text : String
  deriving DecidableEq, Repr

/-- The symbol of a token. -/
def Token.symbol (token : Token) : Symbol :=
  ⟨token.kind, token.text⟩

/-- A punctuator as a symbol. -/
def Symbol.mark (text : String) : Symbol :=
  ⟨.punctuator, text⟩

namespace Expression

/-- An identifier without a meaning of its own. -/
structure Name where
  first : Char
  rest : List Char
  starts : startsWord first = true
  continues : ∀ character ∈ rest, continuesWord character = true
  free : String.ofList (first :: rest) ∉ meaningfulWords

/-- A number: a digit, or a point and a digit, and all that may follow it in a number. A property
of a number that is written without parentheses is part of the number. -/
structure Numeral where
  first : Char
  rest : List Char
  starts : first.isDigit = true ∨ first = '.' ∧ startsWithDigit rest = true
  whole : (numberRun (isHexadecimal (first :: rest)) first rest).rest = []

/-- A character of a string, or a backslash and a character. -/
inductive Item (quote : Char) where
  | plain (character : Char) (inside : character ≠ quote ∧ character ≠ '\\')
      (onLine : endsLineComment character = false)
  | escape (character : Char)

/-- A string in quotes. -/
structure Literal where
  quote : Char
  quoted : quote = '"' ∨ quote = '\''
  items : List (Item quote)

def Name.text (name : Name) : List Char :=
  name.first :: name.rest

def Numeral.text (numeral : Numeral) : List Char :=
  numeral.first :: numeral.rest

def Item.text {quote : Char} : Item quote → List Char
  | plain character _ _ => [character]
  | escape character => ['\\', character]

/-- The items of a string and its closing quote. -/
def Literal.body (literal : Literal) : List Char :=
  literal.items.flatMap Item.text ++ [literal.quote]

def Literal.text (literal : Literal) : List Char :=
  literal.quote :: literal.body

def Name.symbol (name : Name) : Symbol :=
  ⟨.word, String.ofList name.text⟩

def Numeral.symbol (numeral : Numeral) : Symbol :=
  ⟨.number, String.ofList numeral.text⟩

def Literal.symbol (literal : Literal) : Symbol :=
  ⟨.string, String.ofList literal.text⟩

/-- Where an expression may stand without parentheses. -/
inductive Rank where
  /-- Before a point and a property. -/
  | object
  /-- Before arguments or a question mark. -/
  | operand
  /-- Anywhere else. -/
  | expression
  /-- Not a single expression, but the arguments of a call. -/
  | arguments

end Expression

open Expression in
/-- Expressions by where they may stand. -/
inductive Expression : Rank → Type where
  | name (name : Name) : Expression .object
  | string (literal : Literal) : Expression .object
  | member (owner : Expression .object) (property : Name) : Expression .object
  /-- A call without arguments. -/
  | invoke (callee : Expression .operand) : Expression .object
  | call (callee : Expression .operand) (arguments : Expression .arguments) : Expression .object
  | group (inner : Expression .expression) : Expression .object
  | number (numeral : Numeral) : Expression .operand
  | object (inner : Expression .object) : Expression .operand
  | operand (inner : Expression .operand) : Expression .expression
  | arrow (parameter : Name) (body : Expression .expression) : Expression .expression
  | conditional (test : Expression .operand) (yes no : Expression .expression) :
      Expression .expression
  | last (argument : Expression .expression) : Expression .arguments
  | more (argument : Expression .expression) (rest : Expression .arguments) :
      Expression .arguments

namespace Expression

/-- An expression as it is written, with a number of spaces after every comma. -/
def text (spaces : Nat) {rank : Rank} : Expression rank → List Char
  | name word => word.text
  | string literal => literal.text
  | member owner property => owner.text spaces ++ '.' :: property.text
  | invoke callee => callee.text spaces ++ ['(', ')']
  | call callee arguments => callee.text spaces ++ '(' :: arguments.text spaces ++ [')']
  | group inner => '(' :: inner.text spaces ++ [')']
  | number numeral => numeral.text
  | object inner => inner.text spaces
  | operand inner => inner.text spaces
  | arrow parameter body => parameter.text ++ [' ', '=', '>', ' '] ++ body.text spaces
  | conditional test yes no =>
    test.text spaces ++ [' ', '?', ' '] ++ yes.text spaces ++ [' ', ':', ' '] ++ no.text spaces
  | last argument => argument.text spaces
  | more argument rest =>
    argument.text spaces ++ ',' :: List.replicate spaces ' ' ++ rest.text spaces

/-- The tokens of an expression as it is written. -/
def symbols {rank : Rank} : Expression rank → List Symbol
  | name word => [word.symbol]
  | string literal => [literal.symbol]
  | member owner property => owner.symbols ++ .mark "." :: [property.symbol]
  | invoke callee => callee.symbols ++ [.mark "(", .mark ")"]
  | call callee arguments => callee.symbols ++ .mark "(" :: (arguments.symbols ++ [.mark ")"])
  | group inner => .mark "(" :: (inner.symbols ++ [.mark ")"])
  | number numeral => [numeral.symbol]
  | object inner => inner.symbols
  | operand inner => inner.symbols
  | arrow parameter body => [parameter.symbol] ++ .mark "=>" :: body.symbols
  | conditional test yes no =>
    test.symbols ++ .mark "?" :: (yes.symbols ++ .mark ":" :: no.symbols)
  | last argument => argument.symbols
  | more argument rest => argument.symbols ++ .mark "," :: rest.symbols

/-- Whether an expression ends with a closing parenthesis. -/
def endsInParenthesis {rank : Rank} : Expression rank → Bool
  | name _ | string _ | member _ _ | number _ => false
  | invoke _ | call _ _ | group _ => true
  | object inner | operand inner => inner.endsInParenthesis
  | arrow _ body => body.endsInParenthesis
  | conditional _ _ no => no.endsInParenthesis
  | last argument => argument.endsInParenthesis
  | more _ rest => rest.endsInParenthesis

/-- Whether an expression is an arrow function without parentheses around it. -/
def isArrow : Expression .expression → Bool
  | arrow _ _ => true
  | _ => false

/-- Whether a conditional is part of an expression where a closing parenthesis stands before the
colon and the parameter of an arrow function stands after it. -/
def readsAsAnnotated {rank : Rank} : Expression rank → Bool
  | name _ | string _ | number _ => false
  | member inner _ | invoke inner | group inner | object inner | operand inner
  | arrow _ inner | last inner => inner.readsAsAnnotated
  | call first second | more first second => first.readsAsAnnotated || second.readsAsAnnotated
  | conditional test yes no =>
    test.readsAsAnnotated || yes.readsAsAnnotated || no.readsAsAnnotated ||
      yes.endsInParenthesis && no.isArrow

/-- An expression as a statement on a line of its own. -/
def statement (spaces : Nat) (expression : Expression .expression) : String :=
  String.ofList (expression.text spaces ++ [';'])

end Expression

end Playground

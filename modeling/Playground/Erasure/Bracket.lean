import Playground.Erasure.Fault
import Playground.Erasure.Token

/-!
# Pairing brackets

A stack of open brackets is walked along the tokens. Template parts take part in the
nesting, so a substitution is balanced on its own, but only punctuators are paired.
-/

namespace Playground

/-- What a token does to the open brackets. -/
inductive BracketRole where
  | opens
  | closes
  /-- Closes a template substitution, and opens the next one if the template goes on. -/
  | resumes (continues : Bool)
  | neutral
  deriving DecidableEq, Repr

/-- The role of a token. -/
def Token.bracketRole (token : Token) : BracketRole :=
  match token.kind with
  | .punctuator =>
    if ["(", "[", "\x7b"].contains token.text then .opens
    else if [")", "]", "\x7d"].contains token.text then .closes
    else .neutral
  | .templateHead => .opens
  | .templateMiddle => .resumes true
  | .templateTail => .resumes false
  | .word | .number | .string | .regex | .template => .neutral

/-- The text that closes a bracket; a template part is not closed by a bracket. -/
def Token.closer? (opener : Token) : Option String :=
  if opener.text == "(" then some ")"
  else if opener.text == "[" then some "]"
  else if opener.text == "\x7b" then some "\x7d"
  else none

/-- Whether a token opens a template substitution. -/
def Token.opensSubstitution (token : Token) : Bool :=
  token.kind == .templateHead || token.kind == .templateMiddle

/-- Why an open bracket that is left over is an error. -/
def Token.leftOpen (opener : Token) : SyntaxFault :=
  if opener.kind == .punctuator then .unclosedBracket opener.text else .unclosedSubstitution

/-- A token with its index. -/
structure IndexedToken where
  index : Nat
  token : Token
  deriving DecidableEq, Repr

/-- The pairs of bracket indices among the remaining tokens, innermost open bracket
first in `opened`. -/
def pairBrackets (opened : List IndexedToken) (index : Nat) :
    List Token → Except SyntaxError (List (Nat × Nat))
  | [] =>
    match opened with
    | [] => .ok []
    | innermost :: _ => .error ⟨innermost.token.leftOpen, innermost.token.start⟩
  | token :: rest =>
    match token.bracketRole with
    | .neutral => pairBrackets opened (index + 1) rest
    | .opens => pairBrackets (⟨index, token⟩ :: opened) (index + 1) rest
    | .closes =>
      match opened with
      | [] => .error ⟨.unexpectedCloser token.text, token.start⟩
      | innermost :: outer =>
        match innermost.token.closer? with
        | none => .error ⟨.closerInSubstitution token.text, token.start⟩
        | some expected =>
          if expected = token.text then do
            let pairs ← pairBrackets outer (index + 1) rest
            return (innermost.index, index) :: pairs
          else .error ⟨.mismatchedCloser token.text expected, token.start⟩
    | .resumes continues =>
      match opened with
      | [] => .error ⟨.unexpectedCloser "\x7d", token.start⟩
      | innermost :: outer =>
        if innermost.token.opensSubstitution then
          pairBrackets (if continues then ⟨index, token⟩ :: outer else outer) (index + 1) rest
        else
          .error ⟨.unclosedBracket innermost.token.text, innermost.token.start⟩

/-- The table that sends each paired index to its partner. -/
def partnerTable (size : Nat) (pairs : List (Nat × Nat)) : Array (Option Nat) :=
  pairs.foldl
    (fun table pair =>
      (table.setIfInBounds pair.1 (some pair.2)).setIfInBounds pair.2 (some pair.1))
    (Array.replicate size none)

/-- The partner of every bracket of a token list. -/
def matchBrackets (tokens : List Token) : Except SyntaxError (Array (Option Nat)) := do
  let pairs ← pairBrackets [] 0 tokens
  return partnerTable tokens.length pairs

end Playground

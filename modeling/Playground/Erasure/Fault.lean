/-!
# Syntax faults

A rejected program has one cause and one place. Places are character offsets;
`SourcePosition.ofOffset` turns them into the line and column shown to the user, both
counted from one, columns in characters.
-/

namespace Playground

/-- Why a program cannot be erased. -/
inductive SyntaxFault where
  | unterminatedComment
  | unterminatedString
  | unterminatedTemplate
  | unterminatedRegex
  /-- A closing bracket with nothing open. -/
  | unexpectedCloser (found : String)
  /-- A closing bracket of the wrong type. -/
  | mismatchedCloser (found expected : String)
  /-- A closing bracket where only the end of a template substitution may stand. -/
  | closerInSubstitution (found : String)
  | unclosedBracket (opener : String)
  | unclosedSubstitution
  | unbalancedBracket
  | expectedType
  | malformedTypeParameters
  | expectedParameterEnd
  | expectedParenthesis
  | decoratorsUnsupported
  | expectedClassMember
  | expectedInterfaceBody
  | expectedEnumBody
  | expectedEnumMember
  | expectedEnumInitializer
  | uninitializedEnumMember (name : String)
  | expectedEnumSeparator
  | namespacesUnsupported
  deriving DecidableEq, Repr

/-- The text of a cause. -/
def SyntaxFault.message : SyntaxFault → String
  | .unterminatedComment => "unterminated comment"
  | .unterminatedString => "unterminated string literal"
  | .unterminatedTemplate => "unterminated template literal"
  | .unterminatedRegex => "unterminated regular expression"
  | .unexpectedCloser found => s!"unexpected `{found}`"
  | .mismatchedCloser found expected => s!"unexpected `{found}`; expected `{expected}`"
  | .closerInSubstitution found => s!"unexpected `{found}` inside template substitution"
  | .unclosedBracket opener => s!"`{opener}` is never closed"
  | .unclosedSubstitution => "template substitution is never closed"
  | .unbalancedBracket => "unbalanced bracket"
  | .expectedType => "expected a type"
  | .malformedTypeParameters => "malformed type parameter list"
  | .expectedParameterEnd => "expected `,` or `)` in parameter list"
  | .expectedParenthesis => "expected `(` after type parameters"
  | .decoratorsUnsupported => "decorators are not supported"
  | .expectedClassMember => "expected a class member"
  | .expectedInterfaceBody => "expected `\x7b` to open the interface body"
  | .expectedEnumBody => "expected `\x7b` to open the enum body"
  | .expectedEnumMember => "expected an enum member name"
  | .expectedEnumInitializer => "expected an enum member initializer"
  | .uninitializedEnumMember name => s!"enum member `{name}` must have an initializer"
  | .expectedEnumSeparator => "expected `,` between enum members"
  | .namespacesUnsupported => "namespace declarations are not supported"

/-- A cause with the character offset at which it was found. -/
structure SyntaxError where
  fault : SyntaxFault
  offset : Nat
  deriving DecidableEq, Repr

/-- A place in a text: line and column, both counted from one. -/
structure SourcePosition where
  line : Nat
  column : Nat
  deriving DecidableEq, Repr

/-- The place reached from `position` after passing over some characters. -/
def SourcePosition.advance (position : SourcePosition) : List Char → SourcePosition
  | [] => position
  | character :: rest =>
    if character = '\n' then SourcePosition.advance ⟨position.line + 1, 1⟩ rest
    else SourcePosition.advance ⟨position.line, position.column + 1⟩ rest

/-- The place of a character offset; offsets past the end name the end. -/
def SourcePosition.ofOffset (source : List Char) (offset : Nat) : SourcePosition :=
  SourcePosition.advance ⟨1, 1⟩ (source.take offset)

/-- A syntax error as reported to the user. -/
structure SyntaxReport where
  message : String
  position : SourcePosition
  deriving DecidableEq, Repr

/-- The report of an error found in `source`. -/
def SyntaxError.report (source : List Char) (error : SyntaxError) : SyntaxReport :=
  ⟨error.fault.message, .ofOffset source error.offset⟩

/-- The report on one line. -/
def SyntaxReport.display (report : SyntaxReport) : String :=
  s!"{report.message} at line {report.position.line}, column {report.position.column}"

end Playground

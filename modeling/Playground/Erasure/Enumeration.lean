import Playground.Erasure.Walker
import Playground.Number.Decimal
import Playground.Number.Format

/-!
# Enumerations

An enumeration becomes the object it stands for: a numeric member maps its name to its
value and the value back to the name, a string member maps its name only. A member
without an initializer is one more than the member before it, computed here where that
value is known and at run time where it is not.
-/

namespace Playground

/-- The value the next member without an initializer receives. -/
inductive NextMember where
  | value (number : Number)
  /-- One more than the named member, computed at run time. -/
  | after (key : String)
  | unknown

/-- The largest value that a prefixed integer literal may have. -/
def largestPrefixedInteger : Nat := Nat.pow 2 63 - 1

/-- The number written by a literal, underscores aside. -/
def literalNumber? (text : String) : Option Number :=
  let prefixed (radix : Nat) (digits : List Char) : Option Number :=
    ((readRadix? radix digits).filter (· ≤ largestPrefixedInteger)).map Number.ofNat
  match text.toList.filter (· != '_') with
  | '0' :: 'x' :: digits => prefixed 16 digits
  | '0' :: 'X' :: digits => prefixed 16 digits
  | '0' :: 'o' :: digits => prefixed 8 digits
  | '0' :: 'O' :: digits => prefixed 8 digits
  | '0' :: 'b' :: digits => prefixed 2 digits
  | '0' :: 'B' :: digits => prefixed 2 digits
  | digits => (Decimal.read? digits).map (Decimal.toNumber false)

/-- The statement that gives a string member its value. -/
def stringMember (enumName key value : String) : String :=
  s!"{enumName}[{key}] = {value}; "

/-- The statement that gives a member its value and names the value. -/
def numericMember (enumName key value : String) : String :=
  s!"{enumName}[{enumName}[{key}] = {value}] = {key}; "

/-- The declaration of the object with the given member statements. -/
def enumObject (name body : String) : String :=
  s!"var {name}; (function ({name}) \x7b {body}\x7d)({name} || ({name} = \x7b\x7d));"

/-- What a member becomes: its statement, the value that follows it, and the index after
it. -/
structure LoweredMember where
  statement : String
  following : NextMember
  stop : Nat

/-- A member with a known value. -/
def LoweredMember.counted (enumName key : String) (number : Number) (stop : Nat) :
    LoweredMember :=
  ⟨numericMember enumName key (number.format .plain), .value (number + Number.ofNat 1), stop⟩

namespace TokenStream

variable (stream : TokenStream)

/-- The key of the member at an index. -/
def memberKey (index : Nat) : Except SyntaxError String :=
  match stream.kind? index with
  | some .word => return s!"\"{stream.text index}\""
  | some .string => return stream.text index
  | _ => stream.fail index .expectedEnumMember

/-- The end of the initializer that starts at an index: a comma at its own nesting level
or the end of the enumeration. -/
def memberValueEnd (index close : Nat) : Nat :=
  stream.seek (stream.is · ",") close index

/-- The number that the tokens of an initializer write. -/
def initializerNumber? (first stop : Nat) : Option Number :=
  if stop = first + 1 ∧ stream.kind? first = some .number then
    literalNumber? (stream.text first)
  else if stop = first + 2 ∧ stream.is first "-" = true ∧
      stream.kind? (first + 1) = some .number then
    (literalNumber? (stream.text (first + 1))).map Number.neg
  else none

/-- The source of the tokens from `first` up to `stop`. -/
def sourceOf (first stop : Nat) : String :=
  String.ofList (slice stream.source (stream.startOf first) (stream.stopOf (stop - 1)))

/-- The lowering of a member with an initializer. -/
def initializedMember (enumName key : String) (first stop : Nat) : LoweredMember :=
  if stop = first + 1 ∧ stream.kind? first = some .string then
    ⟨stringMember enumName key (stream.text first), .unknown, stop⟩
  else
    match stream.initializerNumber? first stop with
    | some number => .counted enumName key number stop
    | none => ⟨numericMember enumName key (stream.sourceOf first stop), .after key, stop⟩

/-- The lowering of a member without an initializer. -/
def uninitializedMember (enumName key : String) (index : Nat) :
    NextMember → Except SyntaxError LoweredMember
  | .value number => return .counted enumName key number (index + 1)
  | .after previous =>
    return ⟨numericMember enumName key s!"{enumName}[{previous}] + 1", .after key, index + 1⟩
  | .unknown => stream.fail index (.uninitializedEnumMember (stream.text index))

/-- The lowering of the member at an index. -/
def enumMember (enumName : String) (index close : Nat) (value : NextMember) :
    Except SyntaxError LoweredMember := do
  let key ← stream.memberKey index
  if stream.is (index + 1) "=" then
    let first := index + 2
    let stop := stream.memberValueEnd first close
    if stop = first then stream.fail first .expectedEnumInitializer
    else return stream.initializedMember enumName key first stop
  else stream.uninitializedMember enumName key index value

/-- The statements of the members from an index up to the closing brace. -/
def enumMembersFrom (enumName : String) (index close : Nat) (value : NextMember) :
    Except SyntaxError String :=
  if _ : index < close then do
    let member ← stream.enumMember enumName index close value
    if _ : index ≤ member.stop ∧ stream.is member.stop "," = true then
      let rest ← enumMembersFrom enumName (member.stop + 1) close member.following
      return member.statement ++ rest
    else if member.stop < close then stream.fail member.stop .expectedEnumSeparator
    else return member.statement
  else return ""
termination_by close - index

/-- An enumeration whose declaration begins at `first` and whose keyword stands at
`keyword`. -/
def enumDeclaration (first keyword : Nat) : Except SyntaxError Progress := do
  let name := stream.text (keyword + 1)
  let opening := keyword + 2
  if stream.is opening "\x7b" then
    let close ← stream.closeOf opening
    let body ← stream.enumMembersFrom name (opening + 1) close (.value .zero)
    return ⟨close + 1,
      [.replace (stream.startOf first) (stream.stopOf close) (enumObject name body)]⟩
  else stream.fail opening .expectedEnumBody

end TokenStream

end Playground

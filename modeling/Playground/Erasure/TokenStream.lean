import Playground.Erasure.Bracket
import Playground.Erasure.Lexer

/-!
# Looking at tokens by index

A `TokenStream` is a program with its tokens and the partners of its brackets. Looking
past the end is harmless: there the text is empty and nothing matches. Two searches are
enough for most walks: `runEnd` passes a run of accepted tokens, and `seek` looks for a
token at its own nesting level, passing bracket pairs whole. A search only moves forward,
and a successful look at an index proves the index to be in range.
-/

namespace Playground

/-- A program with its tokens and bracket partners. -/
structure TokenStream where
  source : Array Char
  tokens : Array Token
  partners : Array (Option Nat)

namespace TokenStream

/-- The tokens of a program with their bracket partners. -/
def ofSource (source : List Char) : Except SyntaxError TokenStream := do
  let tokens ← tokenize source
  let partners ← matchBrackets tokens
  return ⟨source.toArray, tokens.toArray, partners⟩

variable (stream : TokenStream)

/-- The number of tokens. -/
def size : Nat :=
  stream.tokens.size

/-- The token at an index. -/
def get? (index : Nat) : Option Token :=
  stream.tokens[index]?

/-- The kind of the token at an index. -/
def kind? (index : Nat) : Option TokenKind :=
  (stream.get? index).map Token.kind

/-- The text of the token at an index, empty past the end. -/
def text (index : Nat) : String :=
  match stream.get? index with
  | some token => token.text
  | none => ""

/-- Whether the text at an index is one of a list. -/
def textIn (index : Nat) (texts : List String) : Bool :=
  texts.contains (stream.text index)

/-- Whether the token at an index is a word or punctuator with the given text. -/
def is (index : Nat) (text : String) : Bool :=
  match stream.get? index with
  | some token => (token.kind == .punctuator || token.kind == .word) && token.text == text
  | none => false

/-- Whether the token at an index is an identifier or keyword, but not a private name. -/
def isPlainWord (index : Nat) : Bool :=
  match stream.get? index with
  | some token => token.kind == .word && !(token.text.startsWith "#")
  | none => false

/-- Whether a line break stands before the token at an index. -/
def newlineBefore (index : Nat) : Bool :=
  match stream.get? index with
  | some token => token.newlineBefore
  | none => false

/-- The matching bracket of the bracket at an index. -/
def partner? (index : Nat) : Option Nat :=
  (stream.partners[index]?).join

/-- The matching bracket of an opening bracket. -/
def closer? (index : Nat) : Option Nat :=
  (stream.partner? index).filter (index < ·)

/-- The index after a token, or after its whole bracket pair if it opens one. -/
def skip (index : Nat) : Nat :=
  match stream.closer? index with
  | some close => close + 1
  | none => index + 1

/-- Where the token at an index starts; the end of the program past the last token. -/
def startOf (index : Nat) : Nat :=
  match stream.get? index with
  | some token => token.start
  | none => stream.source.size

/-- Where the token at an index stops; the end of the program past the last token. -/
def stopOf (index : Nat) : Nat :=
  match stream.get? index with
  | some token => token.stop
  | none => stream.source.size

/-- Whether an expression may end with the token at an index. -/
def endsExpression (index : Nat) : Bool :=
  match stream.get? index with
  | some token => token.endsExpression
  | none => false

/-- Searches from `index` for the tail that closes a template, `depth` templates having
been opened on the way. -/
def templateTailFrom (index depth : Nat) : Nat :=
  if _ : index < stream.size then
    match stream.kind? index with
    | some .templateHead => templateTailFrom (index + 1) (depth + 1)
    | some .templateTail =>
      if depth = 0 then index else templateTailFrom (index + 1) (depth - 1)
    | _ => templateTailFrom (index + 1) depth
  else stream.size
termination_by stream.size - index

/-- The index of the tail that closes the template opened at `head`. -/
def templateTail (head : Nat) : Nat :=
  stream.templateTailFrom (head + 1) 0

/-- The first index from `index` on that is not accepted; `limit` if all before it are. -/
def runEnd (accepts : Nat → Bool) (limit index : Nat) : Nat :=
  if index < limit then
    if accepts index then runEnd accepts limit (index + 1) else index
  else index
termination_by limit - index

variable {stream}

/-- A closing bracket stands after its opening bracket. -/
theorem lt_of_closer?_eq_some {index close : Nat} (found : stream.closer? index = some close) :
    index < close := by
  have := Option.filter_eq_some_iff.mp found
  simpa using this.2

/-- Skipping moves forward. -/
theorem lt_skip (stream : TokenStream) (index : Nat) : index < stream.skip index := by
  unfold skip
  split
  · rename_i close found
    exact Nat.lt_succ_of_lt (lt_of_closer?_eq_some found)
  · exact Nat.lt_succ_self index

variable (stream) in
/-- The first index from `index` on, at its own nesting level, where `found` holds; an
index that is not below `limit` if there is none. -/
def seek (found : Nat → Bool) (limit index : Nat) : Nat :=
  if _ : index < limit then
    if found index then index else seek found limit (stream.skip index)
  else index
termination_by limit - index
decreasing_by
  have := stream.lt_skip index
  omega

/-- A token that is found is in range. -/
theorem lt_size_of_get?_eq_some {index : Nat} {token : Token}
    (found : stream.get? index = some token) : index < stream.size := by
  unfold get? at found
  exact (Array.getElem?_eq_some_iff.mp found).1

/-- A recognised token is in range. -/
theorem lt_size_of_is {index : Nat} {text : String} (found : stream.is index text = true) :
    index < stream.size := by
  unfold is at found
  split at found
  · rename_i token shape
    exact lt_size_of_get?_eq_some shape
  · contradiction

/-- An identifier is in range. -/
theorem lt_size_of_isPlainWord {index : Nat} (found : stream.isPlainWord index = true) :
    index < stream.size := by
  unfold isPlainWord at found
  split at found
  · rename_i token shape
    exact lt_size_of_get?_eq_some shape
  · contradiction

/-- The search for a template's tail never goes back. -/
theorem le_templateTailFrom {index : Nat} (depth : Nat) (inRange : index ≤ stream.size) :
    index ≤ stream.templateTailFrom index depth := by
  fun_induction stream.templateTailFrom index depth <;> grind

/-- A run ends where it starts or later. -/
theorem le_runEnd (accepts : Nat → Bool) (limit index : Nat) :
    index ≤ runEnd accepts limit index := by
  fun_induction runEnd accepts limit index <;> omega

/-- A search ends where it starts or later. -/
theorem le_seek (stream : TokenStream) (found : Nat → Bool) (limit index : Nat) :
    index ≤ stream.seek found limit index := by
  fun_induction stream.seek found limit index with
  | case1 | case3 => exact Nat.le_refl _
  | case2 index _ _ ih => exact Nat.le_trans (Nat.le_of_lt (stream.lt_skip index)) ih

end TokenStream

end Playground

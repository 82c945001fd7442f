/-!
# JSON values and their text

Only what reports and settings need: text, natural numbers, lists and objects. Objects
keep the order of their fields. Control characters are escaped, with the short form
where there is one; everything else above them is written as it is.
-/

namespace Playground

/-- A JSON value. -/
inductive Json where
  | string (text : String)
  | number (value : Nat)
  | array (items : List Json)
  | object (fields : List (String × Json))

namespace Json

/-- The escape of a character inside a JSON string. -/
def escape (character : Char) : List Char :=
  match character with
  | '"' => ['\\', '"']
  | '\\' => ['\\', '\\']
  | '\x08' => ['\\', 'b']
  | '\x0c' => ['\\', 'f']
  | '\n' => ['\\', 'n']
  | '\r' => ['\\', 'r']
  | '\t' => ['\\', 't']
  | other =>
    if other.toNat < 16 then '\\' :: 'u' :: '0' :: '0' :: '0' :: Nat.toDigits 16 other.toNat
    else if other.toNat < 32 then '\\' :: 'u' :: '0' :: '0' :: Nat.toDigits 16 other.toNat
    else [other]

/-- A text as a JSON string. -/
def quoted (text : String) : String :=
  String.ofList ('"' :: text.toList.flatMap escape ++ ['"'])

mutual

/-- The text of a value without blanks. -/
def compact : Json → String
  | .string text => quoted text
  | .number value => toString value
  | .array items => "[" ++ ",".intercalate (compactItems items) ++ "]"
  | .object fields => "\x7b" ++ ",".intercalate (compactFields fields) ++ "\x7d"

/-- The texts of the items of a list. -/
def compactItems : List Json → List String
  | [] => []
  | item :: rest => item.compact :: compactItems rest

/-- The texts of the fields of an object. -/
def compactFields : List (String × Json) → List String
  | [] => []
  | (name, value) :: rest => (quoted name ++ ":" ++ value.compact) :: compactFields rest

end

/-- Two spaces for every level of nesting. -/
def indentation (level : Nat) : String :=
  String.ofList (List.replicate (2 * level) ' ')

/-- Entries between two brackets, one a line. An empty list of entries stays on one
line. -/
def block (opening closing : String) (level : Nat) (entries : List String) : String :=
  match entries with
  | [] => opening ++ closing
  | _ =>
    opening ++ "\n" ++
      ",\n".intercalate (entries.map fun entry => indentation (level + 1) ++ entry) ++
      "\n" ++ indentation level ++ closing

mutual

/-- The text of a value with every item and field on a line of its own. -/
def prettyAt (level : Nat) : Json → String
  | .string text => quoted text
  | .number value => toString value
  | .array items => block "[" "]" level (prettyItems level items)
  | .object fields => block "\x7b" "\x7d" level (prettyFields level fields)

/-- The texts of the items of a list. -/
def prettyItems (level : Nat) : List Json → List String
  | [] => []
  | item :: rest => item.prettyAt (level + 1) :: prettyItems level rest

/-- The texts of the fields of an object. -/
def prettyFields (level : Nat) : List (String × Json) → List String
  | [] => []
  | (name, value) :: rest =>
    (quoted name ++ ": " ++ value.prettyAt (level + 1)) :: prettyFields level rest

end

/-- The text of a value with every item and field on a line of its own. -/
def pretty (value : Json) : String :=
  value.prettyAt 0

end Json

end Playground

import Playground.Json.Basic
import Playground.Json.Record
import Playground.Text.Blank

/-!
# Languages

The languages an editor can declare, the names they go by and the pipeline each of them
takes. Names are compared without regard to ASCII case; surrounding blanks do not count
in a declared name.
-/

namespace Playground

/-- A declared language, whether or not it can be run. -/
inductive Language where
  | javaScript
  | typeScript
  | html
  | python
  | cpp
  | java
  deriving DecidableEq, Repr

/-- What happens to a program of a language. -/
inductive Pipeline where
  /-- The program is evaluated as it is. -/
  | direct
  /-- Types are erased, then the program is evaluated. -/
  | transpile
  /-- Layout, style and behavior are merged into one document. -/
  | markup
  /-- The language is not run. -/
  | unsupported
  deriving DecidableEq, Repr

/-- A name that is not the name of a declared language. -/
structure UnknownLanguage where
  name : String
  deriving DecidableEq, Repr

/-- The text that reports an unknown name. -/
def UnknownLanguage.message (unknown : UnknownLanguage) : String :=
  "unknown language identifier '" ++ unknown.name ++ "'"

/-- Whether a pipeline runs anything. -/
def Pipeline.isSupported (pipeline : Pipeline) : Bool :=
  pipeline != .unsupported

/-- A text with its ASCII capitals in lower case. -/
def asciiLowercase (text : String) : String :=
  String.ofList (text.toList.map Char.toLower)

namespace Language

/-- Every language, in the order in which they are offered. -/
def all : List Language :=
  [.javaScript, .typeScript, .python, .cpp, .java, .html]

/-- The identifier. -/
def id : Language → String
  | .javaScript => "javascript"
  | .typeScript => "typescript"
  | .html => "html"
  | .python => "python"
  | .cpp => "cpp"
  | .java => "java"

/-- The name for readers. -/
def label : Language → String
  | .javaScript => "JavaScript"
  | .typeScript => "TypeScript"
  | .html => "HTML/CSS"
  | .python => "Python"
  | .cpp => "C++"
  | .java => "Java"

/-- The extension of a program file. -/
def fileExtension : Language → String
  | .javaScript => "js"
  | .typeScript => "ts"
  | .html => "html"
  | .python => "py"
  | .cpp => "cpp"
  | .java => "java"

/-- The language of a file extension. -/
def ofExtension? (extension : String) : Option Language :=
  match asciiLowercase extension with
  | "js" | "mjs" | "cjs" => some .javaScript
  | "ts" | "mts" | "cts" => some .typeScript
  | "html" | "htm" => some .html
  | "py" => some .python
  | "cpp" | "cc" | "cxx" | "hpp" => some .cpp
  | "java" => some .java
  | _ => none

/-- The language that a declared name stands for. -/
def ofName (name : String) : Except UnknownLanguage Language :=
  match asciiLowercase (Text.trim name) with
  | "javascript" | "js" => .ok .javaScript
  | "typescript" | "ts" => .ok .typeScript
  | "html" | "html/css" => .ok .html
  | "python" | "py" => .ok .python
  | "cpp" | "c++" | "cxx" => .ok .cpp
  | "java" => .ok .java
  | _ => .error ⟨name⟩

/-- The pipeline of a language. -/
def pipeline : Language → Pipeline
  | .javaScript => .direct
  | .typeScript => .transpile
  | .html => .markup
  | .python | .cpp | .java => .unsupported

/-! ## JSON form -/

/-- The JSON form: the identifier. -/
def toJson (language : Language) : Json :=
  .string language.id

/-- The language with exactly the given identifier. -/
def withId (id : String) : Except JsonFault Language :=
  match all.find? (·.id == id) with
  | some language => .ok language
  | none => .error .mismatched

/-- The identifier, after the quote that opens it. -/
def readId : JsonReader Language := fun input =>
  match JsonReader.stringRest input with
  | .error fault => .error fault
  | .ok letters =>
    match withId (String.ofList letters.value) with
    | .error fault => .error fault
    | .ok language => .ok (letters.map fun _ => language)

/-- The identifier as the name of a field. Only a quote can open a name, so any other value
in its place is a fault of form. -/
def readName : JsonReader Language := fun input =>
  match JsonReader.mark '"' input with
  | .error fault => .error fault
  | .ok quote =>
    match readId quote.rest with
    | .error fault => .error fault
    | .ok language => .ok (quote.andThen language)

/-- A `null`, after blanks. -/
def readNull : JsonReader Unit :=
  JsonReader.afterBlanks fun input =>
    match input with
    | 'n' :: rest => JsonReader.skipName ['u', 'l', 'l'] ('n' :: rest)
    | other => .error (JsonReader.wrongType other)

/-- An object after its opening brace, with the identifier as its only name and `null` as
the value. -/
def readTagged : JsonReader Language := fun input =>
  match readName input with
  | .error fault => .error fault
  | .ok language =>
    match JsonReader.mark ':' language.rest with
    | .error fault => .error fault
    | .ok colon =>
      match readNull colon.rest with
      | .error fault => .error fault
      | .ok null =>
        match JsonReader.mark '}' null.rest with
        | .error fault => .error fault
        | .ok brace =>
          let closed := brace.map fun _ => language.value
          .ok (language.andThen (colon.andThen (null.andThen closed)))

/-- A language in either JSON form: its identifier, or an object that maps the identifier
to `null`. -/
def read : JsonReader Language :=
  JsonReader.afterBlanks fun input =>
    match input with
    | [] => .error .truncated
    | '"' :: rest =>
      match readId rest with
      | .error fault => .error fault
      | .ok taken => .ok (taken.behind '"')
    | '{' :: rest =>
      match readTagged rest with
      | .error fault => .error fault
      | .ok taken => .ok (taken.behind '{')
    | _ :: _ => .error .malformed

/-- The language that a JSON text holds. -/
def ofJsonText (text : String) : Except JsonFault Language :=
  JsonReader.whole read text

end Language

end Playground

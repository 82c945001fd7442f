import Playground.Markup.Assembly
import Playground.Markup.Sandbox
import Playground.Markup.Viewport

/-!
# Framed documents

A document is shown inside a sandboxed frame of a host page. The document is the value
of a quoted attribute, so ampersands and quotes in it are written as references.
-/

namespace Playground

/-- The isolation that a document is shown under. -/
def Document.sandbox (_ : Document) : Sandbox :=
  .isolated

/-- A character of an attribute value between double quotes. -/
def attributeCharacter (character : Char) : List Char :=
  if character = '&' then "&amp;".toList
  else if character = '"' then "&quot;".toList
  else [character]

/-- A text as an attribute value between double quotes. -/
def attributeValue (text : List Char) : List Char :=
  text.flatMap attributeCharacter

namespace Document

/-- The host page up to the document. -/
def frameHead (document : Document) (viewport : Viewport) : String :=
  let width :=
    match viewport.maxWidth? with
    | some pixels => "max-width: " ++ toString pixels ++ "px; "
    | none => ""
  "<!DOCTYPE html>\n<html>\n<body style=\"margin: 0\">\n<iframe sandbox=\"" ++
    document.sandbox.grantText ++ "\" style=\"" ++ width ++
    "width: 100%; height: 100vh; border: 0; display: block; margin: 0 auto\" srcdoc=\""

/-- The host page after the document. -/
def frameTail : String :=
  "\"></iframe>\n</body>\n</html>\n"

/-- The host page that shows a document at a preview width. -/
def framed (document : Document) (viewport : Viewport) : String :=
  document.frameHead viewport ++
    String.ofList (attributeValue document.markup.toList) ++ frameTail

end Document

end Playground

/-!
# Assembling documents

A page has a layout, a style and a behavior. Assembly merges the three into one
document: the first stylesheet sentinel in the layout gives way to the style between
`<style>` tags, and then the first script sentinel gives way to the behavior between
`<script>` tags. A sentinel that does not occur, or that is empty, changes nothing.
-/

namespace Playground

/-- The three sources of a page. -/
structure PageSources where
  layout : String
  style : String
  behavior : String
  deriving DecidableEq, Repr

/-- A self-contained document. -/
structure Document where
  markup : String
  deriving DecidableEq, Repr

/-- The texts that assembly replaces. -/
structure Sentinels where
  stylesheet : String
  script : String
  deriving DecidableEq, Repr

/-- The references that an editor's own pages hold. -/
def Sentinels.default : Sentinels where
  stylesheet := "<link rel=\"stylesheet\" href=\"styles.css\">"
  script := "<script src=\"script.js\"></script>"

/-- The parts of a text before and after the first occurrence of a pattern. -/
def cutAtFirst? (pattern : List Char) : List Char → Option (List Char × List Char)
  | [] => if pattern.isEmpty then some ([], []) else none
  | first :: rest =>
    if pattern.isPrefixOf (first :: rest) then
      some ([], (first :: rest).drop pattern.length)
    else
      (cutAtFirst? pattern rest).map fun (before, after) => (first :: before, after)

/-- A text with the first occurrence of a non-empty pattern replaced. -/
def replaceFirst (pattern replacement text : List Char) : List Char :=
  if pattern.isEmpty then text
  else
    match cutAtFirst? pattern text with
    | some (before, after) => before ++ replacement ++ after
    | none => text

/-- The document of a page. -/
def Sentinels.assemble (sentinels : Sentinels) (sources : PageSources) : Document :=
  let style := "<style>".toList ++ sources.style.toList ++ "</style>".toList
  let behavior := "<script>".toList ++ sources.behavior.toList ++ "</script>".toList
  let styled := replaceFirst sentinels.stylesheet.toList style sources.layout.toList
  ⟨String.ofList (replaceFirst sentinels.script.toList behavior styled)⟩

end Playground

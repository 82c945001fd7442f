import Playground.Language

/-!
# Preview widths

The three widths at which a document can be shown.
-/

namespace Playground

/-- A preview width. -/
inductive Viewport where
  | desktop
  | tablet
  | mobile
  deriving DecidableEq, Repr

/-- A name that is not the name of a preview width. -/
structure UnknownViewport where
  name : String
  deriving DecidableEq, Repr

/-- The text that reports an unknown name. -/
def UnknownViewport.message (unknown : UnknownViewport) : String :=
  "unknown viewport '" ++ unknown.name ++ "' (expected desktop, tablet or mobile)"

namespace Viewport

/-- The name. -/
def name : Viewport → String
  | .desktop => "desktop"
  | .tablet => "tablet"
  | .mobile => "mobile"

/-- The preview width of a name; surrounding blanks and ASCII case do not count. -/
def ofName (name : String) : Except UnknownViewport Viewport :=
  match asciiLowercase (Text.trim name) with
  | "desktop" => .ok .desktop
  | "tablet" => .ok .tablet
  | "mobile" => .ok .mobile
  | _ => .error ⟨name⟩

/-- The greatest width in pixels; a desktop has none. -/
def maxWidth? : Viewport → Option Nat
  | .desktop => none
  | .tablet => some 768
  | .mobile => some 375

/-- The JSON form: the name. -/
def toJson (viewport : Viewport) : Json :=
  .string viewport.name

end Viewport

end Playground

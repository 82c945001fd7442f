/-!
# Sandboxes

The capabilities of the surface that shows a document, and the attribute that grants
them to a frame.
-/

namespace Playground

/-- The capabilities granted to a rendering surface. -/
structure Sandbox where
  scripts : Bool
  sameOrigin : Bool
  storage : Bool
  topNavigation : Bool
  parentAccess : Bool
  deriving DecidableEq, Repr

namespace Sandbox

/-- Scripts run, and everything that reaches the hosting page is denied. -/
def isolated : Sandbox := ⟨true, false, false, false, false⟩

/-- The names of the grants. Storage and access to the parent need the origin of the
hosting page. -/
def grants (sandbox : Sandbox) : List String :=
  (if sandbox.scripts then ["allow-scripts"] else []) ++
    (if sandbox.sameOrigin || sandbox.storage || sandbox.parentAccess then
      ["allow-same-origin"] else []) ++
    (if sandbox.topNavigation then ["allow-top-navigation"] else [])

/-- The value of a frame's sandbox attribute. -/
def grantText (sandbox : Sandbox) : String :=
  " ".intercalate sandbox.grants

end Sandbox

end Playground

import Playground.Command.Files
import Playground.Engine
import Playground.Markup.Frame

/-!
# Watching a page

A watch prints a page at the start, and again whenever its files have settled after a
change. Ticks compare the stamps of the files with those of the last tick; if they differ
the files are loaded and the engine is told of an edit. Files that cannot be loaded are
passed over until they change again.
-/

namespace Playground.Command

/-- A watch on the files of a page. -/
structure Watch where
  engine : Engine
  files : PageFiles
  frame : Option Viewport
  /-- The stamps seen by the last tick. -/
  stamps : List (Option Nat)
  receiver : Preview.Receiver

/-- The text that a document is printed as. -/
def printedPage (frame : Option Viewport) (document : Document) : String :=
  match frame with
  | some viewport => document.framed viewport
  | none => document.markup

namespace Watch

/-- The name under which previews of the page are scheduled. -/
def target (watch : Watch) : String :=
  watch.files.layout

/-- Starts a watch: the first page, and the watch. -/
def start (engine : Engine) (view : FileView) (files : PageFiles) (frame : Option Viewport) :
    Except ErrorReport (String × Watch) :=
  match view.loadPage files with
  | .error error => .error error
  | .ok buffers =>
    .ok (printedPage frame (engine.previewNow buffers),
      ⟨engine, files, frame, view.stamps files, engine.scheduler.subscribe⟩)

/-- Looks for changes of the files. -/
def tick (watch : Watch) (view : FileView) : Watch :=
  let stamps := view.stamps watch.files
  if stamps = watch.stamps then watch
  else
    match view.loadPage watch.files with
    | .error _ => { watch with stamps := stamps }
    | .ok buffers =>
      let (_, engine) := watch.engine.onEdit watch.target buffers
      { watch with stamps := stamps, engine := engine }

/-- The page that an update prints. Updates of other pages and gaps print none. -/
def pageOf? (watch : Watch) : Preview.Received Preview.Update → Option String
  | .lagged _ => none
  | .message update =>
    if update.target = watch.target then some (printedPage watch.frame update.document)
    else none

/-- Lets time pass: the pages that are printed, and the watch afterwards. -/
def advance (watch : Watch) (milliseconds : Nat) : List String × Watch :=
  let engine := watch.engine.advance milliseconds
  let (delivery, receiver) := engine.scheduler.updates.drain watch.receiver
  (delivery.items.filterMap watch.pageOf?, { watch with engine := engine, receiver := receiver })

/-- Ends the watch; a preview that is pending is cancelled. -/
def stop (watch : Watch) : Watch :=
  let (_, engine) := watch.engine.cancel watch.target
  { watch with engine := engine }

end Watch

end Playground.Command

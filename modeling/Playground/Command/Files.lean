import Playground.Buffers
import Playground.Command.Arguments
import Playground.Command.Report

/-!
# Files

A command sees files through a view: what reading a path gives, and the stamp of the last
change of a path. A missing file has no stamp.
-/

namespace Playground.Command

open Script (Source)

/-- Why a file cannot be read. -/
inductive ReadFault where
  | notFound
  | notPermitted
  | notADirectory
  | isADirectory
  /-- A part of the path, or the path as a whole, is longer than the system allows. -/
  | nameTooLong
  /-- The file holds bytes that are not text. -/
  | notText
  deriving DecidableEq, Repr

/-- The text of a fault, as the system reports it. -/
def ReadFault.message : ReadFault → String
  | .notFound => "No such file or directory (os error 2)"
  | .notPermitted => "Permission denied (os error 13)"
  | .notADirectory => "Not a directory (os error 20)"
  | .isADirectory => "Is a directory (os error 21)"
  | .nameTooLong => "File name too long (os error 36)"
  | .notText => "stream did not contain valid UTF-8"

/-- A view of files. -/
structure FileView where
  read : String → Except ReadFault Source
  stamp : String → Option Nat

/-- The name at the end of a path: its last part that is neither empty nor a dot. -/
def fileName? (path : String) : Option String :=
  let parts := (path.splitOn "/").filter fun part => part ≠ "" ∧ part ≠ "."
  parts.getLast?.filter (· ≠ "..")

/-- The extension of a path: what follows the last dot of the file name, unless the name
starts with that dot. -/
def extension (path : String) : String :=
  match fileName? path with
  | none => ""
  | some name =>
    let reversed := name.toList.reverse
    let stem := (reversed.dropWhile (· != '.')).drop 1
    if stem.isEmpty then "" else String.ofList (reversed.takeWhile (· != '.')).reverse

namespace FileView

/-- Reads a file for a command. -/
def load (view : FileView) (path : String) : Except ErrorReport Source :=
  match view.read path with
  | .ok source => .ok source
  | .error fault => .error ⟨"reading " ++ path, [fault.message]⟩

/-- Reads a file that may be left out. -/
def loadOptional (view : FileView) : Option String → Except ErrorReport Source
  | some path => view.load path
  | none => .ok (.text "")

/-- Reads the files of a page. -/
def loadPage (view : FileView) (files : PageFiles) : Except ErrorReport Buffers := do
  let layout ← view.load files.layout
  let style ← view.loadOptional files.style
  let behavior ← view.loadOptional files.behavior
  return ((Buffers.empty.set .layout layout).set .style style).set .behavior behavior

/-- The stamps of the files of a page. -/
def stamps (view : FileView) (files : PageFiles) : List (Option Nat) :=
  (files.layout :: files.style.toList ++ files.behavior.toList).map view.stamp

end FileView

end Playground.Command

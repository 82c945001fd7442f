import Mathlib.Data.List.Induction
import Mathlib.Logic.Function.Basic
import Playground.Command.Files

/-!
# Files that change

A disk holds files with stamps. It changes by writes and removals, and what a command sees of it at
any time is a view. If every change gives a file a stamp that it never had before, then a file that
has the stamp it once had has not changed since (`eq_of_stamp_eq`), so a page whose stamps are the
same loads the same.
-/

namespace Playground

open Script (Source)

namespace Command

/-- A file: what reading it gives, and the stamp of its last change. -/
structure StoredFile where
  content : Except ReadFault Source
  stamp : Nat

/-- The files at their paths. -/
abbrev Disk := String → Option StoredFile

/-- A change of a disk. -/
inductive FileChange where
  /-- Writes a file, or creates it. -/
  | write (path : String) (file : StoredFile)
  | remove (path : String)

/-- The path that a change is about. -/
def FileChange.path : FileChange → String
  | .write path _ | .remove path => path

/-- The paths of a page. -/
def PageFiles.paths (files : PageFiles) : List String :=
  files.layout :: files.style.toList ++ files.behavior.toList

namespace Disk

/-- The stamp of a file; an absent file has none. -/
def stamp (disk : Disk) (path : String) : Option Nat :=
  (disk path).map StoredFile.stamp

/-- What a command sees of a disk. -/
def view (disk : Disk) : FileView where
  read path :=
    match disk path with
    | some file => file.content
    | none => .error .notFound
  stamp := disk.stamp

/-- A disk after a change. -/
def change (disk : Disk) : FileChange → Disk
  | .write path file => Function.update disk path (some file)
  | .remove path => Function.update disk path none

/-- A disk after some changes. -/
def after (disk : Disk) (changes : List FileChange) : Disk :=
  changes.foldl change disk

/-- A write leaves its file exactly as it is, or gives it a stamp that it never had. -/
def Fresh (disk : Disk) (changes : List FileChange) : Prop :=
  ∀ before path file rest, changes = before ++ .write path file :: rest →
    disk.after before path = some file ∨
      ∀ earlier, earlier <+: before → (disk.after earlier).stamp path ≠ some file.stamp

variable {disk : Disk} {changes earlier : List FileChange} {files : PageFiles} {path : String}

@[simp] theorem after_nil : disk.after [] = disk := rfl

@[simp] theorem after_append_singleton (change : FileChange) :
    disk.after (changes ++ [change]) = (disk.after changes).change change := by
  simp [after]

theorem change_of_ne {change : FileChange} (other : change.path ≠ path) :
    disk.change change path = disk path := by
  cases change with
  | write | remove => exact Function.update_of_ne (Ne.symm other) _ _

theorem Fresh.of_prefix (fresh : disk.Fresh changes) (before : earlier <+: changes) :
    disk.Fresh earlier := by
  obtain ⟨later, rfl⟩ := before
  rintro first path file rest rfl
  exact fresh first path file (rest ++ later) (by simp)

/-- A file that has a stamp that it once had is the file that it was. -/
theorem eq_of_stamp_eq (fresh : disk.Fresh changes) (before : earlier <+: changes)
    (same : (disk.after changes).stamp path = (disk.after earlier).stamp path) :
    disk.after changes path = disk.after earlier path := by
  induction changes using List.reverseRecOn with
  | nil => rw [List.prefix_nil.mp before]
  | append_singleton changes last inductionHypothesis =>
    rcases List.prefix_concat_iff.mp before with rfl | prior
    · rfl
    have earlierFresh := fresh.of_prefix (List.prefix_append changes [last])
    by_cases about : last.path = path
    · cases last with
      | write written file =>
        obtain rfl : written = path := about
        rcases fresh changes written file [] rfl with unchanged | new
        · have kept : disk.after (changes ++ [.write written file]) = disk.after changes := by
            rw [after_append_singleton, change, ← unchanged, Function.update_eq_self]
          rw [kept] at same ⊢
          exact inductionHypothesis earlierFresh prior same
        · have given : (disk.after (changes ++ [.write written file])).stamp written =
              some file.stamp := by
            simp [stamp, change]
          exact absurd (same.symm.trans given) (new earlier prior)
      | remove removed =>
        obtain rfl : removed = path := about
        have gone : disk.after (changes ++ [.remove removed]) removed = none := by
          simp [change]
        rw [stamp, gone, Option.map_none] at same
        exact gone.trans (Option.map_eq_none_iff.mp same.symm).symm
    · have kept : disk.after (changes ++ [last]) path = disk.after changes path := by
        rw [after_append_singleton, change_of_ne about]
      rw [stamp, kept] at same
      rw [kept]
      exact inductionHypothesis earlierFresh prior same

/-! ## Pages -/

/-- Two disks hold the same files of a page. -/
def Agrees (files : PageFiles) (disk other : Disk) : Prop :=
  ∀ path ∈ files.paths, disk path = other path

theorem stamps_view : disk.view.stamps files = files.paths.map disk.stamp := rfl

theorem Agrees.stamps_eq {other : Disk} (agrees : Agrees files disk other) :
    disk.view.stamps files = other.view.stamps files := by
  rw [stamps_view, stamps_view]
  refine List.map_congr_left fun path listed => ?_
  rw [stamp, stamp, agrees path listed]

/-- A page that has the same files loads the same. -/
theorem Agrees.loadPage_eq {other : Disk} (agrees : Agrees files disk other) :
    disk.view.loadPage files = other.view.loadPage files := by
  have read : ∀ path ∈ files.paths, disk.view.load path = other.view.load path := by
    intro path listed
    simp only [FileView.load, view, agrees path listed]
  have optional : ∀ path : Option String, path.toList ⊆ files.paths →
      disk.view.loadOptional path = other.view.loadOptional path := by
    rintro (_ | path) listed
    · rfl
    · exact read path (listed (by simp))
  rw [FileView.loadPage, FileView.loadPage, read files.layout (by simp [PageFiles.paths]),
    optional files.style (fun path listed => by simp [PageFiles.paths] at listed ⊢; tauto),
    optional files.behavior (fun path listed => by simp [PageFiles.paths] at listed ⊢; tauto)]

/-- With fresh stamps, a page that has the stamps it once had has the files it had then. -/
theorem agrees_of_stamps_eq (fresh : disk.Fresh changes) (before : earlier <+: changes)
    (same : (disk.after changes).view.stamps files = (disk.after earlier).view.stamps files) :
    Agrees files (disk.after changes) (disk.after earlier) := by
  intro path listed
  rw [stamps_view, stamps_view, List.map_inj_left] at same
  exact eq_of_stamp_eq fresh before (same path listed)

end Disk

end Command

end Playground

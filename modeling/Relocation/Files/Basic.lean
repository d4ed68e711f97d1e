import Relocation.Assoc
import Relocation.Files.Error
import Relocation.NativePath

/-!
# File systems

A file system is the table of everything below its root, as one process sees it. A location is the list of names that
leads there from the root without passing a link, so no two locations are the same place. A regular file is known by a
number; entries with the same number are hard links of one file, and the contents are kept by number.

What the process has no right to do is listed with the error it meets. A right to a directory belongs to its location,
a right to a file to its number. Both may be listed before there is such a directory or such a file, so that what the
process makes can be closed to it, as the mask of the process or an access list of the directory may have it. Only to
write to a file that it makes is never denied to the process, which has it open then.
-/

namespace Relocation

/-- The names that lead to a place from the root. -/
abbrev Location := List Bytes

/-- What is found at a location. -/
inductive Entry where
  | directory
  | file (number : Nat)
  | link (target : NativePath)
  deriving DecidableEq

def Entry.number? : Entry → Option Nat
  | file number => some number
  | _ => none

/-- What a process may want to do. -/
inductive Access where
  /-- To go on from a directory. -/
  | search (place : Location)
  /-- To open a directory. -/
  | list (place : Location)
  /-- To put something into a directory or to take it away. -/
  | change (place : Location)
  | read (number : Nat)
  | write (number : Nat)
  deriving DecidableEq

/-- The file that is to be written. -/
def Access.written? : Access → Option Nat
  | write number => some number
  | _ => none

/-- Everything below the root. -/
structure FileSystem where
  entries : List (Location × Entry)
  contents : List (Nat × Bytes)
  /-- What the process is denied, and how. -/
  denials : List (Access × FileError) := []
  /-- How many hard links are told of a directory, where the directories in it are not counted. -/
  directoryLinks : Location → Option Nat := fun _ => none

namespace FileSystem

def empty : FileSystem where
  entries := []
  contents := []

/-- What is at a location; the root is a directory. -/
def entryAt? (fs : FileSystem) (place : Location) : Option Entry :=
  if place = [] then some .directory else valueOf? place fs.entries

def content (fs : FileSystem) (number : Nat) : Bytes :=
  (valueOf? number fs.contents).getD []

def denial? (fs : FileSystem) (wanted : Access) : Option FileError :=
  valueOf? wanted fs.denials

def withEntry (fs : FileSystem) (place : Location) (e : Entry) : FileSystem :=
  { fs with entries := withValue place e fs.entries }

/-- The file system with the content of a file set. -/
def withContent (fs : FileSystem) (number : Nat) (bs : Bytes) : FileSystem :=
  { fs with contents := withValue number bs fs.contents }

def numbers (fs : FileSystem) : List Nat :=
  (fs.entries.filterMap fun pair => pair.2.number?) ++ fs.contents.map Prod.fst
    ++ fs.denials.filterMap fun pair => pair.1.written?

/-- A number no file has, for one that may be written. -/
def freshNumber (fs : FileSystem) : Nat :=
  fs.numbers.foldr (fun n bound => max (n + 1) bound) 0

/-- How many entries are hard links of the file. -/
def linksOf (fs : FileSystem) (number : Nat) : Nat :=
  fs.entries.countP fun pair => pair.2 == .file number

/-- The hard links of a directory, unless they are told otherwise: one from the directory that holds it, one from
itself and one from each directory in it. -/
def linksOfDirectory (fs : FileSystem) (place : Location) : Nat :=
  (fs.directoryLinks place).getD <| 2 + fs.entries.countP fun pair =>
    pair.2 == .directory && pair.1.dropLast == place && pair.1.length == place.length + 1

/-- The file system without a location and everything below it. -/
def without (fs : FileSystem) (place : Location) : FileSystem :=
  { fs with entries := fs.entries.filter fun pair => !place.isPrefixOf pair.1 }

/-! ### What setting an entry does -/

/-- The entry just set is found, except at the root. -/
theorem entryAt?_withEntry_same (fs : FileSystem) (place : Location) (e : Entry) (h : place ≠ []) :
    (fs.withEntry place e).entryAt? place = some e := by
  simp [entryAt?, withEntry, h, valueOf?_withValue_same]

theorem entryAt?_withEntry_other (fs : FileSystem) (place other : Location) (e : Entry) (h : other ≠ place) :
    (fs.withEntry place e).entryAt? other = fs.entryAt? other := by
  simp [entryAt?, withEntry, valueOf?_withValue_other _ _ _ _ h]

theorem content_withContent_same (fs : FileSystem) (number : Nat) (bs : Bytes) :
    (fs.withContent number bs).content number = bs := by
  simp [content, withContent, valueOf?_withValue_same]

theorem content_withContent_other (fs : FileSystem) (number other : Nat) (bs : Bytes) (h : other ≠ number) :
    (fs.withContent number bs).content other = fs.content other := by
  simp [content, withContent, valueOf?_withValue_other _ _ _ _ h]

theorem withContent_withContent (fs : FileSystem) (number : Nat) (former bs : Bytes) :
    (fs.withContent number former).withContent number bs = fs.withContent number bs := by
  simp [withContent, withValue_withValue]

/-! ### Fresh numbers -/

theorem lt_foldr_max (l : List Nat) (n : Nat) (h : n ∈ l) :
    n < l.foldr (fun m bound => max (m + 1) bound) 0 := by
  induction l with
  | nil => cases h
  | cons m rest ih =>
    rw [List.foldr_cons]
    rcases List.mem_cons.mp h with he | hr
    · subst he
      exact Nat.lt_of_lt_of_le (Nat.lt_succ_self n) (Nat.le_max_left _ _)
    · exact Nat.lt_of_lt_of_le (ih hr) (Nat.le_max_right _ _)

/-- No number in use is the fresh one. -/
theorem ne_freshNumber_of_mem {fs : FileSystem} {number : Nat} (h : number ∈ fs.numbers) :
    number ≠ fs.freshNumber :=
  Nat.ne_of_lt (lt_foldr_max _ _ h)

theorem entry_ne_fresh (fs : FileSystem) (place : Location) (number : Nat)
    (h : (place, Entry.file number) ∈ fs.entries) : number ≠ fs.freshNumber :=
  ne_freshNumber_of_mem <| List.mem_append_left _ <| List.mem_append_left _ <|
    List.mem_filterMap.mpr ⟨_, h, rfl⟩

/-- A file that is about to be made may be written. -/
theorem denial?_write_freshNumber (fs : FileSystem) : fs.denial? (.write fs.freshNumber) = none := by
  cases hd : fs.denial? (.write fs.freshNumber) with
  | none => rfl
  | some cause =>
    have hm : fs.freshNumber ∈ fs.numbers :=
      List.mem_append_right _ (List.mem_filterMap.mpr ⟨_, mem_of_valueOf? hd, rfl⟩)
    exact absurd rfl (ne_freshNumber_of_mem hm)

end FileSystem

end Relocation

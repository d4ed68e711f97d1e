import Relocation.Files.Resolve

/-!
# Changing a file system

Every change is a function to the changed file system. An operation that can fail halfway gives the file system
it left behind together with the failure, if any.
-/

namespace Relocation.FileSystem

/-! ### Entries -/

/-- Puts an entry into a directory. -/
def addEntry (fs : FileSystem) (here : Location) (e : Entry) : Except FileError FileSystem :=
  match fs.denial? (.change here.dropLast) with
  | some cause => .error cause
  | none => .ok (fs.withEntry here e)

/-- Puts an entry where nothing may be yet. -/
def addNewEntry (fs : FileSystem) (here : Location) (e : Entry) : Except FileError FileSystem :=
  match fs.entryAt? here with
  | some _ => .error .alreadyExists
  | none => fs.addEntry here e

/-! ### Directories -/

def makeDirectory (fs : FileSystem) (p : NativePath) : Except FileError FileSystem :=
  match fs.resolveName p with
  | .error e => .error e
  | .ok here => fs.addNewEntry here .directory

/-- Makes the first of the directories, after those behind it as far as they are missing. The list is a path and
everything above it. -/
def makeAll (fs : FileSystem) : List NativePath → FileSystem × Option FileError
  | [] => (fs, none)
  | p :: above =>
    match fs.makeDirectory p with
    | .ok made => (made, none)
    | .error .noEntry =>
      match makeAll fs above with
      | (left, some e) => (left, some e)
      | (ready, none) =>
        match ready.makeDirectory p with
        | .ok made => (made, none)
        | .error e => (ready, if ready.isDirectory p then none else some e)
    | .error e => (fs, if fs.isDirectory p then none else some e)

/-- Makes a directory and whatever is missing above it. -/
def makeDirectories (fs : FileSystem) (p : NativePath) : FileSystem × Option FileError :=
  fs.makeAll p.ancestors

/-! ### Files -/

/-- Makes the content of the file at a location from its present one; a missing file is created. -/
def updateAt (fs : FileSystem) (here : Location) (change : Bytes → Bytes) : Except FileError FileSystem :=
  match fs.entryAt? here with
  | some (.file number) =>
    match fs.denial? (.write number) with
    | some e => .error e
    | none => .ok (fs.withContent number (change (fs.content number)))
  | none =>
    match fs.addEntry here (.file fs.freshNumber) with
    | .error e => .error e
    | .ok made => .ok (made.withContent fs.freshNumber (change []))
  | some _ => .error .isDirectory

/-- Makes the content of the file a path names from its present one; a missing file is created. -/
def update (fs : FileSystem) (p : NativePath) (change : Bytes → Bytes) : Except FileError FileSystem :=
  match fs.resolve .file p with
  | .error e => .error e
  | .ok here => fs.updateAt here change

/-- Writes a file, whose former content is lost. -/
def writeFile (fs : FileSystem) (p : NativePath) (bs : Bytes) : Except FileError FileSystem :=
  fs.update p fun _ => bs

def appendFile (fs : FileSystem) (p : NativePath) (bs : Bytes) : Except FileError FileSystem :=
  fs.update p fun former => former ++ bs

def makeLink (fs : FileSystem) (p target : NativePath) : Except FileError FileSystem :=
  match fs.resolve .self p with
  | .error e => .error e
  | .ok here => fs.addNewEntry here (.link target)

/-- Makes one more hard link, at a path that names nothing, of the file another path names. -/
def makeHardLink (fs : FileSystem) (p file : NativePath) : Except FileError FileSystem :=
  match fs.find .self file, fs.resolve .self p with
  | .ok (_, .file number), .ok here => fs.addNewEntry here (.file number)
  | .ok _, .ok _ => .error .invalidArgument
  | .error e, _ => .error e
  | _, .error e => .error e

/-- Removes what a path names, with everything below it. -/
def remove (fs : FileSystem) (p : NativePath) : Except FileError FileSystem :=
  match fs.find .self p with
  | .error e => .error e
  | .ok (here, _) =>
    match fs.denial? (.change here.dropLast) with
    | some e => .error e
    | none => .ok (fs.without here)

/-! ### Looking at the whole -/

/-- Whether one name comes before another, by bytes. -/
def nameBefore : Bytes → Bytes → Bool
  | [], _ => true
  | _ :: _, [] => false
  | a :: as, b :: bs => if a = b then nameBefore as bs else a < b

/-- Whether one location comes before another: a directory before what is in it, siblings by name. -/
def locationBefore : Location → Location → Bool
  | [], _ => true
  | _ :: _, [] => false
  | a :: as, b :: bs => if a = b then locationBefore as bs else nameBefore a b

/-- Everything below a location, in order, with names counted from there; directories end in a slash. -/
def listing (fs : FileSystem) (top : Location) : List Bytes :=
  let below := fs.entries.filter fun pair => top.isPrefixOf pair.1 && pair.1 != top
  let sorted := below.mergeSort fun a b => locationBefore a.1 b.1
  sorted.map fun pair =>
    joinWith slashByte (pair.1.drop top.length) ++ (if pair.2 = .directory then [slashByte] else [])

/-! ### What stays -/

theorem addEntry_eq_ok {fs made : FileSystem} {here : Location} {e : Entry} (h : fs.addEntry here e = .ok made) :
    made = fs.withEntry here e := by
  rw [addEntry] at h
  split at h
  · cases h
  · exact (Except.ok.inj h).symm

theorem addNewEntry_eq_ok {fs made : FileSystem} {here : Location} {e : Entry}
    (h : fs.addNewEntry here e = .ok made) : fs.entryAt? here = none ∧ made = fs.withEntry here e := by
  rw [addNewEntry] at h
  split at h
  · cases h
  · next hnone => exact ⟨hnone, addEntry_eq_ok h⟩

/-- Making a directory adds its entry and nothing else. -/
theorem makeDirectory_eq_ok (fs made : FileSystem) (p : NativePath) (h : fs.makeDirectory p = .ok made) :
    ∃ here, fs.resolveName p = .ok here ∧ fs.entryAt? here = none ∧ made = fs.withEntry here .directory := by
  rw [makeDirectory] at h
  split at h
  · cases h
  · next here hr =>
    obtain ⟨hnone, hmade⟩ := addNewEntry_eq_ok h
    exact ⟨here, hr, hnone, hmade⟩

end Relocation.FileSystem

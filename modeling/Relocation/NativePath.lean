import Relocation.Text.Utf8

/-!
# Paths of the file system

A native path is a list of bytes; nothing says that they encode text. Its shape is only what slashes give it:

* `isAbsolute`, `names`, `endsWithSlash`: reading a path;
* `parent?`: the path without its last name;
* `join`: one path seen from another;
* `display`: the path as text, with what is no text replaced.
-/

namespace Relocation

def slashByte : UInt8 := 0x2F

def dotByte : UInt8 := 0x2E

/-- A path as the operating system takes it. -/
structure NativePath where
  bytes : Bytes
  deriving DecidableEq, Inhabited

namespace NativePath

def ofText (t : Text) : NativePath :=
  ⟨Utf8.encode t⟩

/-- The path as text, with what is no text replaced. -/
def display (p : NativePath) : Text :=
  Utf8.lossy p.bytes

def isAbsolute (p : NativePath) : Bool :=
  p.bytes.head? == some slashByte

def endsWithSlash (p : NativePath) : Bool :=
  p.bytes.getLast? == some slashByte

/-- A name that leads nowhere: nothing between two slashes, or a single dot. -/
def isIdle (name : Bytes) : Bool :=
  name == [] || name == [dotByte]

/-- The names between the slashes that lead somewhere; `..` is one of them. -/
def names (p : NativePath) : List Bytes :=
  (splitOn slashByte p.bytes).filter fun name => !isIdle name

/-! ### Parents -/

/-- The names without the idle ones at the end. -/
def trimIdle (parts : List Bytes) : List Bytes :=
  trimEndWhere isIdle parts

/-- The names of a relative path without the idle ones at its end; a dot in front counts. -/
def trimIdleRelative : List Bytes → List Bytes
  | [] => []
  | first :: rest =>
    match trimIdle rest with
    | [] => if first = [] then [] else [first]
    | kept => first :: kept

/-- The path without its last name. The root and the empty path have no parent. -/
def parent? (p : NativePath) : Option NativePath :=
  match p.bytes with
  | [] => none
  | b :: body =>
    if b = slashByte then
      match trimIdle (splitOn slashByte body) with
      | [] => none
      | kept => some ⟨slashByte :: joinWith slashByte (trimIdle kept.dropLast)⟩
    else
      match trimIdleRelative (splitOn slashByte (b :: body)) with
      | [] => none
      | kept => some ⟨joinWith slashByte (trimIdleRelative kept.dropLast)⟩

/-- The path itself, its parent, the parent of that and so on, at most `fuel` of them. -/
def ancestorsWithin : Nat → NativePath → List NativePath
  | 0, _ => []
  | fuel + 1, p =>
    match p.parent? with
    | none => []
    | some up => p :: ancestorsWithin fuel up

/-- The path itself and everything above it that has a parent. A parent is shorter than its child, so the
length of the path bounds their number. -/
def ancestors (p : NativePath) : List NativePath :=
  ancestorsWithin p.bytes.length p

/-! ### Joining -/

/-- The path `tail` seen from `base`: itself if it is absolute, below `base` otherwise. -/
def join (base tail : NativePath) : NativePath :=
  if tail.isAbsolute then tail
  else if base.bytes = [] ∨ base.endsWithSlash then ⟨base.bytes ++ tail.bytes⟩
  else ⟨base.bytes ++ slashByte :: tail.bytes⟩

def child (base : NativePath) (name : String) : NativePath :=
  base.join (ofText name.toList)

/-- An absolute path swallows what it is seen from. -/
theorem join_of_isAbsolute (base tail : NativePath) (h : tail.isAbsolute = true) :
    base.join tail = tail := by
  simp [join, h]

/-- What is seen from an absolute path is absolute. -/
theorem isAbsolute_join (base tail : NativePath) (h : base.isAbsolute = true) :
    (base.join tail).isAbsolute = true := by
  unfold join
  split
  · assumption
  · obtain ⟨bytes⟩ := base
    cases bytes with
    | nil => simp [isAbsolute] at h
    | cons b rest =>
      split
      · simpa [isAbsolute] using h
      · simpa [isAbsolute] using h

theorem isAbsolute_parent? (p up : NativePath) (h : p.isAbsolute = true) (hp : p.parent? = some up) :
    up.isAbsolute = true := by
  obtain ⟨bytes⟩ := p
  cases bytes with
  | nil => simp [isAbsolute] at h
  | cons b body =>
    have hb : b = slashByte := by simpa [isAbsolute] using h
    simp only [parent?, hb, if_true] at hp
    split at hp
    · cases hp
    · cases hp; simp [isAbsolute]

end NativePath

end Relocation

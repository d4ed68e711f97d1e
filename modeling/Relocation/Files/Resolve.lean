import Relocation.Files.Basic

/-!
# How the operating system reads a path

A path is walked step by step from the root, which is also where relative paths start. A link met on the way is
replaced by its target, read from the directory that really holds the link; `..` goes to the directory that really
holds the current one. At most forty links are followed. The last name may be missing, so that a file can be
created there. Every step but a slash goes on from a directory and needs the right to search it.
-/

namespace Relocation

/-- One step of a walk. -/
inductive WalkStep where
  /-- To a name below. -/
  | into (name : Bytes)
  /-- To where one is; only a directory allows it. -/
  | stay
  /-- The same, asked for by a slash with nothing behind it. -/
  | slash
  /-- To the directory above. -/
  | up
  deriving DecidableEq

namespace NativePath

def stepOf (name : Bytes) : WalkStep :=
  if name = [] then .slash
  else if name = [dotByte] then .stay
  else if name = [dotByte, dotByte] then .up
  else .into name

/-- The steps of a path. A slash at the end asks for a directory. -/
def steps (p : NativePath) : List WalkStep :=
  (splitOn slashByte p.bytes).map stepOf

/-- The steps of a path without the slashes at its end. -/
def stepsOfName (p : NativePath) : List WalkStep :=
  trimEndWhere (· == .slash) p.steps

end NativePath

/-- What a walk is for. -/
inductive Purpose where
  /-- To find what the path itself names. -/
  | self
  /-- To find what it names when a link in the last place is followed, too. -/
  | target
  /-- To find where a file can be made; then no slash may stand behind the last name. -/
  | file
  deriving DecidableEq

namespace FileSystem

def maxName : Nat := 255

/-- The longest path, with a closing zero byte. -/
def maxPath : Nat := 4096

/-- How many links one walk follows. -/
def maxLinks : Nat := 40

/-- Walks the steps from a directory, and gives the location reached. -/
def walk (fs : FileSystem) (purpose : Purpose) (links : Nat) (dir : Location) :
    List WalkStep → Except FileError Location
  | [] => .ok dir
  | .slash :: rest => walk fs purpose links dir rest
  | .stay :: rest =>
    match fs.denial? (.search dir) with
    | some e => .error e
    | none => walk fs purpose links dir rest
  | .up :: rest =>
    match fs.denial? (.search dir) with
    | some e => .error e
    | none => walk fs purpose links dir.dropLast rest
  | .into name :: rest =>
    match fs.denial? (.search dir) with
    | some e => .error e
    | none =>
      if purpose = .file ∧ rest ≠ [] ∧ rest.all (· == .slash) then .error .isDirectory
      else if maxName < name.length then .error .nameTooLong
      else
        let here := dir ++ [name]
        match fs.entryAt? here with
        | none => if rest = [] then .ok here else .error .noEntry
        | some .directory => walk fs purpose links here rest
        | some (.file _) => if rest = [] then .ok here else .error .notDirectory
        | some (.link target) =>
          if rest = [] ∧ purpose = .self then .ok here
          else
            match links with
            | 0 => .error .linkLoop
            | left + 1 => walk fs purpose left (if target.isAbsolute then [] else dir) (target.steps ++ rest)
  termination_by steps => (links, steps.length)

def refusal? (p : NativePath) : Option FileError :=
  if (0 : UInt8) ∈ p.bytes then some .zeroByte
  else if p.bytes = [] then some .noEntry
  else if maxPath ≤ p.bytes.length then some .nameTooLong
  else none

/-- The location of a path, which may be missing in an existing directory. -/
def resolve (fs : FileSystem) (purpose : Purpose) (p : NativePath) : Except FileError Location :=
  match refusal? p with
  | some e => .error e
  | none => fs.walk purpose maxLinks [] p.steps

/-- The location at which a directory of that name would be made; slashes behind the name do not count. -/
def resolveName (fs : FileSystem) (p : NativePath) : Except FileError Location :=
  match refusal? p with
  | some e => .error e
  | none => fs.walk .self maxLinks [] p.stepsOfName

def find (fs : FileSystem) (purpose : Purpose) (p : NativePath) : Except FileError (Location × Entry) :=
  match fs.resolve purpose p with
  | .error e => .error e
  | .ok here =>
    match fs.entryAt? here with
    | some e => .ok (here, e)
    | none => .error .noEntry

/-- Whether the path, with all links followed, names anything. -/
def pathExists (fs : FileSystem) (p : NativePath) : Bool :=
  match fs.find .target p with
  | .ok _ => true
  | .error _ => false

/-- Whether the path, with all links followed, names a directory. -/
def isDirectory (fs : FileSystem) (p : NativePath) : Bool :=
  match fs.find .target p with
  | .ok (_, .directory) => true
  | _ => false

def isLink (fs : FileSystem) (p : NativePath) : Except FileError Bool :=
  match fs.find .self p with
  | .ok (_, .link _) => .ok true
  | .ok _ => .ok false
  | .error e => .error e

def readLink (fs : FileSystem) (p : NativePath) : Except FileError NativePath :=
  match fs.find .self p with
  | .ok (_, .link target) => .ok target
  | .ok _ => .error .invalidArgument
  | .error e => .error e

/-- The number of hard links of what the path names. -/
def linkCount? (fs : FileSystem) (p : NativePath) : Option Nat :=
  match fs.find .target p with
  | .ok (_, .file number) => some (fs.linksOf number)
  | .ok (here, .directory) => some (fs.linksOfDirectory here)
  | _ => none

def readBytes (fs : FileSystem) (p : NativePath) : Except FileError Bytes :=
  match fs.find .target p with
  | .ok (_, .file number) =>
    match fs.denial? (.read number) with
    | some e => .error e
    | none => .ok (fs.content number)
  | .ok (here, _) => .error ((fs.denial? (.list here)).getD .isDirectory)
  | .error e => .error e

def readText (fs : FileSystem) (p : NativePath) : Except FileError Text :=
  match fs.readBytes p with
  | .error e => .error e
  | .ok bs =>
    match Utf8.decode? bs with
    | some t => .ok t
    | none => .error .notText

end FileSystem

end Relocation

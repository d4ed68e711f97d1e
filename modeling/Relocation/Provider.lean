import Relocation.LinkChain
import Relocation.MemoryMap

/-!
# Who tells the origin

The origin is fixed beforehand, or that of the program a process executes, or that of the file holding the code at
an address. A process knows its program in two ways: through the link the kernel keeps for it and, if that is of no
use, through its memory map.

A program that runs with the rights of its owner must not be led astray by a hard link somebody made to it: unless
real and effective user agree, its file must be known to have exactly one.
-/

namespace Relocation

/-- What can be read of the memory map of a process. -/
inductive MapsSource where
  | text (t : Text)
  /-- The map cannot be opened. -/
  | unopened (cause : FileError)
  /-- The map cannot be read. -/
  | unread (cause : FileError)
  deriving DecidableEq

/-- What a process can ask about itself. -/
structure ProcessInfo where
  /-- What the kernel's link to the program reads as. -/
  executableLink : Except FileError NativePath
  maps : MapsSource
  realUser : Nat
  effectiveUser : Nat

namespace ProcessInfo

/-- Whether the process runs with another user's rights. -/
def isPrivileged (p : ProcessInfo) : Bool :=
  p.realUser != p.effectiveUser

/-- The kernel's link to the program. -/
def selfLink : NativePath := NativePath.ofText "/proc/self/exe".toList

def readMaps (p : ProcessInfo) : Except LocateError Text :=
  match p.maps with
  | .text t => .ok t
  | .unopened e => .error (.openMaps e)
  | .unread e => .error (.readMaps e)

/-- The program, by the kernel's link and the links it leads to. -/
def programByLink (p : ProcessInfo) (fs : FileSystem) : Except LocateError NativePath :=
  match p.executableLink with
  | .error e => .error (.readLink e)
  | .ok target =>
    match LinkChain.seenFrom selfLink target with
    | .error e => .error e
    | .ok current => LinkChain.chase fs LinkChain.maxHops current

def programByMaps (p : ProcessInfo) : Except LocateError NativePath :=
  match p.readMaps with
  | .error e => .error e
  | .ok t =>
    match MemoryMap.executable? t with
    | some path => .ok (NativePath.ofText path)
    | none => .error .invalidMaps

/-- The program, by its link or else by its memory map. -/
def program (p : ProcessInfo) (fs : FileSystem) : Except LocateError NativePath :=
  match p.programByLink fs with
  | .ok path => .ok path
  | .error _ => p.programByMaps

/-- Whether a count of hard links is good enough. -/
def trustsLinkCount (privileged : Bool) (count : Option Nat) : Bool :=
  !privileged || count == some 1

/-- Whether the file at a path may decide where a process looks for its files. -/
def trusts (p : ProcessInfo) (fs : FileSystem) (path : NativePath) : Bool :=
  trustsLinkCount p.isPrivileged (fs.linkCount? path)

def moduleAt (p : ProcessInfo) (address : Nat) : Except LocateError NativePath :=
  match p.readMaps with
  | .error e => .error e
  | .ok t =>
    match MemoryMap.moduleAt? t address with
    | some path => .ok (NativePath.ofText path)
    | none => .error (.notMapped address)

end ProcessInfo

/-- Who tells the origin. -/
inductive Provider where
  /-- The origin is known. -/
  | fixed (o : Origin)
  /-- There is none. -/
  | none
  /-- The program the process executes. -/
  | executable
  /-- The file that holds the code at an address. -/
  | moduleAt (address : Nat)
  deriving DecidableEq

/-- What origins are told from. -/
structure Machine where
  files : FileSystem
  process : ProcessInfo

namespace Machine

/-- The origin of the program the process executes. -/
def locateExecutable (m : Machine) : Except LocateError Origin :=
  match m.process.program m.files with
  | .error e => .error e
  | .ok path =>
    if m.process.trusts m.files path then Origin.ofNativePath m.files path
    else .error (.insecureHardLink path)

/-- The origin of the file that holds the code at an address. -/
def locateModule (m : Machine) (address : Nat) : Except LocateError Origin :=
  match m.process.moduleAt address with
  | .error e => .error e
  | .ok path => Origin.ofNativePath m.files path

def locate (m : Machine) : Provider → Except LocateError Origin
  | .fixed o => .ok o
  | .none => .error .unsupported
  | .executable => m.locateExecutable
  | .moduleAt address => m.locateModule address

/-- The origin a provider tells, whatever the reason if it tells none. -/
def origin? (m : Machine) (p : Provider) : Option Origin :=
  match m.locate p with
  | .ok o => some o
  | .error _ => Option.none

/-- A process without another user's rights is not held back by hard links. -/
theorem trusts_of_not_isPrivileged (p : ProcessInfo) (fs : FileSystem) (path : NativePath)
    (h : p.isPrivileged = false) : p.trusts fs path = true := by
  simp [ProcessInfo.trusts, ProcessInfo.trustsLinkCount, h]

theorem locateExecutable_of_not_trusts (m : Machine) (path : NativePath)
    (hp : m.process.program m.files = .ok path) (ht : m.process.trusts m.files path = false) :
    m.locateExecutable = .error (.insecureHardLink path) := by
  simp [locateExecutable, hp, ht]

end Machine

end Relocation

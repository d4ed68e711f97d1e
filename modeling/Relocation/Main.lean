import Relocation.Log.Stamp
import Relocation.Program

/-!
# The command

What a run can see of the machine is read first, then the run is computed, and at last what it changed is written
back and what it says is printed. Of the file system only the places are read that the run may ask for: those of the
log and of the configuration, and those of the origin. What the process may not read or search is seen on the way;
what it may not change is not asked for, so that a change it has no right to is lost when it is written back.
-/

namespace Relocation.Machine

/-! ### Reading -/

def pathTo (place : Location) : NativePath :=
  ⟨place.flatMap fun name => slashByte :: name⟩

def systemName (p : NativePath) : String :=
  String.ofList p.display

def ofSystem (name : String) : NativePath :=
  NativePath.ofText name.toList

def attempt? {α : Type} (act : IO α) : IO (Option α) := do
  try
    return some (← act)
  catch _ =>
    return none

/-- A place no path leads to, for a hard link of which only the existence is known. -/
def elsewhere (number : Nat) : Location :=
  [slashByte :: Utf8.encode (decimal number)]

/-- The bytes of a file, if it can be read. -/
def bytesAt? (name : String) : IO (Option Bytes) := do
  return (← attempt? (IO.FS.readBinFile name)).map ByteArray.toList

def withDenial (fs : FileSystem) (wanted : Access) : FileSystem :=
  { fs with denials := withValue wanted .accessDenied fs.denials }

/-- The file system with one more file. A file that cannot be read is one that the process has no right to read. -/
def withFile (fs : FileSystem) (place : Location) (links : Nat) (data : Option Bytes) : FileSystem :=
  let number := fs.freshNumber
  let added := fs.withEntry place (.file number)
  let filled := match data with
    | some bs => added.withContent number bs
    | none => withDenial added (.read number)
  if 1 < links then filled.withEntry (elsewhere number) (.file number) else filled

/-- What is at a name, if anything is; or else whether it is hidden because its directory may not be searched. -/
def foundAt (name : String) : IO (Except Bool IO.FS.Metadata) := do
  try
    return .ok (← ((← IO.currentDir) / name).symlinkMetadata)
  catch
    | .permissionDenied .. => return .error true
    | _ => return .error false

/-- Adds to a file system what is found on the way from a location along names. -/
partial def look (fs : FileSystem) (here : Location) : List Bytes → IO FileSystem
  | [] => return fs
  | name :: rest => do
    if name == "..".toUTF8.toList then
      look fs here.dropLast rest
    else
      let place := here ++ [name]
      let text := systemName (pathTo place)
      match ← foundAt text with
      | .error hidden => return if hidden then withDenial fs (.search here) else fs
      | .ok found =>
        match found.type with
        | .dir => look (if (fs.entryAt? place).isSome then fs else fs.withEntry place .directory) place rest
        | .symlink =>
          match ← attempt? (IO.FS.realPath text) with
          | none => return fs.withEntry place (.link (pathTo place))
          | some target =>
            let real := ofSystem target.toString
            look (fs.withEntry place (.link real)) [] (real.names ++ rest)
        | .file =>
          if (fs.entryAt? place).isSome then return fs
          else return withFile fs place found.numLinks.toNat (← bytesAt? text)
        | .other => return if (fs.entryAt? place).isSome then fs else withFile fs place 1 (some [])

/-- Adds to a file system what is found on the way of a path. -/
def lookAt (fs : FileSystem) (workDir p : NativePath) : IO FileSystem :=
  look fs [] (workDir.join p).names

/-- The numbers of the user the process belongs to and of the one whose rights it has. -/
def users (status : Text) : Nat × Nat :=
  let line := (MemoryMap.lines status).find? fun l => "Uid:".toList.isPrefixOf l
  match (splitOn '\t' (line.getD [])).map (readDigits? 10) with
  | _ :: some real :: some effective :: _ => (real, effective)
  | _ => (0, 0)

def readProcess : IO ProcessInfo := do
  let link ← attempt? IO.appPath
  let maps ← attempt? (IO.FS.readFile "/proc/self/maps")
  let status ← attempt? (IO.FS.readFile "/proc/self/status")
  let (real, effective) := users ((status.getD "").toList)
  return {
    executableLink := match link with
      | some target => .ok (ofSystem target.toString)
      | none => .error .noEntry
    maps := match maps with
      | some text => .text text.toList
      | none => .unopened .noEntry
    realUser := real
    effectiveUser := effective }

/-- The home directory of a user in the table of all users. -/
def homeIn? (table : Text) (user : Nat) : Option NativePath :=
  (MemoryMap.lines table).findSome? fun line =>
    match splitOn ':' line with
    | _ :: _ :: number :: _ :: _ :: home :: _ =>
      if readDigits? 10 number = some user then some (NativePath.ofText home) else none
    | _ => none

/-- The home directory a variable names, or else the one in the table of all users. -/
def readHome (user : Nat) : IO (Option NativePath) := do
  match ← IO.getEnv "HOME" with
  | some home => return some (ofSystem home)
  | none =>
    let table ← attempt? (IO.FS.readFile "/etc/passwd")
    return homeIn? ((table.getD "").toList) user

def readEnvironment (user : Nat) : IO Environment := do
  return {
    home := ← readHome user
    configHome := (← IO.getEnv "XDG_CONFIG_HOME").map ofSystem
    stateHome := (← IO.getEnv "XDG_STATE_HOME").map ofSystem
    logFilter := (← IO.getEnv "RUST_LOG").map fun t => Utf8.encode t.toList }

/-- The time the process started, which is the date of its entry among all processes. -/
def readStamp : IO Text := do
  match ← attempt? ((← IO.currentDir) / "/proc/self/status").metadata with
  | some found => return Log.Stamp.write (found.modified.sec.toNat * 1000000 + found.modified.nsec.toNat / 1000)
  | none => return Log.Stamp.write 0

/-- The places of files a request may lead to. -/
def placesOf (env : Environment) (r : Except CommandLine.UsageError Request) : List NativePath :=
  let named := match r with
    | .ok request => request.configFile.toList ++ request.origin.toList.map NativePath.ofText
    | .error _ => []
  if env.home = none then named else env.logFile :: env.configFile :: named

def configuredOrigin? (w : World) (r : Except CommandLine.UsageError Request) : Option NativePath :=
  match r with
  | .ok request =>
    match (Program.loadConfig w w.files request).2 with
    | .ok loaded => loaded.config.origin.map NativePath.ofText
    | .error _ => none
  | .error _ => none

def readWorld (args : List Bytes) : IO World := do
  let workDir := ofSystem (← IO.currentDir).toString
  let process ← readProcess
  let env ← readEnvironment process.realUser
  let request := CommandLine.read args
  let program := match process.executableLink with
    | .ok p => [p]
    | .error _ => []
  let mut files := FileSystem.empty
  for place in placesOf env request ++ program do
    files ← lookAt files workDir place
  let seen : World := ⟨files, process, env, workDir, ← readStamp⟩
  match configuredOrigin? seen request with
  | some place => return { seen with files := ← lookAt files workDir place }
  | none => return seen

/-! ### Writing back -/

/-- Writes the end of a file that has grown, or all of it. -/
def writeChange (name : String) (old : Option Bytes) (new : Bytes) : IO Unit :=
  match old with
  | some former =>
    if former.isPrefixOf new then
      IO.FS.withFile name .append fun handle => handle.write (new.drop former.length).toByteArray
    else IO.FS.writeBinFile name new.toByteArray
  | none => IO.FS.writeBinFile name new.toByteArray

/-- The content of a file, if the location is that of one. -/
def contentAt? (fs : FileSystem) (place : Location) : Option Bytes :=
  match fs.entryAt? place with
  | some (.file number) => some (fs.content number)
  | _ => none

/-- Makes the changes that lead from one file system to another. -/
def writeBack (before after : FileSystem) : IO Unit := do
  for (place, entry) in after.entries do
    let name := systemName (pathTo place)
    match entry with
    | .directory => if (before.entryAt? place).isNone then IO.FS.createDir name
    | .file number =>
      let old := contentAt? before place
      let new := after.content number
      if old != some new then writeChange name old new
    | .link _ => pure ()

def runHere (args : List Bytes) : IO UInt32 := do
  let w ← readWorld args
  let outcome := Program.run w args
  discard (attempt? (writeBack w.files outcome.files))
  (← IO.getStdout).putStr (String.ofList outcome.output)
  (← IO.getStderr).putStr (String.ofList outcome.errors)
  return UInt32.ofNat outcome.status

end Relocation.Machine

def main (args : List String) : IO UInt32 :=
  Relocation.Machine.runHere (args.map fun arg => Relocation.Utf8.encode arg.toList)

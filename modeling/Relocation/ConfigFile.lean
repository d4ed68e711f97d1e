import Relocation.Config
import Relocation.Environment
import Relocation.Files.Change
import Relocation.Toml.Complaint

/-!
# The configuration file

A configuration is loaded from a file that is named, or from the one at its usual place, which is made if nothing
is there. Without a home directory there is no usual place.
-/

namespace Relocation

/-- Why a configuration cannot be loaded. -/
inductive ConfigError where
  /-- There is no usual place, or a file or a directory cannot be made. -/
  | make (cause : FileError)
  /-- The file cannot be read. -/
  | read (path : NativePath) (cause : FileError)
  /-- The file does not describe a configuration; and what is said of its text. -/
  | parse (path : NativePath) (complaint : Text)
  deriving DecidableEq

namespace ConfigError

/-- What failed, in which file. -/
def message : ConfigError → Text
  | make cause => cause.message
  | read path cause => "read ".toList ++ path.display ++ ": ".toList ++ cause.message
  | parse path _ => "parse ".toList ++ path.display

/-- The message and all that is known of the cause. -/
def fullMessage : ConfigError → Text
  | parse path complaint => (parse path complaint).message ++ ": ".toList ++ complaint
  | e => e.message

end ConfigError

namespace Config

variable [Toml.Complaints]

/-- Loads a configuration from a file. A relative path is seen from the working directory. -/
def load (fs : FileSystem) (workDir path : NativePath) : Except ConfigError Config :=
  match fs.readText (workDir.join path) with
  | .error e => .error (.read path e)
  | .ok t =>
    match read? t with
    | some c => .ok c
    | none => .error (.parse path (Toml.Complaints.about t))

/-- Makes the directory of the usual configuration file. -/
def place (fs : FileSystem) (env : Environment) (workDir : NativePath) :
    FileSystem × Except ConfigError NativePath :=
  match env.refusal? with
  | some e => (fs, .error (.make e))
  | none =>
    match fs.makeDirectories (workDir.join env.configDirectory) with
    | (left, some e) => (left, .error (.make e))
    | (ready, none) => (ready, .ok env.configFile)

/-- A configuration, and the file that had to be made for it. -/
structure Loaded where
  config : Config
  created : Option NativePath

/-- Loads the configuration at its usual place; if nothing is there, a configuration that says nothing is put
there. -/
def loadOrCreate (fs : FileSystem) (env : Environment) (workDir : NativePath) :
    FileSystem × Except ConfigError Loaded :=
  match place fs env workDir with
  | (left, .error e) => (left, .error e)
  | (ready, .ok path) =>
    if ready.pathExists (workDir.join path) then (ready, (load ready workDir path).map fun c => ⟨c, none⟩)
    else
      match ready.writeFile (workDir.join path) (Utf8.encode (write default)) with
      | .error e => (ready, .error (.make e))
      | .ok written => (written, .ok ⟨default, some path⟩)

end Config

end Relocation

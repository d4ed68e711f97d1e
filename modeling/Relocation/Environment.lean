import Relocation.Files.Error
import Relocation.NativePath

/-!
# The environment of a program

Where a program keeps its settings and its state follows from the home directory of its user, unless a variable names
another place. A variable counts only if it holds an absolute path. Without a home directory no place is looked for,
not even one that a variable names.
-/

namespace Relocation

/-- What a program is told by its environment. -/
structure Environment where
  /-- The home directory, if any is known. -/
  home : Option NativePath
  configHome : Option NativePath
  stateHome : Option NativePath
  /-- What should be logged. -/
  logFilter : Option Bytes

namespace Environment

/-- The name of the directories a program keeps below the common ones. -/
def programName : String := "binreloc"

/-- A place below the home directory. -/
def belowHome (env : Environment) (below : String) : NativePath :=
  (env.home.getD ⟨[]⟩).child below

/-- A variable if it holds an absolute path, or else a place below the home directory. -/
def placeOr (env : Environment) (named : Option NativePath) (below : String) : NativePath :=
  match named with
  | some p => if p.isAbsolute then p else env.belowHome below
  | none => env.belowHome below

def configDirectory (env : Environment) : NativePath :=
  (env.placeOr env.configHome ".config").child programName

def stateDirectory (env : Environment) : NativePath :=
  (env.placeOr env.stateHome ".local/state").child programName

def configFile (env : Environment) : NativePath :=
  env.configDirectory.child "config.toml"

def logFile (env : Environment) : NativePath :=
  env.stateDirectory.child "binreloc.log"

/-- What is wrong if a place is looked for: that no home directory is known. -/
def refusal? (env : Environment) : Option FileError :=
  if env.home = none then some .homeless else none

/-- A variable without an absolute path is as good as none. -/
theorem placeOr_of_not_isAbsolute (env : Environment) (p : NativePath) (below : String)
    (h : p.isAbsolute = false) : env.placeOr (some p) below = env.placeOr none below := by
  simp [placeOr, h]

end Environment

end Relocation

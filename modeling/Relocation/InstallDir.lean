import Relocation.Text.Quoted

/-!
# The directories of an installation

Eight directories are known by name. Each has its place below the base of the installation.
-/

namespace Relocation

/-- A directory of an installation. -/
inductive InstallDir where
  /-- The base itself. -/
  | base
  | bin
  | sbin
  | data
  | locale
  | lib
  | libexec
  | etc
  deriving DecidableEq, Repr

namespace InstallDir

/-- All directories, in the order they are listed. -/
def all : List InstallDir :=
  [base, bin, sbin, data, locale, lib, libexec, etc]

def name : InstallDir → Text
  | base => "prefix".toList
  | bin => "bin".toList
  | sbin => "sbin".toList
  | data => "data".toList
  | locale => "locale".toList
  | lib => "lib".toList
  | libexec => "libexec".toList
  | etc => "etc".toList

def suffix : InstallDir → Text
  | base => []
  | bin => "bin".toList
  | sbin => "sbin".toList
  | data => "share".toList
  | locale => "share/locale".toList
  | lib => "lib".toList
  | libexec => "libexec".toList
  | etc => "etc".toList

/-- The position of a directory in the list of all. -/
def index (d : InstallDir) : Nat :=
  all.idxOf d

/-- The directory of a name, in any mixture of cases. -/
def ofName? (t : Text) : Option InstallDir :=
  all.find? fun d => d.name == lowerAscii t

/-- What is said of a name that is none of a directory. -/
def unknownMessage (t : Text) : Text :=
  "unknown directory ".toList ++ quoteText t
    ++ "; expected one of prefix, bin, sbin, data, locale, lib, libexec, etc".toList

theorem mem_all (d : InstallDir) : d ∈ all := by
  cases d <;> decide

theorem ofName?_name (d : InstallDir) : ofName? d.name = some d := by
  cases d <;> decide

theorem all_getElem?_index (d : InstallDir) : all[d.index]? = some d := by
  cases d <;> decide

end InstallDir

end Relocation

import Relocation.Assoc
import Relocation.InstallDir
import Relocation.Provider
import Relocation.Relocate

/-!
# Where a program's directories are

Each question asks the provider for the origin anew and derives the place from it; without an origin there is no
place. A place missing as a native path may be replaced by a default, or by a fallback chosen for its directory.
-/

namespace Relocation

/-! ### Fallbacks -/

/-- A path for each directory that has one. -/
abbrev FallbackTable := InstallDir → Option NativePath

/-- The fallbacks of a configuration. -/
structure Fallbacks where
  base : Option NativePath := none
  bin : Option NativePath := none
  sbin : Option NativePath := none
  data : Option NativePath := none
  locale : Option NativePath := none
  lib : Option NativePath := none
  libexec : Option NativePath := none
  etc : Option NativePath := none
  deriving DecidableEq

namespace Fallbacks

def get (f : Fallbacks) : FallbackTable
  | .base => f.base
  | .bin => f.bin
  | .sbin => f.sbin
  | .data => f.data
  | .locale => f.locale
  | .lib => f.lib
  | .libexec => f.libexec
  | .etc => f.etc

/-- The keys under which the fields are kept, in their order. -/
def keys : List Text :=
  ["prefix".toList, "bin".toList, "sbin".toList, "data".toList, "locale".toList, "lib".toList, "libexec".toList,
    "etc".toList]

/-- The fields in their order. -/
def fields (f : Fallbacks) : List (Option NativePath) :=
  [f.base, f.bin, f.sbin, f.data, f.locale, f.lib, f.libexec, f.etc]

def ofFields? : List (Option NativePath) → Option Fallbacks
  | [base, bin, sbin, data, locale, lib, libexec, etc] => some ⟨base, bin, sbin, data, locale, lib, libexec, etc⟩
  | _ => none

/-- The keys are the names of the directories. -/
theorem keys_eq : keys = InstallDir.all.map InstallDir.name := rfl

theorem fields_eq (f : Fallbacks) : f.fields = InstallDir.all.map f.get := rfl

/-- What is got for a directory is the field whose key is its name. -/
theorem valueOf?_name (f : Fallbacks) (d : InstallDir) : valueOf? d.name (keys.zip f.fields) = some (f.get d) := by
  cases d <;> rfl

theorem ofFields?_fields (f : Fallbacks) : ofFields? f.fields = some f := rfl

theorem fields_of_ofFields? {values : List (Option NativePath)} {f : Fallbacks} (h : ofFields? values = some f) :
    f.fields = values := by
  unfold ofFields? at h
  split at h
  · cases h
    rfl
  · cases h

theorem get_mem_fields (f : Fallbacks) (d : InstallDir) : f.get d ∈ f.fields :=
  f.fields_eq ▸ List.mem_map_of_mem (InstallDir.mem_all d)

end Fallbacks

/-! ### Locations -/

/-- A machine and who tells the origin on it. -/
structure Locator where
  machine : Machine
  provider : Provider

namespace Locator

def origin? (l : Locator) : Option Origin :=
  l.machine.origin? l.provider

def startupUrl? (l : Locator) : Option Url :=
  l.origin?.bind startup?

/-- The directory the program was started from, as a native path. -/
def startupFile? (l : Locator) : Option NativePath :=
  l.origin?.bind Relocation.startupFile?

def dirUrl? (l : Locator) (d : InstallDir) : Option Url :=
  l.origin?.bind fun o => subpath? o d.suffix

/-- A directory of the installation, as a native path. -/
def dirFile? (l : Locator) (d : InstallDir) : Option NativePath :=
  l.origin?.bind fun o => subpathFile? o d.suffix

/-- A directory of the installation, or a default. -/
def dirFileOr (l : Locator) (d : InstallDir) (default : NativePath) : NativePath :=
  (l.dirFile? d).getD default

/-- A directory of the installation, or the fallback for it. -/
def dirFileWith? (l : Locator) (d : InstallDir) (fallbacks : FallbackTable) : Option NativePath :=
  (l.dirFile? d).or (fallbacks d)

theorem dirUrl?_isSome_of_dirFile? (l : Locator) (d : InstallDir) (h : (l.dirFile? d).isSome) :
    (l.dirUrl? d).isSome := by
  unfold dirFile? at h
  unfold dirUrl?
  cases ho : l.origin? with
  | none => simp [ho] at h
  | some o =>
    simp only [ho, Option.bind_some, subpathFile?] at h ⊢
    cases hs : subpath? o d.suffix with
    | none => simp [hs] at h
    | some u => rfl

end Locator

end Relocation

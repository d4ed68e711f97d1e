import Relocation.CommandLine.Usage
import Relocation.Config
import Relocation.Log.Event

/-!
# What a question leaves in the log

Each part of the program reports what it does as events. They follow from the same machine and the same question
as the answer does, so the answers are stated without them and the events are listed here.
-/

namespace Relocation

open Log

namespace Trace

/-! ### Origins -/

/-- The link to the program is of no use. -/
def linkUnusable (e : LocateError) : Event :=
  ⟨.debug, "binreloc_core::origin::exe".toList, "/proc/self/exe unusable, trying /proc/self/maps".toList,
    [("error".toList, e.message)]⟩

def programFound (p : NativePath) : Event :=
  ⟨.trace, "binreloc_core::origin::exe".toList, "located executable".toList, [("path".toList, p.display)]⟩

/-- The file that holds the code at an address has been found. -/
def moduleFound (address : Nat) (p : NativePath) : Event :=
  ⟨.trace, "binreloc_core::origin::module".toList, "located module".toList,
    [("address".toList, decimal address), ("path".toList, quoteText p.display)]⟩

def originUnavailable (e : LocateError) : Event :=
  ⟨.debug, "binreloc_core::origin".toList, "origin unavailable".toList, [("error".toList, e.message)]⟩

def onOk {ε α : Type} (event : α → Event) : Except ε α → List Event
  | .ok a => [event a]
  | .error _ => []

def onError {ε α : Type} (event : ε → Event) : Except ε α → List Event
  | .ok _ => []
  | .error e => [event e]

/-- What happens while a provider tells the origin. -/
def ofLocate (m : Machine) : Provider → List Event
  | .fixed _ => []
  | .none => []
  | .executable =>
    onError linkUnusable (m.process.programByLink m.files) ++ onOk programFound (m.process.program m.files)
  | .moduleAt address => onOk (moduleFound address) (m.process.moduleAt address)

/-- What happens while an origin is asked for that may be missing. -/
def ofOrigin (l : Locator) : List Event :=
  ofLocate l.machine l.provider ++ onError originUnavailable (l.machine.locate l.provider)

/-! ### Locations -/

/-- A location has been derived. -/
def rebuilt (u : Url) : Event :=
  ⟨.trace, "binreloc_core::reloc".toList, "rebuilt location".toList, [("url".toList, u.text)]⟩

/-- What happens while the startup directory is asked for, in either form. -/
def ofStartup (l : Locator) : List Event :=
  ofOrigin l ++ l.startupUrl?.toList.map rebuilt

/-- What happens while a directory is asked for, in either form. -/
def ofDirectory (l : Locator) (d : InstallDir) : List Event :=
  ofOrigin l ++ (l.dirUrl? d).toList.map rebuilt

/-- What happens while all rows of the table are asked for, each in both forms. -/
def ofTable (l : Locator) : List Event :=
  ofOrigin l ++ ofStartup l ++ ofStartup l
    ++ InstallDir.all.flatMap fun d => ofDirectory l d ++ ofDirectory l d

def ofCommand (l : Locator) : Command → List Event
  | .list => ofTable l
  | .directory d _ => ofDirectory l d
  | .origin => ofLocate l.machine l.provider

/-! ### The program -/

def logOpened (p : NativePath) : Event :=
  ⟨.info, "binreloc_core::logging".toList, "binreloc logging initialized at ".toList ++ p.display, []⟩

def logRefused (e : FileError) : Event :=
  ⟨.warn, "binreloc".toList, "file logging unavailable: ".toList ++ e.message, []⟩

def configCreated (p : NativePath) : Event :=
  ⟨.info, "binreloc_core::config".toList, "created default config at ".toList ++ p.display, []⟩

def writeOption (value : Option Text) : Text :=
  value.elim "None".toList fun t => "Some(".toList ++ t ++ ")".toList

/-- A field, which may be missing, behind its key. -/
def writeField (field : Text × Option NativePath) : Text :=
  field.1 ++ ": ".toList ++ writeOption (field.2.map fun p => quoteBytes p.bytes)

/-- The fields with a comma and a blank between neighbours. -/
def writeFields : List (Text × Option NativePath) → Text
  | [] => []
  | [field] => writeField field
  | field :: rest => writeField field ++ ", ".toList ++ writeFields rest

def configLoaded (c : Config) : Event :=
  ⟨.debug, "binreloc::cli".toList,
    "loaded config: RelocConfig \x7b origin: ".toList ++ writeOption (c.origin.map quoteText)
      ++ ", fallbacks: Fallbacks \x7b ".toList ++ writeFields (Fallbacks.keys.zip c.fallbacks.fields)
      ++ " \x7d \x7d".toList,
    []⟩

/-- What happens until a configuration is in force, for which a file may have been made. -/
def ofConfig (created : Option NativePath) (c : Config) : List Event :=
  created.toList.map configCreated ++ [configLoaded c]

end Trace

end Relocation
